import Mk1.Library.Consecutive
import Mk1.Primitives.Batch

/-!
# Soft blocks

An `AnchoredBlock` is an L2 block with the L1 header that it is anchored to.
`ContiguousAnchoredBlocks` holds them in increasing block order without gaps;
the order is a field of the structure, and `ContiguousAnchoredBlocks.new` is
the checked constructor of `taiko/block.rs`.
-/

namespace Mk1

/-- An L2 block that has been anchored to an L1 block. -/
structure AnchoredBlock where
  block : Block
  anchor : Header
  deriving DecidableEq, Repr

namespace AnchoredBlock

/-- The number of the L2 block. -/
def number (anchored : AnchoredBlock) : Nat := anchored.block.header.number

/-- The timestamp of the L2 block. -/
def timestamp (anchored : AnchoredBlock) : Nat := anchored.block.header.timestamp

/-- The block number of the anchor block. -/
def anchorId (anchored : AnchoredBlock) : Nat := anchored.anchor.number

/-- `AnchoredBlock::into_preconfirmed`. -/
def intoPreconfirmed (anchored : AnchoredBlock) : PreconfirmedBlock :=
  .fromBlock anchored.block

@[simp] theorem number_intoPreconfirmed (anchored : AnchoredBlock) :
    anchored.intoPreconfirmed.number = anchored.number := rfl

@[simp] theorem timestamp_intoPreconfirmed (anchored : AnchoredBlock) :
    anchored.intoPreconfirmed.timestamp = anchored.timestamp := rfl

end AnchoredBlock

/-- A gap in the block numbers of a list of anchored blocks. -/
structure GapError where
  expected : Nat
  got : Nat
  deriving DecidableEq, Repr

/-- Anchored blocks in increasing block order, without a gap between consecutive numbers. -/
structure ContiguousAnchoredBlocks where
  blocks : List AnchoredBlock
  contiguous : blocks.IsChain fun first second => second.number = first.number + 1

/-- The gap check of `ContiguousAnchoredBlocks::new`, from the number expected next. -/
def checkGaps (expected : Nat) : List AnchoredBlock → Except GapError Unit
  | [] => .ok ()
  | anchored :: rest =>
      if anchored.number ≠ expected then .error ⟨expected, anchored.number⟩
      else checkGaps (expected + 1) rest

/-- Blocks that pass the gap check are numbered consecutively from the expected number. -/
theorem contiguous_of_checkGaps {expected : Nat} {blocks : List AnchoredBlock}
    (h : checkGaps expected blocks = .ok ()) :
    (∀ first ∈ blocks.head?, first.number = expected) ∧
      blocks.IsChain fun first second => second.number = first.number + 1 := by
  induction blocks generalizing expected with
  | nil => exact ⟨by simp, .nil⟩
  | cons anchored rest ih =>
      simp only [checkGaps] at h
      split at h
      · cases h
      · next hnumber =>
          have hnumber : anchored.number = expected := not_not.mp hnumber
          obtain ⟨hhead, hrest⟩ := ih h
          refine ⟨by simpa using hnumber, List.isChain_cons.mpr ⟨?_, hrest⟩⟩
          intro following hfollowing
          rw [hhead following hfollowing, hnumber]

/-- Blocks pass the gap check exactly if they are numbered from the expected number on. -/
theorem checkGaps_eq_ok {expected : Nat} {blocks : List AnchoredBlock} :
    checkGaps expected blocks = .ok () ↔
      blocks.map AnchoredBlock.number = List.range' expected blocks.length := by
  induction blocks generalizing expected with
  | nil => simp [checkGaps]
  | cons anchored rest ih =>
      rw [checkGaps, List.map_cons, List.length_cons, List.range'_succ, List.cons.injEq]
      by_cases hnumber : anchored.number = expected
      · rw [if_neg (not_not_intro hnumber), ih]
        exact ⟨fun h => ⟨hnumber, h⟩, And.right⟩
      · rw [if_pos hnumber]
        constructor
        · intro h
          cases h
        · exact fun h => absurd h.1 hnumber

namespace ContiguousAnchoredBlocks

/-- Sort the blocks by number and check that they leave no gap. -/
def new (blocks : List AnchoredBlock) : Except GapError ContiguousAnchoredBlocks :=
  let sorted := sortByKey AnchoredBlock.number blocks
  match sorted.head? with
  | none => .ok ⟨[], .nil⟩
  | some first =>
      match h : checkGaps first.number sorted with
      | .error gap => .error gap
      | .ok () => .ok ⟨sorted, (contiguous_of_checkGaps h).2⟩

/-- No blocks. -/
def empty : ContiguousAnchoredBlocks := ⟨[], .nil⟩

/-- Drop the anchors. -/
def intoPreconfirmed (soft : ContiguousAnchoredBlocks) : List PreconfirmedBlock :=
  soft.blocks.map AnchoredBlock.intoPreconfirmed

/-- The greater of two anchored blocks by their anchor ids, and the second if they are equal. -/
def higherAnchor (highest : Option AnchoredBlock) (anchored : AnchoredBlock) :
    Option AnchoredBlock :=
  match highest with
  | none => some anchored
  | some previous =>
      if previous.anchorId ≤ anchored.anchorId then some anchored else some previous

/-- `Iterator::max_by_key` on anchored blocks and their anchor ids: the last of the greatest. -/
def maxByAnchorId (blocks : List AnchoredBlock) : Option AnchoredBlock :=
  blocks.foldl higherAnchor none

/-- The last blocks with the highest anchor, as a batch to build on. -/
def intoOutstanding (soft : ContiguousAnchoredBlocks) (safeAnchor : Header)
    (settings : BatchSettings) : Batch :=
  let highestAnchorBlock := ((maxByAnchorId soft.blocks).map AnchoredBlock.anchor).getD safeAnchor
  let outstanding := soft.blocks.filter fun anchored =>
    anchored.anchorId = highestAnchorBlock.number
  let blocks := (outstanding.drop (outstanding.length - settings.capacity)).map
    AnchoredBlock.intoPreconfirmed
  .fromBlocksUnchecked highestAnchorBlock settings blocks

/-- The base fee of each block that has one. -/
def basefeeMap (soft : ContiguousAnchoredBlocks) : List (Nat × Nat) :=
  soft.blocks.filterMap fun anchored =>
    anchored.block.header.baseFeePerGas.map fun basefee => (anchored.number, basefee)

/-- The block numbers increase strictly. -/
theorem numbers_increase (soft : ContiguousAnchoredBlocks) :
    soft.blocks.Pairwise fun first second => first.number < second.number :=
  Consecutive.pairwise_lt soft.contiguous

/-- Soft blocks with equal numbers are equal. -/
theorem eq_of_number_eq (soft : ContiguousAnchoredBlocks)
    {first second : AnchoredBlock} (hfirst : first ∈ soft.blocks) (hsecond : second ∈ soft.blocks)
    (h : first.number = second.number) : first = second :=
  Consecutive.eq_of_number_eq soft.contiguous hfirst hsecond h

/-- The greater block is the new one or the one before. -/
theorem higherAnchor_cases (highest : Option AnchoredBlock) (anchored : AnchoredBlock) :
    higherAnchor highest anchored = some anchored ∨
      (higherAnchor highest anchored = highest ∧ highest ≠ none) := by
  unfold higherAnchor
  split
  · exact .inl rfl
  · split
    · exact .inl rfl
    · exact .inr ⟨rfl, by simp⟩

/-- Keeping the greater block starts from a block or meets one. -/
theorem foldl_higherAnchor {blocks : List AnchoredBlock} {start : Option AnchoredBlock}
    (h : start ≠ none ∨ blocks ≠ []) :
    ∃ highest, blocks.foldl higherAnchor start = some highest ∧
      (highest ∈ blocks ∨ start = some highest) := by
  induction blocks generalizing start with
  | nil =>
      obtain ⟨highest, hstart⟩ := Option.ne_none_iff_exists'.mp (h.resolve_right (by simp))
      exact ⟨highest, hstart, .inr hstart⟩
  | cons anchored rest ih =>
      have hnext : higherAnchor start anchored ≠ none := by
        obtain heq | ⟨heq, hne⟩ := higherAnchor_cases start anchored
        · simp [heq]
        · rwa [heq]
      obtain ⟨highest, hhighest, hmem⟩ := ih (.inl hnext)
      refine ⟨highest, hhighest, ?_⟩
      rcases hmem with hmem | hstart
      · exact .inl (List.mem_cons_of_mem _ hmem)
      · obtain heq | ⟨heq, -⟩ := higherAnchor_cases start anchored
        · rw [heq] at hstart
          cases hstart
          exact .inl List.mem_cons_self
        · exact .inr (heq.symm.trans hstart)

/-- Among some blocks there is one with the highest anchor. -/
theorem maxByAnchorId_mem {blocks : List AnchoredBlock} (h : blocks ≠ []) :
    ∃ highest ∈ blocks, maxByAnchorId blocks = some highest := by
  obtain ⟨highest, hhighest, hmem | hnone⟩ := foldl_higherAnchor (.inr h : none ≠ none ∨ _)
  · exact ⟨highest, hmem, hhighest⟩
  · cases hnone

/-- Blocks numbered without a gap, in any order, are sorted into this numbering. -/
theorem map_number_sortByKey {blocks : List AnchoredBlock} {first : Nat}
    (h : (blocks.map AnchoredBlock.number).Perm (List.range' first blocks.length)) :
    (sortByKey AnchoredBlock.number blocks).map AnchoredBlock.number =
      List.range' first blocks.length := by
  have hperm := ((List.perm_insertionSort (fun (first second : AnchoredBlock) =>
    first.number ≤ second.number) blocks).map AnchoredBlock.number).trans h
  have hsorted := List.pairwise_insertionSort (fun (first second : AnchoredBlock) =>
    first.number ≤ second.number) blocks
  have hpairwise : ((sortByKey AnchoredBlock.number blocks).map AnchoredBlock.number).Pairwise
      (· ≤ ·) := List.pairwise_map.mpr hsorted
  exact hperm.eq_of_pairwise (fun _ _ _ _ => Nat.le_antisymm) hpairwise List.pairwise_le_range'

/-- The checked constructor accepts the blocks that are numbered without a gap, in any order, and
sorts them. -/
theorem new_eq_ok {blocks : List AnchoredBlock} {soft : ContiguousAnchoredBlocks} :
    ContiguousAnchoredBlocks.new blocks = .ok soft ↔
      soft.blocks = sortByKey AnchoredBlock.number blocks ∧
      ∃ first, (blocks.map AnchoredBlock.number).Perm (List.range' first blocks.length) := by
  have hperm := List.perm_insertionSort (fun (first second : AnchoredBlock) =>
    first.number ≤ second.number) blocks
  constructor
  · intro h
    unfold new at h
    dsimp only at h
    split at h
    · next hnone =>
        cases h
        have hsorted := List.head?_eq_none_iff.mp hnone
        unfold sortByKey at hsorted
        rw [hsorted] at hperm
        rw [List.nil_perm.mp hperm]
        exact ⟨rfl, 0, List.Perm.refl _⟩
    · next first _ =>
        split at h
        · cases h
        · next hgaps =>
            cases h
            have hnumbers := checkGaps_eq_ok.mp hgaps
            refine ⟨rfl, first.number, ?_⟩
            rw [← hperm.length_eq]
            exact (hperm.map AnchoredBlock.number).symm.trans (List.Perm.of_eq hnumbers)
  · rintro ⟨hblocks, first, hrange⟩
    have hnumbers := map_number_sortByKey hrange
    have hlength : (sortByKey AnchoredBlock.number blocks).length = blocks.length :=
      hperm.length_eq
    obtain ⟨sorted, hcontiguous⟩ := soft
    dsimp only at hblocks
    subst hblocks
    unfold new
    dsimp only
    split
    · next hnone =>
        have hsorted := List.head?_eq_none_iff.mp hnone
        simp [hsorted]
    · next head hhead =>
        have hfirst : head.number = first := by
          have hheads := congrArg List.head? hnumbers
          rw [List.head?_map, hhead, List.head?_range'] at hheads
          split at hheads
          · cases hheads
          · exact Option.some.inj hheads
        have hgaps : checkGaps head.number (sortByKey AnchoredBlock.number blocks) = .ok () := by
          rw [checkGaps_eq_ok, hfirst, hlength, hnumbers]
        split
        · next gap herror =>
            rw [hgaps] at herror
            cases herror
        · rfl

/-- The accepted blocks are the ones that were given. -/
theorem perm_of_new {blocks : List AnchoredBlock} {soft : ContiguousAnchoredBlocks}
    (h : ContiguousAnchoredBlocks.new blocks = .ok soft) : soft.blocks.Perm blocks := by
  rw [(new_eq_ok.mp h).1]
  exact List.perm_insertionSort _ _

/-- Blocks that are numbered without a gap are accepted. -/
theorem exists_new_eq_ok {blocks : List AnchoredBlock} {first : Nat}
    (h : (blocks.map AnchoredBlock.number).Perm (List.range' first blocks.length)) :
    ∃ soft, ContiguousAnchoredBlocks.new blocks = .ok soft := by
  have hlength : (sortByKey AnchoredBlock.number blocks).length = blocks.length :=
    (List.perm_insertionSort _ blocks).length_eq
  have hgaps : checkGaps first (sortByKey AnchoredBlock.number blocks) = .ok () := by
    rw [checkGaps_eq_ok, hlength]
    exact map_number_sortByKey h
  exact ⟨⟨_, (contiguous_of_checkGaps hgaps).2⟩, new_eq_ok.mpr ⟨rfl, first, h⟩⟩

end ContiguousAnchoredBlocks

/-! ## A small instance -/

/-- An L1 header of which only the number matters. -/
def l1Header (number : Nat) : Header :=
  { number := number, timestamp := 0, hash := 0, beneficiary := 0, baseFeePerGas := none }

/-- A soft block without transactions, anchored to L1 block 10. -/
def softBlock (number timestamp : Nat) : AnchoredBlock :=
  { block :=
      { header :=
          { number := number, timestamp := timestamp, hash := 0, beneficiary := 0,
            baseFeePerGas := none }
        transactions := [] }
    anchor := l1Header 10 }

/-- Two soft blocks on the same anchor, this many seconds apart. -/
def twoSoftBlocks (gap : Nat) : ContiguousAnchoredBlocks :=
  ⟨[softBlock 1 100, softBlock 2 (100 + gap)], by simp [softBlock, AnchoredBlock.number]⟩

end Mk1
