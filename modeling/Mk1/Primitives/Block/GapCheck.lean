import Mk1.Library.IntervalList
import Mk1.Primitives.Block

/-!
# The gap check

`ContiguousAnchoredBlocks.new` accepts exactly the lists whose block numbers are those of an
interval, in any order, and names the first gap of any other list (`new_exact`). The source adds
positions to the first number in `u64`; `newU64` does it with overflow checks, and agrees with `new`
as long as the numbers leave room for the length of the list.
-/

namespace Mk1

open IntervalList

/-- `u64` addition. -/
def addU64 (left right : Nat) : Except Panic Nat :=
  if left + right ≤ u64Max then .ok (left + right) else .error ⟨"attempt to add with overflow"⟩

/-- The gap check from a position on, which is added to the first number in `u64`. -/
def checkGapsU64 (first position : Nat) :
    List AnchoredBlock → Except Panic (Except GapError Unit)
  | [] => .ok (.ok ())
  | anchored :: rest => do
      let got := anchored.number
      let expected ← addU64 first position
      if got ≠ expected then .ok (.error ⟨expected, got⟩)
      else checkGapsU64 first (position + 1) rest

/-- The checks agree as long as the positions leave room. -/
theorem checkGapsU64_eq {first : Nat} {blocks : List AnchoredBlock} {position : Nat}
    (hroom : first + position + blocks.length ≤ 2 ^ 64) :
    checkGapsU64 first position blocks = .ok (checkGaps (first + position) blocks) := by
  induction blocks generalizing position with
  | nil => rfl
  | cons anchored rest ih =>
      rw [List.length_cons] at hroom
      have hfits : addU64 first position = .ok (first + position) := by
        unfold addU64 u64Max
        rw [if_pos (by omega)]
      unfold checkGapsU64 checkGaps
      rw [hfits]
      by_cases hnumber : anchored.number = first + position
      · simp only [bind, Except.bind, hnumber, ne_eq, not_true_eq_false, if_false]
        exact ih (by omega)
      · simp only [bind, Except.bind, ne_eq, hnumber, not_false_eq_true, if_true]

/-- The gap check fails at the first block whose number is not the expected one. -/
theorem checkGaps_eq_error {expected : Nat} {blocks : List AnchoredBlock} {gap : GapError} :
    checkGaps expected blocks = .error gap ↔
      ∃ position, gap.expected = expected + position ∧
        FirstMismatch expected (blocks.map AnchoredBlock.number) position gap.got := by
  induction blocks generalizing expected with
  | nil =>
      constructor
      · intro h
        cases h
      · rintro ⟨position, -, h⟩
        exact absurd h not_firstMismatch_nil
  | cons anchored rest ih =>
      rw [checkGaps, List.map_cons]
      by_cases hnumber : anchored.number = expected
      · rw [if_neg (not_not_intro hnumber), ih]
        constructor
        · rintro ⟨position, hexpected, h⟩
          exact ⟨position + 1, by omega, firstMismatch_succ.mpr ⟨hnumber, h⟩⟩
        · rintro ⟨position, hexpected, h⟩
          cases position with
          | zero =>
              obtain ⟨hgot, hdiffers⟩ := firstMismatch_zero.mp h
              exact absurd (hgot.symm.trans hnumber) hdiffers
          | succ position =>
              exact ⟨position, by omega, (firstMismatch_succ.mp h).2⟩
      · rw [if_pos hnumber]
        constructor
        · intro h
          cases h
          exact ⟨0, rfl, firstMismatch_zero.mpr ⟨rfl, hnumber⟩⟩
        · rintro ⟨position, hexpected, h⟩
          cases position with
          | zero =>
              obtain ⟨hgot, -⟩ := firstMismatch_zero.mp h
              obtain ⟨value, got⟩ := gap
              obtain rfl : value = expected := hexpected
              obtain rfl : anchored.number = got := hgot
              rfl
          | succ position => exact absurd (firstMismatch_succ.mp h).1 hnumber

namespace ContiguousAnchoredBlocks

/-- `ContiguousAnchoredBlocks::new` with the arithmetic of `u64`. -/
def newU64 (blocks : List AnchoredBlock) : Except Panic (Except GapError (List AnchoredBlock)) :=
  let blocks := sortByKey AnchoredBlock.number blocks
  match blocks.head?.map AnchoredBlock.number with
  | none => .ok (.ok blocks)
  | some firstBn => do
      let checked ← checkGapsU64 firstBn 0 blocks
      .ok (checked.map fun _ => blocks)

/-- The numbers of the blocks in increasing order. -/
def sortedNumbers (blocks : List AnchoredBlock) : List Nat :=
  (blocks.map AnchoredBlock.number).insertionSort (· ≤ ·)

/-- Sorting the blocks sorts their numbers. -/
theorem map_number_sortByKey_eq (blocks : List AnchoredBlock) :
    (sortByKey AnchoredBlock.number blocks).map AnchoredBlock.number = sortedNumbers blocks :=
  List.map_insertionSort _ _ _ _ fun _ _ _ _ => Iff.rfl

variable {blocks : List AnchoredBlock}

/-- The sorted blocks are the given ones. -/
theorem sortByKey_perm (blocks : List AnchoredBlock) :
    (sortByKey AnchoredBlock.number blocks).Perm blocks :=
  List.perm_insertionSort _ _

/-- The constructor fails exactly if the gap check from the first of the sorted blocks does. -/
theorem new_eq_error {gap : GapError} :
    new blocks = .error gap ↔
      ∃ first, (sortByKey AnchoredBlock.number blocks).head? = some first ∧
        checkGaps first.number (sortByKey AnchoredBlock.number blocks) = .error gap := by
  unfold new
  dsimp only
  split
  · next hnone => simp [hnone]
  · next first hfirst =>
      rw [hfirst]
      constructor
      · intro h
        split at h
        · next failed hfailed =>
            cases h
            exact ⟨first, rfl, hfailed⟩
        · cases h
      · rintro ⟨_, hsame, hgaps⟩
        cases hsame
        split
        · next failed hfailed =>
            cases hfailed.symm.trans hgaps
            rfl
        · next hpassed =>
            rw [hpassed] at hgaps
            cases hgaps

/-- If the constructor accepts the blocks, the gap check from the first sorted one passes. -/
theorem checkGaps_of_new {soft : ContiguousAnchoredBlocks} (h : new blocks = .ok soft)
    {first : AnchoredBlock} (hfirst : (sortByKey AnchoredBlock.number blocks).head? = some first) :
    checkGaps first.number (sortByKey AnchoredBlock.number blocks) = .ok () := by
  cases hgaps : checkGaps first.number (sortByKey AnchoredBlock.number blocks) with
  | ok done => rfl
  | error gap =>
      rw [new_eq_error.mpr ⟨first, hfirst, hgaps⟩] at h
      cases h

/-- With room for the length of the list, no addition overflows. -/
theorem newU64_eq (hnumbers : ∀ anchored ∈ blocks, anchored.number < 2 ^ 64 - blocks.length) :
    newU64 blocks = .ok ((new blocks).map ContiguousAnchoredBlocks.blocks) := by
  have hperm := sortByKey_perm blocks
  unfold newU64
  dsimp only
  cases hfirst : (sortByKey AnchoredBlock.number blocks).head? with
  | none =>
      have hsorted := List.head?_eq_none_iff.mp hfirst
      rw [hsorted] at hperm
      obtain rfl := List.nil_perm.mp hperm
      rfl
  | some first =>
      have hmem : first ∈ blocks := hperm.mem_iff.mp (List.mem_of_mem_head? hfirst)
      have hroom : first.number + 0 + (sortByKey AnchoredBlock.number blocks).length ≤ 2 ^ 64 := by
        have hlt := hnumbers first hmem
        rw [hperm.length_eq]
        omega
      rw [Option.map_some]
      dsimp only
      rw [checkGapsU64_eq hroom, Nat.add_zero]
      cases hnew : new blocks with
      | ok soft =>
          rw [checkGaps_of_new hnew hfirst, ← (new_eq_ok.mp hnew).1]
          rfl
      | error gap =>
          obtain ⟨_, hsame, hgaps⟩ := new_eq_error.mp hnew
          cases hfirst.symm.trans hsame
          rw [hgaps]
          rfl

/-- The blocks that are accepted are the given ones in the order of their numbers. -/
theorem eq_blocks_iff {soft : ContiguousAnchoredBlocks} (h : new blocks = .ok soft)
    (list : List AnchoredBlock) :
    list = soft.blocks ↔
      list.Perm blocks ∧ list.Pairwise fun first second => first.number ≤ second.number := by
  have hperm := perm_of_new h
  have hincrease := soft.numbers_increase
  constructor
  · rintro rfl
    exact ⟨hperm, hincrease.imp fun hlt => hlt.le⟩
  · rintro ⟨hlist, hsorted⟩
    refine (hlist.trans hperm.symm).eq_of_pairwise ?_ hsorted (hincrease.imp fun hlt => hlt.le)
    intro first second hfirst hsecond hle hge
    -- accepted blocks with one number are the same
    have hmem : first ∈ soft.blocks := (hlist.trans hperm.symm).mem_iff.mp hfirst
    exact soft.eq_of_number_eq hmem hsecond (Nat.le_antisymm hle hge)

/-- The error names the first position of the sorted numbers at which they differ from those
counted up from the least one. -/
theorem new_eq_error_iff {gap : GapError} :
    new blocks = .error gap ↔
      ∃ least position, IsLeast {number | number ∈ blocks.map AnchoredBlock.number} least ∧
        gap.expected = least + position ∧
        FirstMismatch least (sortedNumbers blocks) position gap.got := by
  have hmem : ∀ number, number ∈ sortedNumbers blocks ↔ number ∈ blocks.map AnchoredBlock.number :=
    fun number => (List.perm_insertionSort _ _).mem_iff
  have hsorted : (sortedNumbers blocks).Pairwise (· ≤ ·) := List.pairwise_insertionSort _ _
  have hhead : ∀ first, (sortByKey AnchoredBlock.number blocks).head? = some first →
      IsLeast {number | number ∈ blocks.map AnchoredBlock.number} first.number := by
    intro first hfirst
    obtain ⟨rest, hblocks⟩ := List.head?_eq_some_iff.mp hfirst
    have hnumbers := map_number_sortByKey_eq blocks
    rw [hblocks, List.map_cons] at hnumbers
    rw [← hnumbers] at hsorted
    have hleast := isLeast_of_sorted hsorted
    rw [hnumbers] at hleast
    simpa only [hmem] using hleast
  rw [new_eq_error]
  simp only [checkGaps_eq_error, map_number_sortByKey_eq]
  constructor
  · rintro ⟨first, hfirst, position, hexpected, hmismatch⟩
    exact ⟨first.number, position, hhead first hfirst, hexpected, hmismatch⟩
  · rintro ⟨least, position, hleast, hexpected, hmismatch⟩
    cases hfirst : (sortByKey AnchoredBlock.number blocks).head? with
    | none =>
        have hblocks := List.head?_eq_none_iff.mp hfirst
        have hnumbers := map_number_sortByKey_eq blocks
        rw [hblocks, List.map_nil] at hnumbers
        rw [← hnumbers] at hmismatch
        exact absurd hmismatch not_firstMismatch_nil
    | some first =>
        obtain rfl := (hhead first hfirst).unique hleast
        exact ⟨first, rfl, position, hexpected, hmismatch⟩

/-- The constructor accepts the blocks whose numbers are distinct and those of an interval, and
sorts them by number. For any other list it returns the first position at which the sorted numbers
leave the interval. No addition overflows as long as the numbers leave room for the length of the
list. -/
theorem new_exact (hnumbers : ∀ anchored ∈ blocks, anchored.number < 2 ^ 64 - blocks.length) :
    newU64 blocks = .ok ((new blocks).map ContiguousAnchoredBlocks.blocks) ∧
      ((∃ soft, new blocks = .ok soft) ↔
        (blocks.map AnchoredBlock.number).Nodup ∧
          Set.OrdConnected {number | number ∈ blocks.map AnchoredBlock.number}) ∧
      (∀ soft, new blocks = .ok soft → ∀ list, list = soft.blocks ↔
        list.Perm blocks ∧ list.Pairwise fun first second => first.number ≤ second.number) ∧
      (∀ gap, new blocks = .error gap ↔
        ∃ least position, IsLeast {number | number ∈ blocks.map AnchoredBlock.number} least ∧
          gap.expected = least + position ∧
          FirstMismatch least (sortedNumbers blocks) position gap.got) ∧
      newU64 [] = .ok (.ok []) := by
  refine ⟨newU64_eq hnumbers, ?_, fun soft hsoft list => eq_blocks_iff hsoft list,
    fun gap => new_eq_error_iff, rfl⟩
  rw [← perm_range'_iff, List.length_map]
  constructor
  · rintro ⟨soft, hsoft⟩
    exact (new_eq_ok.mp hsoft).2
  · rintro ⟨first, hperm⟩
    exact exists_new_eq_ok hperm

/-- Block 4 comes where block 2 is expected. -/
theorem new_exact_without_block_2 :
    new [softBlock 4 100, softBlock 1 94] = .error ⟨2, 4⟩ := by
  have hleast : IsLeast {number | number ∈
      [softBlock 4 100, softBlock 1 94].map AnchoredBlock.number} 1 := by
    simp [IsLeast, lowerBounds, softBlock, AnchoredBlock.number]
  have hmismatch : FirstMismatch 1 (sortedNumbers [softBlock 4 100, softBlock 1 94]) 1 4 :=
    ⟨rfl, by decide, by decide⟩
  exact ((new_exact (by decide)).2.2.2.1 ⟨2, 4⟩).mpr ⟨1, 1, hleast, rfl, hmismatch⟩

end ContiguousAnchoredBlocks

end Mk1
