import Mk1.Library.Consecutive
import Mk1.Primitives.BatchMap.Conservation

/-!
# Contiguity of batches made from soft blocks

The pipeline groups soft blocks by anchor, so what it outputs is numbered
consecutively only if the anchors never decrease along the chain, or if all
blocks are re-anchored. `intoOutstanding` keeps the last blocks on the highest
anchor, which are consecutive and end at the last soft block only if no block
with a lower anchor comes after one of them. `contiguous_iff` puts the two
together.
-/

namespace Mk1

/-- Each batch is numbered consecutively, and so are all batches one after the other. -/
structure ContiguousBatches (batches : List Batch) : Prop where
  within : ∀ batch ∈ batches, Consecutive PreconfirmedBlock.number batch.blocks
  across : Consecutive PreconfirmedBlock.number (blocksOf batches)

/-- A batch is numbered consecutively and ends at the last soft block, if there is one. -/
structure EndsSoftBlocks (soft : ContiguousAnchoredBlocks) (batch : Batch) : Prop where
  consecutive : Consecutive PreconfirmedBlock.number batch.blocks
  last : soft.blocks ≠ [] → batch.blocks.getLast? = soft.intoPreconfirmed.getLast?

/-- The anchors never decrease along the chain. -/
def ContiguousAnchoredBlocks.AnchorsAscend (soft : ContiguousAnchoredBlocks) : Prop :=
  soft.blocks.Pairwise fun first second => first.anchorId ≤ second.anchorId

/-- The highest anchor id of the soft blocks, or the given one if there are none. -/
def ContiguousAnchoredBlocks.highestAnchorId (soft : ContiguousAnchoredBlocks)
    (safeAnchor : Header) : Nat :=
  (((ContiguousAnchoredBlocks.maxByAnchorId soft.blocks).map AnchoredBlock.anchor).getD
    safeAnchor).number

/-- As many of the last soft blocks as have the highest anchor, up to the capacity, all have it. -/
def ContiguousAnchoredBlocks.HighestLast (soft : ContiguousAnchoredBlocks) (safeAnchor : Header)
    (capacity : Nat) : Prop :=
  let highest := withAnchor soft.blocks (soft.highestAnchorId safeAnchor)
  ∀ anchored ∈ soft.blocks.drop (soft.blocks.length - min capacity highest.length),
    anchored.anchorId = soft.highestAnchorId safeAnchor

/-! ## The pipeline -/

/-- Consecutive concatenated blocks are consecutive in each batch. -/
theorem contiguousBatches_of_across {batches : List Batch}
    (h : Consecutive PreconfirmedBlock.number (blocksOf batches)) : ContiguousBatches batches where
  within batch hbatch := by
    obtain ⟨before, after, rfl⟩ := List.append_of_mem hbatch
    refine h.of_infix ⟨blocksOf before, blocksOf after, ?_⟩
    simp
  across := h

/-- The soft blocks are numbered consecutively. -/
theorem ContiguousAnchoredBlocks.consecutive (soft : ContiguousAnchoredBlocks) :
    Consecutive PreconfirmedBlock.number soft.intoPreconfirmed :=
  Consecutive.map_iff.mpr soft.contiguous

/-- Re-timestamping keeps the block numbers. -/
theorem BatchMap.numbers_retimestamp (map : BatchMap .anchored) (minTs maxTs : Nat) :
    (blocksOf (map.retimestamp minTs maxTs).intoVec.batches).map PreconfirmedBlock.number =
      (blocksOf map.inner.values.flatten).map PreconfirmedBlock.number := by
  have hcontent := congrArg (List.map Prod.fst) (map.content_retimestamp minTs maxTs)
  rw [List.map_map, List.map_map] at hcontent
  exact hcontent

/-- Grouped blocks are consecutive exactly if their anchors never decrease. -/
theorem Grouped.consecutive_iff {inner : OrderedMap Nat (List Batch)}
    {soft : ContiguousAnchoredBlocks} (h : Grouped inner soft.blocks) :
    Consecutive PreconfirmedBlock.number (blocksOf inner.values.flatten) ↔
      soft.AnchorsAscend := by
  constructor
  · intro hconsecutive
    rw [h.blocks_by_key] at hconsecutive
    have hincreasing := (Consecutive.map_iff.mp hconsecutive).pairwise_lt
    have hperm : (inner.keys.flatMap (withAnchor soft.blocks)).Perm soft.blocks :=
      Partition.flatMap_filter_perm (inner.keys_sorted.imp fun hlt => hlt.ne)
        AnchoredBlock.anchorId fun anchored hmem => (h.keys _).mpr ⟨anchored, hmem, rfl⟩
    have heq : inner.keys.flatMap (withAnchor soft.blocks) = soft.blocks := by
      refine hperm.eq_of_pairwise ?_ hincreasing soft.numbers_increase
      intro first second _ _ hlt hgt
      exact absurd hlt (lt_asymm hgt)
    unfold ContiguousAnchoredBlocks.AnchorsAscend
    rw [← heq]
    exact Partition.flatMap_filter_sorted inner.keys_sorted AnchoredBlock.anchorId soft.blocks
  · intro hascend
    rw [h.blocks_eq hascend]
    exact soft.consecutive

/-- The batches of the pipeline are contiguous exactly if all soft blocks are re-anchored or their
anchors never decrease. -/
theorem contiguous_createBatchMap_iff {input : PipelineInput} {soft : ContiguousAnchoredBlocks}
    {map : BatchMap .retimestamped} (h : createBatchMap input soft = .ok map) :
    ContiguousBatches map.intoVec.batches ↔
      (∃ anchored ∈ soft.blocks, anchored.anchorId < input.minProposableAnchor) ∨
        soft.AnchorsAscend := by
  obtain ⟨initial, anchored, -, hgrouped, -, hmap, hcases⟩ := createBatchMap_cases input soft
  obtain rfl : anchored.retimestamp input.minTs input.maxTs = map :=
    Except.ok.inj (hmap.symm.trans h)
  have hnumbers := Consecutive.congr_numbers (anchored.numbers_retimestamp input.minTs input.maxTs)
  have hacross : ContiguousBatches (anchored.retimestamp input.minTs input.maxTs).intoVec.batches ↔
      Consecutive PreconfirmedBlock.number (blocksOf anchored.inner.values.flatten) :=
    ⟨fun hall => hnumbers.mp hall.across, fun hall =>
      contiguousBatches_of_across (hnumbers.mpr hall)⟩
  rw [hacross]
  obtain ⟨hyoung, rfl⟩ | ⟨oldest, holdest, hlt, -, hvalues, -⟩ := hcases
  · rw [or_iff_right]
    · exact hgrouped.consecutive_iff
    · rintro ⟨block, hblock, hlt⟩
      exact absurd (hyoung block hblock) (not_le.mpr hlt)
  · have hblocks : blocksOf anchored.inner.values.flatten = soft.intoPreconfirmed := by
      rw [hvalues, List.flatten_singleton]
      exact (refill_soft input.reanchorEstimates input.safeL1Anchor input.settings soft).1
    rw [hblocks]
    exact iff_of_true soft.consecutive (.inl ⟨oldest, holdest, hlt⟩)

/-! ## The outstanding batch -/

/-- The soft blocks that go into the outstanding batch: the last ones on the highest anchor. -/
def ContiguousAnchoredBlocks.outstanding (soft : ContiguousAnchoredBlocks) (safeAnchor : Header)
    (capacity : Nat) : List AnchoredBlock :=
  let highest := withAnchor soft.blocks (soft.highestAnchorId safeAnchor)
  highest.drop (highest.length - capacity)

/-- The blocks of the outstanding batch. -/
theorem ContiguousAnchoredBlocks.blocks_intoOutstanding (soft : ContiguousAnchoredBlocks)
    (safeAnchor : Header) (settings : BatchSettings) :
    (soft.intoOutstanding safeAnchor settings).blocks =
      (soft.outstanding safeAnchor settings.capacity).map AnchoredBlock.intoPreconfirmed := rfl

/-- The outstanding batch holds a block if there is a soft block and room for it. -/
theorem ContiguousAnchoredBlocks.outstanding_ne_nil {soft : ContiguousAnchoredBlocks}
    (safeAnchor : Header) {capacity : Nat} (hcapacity : 1 ≤ capacity) (hne : soft.blocks ≠ []) :
    soft.outstanding safeAnchor capacity ≠ [] := by
  obtain ⟨highest, hhighest, hmax⟩ := ContiguousAnchoredBlocks.maxByAnchorId_mem hne
  have hid : soft.highestAnchorId safeAnchor = highest.anchorId := by
    unfold ContiguousAnchoredBlocks.highestAnchorId
    rw [hmax]
    rfl
  have hmem : highest ∈ withAnchor soft.blocks (soft.highestAnchorId safeAnchor) :=
    List.mem_filter.mpr ⟨hhighest, decide_eq_true hid.symm⟩
  have hpos := List.length_pos_of_mem hmem
  refine List.ne_nil_of_length_pos ?_
  rw [ContiguousAnchoredBlocks.outstanding, List.length_drop]
  omega

/-- The outstanding batch is consecutive and ends at the last soft block exactly if its blocks are
the tail of the soft blocks. -/
theorem endsSoftBlocks_iff_suffix {soft : ContiguousAnchoredBlocks} (safeAnchor : Header)
    {settings : BatchSettings} (hcapacity : 1 ≤ settings.capacity) :
    EndsSoftBlocks soft (soft.intoOutstanding safeAnchor settings) ↔
      soft.outstanding safeAnchor settings.capacity <:+ soft.blocks := by
  have hsub : (soft.outstanding safeAnchor settings.capacity).Sublist soft.blocks :=
    (List.drop_sublist _ _).trans List.filter_sublist
  constructor
  · rintro ⟨hconsecutive, hlast⟩
    rw [soft.blocks_intoOutstanding] at hconsecutive hlast
    by_cases hne : soft.blocks = []
    · rw [hne] at hsub ⊢
      rw [List.sublist_nil.mp hsub]
    · have hkept : Consecutive (PreconfirmedBlock.number ∘ AnchoredBlock.intoPreconfirmed)
          (soft.outstanding safeAnchor settings.capacity) := Consecutive.map_iff.mp hconsecutive
      refine Consecutive.suffix_of_sublist soft.contiguous hkept hsub ?_
      obtain ⟨kept, hkept⟩ := Option.ne_none_iff_exists'.mp
        (List.getLast?_eq_none_iff.not.mpr (soft.outstanding_ne_nil safeAnchor hcapacity hne))
      obtain ⟨last, hsoft⟩ := Option.ne_none_iff_exists'.mp (List.getLast?_eq_none_iff.not.mpr hne)
      have hnumber := hlast hne
      rw [List.getLast?_map, ContiguousAnchoredBlocks.intoPreconfirmed, List.getLast?_map, hkept,
        hsoft] at hnumber
      have hblocks := Option.some.inj hnumber
      have heq : kept = last := soft.eq_of_number_eq (hsub.subset (List.mem_of_getLast? hkept))
        (List.mem_of_getLast? hsoft) (congrArg PreconfirmedBlock.number hblocks)
      rw [hkept, hsoft, heq]
  · intro hsuffix
    constructor
    · rw [soft.blocks_intoOutstanding]
      exact Consecutive.map_iff.mpr (Consecutive.of_infix soft.contiguous hsuffix.isInfix)
    · intro hne
      rw [soft.blocks_intoOutstanding, List.getLast?_map, ContiguousAnchoredBlocks.intoPreconfirmed,
        List.getLast?_map]
      obtain ⟨front, hfront⟩ := hsuffix
      rw [← hfront, List.getLast?_append_of_ne_nil _
        (soft.outstanding_ne_nil safeAnchor hcapacity hne)]

/-- For all soft blocks, the batches of the pipeline are contiguous exactly if all blocks are
re-anchored or the anchors never decrease, and the outstanding batch is consecutive up to the last
soft block exactly if no lower anchor comes after one of its blocks. -/
theorem contiguous_iff (soft : ContiguousAnchoredBlocks) (input : PipelineInput)
    (safeAnchor : Header) (hcapacity : 1 ≤ input.settings.capacity) :
    ((∃ map, createBatchMap input soft = .ok map ∧ ContiguousBatches map.intoVec.batches) ↔
      (∃ anchored ∈ soft.blocks, anchored.anchorId < input.minProposableAnchor) ∨
        soft.AnchorsAscend) ∧
      (EndsSoftBlocks soft (soft.intoOutstanding safeAnchor input.settings) ↔
        soft.HighestLast safeAnchor input.settings.capacity) := by
  constructor
  · obtain ⟨initial, anchored, -, -, -, hmap, -⟩ := createBatchMap_cases input soft
    rw [← contiguous_createBatchMap_iff hmap]
    constructor
    · rintro ⟨other, hother, hcontiguous⟩
      obtain rfl := Except.ok.inj (hmap.symm.trans hother)
      exact hcontiguous
    · exact fun hcontiguous => ⟨_, hmap, hcontiguous⟩
  · rw [endsSoftBlocks_iff_suffix safeAnchor hcapacity]
    unfold ContiguousAnchoredBlocks.outstanding ContiguousAnchoredBlocks.HighestLast withAnchor
    have hfilter := Consecutive.drop_filter_suffix_iff
      (fun anchored : AnchoredBlock => anchored.anchorId = soft.highestAnchorId safeAnchor)
      input.settings.capacity soft.blocks
    simpa using hfilter

/-- Three soft blocks, the second of which has a higher anchor than the others. -/
def raisedSoftBlocks : ContiguousAnchoredBlocks :=
  ⟨[softBlock 1 100, { softBlock 2 102 with anchor := l1Header 11 }, softBlock 3 104],
    by simp [softBlock, AnchoredBlock.number]⟩

/-- Two soft blocks on the same anchor give contiguous batches, and the outstanding batch ends at
the second. -/
theorem contiguous_two_blocks :
    (∃ map, createBatchMap ⟨⟨10, 1000, 0, 64, 8⟩, fun _ size => size, fun _ size => size, 0,
        l1Header 12, 50, 2000⟩ (twoSoftBlocks 12) = .ok map ∧
      ContiguousBatches map.intoVec.batches) ∧
      EndsSoftBlocks (twoSoftBlocks 12)
        ((twoSoftBlocks 12).intoOutstanding (l1Header 12) ⟨10, 1000, 0, 64, 8⟩) := by
  obtain ⟨hmap, houtstanding⟩ := contiguous_iff (twoSoftBlocks 12)
    ⟨⟨10, 1000, 0, 64, 8⟩, fun _ size => size, fun _ size => size, 0, l1Header 12, 50, 2000⟩
    (l1Header 12) (by decide)
  have hascend : (twoSoftBlocks 12).AnchorsAscend := by
    simp [ContiguousAnchoredBlocks.AnchorsAscend, twoSoftBlocks, softBlock, AnchoredBlock.anchorId]
  refine ⟨hmap.mpr (.inr hascend), houtstanding.mpr ?_⟩
  show ∀ anchored ∈ [softBlock 1 100, softBlock 2 112], anchored.anchorId = 10
  simp [softBlock, AnchoredBlock.anchorId, l1Header]

/-- A block with a higher anchor than the next is moved behind it, and is the whole outstanding
batch. -/
theorem gap_after_raised_anchor :
    (∃ map, createBatchMap ⟨⟨10, 1000, 0, 64, 8⟩, fun _ size => size, fun _ size => size, 0,
        l1Header 12, 50, 2000⟩ raisedSoftBlocks = .ok map ∧
      map.intoVec.batches.map (fun batch => batch.blocks.map PreconfirmedBlock.number) =
        [[1, 3], [2]] ∧
      ¬ ContiguousBatches map.intoVec.batches) ∧
      ¬ EndsSoftBlocks raisedSoftBlocks
        (raisedSoftBlocks.intoOutstanding (l1Header 12) ⟨10, 1000, 0, 64, 8⟩) := by
  constructor
  · refine ⟨_, rfl, rfl, ?_⟩
    intro hcontiguous
    have hnext := (List.isChain_cons_cons.mp hcontiguous.across).1
    exact absurd hnext (by decide)
  · intro hends
    have hlast := hends.last (by simp [raisedSoftBlocks])
    exact absurd (congrArg (Option.map PreconfirmedBlock.number) hlast) (by decide)

end Mk1
