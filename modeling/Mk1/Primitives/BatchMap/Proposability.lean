import Mk1.Primitives.BatchMap.Retimestamping

/-!
# Synced batches can be proposed

For soft blocks whose anchors and timestamps never decrease, every batch that
comes out of the pipeline has a proposable anchor and timestamps in the valid
range, both in order over all batches, and the reorg reasons say exactly what
had to be changed.
-/

namespace Mk1

namespace BatchMap

variable (map : BatchMap .anchored) (minTs maxTs : Nat)

/-- Re-timestamping keeps the anchors of the batches, in order. -/
theorem anchorId_retimestamp :
    (map.retimestamp minTs maxTs).intoVec.batches.map Batch.anchorId =
      map.inner.values.flatten.map Batch.anchorId := by
  rw [intoVec_retimestamp, List.map_append, List.map_map]
  show _ ++ (map.inner.values.flatten.dropWhile (Batch.inRange minTs maxTs)).map Batch.anchorId = _
  rw [← List.map_append, List.takeWhile_append_dropWhile]

/-- Batches that are all in range, at the start of the map, are kept as they are. -/
theorem prefix_retimestamp {before : List Batch} (h : before <+: map.inner.values.flatten)
    (hrange : ∀ batch ∈ before, batch.inRange minTs maxTs = true) :
    before <+: (map.retimestamp minTs maxTs).intoVec.batches := by
  obtain ⟨after, hafter⟩ := h
  rw [intoVec_retimestamp, ← hafter, List.takeWhile_append_of_pos hrange, List.append_assoc]
  exact List.prefix_append before _

/-- The timestamps of moved batches are all the same. -/
theorem timestamp_of_moved {batches : List Batch} {timestamp : Nat} {block : PreconfirmedBlock}
    (h : block ∈ blocksOf (batches.map fun batch => batch.setAllBlocksTimestamp timestamp)) :
    block.timestamp = timestamp := by
  obtain ⟨batch, hbatch, hblock⟩ := mem_blocksOf.mp h
  obtain ⟨source, -, rfl⟩ := List.mem_map.mp hbatch
  obtain ⟨original, -, rfl⟩ := List.mem_map.mp hblock
  rfl

/-- The blocks of the batches that re-timestamping keeps are in range. -/
theorem timestamp_of_kept {batches : List Batch} {block : PreconfirmedBlock}
    (h : block ∈ blocksOf (batches.takeWhile (Batch.inRange minTs maxTs))) :
    minTs ≤ block.timestamp ∧ block.timestamp ≤ maxTs := by
  obtain ⟨batch, hbatch, hblock⟩ := mem_blocksOf.mp h
  exact Batch.inRange_iff.mp (List.all_eq_true.mp List.all_takeWhile batch hbatch) block hblock

/-- After re-timestamping every timestamp is in a range that is not empty. -/
theorem timestamp_retimestamp (hrange : minTs ≤ maxTs) {block : PreconfirmedBlock}
    (h : block ∈ blocksOf (map.retimestamp minTs maxTs).intoVec.batches) :
    minTs ≤ block.timestamp ∧ block.timestamp ≤ maxTs := by
  rw [intoVec_retimestamp, blocksOf_append] at h
  rcases List.mem_append.mp h with h | h
  · exact timestamp_of_kept minTs maxTs h
  · rw [timestamp_of_moved h]
    exact ⟨hrange, le_rfl⟩

/-- Re-timestamping keeps timestamps in order. -/
theorem timestamps_sorted_retimestamp
    (h : (blocksOf map.inner.values.flatten).Pairwise fun first second =>
      first.timestamp ≤ second.timestamp) :
    (blocksOf (map.retimestamp minTs maxTs).intoVec.batches).Pairwise fun first second =>
      first.timestamp ≤ second.timestamp := by
  rw [intoVec_retimestamp, blocksOf_append]
  rw [← List.takeWhile_append_dropWhile (p := Batch.inRange minTs maxTs)
    (l := map.inner.values.flatten), blocksOf_append] at h
  refine List.pairwise_append.mpr ⟨(List.pairwise_append.mp h).1, ?_, ?_⟩
  · refine List.pairwise_of_forall_mem_list fun first hfirst second hsecond => ?_
    rw [timestamp_of_moved hfirst, timestamp_of_moved hsecond]
  · intro first hfirst second hsecond
    rw [timestamp_of_moved hsecond]
    exact (timestamp_of_kept minTs maxTs hfirst).2

/-- All batches are in range exactly when all of their blocks are. -/
theorem all_inRange_iff (batches : List Batch) :
    batches.all (Batch.inRange minTs maxTs) = true ↔
      ∀ block ∈ blocksOf batches, timestampOutOfRange minTs maxTs block = false := by
  simp only [List.all_eq_true, mem_blocksOf, Batch.inRange, Bool.not_eq_true', List.any_eq_false,
    Bool.not_eq_true]
  constructor
  · rintro h block ⟨batch, hbatch, hblock⟩
    exact h batch hbatch block hblock
  · exact fun h batch hbatch block hblock => h block ⟨batch, hbatch, hblock⟩

/-- Re-timestamping reports itself exactly when some block was out of range. -/
theorem isRetimestamp_reason_iff (hreasons : ∀ reason ∈ map.reorgReasons,
      reason.isRetimestamp = false) :
    (∃ reason ∈ (map.retimestamp minTs maxTs).reorgReasons, reason.isRetimestamp = true) ↔
      ∃ block ∈ blocksOf map.inner.values.flatten,
        timestampOutOfRange minTs maxTs block = true := by
  have hiff := all_inRange_iff minTs maxTs map.inner.values.flatten
  rw [reorgReasons_retimestamp]
  cases hall : map.inner.values.flatten.all (Batch.inRange minTs maxTs) with
  | true =>
      have hin := hiff.mp hall
      constructor
      · rintro ⟨reason, hreason, hkind⟩
        rw [if_pos rfl] at hreason
        simp [hreasons reason hreason] at hkind
      · rintro ⟨block, hblock, hout⟩
        simp [hin block hblock] at hout
  | false =>
      have hout : ¬ ∀ block ∈ blocksOf map.inner.values.flatten,
          timestampOutOfRange minTs maxTs block = false := by
        rw [← hiff, hall]
        exact Bool.false_ne_true
      push Not at hout
      constructor
      · intro _
        obtain ⟨block, hblock, hrange⟩ := hout
        exact ⟨block, hblock, Bool.eq_true_of_not_eq_false hrange⟩
      · intro _
        exact ⟨.retimestamp minTs maxTs, by simp, rfl⟩

/-- Re-timestamping never adds or drops a re-anchoring reason. -/
theorem isReanchor_reason_iff :
    (∃ reason ∈ (map.retimestamp minTs maxTs).reorgReasons, reason.isReanchor = true) ↔
      ∃ reason ∈ map.reorgReasons, reason.isReanchor = true := by
  rw [reorgReasons_retimestamp]
  split
  · rfl
  · simp [ReorgReason.isReanchor]

end BatchMap

/-- The batches of grouped soft blocks are in the order of their anchors. -/
theorem Grouped.anchors_sorted {inner : OrderedMap Nat (List Batch)}
    {placed : List AnchoredBlock} (h : Grouped inner placed) :
    inner.values.flatten.Pairwise fun first second => first.anchorId ≤ second.anchorId := by
  refine OrderedMap.flatten_values_pairwise ?_ ?_
  · intro key batches hfind
    refine List.pairwise_of_forall_mem_list fun first hfirst second hsecond => ?_
    exact (((h.anchors key batches hfind first hfirst).1).trans
      ((h.anchors key batches hfind second hsecond).1).symm).le
  · intro key key' batches batches' hlt hfind hfind' first hfirst second hsecond
    have hkey : first.anchorId = key := (h.anchors key batches hfind first hfirst).1
    have hkey' : second.anchorId = key' := (h.anchors key' batches' hfind' second hsecond).1
    omega

/-- What the last stage guarantees of the batches to propose, relative to the soft blocks and to
the map that it was given. -/
structure Proposable (input : PipelineInput) (soft : ContiguousAnchoredBlocks)
    (anchored : BatchMap .anchored) (map : BatchMap .retimestamped) : Prop where
  anchors : ∀ batch ∈ map.intoVec.batches, input.minProposableAnchor ≤ batch.anchorId
  timestamps : ∀ batch ∈ map.intoVec.batches, ∀ block ∈ batch.blocks,
    input.minTs ≤ block.timestamp ∧ block.timestamp ≤ input.maxTs
  anchors_sorted : map.intoVec.batches.Pairwise fun first second =>
    first.anchorId ≤ second.anchorId
  timestamps_sorted : (blocksOf map.intoVec.batches).Pairwise fun first second =>
    first.timestamp ≤ second.timestamp
  blocks : blocksOf anchored.inner.values.flatten = soft.intoPreconfirmed
  kept : ∀ before, before <+: anchored.inner.values.flatten →
    (∀ batch ∈ before, batch.inRange input.minTs input.maxTs = true) →
      before <+: map.intoVec.batches
  reanchor_reason : (∃ reason ∈ map.reorgReasons, reason.isReanchor = true) ↔
    ∃ block ∈ soft.blocks, block.anchorId < input.minProposableAnchor
  retimestamp_reason : (∃ reason ∈ map.reorgReasons, reason.isRetimestamp = true) ↔
    ∃ block ∈ soft.blocks, block.timestamp < input.minTs ∨ input.maxTs < block.timestamp

/-- Re-timestamping makes batches proposable when their anchors already are. -/
theorem proposable_retimestamp {input : PipelineInput} {soft : ContiguousAnchoredBlocks}
    {anchored : BatchMap .anchored}
    (hblocks : blocksOf anchored.inner.values.flatten = soft.intoPreconfirmed)
    (hanchors : ∀ batch ∈ anchored.inner.values.flatten,
      input.minProposableAnchor ≤ batch.anchorId)
    (hsorted : anchored.inner.values.flatten.Pairwise fun first second =>
      first.anchorId ≤ second.anchorId)
    (hreanchor : (∃ reason ∈ anchored.reorgReasons, reason.isReanchor = true) ↔
      ∃ block ∈ soft.blocks, block.anchorId < input.minProposableAnchor)
    (hretimestamp : ∀ reason ∈ anchored.reorgReasons, reason.isRetimestamp = false)
    (htimestamps : soft.blocks.Pairwise fun first second => first.timestamp ≤ second.timestamp)
    (hrange : input.minTs ≤ input.maxTs) :
    Proposable input soft anchored (anchored.retimestamp input.minTs input.maxTs) where
  anchors batch hbatch := by
    have hids := anchored.anchorId_retimestamp input.minTs input.maxTs
    have hmem : batch.anchorId ∈ anchored.inner.values.flatten.map Batch.anchorId :=
      hids ▸ List.mem_map_of_mem hbatch
    obtain ⟨source, hsource, heq⟩ := List.mem_map.mp hmem
    exact heq ▸ hanchors source hsource
  timestamps batch hbatch block hblock :=
    anchored.timestamp_retimestamp input.minTs input.maxTs hrange
      (mem_blocksOf.mpr ⟨batch, hbatch, hblock⟩)
  anchors_sorted := by
    have hids : (anchored.inner.values.flatten.map Batch.anchorId).Pairwise (· ≤ ·) :=
      List.pairwise_map.mpr hsorted
    rw [← anchored.anchorId_retimestamp input.minTs input.maxTs] at hids
    exact List.pairwise_map.mp hids
  timestamps_sorted := by
    refine anchored.timestamps_sorted_retimestamp input.minTs input.maxTs ?_
    rw [hblocks]
    exact List.pairwise_map.mpr htimestamps
  blocks := hblocks
  kept before := anchored.prefix_retimestamp input.minTs input.maxTs
  reanchor_reason := (anchored.isReanchor_reason_iff input.minTs input.maxTs).trans hreanchor
  retimestamp_reason := by
    rw [anchored.isRetimestamp_reason_iff input.minTs input.maxTs hretimestamp, hblocks]
    simp [ContiguousAnchoredBlocks.intoPreconfirmed, BatchMap.timestampOutOfRange]

/-- The pipeline makes batches that can be proposed out of soft blocks whose anchors and
timestamps never decrease, for a safe anchor that is itself proposable. -/
theorem createBatchMap_proposable (input : PipelineInput) (soft : ContiguousAnchoredBlocks)
    (hanchors : soft.blocks.Pairwise fun first second => first.anchorId ≤ second.anchorId)
    (htimestamps : soft.blocks.Pairwise fun first second => first.timestamp ≤ second.timestamp)
    (hsafe : input.minProposableAnchor ≤ input.safeL1Anchor.number)
    (hrange : input.minTs ≤ input.maxTs) :
    ∃ initial anchored, BatchMap.new input.newEstimates soft input.settings = .ok initial ∧
      initial.ensureUniqueCoinbase.reanchor input.reanchorEstimates input.minProposableAnchor
        input.safeL1Anchor input.settings = .ok anchored ∧
      createBatchMap input soft = .ok (anchored.retimestamp input.minTs input.maxTs) ∧
      Proposable input soft anchored (anchored.retimestamp input.minTs input.maxTs) := by
  obtain ⟨initial, anchored, hnew, hgrouped, hanchored, hmap, hcases⟩ :=
    createBatchMap_cases input soft
  refine ⟨initial, anchored, hnew, hanchored, hmap, ?_⟩
  have hblocks := (reanchored_blocks hgrouped hanchored).2 hanchors
  obtain ⟨hyoung, rfl⟩ | ⟨oldest, holdest, hlt, -, hvalues, hreasons⟩ := hcases
  -- every anchor is young enough and all batches are kept
  · refine proposable_retimestamp hblocks ?_ hgrouped.anchors_sorted ?_ ?_ htimestamps hrange
    · intro batch hbatch
      obtain ⟨batches, hbatches, hmem⟩ := List.mem_flatten.mp hbatch
      obtain ⟨key, hfind⟩ := OrderedMap.mem_values_iff.mp hbatches
      have hkey : batch.anchorId = key := (hgrouped.anchors key batches hfind batch hmem).1
      obtain ⟨source, hsource, hid⟩ := (hgrouped.keys key).mp
        (OrderedMap.mem_keys_iff.mpr ⟨batches, hfind⟩)
      rw [hkey, ← hid]
      exact hyoung source hsource
    · constructor
      · rintro ⟨reason, hreason, -⟩
        simp [BatchMap.ofInner] at hreason
      · rintro ⟨block, hblock, hlt⟩
        have hle := hyoung block hblock
        omega
    · simp [BatchMap.ofInner]
  -- an anchor is too old, so all blocks moved to the safe anchor
  · have hsafes :=
      (refill_soft input.reanchorEstimates input.safeL1Anchor input.settings soft).2
    have hids : ∀ batch ∈ anchored.inner.values.flatten,
        batch.anchorId = input.safeL1Anchor.number := by
      intro batch hbatch
      rw [hvalues, List.flatten_singleton] at hbatch
      rw [Batch.anchorId, hsafes batch hbatch]
    refine proposable_retimestamp hblocks ?_ ?_ ?_ ?_ htimestamps hrange
    · intro batch hbatch
      rw [hids batch hbatch]
      exact hsafe
    · refine List.pairwise_of_forall_mem_list fun first hfirst second hsecond => ?_
      rw [hids first hfirst, hids second hsecond]
    · rw [hreasons]
      exact ⟨fun _ => ⟨oldest, holdest, hlt⟩, fun _ => ⟨_, List.mem_singleton_self _, rfl⟩⟩
    · rw [hreasons]
      simp [ReorgReason.isRetimestamp]

/-- Two soft blocks on anchor 10 can be proposed on anchor 12 when 11 is the oldest allowed. -/
theorem createBatchMap_proposable_two :
    ∃ map, createBatchMap ⟨⟨10, 1000, 0, 64, 8⟩, fun _ size => size, fun _ size => size, 11,
        l1Header 12, 50, 2000⟩ (twoSoftBlocks 12) = .ok map ∧
      (∀ batch ∈ map.intoVec.batches, 11 ≤ batch.anchorId) ∧
      ∃ reason ∈ map.reorgReasons, reason.isReanchor = true := by
  obtain ⟨-, anchored, -, -, hmap, hproposable⟩ := createBatchMap_proposable
    ⟨⟨10, 1000, 0, 64, 8⟩, fun _ size => size, fun _ size => size, 11, l1Header 12, 50, 2000⟩
    (twoSoftBlocks 12) (by decide) (by decide) (by decide) (by decide)
  exact ⟨_, hmap, hproposable.anchors, hproposable.reanchor_reason.mpr (by decide)⟩

end Mk1
