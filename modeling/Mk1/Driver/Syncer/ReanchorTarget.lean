import Mk1.Driver.Syncer
import Mk1.Primitives.BatchMap.Proposability

/-!
# The target of a re-anchoring

`createBatches` means to move expired batches to the higher of the safe L1
anchor and the anchor of the L2 head, but for the latter it takes the header of
the L2 block itself. `reanchor_target_iff` says when the target is the intended
one.
-/

namespace Mk1

/-- Re-timestamping keeps the anchor headers of the batches, in order. -/
theorem BatchMap.anchorBlock_retimestamp (map : BatchMap .anchored) (minTs maxTs : Nat) :
    (map.retimestamp minTs maxTs).intoVec.batches.map Batch.anchorBlock =
      map.inner.values.flatten.map Batch.anchorBlock := by
  rw [intoVec_retimestamp, List.map_append, List.map_map]
  show _ ++ (map.inner.values.flatten.dropWhile (Batch.inRange minTs maxTs)).map
    Batch.anchorBlock = _
  rw [← List.map_append, List.takeWhile_append_dropWhile]

/-- A pipeline that re-anchors puts all of its batches, at least one, on the safe anchor. -/
theorem reanchored_to_safe {input : PipelineInput} {soft : ContiguousAnchoredBlocks}
    {map : BatchMap .retimestamped} (h : createBatchMap input soft = .ok map)
    (hreanchor : ∃ reason ∈ map.reorgReasons, reason.isReanchor = true) :
    map.intoVec.batches ≠ [] ∧
      ∀ batch ∈ map.intoVec.batches, batch.anchorBlock = input.safeL1Anchor := by
  obtain ⟨initial, anchored, -, -, -, hmap, hcases⟩ := createBatchMap_cases input soft
  obtain rfl : anchored.retimestamp input.minTs input.maxTs = map :=
    Except.ok.inj (hmap.symm.trans h)
  rw [BatchMap.isReanchor_reason_iff] at hreanchor
  have hanchors := anchored.anchorBlock_retimestamp input.minTs input.maxTs
  obtain ⟨-, rfl⟩ | ⟨oldest, holdest, -, -, hvalues, -⟩ := hcases
  · obtain ⟨reason, hreason, -⟩ := hreanchor
    simp [BatchMap.ofInner] at hreason
  · rw [hvalues, List.flatten_singleton] at hanchors
    obtain ⟨hblocks, hsafe⟩ :=
      refill_soft input.reanchorEstimates input.safeL1Anchor input.settings soft
    constructor
    · intro hnil
      rw [hnil, List.map_nil, eq_comm, List.map_eq_nil_iff] at hanchors
      rw [hanchors] at hblocks
      have hempty : soft.blocks = [] := List.map_eq_nil_iff.mp hblocks.symm
      rw [hempty] at holdest
      cases holdest
    · intro batch hbatch
      have hmem := List.mem_map_of_mem (f := Batch.anchorBlock) hbatch
      rw [hanchors] at hmem
      obtain ⟨source, hsource, heq⟩ := List.mem_map.mp hmem
      rw [← heq]
      exact hsafe source hsource

namespace Syncer

/-- When `createBatches` re-anchors, all batches are on an L1 header with the number that is meant,
the higher of the safe anchor and the anchor of the L2 head, exactly if the L2 head is not anchored
above the safe anchor. The safe anchor is an L1 header, and the header of the L2 head is not. -/
theorem reanchor_target_iff {cfg : RuntimeConfig} {reads : SyncReads}
    {soft : ContiguousAnchoredBlocks} {safeL1Anchor : Header} {batches : OrderedBatches}
    {reorgReasons : List ReorgReason} {highestUnsafe : Block} {highestAnchorId : Nat}
    (l1Headers : Set Header)
    (hcreate : createBatches cfg reads soft safeL1Anchor = some (batches, reorgReasons))
    (hreanchor : ∃ reason ∈ reorgReasons, reason.isReanchor = true)
    (hhead : reads.highestUnsafe = some highestUnsafe)
    (hid : highestUnsafe.anchorBlockId = some highestAnchorId)
    (hsafe : safeL1Anchor ∈ l1Headers) (hl2 : highestUnsafe.header ∉ l1Headers) :
    (∀ batch ∈ batches.batches, batch.anchorBlock ∈ l1Headers ∧
        batch.anchorId = max safeL1Anchor.number highestAnchorId) ↔
      highestAnchorId ≤ safeL1Anchor.number := by
  obtain ⟨other, otherId, hother, hotherId, hcases⟩ := createBatches_cases hcreate
  obtain rfl : highestUnsafe = other := Option.some.inj (hhead.symm.trans hother)
  obtain rfl : highestAnchorId = otherId := Option.some.inj (hid.symm.trans hotherId)
  obtain ⟨-, rfl⟩ | ⟨input, map, hmap, hinput, rfl, rfl⟩ := hcases
  · obtain ⟨reason, hreason, -⟩ := hreanchor
    cases hreason
  · obtain ⟨hne, hanchors⟩ := reanchored_to_safe hmap hreanchor
    rw [hinput] at hanchors
    unfold guaranteedSafeAnchor at hanchors
    constructor
    · intro htarget
      by_contra hhigher
      obtain ⟨batch, hbatch⟩ := List.exists_mem_of_ne_nil _ hne
      have hanchor := hanchors batch hbatch
      rw [if_pos (Nat.lt_of_not_le hhigher)] at hanchor
      exact hl2 (hanchor ▸ (htarget batch hbatch).1)
    · intro hle batch hbatch
      have hanchor := hanchors batch hbatch
      rw [if_neg (Nat.not_lt.mpr hle)] at hanchor
      rw [Batch.anchorId, hanchor]
      exact ⟨hsafe, (max_eq_left hle).symm⟩

/-- The second of two soft blocks as the head of the L2 chain, with this anchor block id. -/
def headAnchoredTo (anchorId : Nat) : Block :=
  { header := (softBlock 2 112).block.header
    transactions :=
      [{ signer := TAIKO_GOLDEN_TOUCH_ACCOUNT, inner := ⟨[]⟩, anchorV3BlockId := some anchorId }] }

/-- What a sync reads at L1 block 74, so that anchors below 16 have expired. -/
def readsAtBlock74 (highestUnsafe : Block) : SyncReads :=
  { l2Head := some 2, l2HeadL1Origin := some 0, l1Head := some 74,
    l1Header := fun number => some (l1Header number), download := [],
    highestUnsafe := some highestUnsafe, l1HeadId := some 74, currentTimestamp := 700,
    newEstimates := fun _ size => size, reanchorEstimates := fun _ size => size }

/-- With the L2 head anchored to block 10, two soft blocks on that anchor are moved to the safe
anchor. -/
theorem reanchored_to_block_70 :
    ∃ batches reorgReasons,
      createBatches (defaultConfig 0) (readsAtBlock74 (headAnchoredTo 10)) (twoSoftBlocks 12)
        (l1Header 70) = some (batches, reorgReasons) ∧
      ∀ batch ∈ batches.batches, batch.anchorBlock ∈ ({l1Header 70} : Set Header) ∧
        batch.anchorId = max 70 10 := by
  obtain ⟨batches, reorgReasons, hcreate, hreanchor⟩ : ∃ batches reorgReasons,
      createBatches (defaultConfig 0) (readsAtBlock74 (headAnchoredTo 10)) (twoSoftBlocks 12)
        (l1Header 70) = some (batches, reorgReasons) ∧
      ∃ reason ∈ reorgReasons, reason.isReanchor = true :=
    ⟨_, _, rfl, _, List.mem_singleton_self _, rfl⟩
  refine ⟨batches, reorgReasons, hcreate, ?_⟩
  exact (reanchor_target_iff {l1Header 70} hcreate hreanchor rfl rfl rfl (by decide)).mpr
    (by decide)

/-- With the L2 head anchored to block 72, the soft blocks are moved to the header of L2 block 2
instead of L1 block 72. -/
theorem reanchored_to_l2_header :
    ∃ batches reorgReasons,
      createBatches (defaultConfig 0) (readsAtBlock74 (headAnchoredTo 72)) (twoSoftBlocks 12)
        (l1Header 70) = some (batches, reorgReasons) ∧
      reorgReasons = [.reanchor 10 2] ∧
      (headAnchoredTo 72).anchorBlockId = some 72 ∧
      batches.batches.map Batch.anchorBlock = [(headAnchoredTo 72).header] ∧
      ¬ ∀ batch ∈ batches.batches, batch.anchorId = max 70 72 :=
  ⟨_, _, rfl, rfl, rfl, rfl, by decide⟩

end Syncer

end Mk1
