import Mk1.Driver.Lookahead
import Mk1.Driver.SoftBlocks
import Mk1.Primitives.BatchMap.Conservation

/-!
# The syncer

`Syncer::sync` of `sync/mod.rs`: from the answers of the clients and the status
of the driver it makes a plan, the batches to adopt or propose together with the
reasons for which they reorg the L2 chain. `sync_anchors` says that a plan
without such reasons keeps every soft block under the header that it was
downloaded with.
-/

namespace Mk1

/-- `u64` subtraction as release builds compute it. -/
def wrappingSub (left right : Nat) : Nat := (left + (u64Max + 1) - right) % (u64Max + 1)

/-- What one call of `Syncer::sync` reads: the answers of the clients in the order of the
requests, where `none` is an error, the clock, and the size estimates of the two placing loops. -/
structure SyncReads where
  l2Head : Option Nat
  l2HeadL1Origin : Option Nat
  l1Head : Option Nat
  l1Header : Nat → Option Header
  download : List DownloadEvent
  highestUnsafe : Option Block
  l1HeadId : Option Nat
  currentTimestamp : Nat
  newEstimates : Estimates
  reanchorEstimates : Estimates

/-- The result of a sync: the ordered batches, the reasons for which posting them causes a reorg,
and the base fees of the soft blocks. -/
structure SyncPlan where
  batches : OrderedBatches
  reorgReasons : List ReorgReason
  basefeeMap : List (Nat × Nat)
  deriving DecidableEq, Repr

/-- The plan without soft blocks. -/
def SyncPlan.empty (anchor : Header) (settings : BatchSettings) : SyncPlan :=
  { batches := ⟨[.new anchor settings]⟩, reorgReasons := [], basefeeMap := [] }

namespace Syncer

/-- `Syncer::create_batch_map`. The pipeline never panics. -/
def createBatchMap (cfg : RuntimeConfig) (reads : SyncReads) (soft : ContiguousAnchoredBlocks)
    (safeL1Anchor : Header) : Option (BatchMap .retimestamped) :=
  let settings := cfg.batchSettings
  if soft.blocks.isEmpty then some .default
  else do
    let l1HeadId ← reads.l1HeadId
    let minProposableAnchorId :=
      wrappingSub (l1HeadId + cfg.anchorMaxHeightBuffer) cfg.maxAnchorHeightOffset
    let minProposableAnchor ← reads.l1Header minProposableAnchorId
    let maxTs := reads.currentTimestamp
    let minTs := wrappingSub (maxTs + cfg.defaultProposalTimeBuffer) cfg.maxProposableBlockAgeSecs
    (Mk1.createBatchMap
      { settings := settings
        newEstimates := reads.newEstimates
        reanchorEstimates := reads.reanchorEstimates
        minProposableAnchor := minProposableAnchor.number
        safeL1Anchor := safeL1Anchor
        minTs := minTs
        maxTs := maxTs } soft).toOption

/-- The anchor that `createBatches` considers safe: Max(safe, unsafe). -/
def guaranteedSafeAnchor (safeL1Anchor : Header) (highestUnsafe : Block) (highestAnchorId : Nat) :
    Header :=
  if safeL1Anchor.number < highestAnchorId then highestUnsafe.header else safeL1Anchor

/-- `Syncer::create_batches`. -/
def createBatches (cfg : RuntimeConfig) (reads : SyncReads) (soft : ContiguousAnchoredBlocks)
    (safeL1Anchor : Header) : Option (OrderedBatches × List ReorgReason) := do
  let highestUnsafe ← reads.highestUnsafe
  let highestAnchorId ← highestUnsafe.anchorBlockId
  let map ← createBatchMap cfg reads soft
    (guaranteedSafeAnchor safeL1Anchor highestUnsafe highestAnchorId)
  pure (map.intoVec, map.reorgReasons)

/-- `Syncer::sync`. -/
def sync (cfg : RuntimeConfig) (status : DriverStatus) (reads : SyncReads) :
    Option SyncPlan := do
  let l2Head ← reads.l2Head
  let l2HeadL1Origin ← reads.l2HeadL1Origin
  let l1Head ← reads.l1Head
  let l1Anchor ← reads.l1Header (l1Head - cfg.anchorBlockLag)
  let settings := cfg.batchSettings
  let range : RangeInclusive := ⟨l2HeadL1Origin + 1, l2Head⟩
  if l2Head ≤ l2HeadL1Origin then pure (.empty l1Anchor settings)
  else
    match status with
    | .inactive => pure (.empty l1Anchor settings)
    | .sequencingOnly | .handoverWait => do
        let soft ← download reads.download range
        let batch := soft.intoOutstanding l1Anchor settings
        pure { batches := ⟨[batch]⟩, reorgReasons := [], basefeeMap := soft.basefeeMap }
    | .inclusionOnly | .active => do
        let soft ← download reads.download range
        let (batches, reorgReasons) ← createBatches cfg reads soft l1Anchor
        pure { batches := batches, reorgReasons := reorgReasons, basefeeMap := soft.basefeeMap }

end Syncer

/-! ## Where the blocks of a plan come from -/

/-- The soft blocks that a sync downloads: those above the head L1 origin. -/
def SyncReads.softBlocks (reads : SyncReads) : Option ContiguousAnchoredBlocks := do
  let l2Head ← reads.l2Head
  let l2HeadL1Origin ← reads.l2HeadL1Origin
  Mk1.download reads.download ⟨l2HeadL1Origin + 1, l2Head⟩

/-- Everything that a sync can return: a plan without soft blocks, the blocks on the highest
anchor as one batch, or the batches of the pipeline, if the driver can propose. -/
theorem Syncer.sync_cases {cfg : RuntimeConfig} {status : DriverStatus} {reads : SyncReads}
    {plan : SyncPlan} (h : Syncer.sync cfg status reads = some plan) :
    (∃ l1Anchor, plan = .empty l1Anchor cfg.batchSettings) ∨
      ∃ soft, reads.softBlocks = some soft ∧
        ((∃ l1Anchor, plan.batches = ⟨[soft.intoOutstanding l1Anchor cfg.batchSettings]⟩ ∧
            plan.reorgReasons = []) ∨
          (status.canPropose = true ∧ ∃ l1Anchor, Syncer.createBatches cfg reads soft l1Anchor =
            some (plan.batches, plan.reorgReasons))) := by
  obtain ⟨l2Head, hhead, h⟩ := Option.bind_eq_some_iff.mp h
  obtain ⟨l2HeadL1Origin, horigin, h⟩ := Option.bind_eq_some_iff.mp h
  obtain ⟨l1Head, -, h⟩ := Option.bind_eq_some_iff.mp h
  obtain ⟨l1Anchor, -, h⟩ := Option.bind_eq_some_iff.mp h
  dsimp only at h
  split at h
  · cases h
    exact .inl ⟨l1Anchor, rfl⟩
  · have hdownload : reads.softBlocks =
        download reads.download ⟨l2HeadL1Origin + 1, l2Head⟩ := by
      simp [SyncReads.softBlocks, hhead, horigin]
    rw [hdownload]
    cases status with
    | inactive =>
        cases h
        exact .inl ⟨l1Anchor, rfl⟩
    | sequencingOnly | handoverWait =>
        obtain ⟨soft, hsoft, hplan⟩ := Option.bind_eq_some_iff.mp h
        cases hplan
        exact .inr ⟨soft, hsoft, .inl ⟨l1Anchor, rfl, rfl⟩⟩
    | inclusionOnly | active =>
        obtain ⟨soft, hsoft, h⟩ := Option.bind_eq_some_iff.mp h
        obtain ⟨result, hresult, hplan⟩ := Option.bind_eq_some_iff.mp h
        cases hplan
        exact .inr ⟨soft, hsoft, .inr ⟨rfl, l1Anchor, hresult⟩⟩

/-- A sync has reasons for a reorg only if the driver can propose. -/
theorem Syncer.canPropose_of_reorgReasons {cfg : RuntimeConfig} {status : DriverStatus}
    {reads : SyncReads} {plan : SyncPlan} (h : Syncer.sync cfg status reads = some plan)
    (hreasons : plan.reorgReasons ≠ []) : status.canPropose = true := by
  obtain ⟨l1Anchor, rfl⟩ | ⟨soft, -, ⟨l1Anchor, -, hnone⟩ | ⟨hpropose, -⟩⟩ := Syncer.sync_cases h
  · exact absurd rfl hreasons
  · exact absurd hnone hreasons
  · exact hpropose

/-- Everything that `createBatches` can return: nothing, or what the pipeline makes of the soft
blocks with the anchor that it considers safe. -/
theorem Syncer.createBatches_cases {cfg : RuntimeConfig} {reads : SyncReads}
    {soft : ContiguousAnchoredBlocks} {safeL1Anchor : Header} {batches : OrderedBatches}
    {reorgReasons : List ReorgReason}
    (h : Syncer.createBatches cfg reads soft safeL1Anchor = some (batches, reorgReasons)) :
    ∃ highestUnsafe highestAnchorId, reads.highestUnsafe = some highestUnsafe ∧
      highestUnsafe.anchorBlockId = some highestAnchorId ∧
      ((batches = ⟨[]⟩ ∧ reorgReasons = []) ∨
        ∃ input map, Mk1.createBatchMap input soft = .ok map ∧
          input.safeL1Anchor =
            Syncer.guaranteedSafeAnchor safeL1Anchor highestUnsafe highestAnchorId ∧
          batches = map.intoVec ∧ reorgReasons = map.reorgReasons) := by
  obtain ⟨highestUnsafe, hhead, h⟩ := Option.bind_eq_some_iff.mp h
  obtain ⟨highestAnchorId, hid, h⟩ := Option.bind_eq_some_iff.mp h
  obtain ⟨map, hmap, h⟩ := Option.bind_eq_some_iff.mp h
  cases h
  refine ⟨highestUnsafe, highestAnchorId, hhead, hid, ?_⟩
  unfold Syncer.createBatchMap at hmap
  dsimp only at hmap
  split at hmap
  · cases hmap
    exact .inl ⟨rfl, rfl⟩
  · obtain ⟨l1HeadId, -, hmap⟩ := Option.bind_eq_some_iff.mp hmap
    obtain ⟨minProposableAnchor, -, hmap⟩ := Option.bind_eq_some_iff.mp hmap
    exact .inr ⟨_, map, toOption_eq_some.mp hmap, rfl, rfl, rfl⟩

/-- Every block of a list of batches is a soft block that was downloaded with the anchor of the
batch that holds it. -/
def KeepsAnchors (soft : ContiguousAnchoredBlocks) (batches : List Batch) : Prop :=
  ∀ batch ∈ batches, ∀ block ∈ batch.blocks,
    ∃ anchored ∈ soft.blocks, anchored.intoPreconfirmed = block ∧
      anchored.anchor = batch.anchorBlock

/-- The batch of the blocks on the highest anchor keeps their anchor. -/
theorem keepsAnchors_intoOutstanding {soft : ContiguousAnchoredBlocks}
    (hshares : SharesAnchors soft.blocks) (safeAnchor : Header) (settings : BatchSettings) :
    KeepsAnchors soft [soft.intoOutstanding safeAnchor settings] := by
  intro batch hbatch block hblock
  obtain rfl := List.mem_singleton.mp hbatch
  obtain ⟨anchored, hmem, rfl⟩ := List.mem_map.mp hblock
  obtain ⟨hsoft, hanchor⟩ := List.mem_filter.mp (List.mem_of_mem_drop hmem)
  refine ⟨anchored, hsoft, rfl, ?_⟩
  obtain ⟨highest, hhighest, hmax⟩ :=
    ContiguousAnchoredBlocks.maxByAnchorId_mem (List.ne_nil_of_mem hsoft)
  rw [hmax] at hanchor
  have hbatch : (soft.intoOutstanding safeAnchor settings).anchorBlock = highest.anchor := by
    unfold ContiguousAnchoredBlocks.intoOutstanding
    rw [hmax]
    rfl
  rw [hbatch]
  exact hshares anchored hsoft highest hhighest (of_decide_eq_true hanchor)

/-- The batches under the anchors of a map keep the anchors of the soft blocks. -/
theorem Grouped.keepsAnchors {inner : OrderedMap Nat (List Batch)}
    {soft : ContiguousAnchoredBlocks} (h : Grouped inner soft.blocks)
    (hshares : SharesAnchors soft.blocks) : KeepsAnchors soft inner.values.flatten := by
  intro batch hbatch block hblock
  obtain ⟨batches, hbatches, hmem⟩ := List.mem_flatten.mp hbatch
  obtain ⟨key, hkey⟩ := OrderedMap.mem_values_iff.mp hbatches
  obtain ⟨hnumber, hanchor⟩ := h.anchors key batches hkey batch hmem
  obtain ⟨origin, horigin, horiginAnchor⟩ := List.mem_map.mp hanchor
  have hin : block ∈ blocksOf batches := mem_blocksOf.mpr ⟨batch, hmem, hblock⟩
  rw [h.blocks key batches hkey] at hin
  obtain ⟨anchored, hanchored, rfl⟩ := List.mem_map.mp hin
  obtain ⟨hsoft, hid⟩ := List.mem_filter.mp hanchored
  refine ⟨anchored, hsoft, rfl, ?_⟩
  rw [← horiginAnchor]
  refine hshares anchored hsoft origin horigin ((of_decide_eq_true hid).trans ?_)
  rw [AnchoredBlock.anchorId, horiginAnchor, hnumber]

/-- Without a reorg reason, the pipeline keeps the anchors of the soft blocks. -/
theorem keepsAnchors_createBatchMap {input : PipelineInput} {soft : ContiguousAnchoredBlocks}
    {map : BatchMap .retimestamped} (h : Mk1.createBatchMap input soft = .ok map)
    (hshares : SharesAnchors soft.blocks) (hreasons : map.reorgReasons = []) :
    KeepsAnchors soft map.intoVec.batches := by
  obtain ⟨initial, anchored, -, hgrouped, -, hmap, hcases⟩ := createBatchMap_cases input soft
  obtain rfl : anchored.retimestamp input.minTs input.maxTs = map :=
    Except.ok.inj (hmap.symm.trans h)
  rw [BatchMap.reorgReasons_retimestamp] at hreasons
  split at hreasons
  · next hrange =>
      have hkept : (anchored.retimestamp input.minTs input.maxTs).intoVec.batches =
          anchored.inner.values.flatten := by
        have hall := List.all_eq_true.mp hrange
        rw [BatchMap.intoVec_retimestamp, List.takeWhile_eq_self_iff.mpr hall,
          List.dropWhile_eq_nil_iff.mpr hall, List.map_nil, List.append_nil]
      rw [hkept]
      obtain ⟨-, rfl⟩ | ⟨oldest, -, -, -, -, hreanchored⟩ := hcases
      · exact hgrouped.keepsAnchors hshares
      · rw [hreanchored] at hreasons
        cases hreasons
  · simp at hreasons

/-- A plan without a reorg reason keeps every soft block under the anchor that it was downloaded
with. -/
theorem sync_anchors {cfg : RuntimeConfig} {status : DriverStatus} {reads : SyncReads}
    {plan : SyncPlan} (h : Syncer.sync cfg status reads = some plan)
    (hreasons : plan.reorgReasons = []) :
    (∀ batch ∈ plan.batches.batches, batch.blocks = []) ∨
      ∃ soft, reads.softBlocks = some soft ∧ KeepsAnchors soft plan.batches.batches := by
  obtain ⟨l1Anchor, rfl⟩ | ⟨soft, hsoft, hcases⟩ := Syncer.sync_cases h
  · exact .inl (by simp [SyncPlan.empty])
  · obtain ⟨l2Head, -, hdownload⟩ := Option.bind_eq_some_iff.mp hsoft
    obtain ⟨l2HeadL1Origin, -, hdownload⟩ := Option.bind_eq_some_iff.mp hdownload
    have hshares := download_sharesAnchors hdownload
    refine .inr ⟨soft, hsoft, ?_⟩
    obtain ⟨l1Anchor, hbatches, -⟩ | ⟨-, l1Anchor, hcreate⟩ := hcases
    · rw [hbatches]
      exact keepsAnchors_intoOutstanding hshares l1Anchor cfg.batchSettings
    · obtain ⟨-, -, -, -, ⟨hbatches, -⟩ | ⟨input, map, hmap, -, hbatches, hplan⟩⟩ :=
        Syncer.createBatches_cases hcreate
      · rw [hbatches]
        simp [KeepsAnchors]
      · rw [hbatches]
        exact keepsAnchors_createBatchMap hmap hshares (hplan.symm.trans hreasons)

end Mk1
