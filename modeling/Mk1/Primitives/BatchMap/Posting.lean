import Mk1.Primitives.BatchMap.Contiguity
import Mk1.Primitives.BatchMap.TimeShift

/-!
# What is posted

The L2 chain is derived from the batches that are posted to the L1, so a
preconfirmed block survives only if it is posted with its own timestamp,
transactions, coinbase and anchor. The documentation of `reorg_reasons` promises
this if there are none: `reorgReasons_eq_nil_iff` says that the reasons are
exact. `resync_stable` says that a sync of the blocks that were posted finds
nothing to change any more.
-/

namespace Mk1

/-- An L2 block with all that the batch it is posted in decides about it. -/
structure PostedBlock where
  number : Nat
  timestamp : Nat
  txList : List TxEnvelope
  coinbase : Address
  anchorId : Nat
  deriving DecidableEq, Repr

/-- A block with this coinbase and anchor. -/
def PreconfirmedBlock.postedWith (block : PreconfirmedBlock) (coinbase : Address)
    (anchorId : Nat) : PostedBlock :=
  { number := block.number
    timestamp := block.timestamp
    txList := block.txList
    coinbase := coinbase
    anchorId := anchorId }

/-- The blocks of a batch as they are posted, with the coinbase and the anchor of the batch. -/
def Batch.posted (batch : Batch) : List PostedBlock :=
  batch.blocks.map fun block => block.postedWith batch.coinbase batch.anchorId

/-- The blocks of all batches as they are posted. -/
def postedBlocks (batches : List Batch) : List PostedBlock := batches.flatMap Batch.posted

/-- A soft block as it was preconfirmed. -/
def AnchoredBlock.preconfirmed (anchored : AnchoredBlock) : PostedBlock :=
  anchored.intoPreconfirmed.postedWith anchored.intoPreconfirmed.coinbase anchored.anchorId

/-- The soft blocks as they were preconfirmed. -/
def ContiguousAnchoredBlocks.preconfirmed (soft : ContiguousAnchoredBlocks) : List PostedBlock :=
  soft.blocks.map AnchoredBlock.preconfirmed

/-- No anchor is too old, and no timestamp is out of range. -/
structure PipelineInput.Accepts (input : PipelineInput) (blocks : List PostedBlock) : Prop where
  anchors : ∀ block ∈ blocks, input.minProposableAnchor ≤ block.anchorId
  timestamps : ∀ block ∈ blocks, input.minTs ≤ block.timestamp ∧ block.timestamp ≤ input.maxTs

/-- Whether blocks are accepted does not depend on their order. -/
theorem PipelineInput.Accepts.perm {input : PipelineInput} {left right : List PostedBlock}
    (h : input.Accepts left) (hperm : right.Perm left) : input.Accepts right where
  anchors block hblock := h.anchors block (hperm.mem_iff.mp hblock)
  timestamps block hblock := h.timestamps block (hperm.mem_iff.mp hblock)

/-- A posted block is a block of one of the batches. -/
theorem mem_postedBlocks {batches : List Batch} {posted : PostedBlock} :
    posted ∈ postedBlocks batches ↔ ∃ batch ∈ batches, ∃ block ∈ batch.blocks,
      posted = block.postedWith batch.coinbase batch.anchorId := by
  simp [postedBlocks, Batch.posted, eq_comm]

/-! ## Batches that keep their blocks as they were -/

/-- The anchor of the soft block with this number. -/
def ContiguousAnchoredBlocks.anchorIdAt (soft : ContiguousAnchoredBlocks) (number : Nat) : Nat :=
  ((soft.blocks.find? fun anchored => anchored.number = number).map AnchoredBlock.anchorId).getD 0

/-- A soft block is found by its number. -/
theorem ContiguousAnchoredBlocks.anchorIdAt_number (soft : ContiguousAnchoredBlocks)
    {anchored : AnchoredBlock} (h : anchored ∈ soft.blocks) :
    soft.anchorIdAt anchored.number = anchored.anchorId := by
  unfold anchorIdAt
  cases hfind : soft.blocks.find? fun other => other.number = anchored.number with
  | none =>
      have hnone := List.find?_eq_none.mp hfind anchored h
      simp at hnone
  | some other =>
      have hnumber := List.find?_some hfind
      obtain rfl : other = anchored :=
        soft.eq_of_number_eq (List.mem_of_find?_eq_some hfind) h (by simpa using hnumber)
      rfl

/-- A preconfirmed block with the anchor of the soft block that it was. -/
def ContiguousAnchoredBlocks.asPreconfirmed (soft : ContiguousAnchoredBlocks)
    (block : PreconfirmedBlock) : PostedBlock :=
  block.postedWith block.coinbase (soft.anchorIdAt block.number)

/-- The soft blocks are preconfirmed with their anchors. -/
theorem ContiguousAnchoredBlocks.preconfirmed_eq (soft : ContiguousAnchoredBlocks) :
    soft.preconfirmed = soft.intoPreconfirmed.map soft.asPreconfirmed := by
  unfold preconfirmed intoPreconfirmed
  rw [List.map_map]
  refine List.map_congr_left fun anchored hanchored => ?_
  rw [AnchoredBlock.preconfirmed, ← soft.anchorIdAt_number hanchored]
  rfl

/-- Batches of soft blocks with one anchor and one coinbase each are posted as the blocks were
preconfirmed. -/
theorem postedBlocks_of_grouped {map : BatchMap .initial} {soft : ContiguousAnchoredBlocks}
    (h : Grouped map.ensureUniqueCoinbase.inner soft.blocks) :
    postedBlocks map.ensureUniqueCoinbase.inner.values.flatten =
      (blocksOf map.ensureUniqueCoinbase.inner.values.flatten).map soft.asPreconfirmed := by
  unfold postedBlocks blocksOf
  rw [List.map_flatMap]
  refine List.flatMap_congr fun batch hbatch => ?_
  refine List.map_congr_left fun block hblock => ?_
  obtain ⟨batches, hbatches, hmem⟩ := List.mem_flatten.mp hbatch
  have hcoinbase : block.coinbase = batch.coinbase := by
    simp only [BatchMap.ensureUniqueCoinbase, BatchMap.ofInner, OrderedMap.values_mapValues,
      List.mem_map] at hbatches
    obtain ⟨parts, -, rfl⟩ := hbatches
    obtain ⟨whole, -, hpart⟩ := List.mem_flatMap.mp hmem
    exact Batch.splitByCoinbase_coinbase hpart block hblock
  have hsoft : block ∈ soft.intoPreconfirmed :=
    h.perm.mem_iff.mp (mem_blocksOf.mpr ⟨batch, hbatch, hblock⟩)
  obtain ⟨anchored, hanchored, rfl⟩ := List.mem_map.mp hsoft
  have hanchor : soft.anchorIdAt anchored.intoPreconfirmed.number = batch.anchorId :=
    (soft.anchorIdAt_number hanchored).trans (h.anchorId_eq hbatch hanchored hblock)
  rw [ContiguousAnchoredBlocks.asPreconfirmed, hanchor, hcoinbase]

/-! ## The reasons are exact -/

/-- There are no reasons exactly if the preconfirmed blocks are accepted. -/
theorem reorgReasons_eq_nil_iff_accepts {input : PipelineInput} {soft : ContiguousAnchoredBlocks}
    {map : BatchMap .retimestamped} (h : createBatchMap input soft = .ok map) :
    map.reorgReasons = [] ↔ input.Accepts soft.preconfirmed := by
  obtain ⟨initial, anchored, -, hgrouped, hanchored, hmap, hcases⟩ :=
    createBatchMap_cases input soft
  obtain rfl : anchored.retimestamp input.minTs input.maxTs = map :=
    Except.ok.inj (hmap.symm.trans h)
  have hblocks := (reanchored_blocks hgrouped hanchored).1
  have hrange : anchored.inner.values.flatten.all (Batch.inRange input.minTs input.maxTs) = true ↔
      ∀ block ∈ soft.preconfirmed,
        input.minTs ≤ block.timestamp ∧ block.timestamp ≤ input.maxTs := by
    rw [BatchMap.all_inRange_iff]
    simp [hblocks.mem_iff, ContiguousAnchoredBlocks.preconfirmed,
      ContiguousAnchoredBlocks.intoPreconfirmed, BatchMap.timestampOutOfRange,
      AnchoredBlock.preconfirmed, PreconfirmedBlock.postedWith]
  rw [BatchMap.reorgReasons_retimestamp]
  constructor
  · intro hnone
    split at hnone
    · next hall =>
        obtain ⟨hyoung, rfl⟩ | ⟨oldest, -, -, -, -, hreasons⟩ := hcases
        · refine ⟨fun block hblock => ?_, hrange.mp hall⟩
          obtain ⟨source, hsource, rfl⟩ := List.mem_map.mp hblock
          exact hyoung source hsource
        · rw [hreasons] at hnone
          cases hnone
    · simp at hnone
  · intro haccepts
    rw [if_pos (hrange.mpr haccepts.timestamps)]
    obtain ⟨-, rfl⟩ | ⟨oldest, hmem, hlt, -⟩ := hcases
    · rfl
    · have hyoung := haccepts.anchors _ (List.mem_map_of_mem hmem)
      exact absurd hlt (Nat.not_lt.mpr hyoung)

/-- Whatever the soft blocks, the posted ones are accepted, if the safe anchor is and the range of
timestamps is not empty. -/
theorem accepts_postedBlocks {input : PipelineInput} {soft : ContiguousAnchoredBlocks}
    {map : BatchMap .retimestamped} (h : createBatchMap input soft = .ok map)
    (hsafe : input.minProposableAnchor ≤ input.safeL1Anchor.number)
    (hrange : input.minTs ≤ input.maxTs) : input.Accepts (postedBlocks map.intoVec.batches) := by
  obtain ⟨initial, anchored, -, hgrouped, -, hmap, hcases⟩ := createBatchMap_cases input soft
  obtain rfl : anchored.retimestamp input.minTs input.maxTs = map :=
    Except.ok.inj (hmap.symm.trans h)
  have hanchors : ∀ batch ∈ anchored.inner.values.flatten,
      input.minProposableAnchor ≤ batch.anchorId := by
    intro batch hbatch
    obtain ⟨hyoung, rfl⟩ | ⟨oldest, -, -, -, hvalues, -⟩ := hcases
    · obtain ⟨batches, hbatches, hmem⟩ := List.mem_flatten.mp hbatch
      obtain ⟨key, hfind⟩ := OrderedMap.mem_values_iff.mp hbatches
      have hkey : batch.anchorId = key := (hgrouped.anchors key batches hfind batch hmem).1
      obtain ⟨source, hsource, hid⟩ := (hgrouped.keys key).mp
        (OrderedMap.mem_keys_iff.mpr ⟨batches, hfind⟩)
      rw [hkey, ← hid]
      exact hyoung source hsource
    · rw [hvalues, List.flatten_singleton] at hbatch
      have hanchor :=
        (refill_soft input.reanchorEstimates input.safeL1Anchor input.settings soft).2 batch hbatch
      rw [Batch.anchorId, hanchor]
      exact hsafe
  constructor
  · intro posted hposted
    obtain ⟨batch, hbatch, block, -, rfl⟩ := mem_postedBlocks.mp hposted
    have hid : batch.anchorId ∈ anchored.inner.values.flatten.map Batch.anchorId := by
      rw [← anchored.anchorId_retimestamp input.minTs input.maxTs]
      exact List.mem_map_of_mem hbatch
    obtain ⟨source, hsource, heq⟩ := List.mem_map.mp hid
    show _ ≤ batch.anchorId
    rw [← heq]
    exact hanchors source hsource
  · intro posted hposted
    obtain ⟨batch, hbatch, block, hblock, rfl⟩ := mem_postedBlocks.mp hposted
    exact anchored.timestamp_retimestamp input.minTs input.maxTs hrange
      (mem_blocksOf.mpr ⟨batch, hbatch, hblock⟩)

/-- If the preconfirmed blocks are accepted, they are posted as they were, in their order if their
anchors never decrease. -/
theorem postedBlocks_of_accepts {input : PipelineInput} {soft : ContiguousAnchoredBlocks}
    {map : BatchMap .retimestamped} (h : createBatchMap input soft = .ok map)
    (haccepts : input.Accepts soft.preconfirmed) :
    (postedBlocks map.intoVec.batches).Perm soft.preconfirmed ∧
      (soft.AnchorsAscend → postedBlocks map.intoVec.batches = soft.preconfirmed) := by
  have hnone := (reorgReasons_eq_nil_iff_accepts h).mpr haccepts
  obtain ⟨initial, anchored, -, hgrouped, -, hmap, hcases⟩ := createBatchMap_cases input soft
  obtain rfl : anchored.retimestamp input.minTs input.maxTs = map :=
    Except.ok.inj (hmap.symm.trans h)
  rw [BatchMap.reorgReasons_retimestamp] at hnone
  split at hnone
  case isFalse => simp at hnone
  case isTrue hall =>
  obtain ⟨-, rfl⟩ | ⟨oldest, -, -, -, -, hreasons⟩ := hcases
  · -- nothing is re-timestamped, so the batches are those of the grouped soft blocks
    have hbatches : ((BatchMap.ofInner initial.ensureUniqueCoinbase.inner :
        BatchMap .anchored).retimestamp input.minTs input.maxTs).intoVec.batches =
          initial.ensureUniqueCoinbase.inner.values.flatten := by
      rw [BatchMap.intoVec_retimestamp]
      have hkept := List.takeWhile_eq_self_iff.mpr (List.all_eq_true.mp hall)
      have hmoved := List.dropWhile_eq_nil_iff.mpr (List.all_eq_true.mp hall)
      rw [hkept, hmoved, List.map_nil, List.append_nil]
      rfl
    rw [hbatches, postedBlocks_of_grouped hgrouped, soft.preconfirmed_eq]
    refine ⟨hgrouped.perm.map _, fun hascend => ?_⟩
    rw [hgrouped.blocks_eq hascend]
    rfl
  · rw [hreasons] at hnone
    cases hnone

/-- The reorg reasons are exact: there are none if and only if every soft block is posted as it was
preconfirmed, with its own timestamp, transactions, coinbase and anchor. -/
theorem reorgReasons_eq_nil_iff {input : PipelineInput} {soft : ContiguousAnchoredBlocks}
    {map : BatchMap .retimestamped} (h : createBatchMap input soft = .ok map)
    (hsafe : input.minProposableAnchor ≤ input.safeL1Anchor.number)
    (hrange : input.minTs ≤ input.maxTs) :
    map.reorgReasons = [] ↔ (postedBlocks map.intoVec.batches).Perm soft.preconfirmed := by
  rw [reorgReasons_eq_nil_iff_accepts h]
  constructor
  · exact fun haccepts => (postedBlocks_of_accepts h haccepts).1
  · exact fun hperm => (accepts_postedBlocks h hsafe hrange).perm hperm.symm

/-- The arguments of a sync for which anchor 11 is the oldest allowed and 12 is safe. -/
def postingInput : PipelineInput :=
  ⟨⟨10, 1000, 0, 64, 8⟩, fun _ size => size, fun _ size => size, 11, l1Header 12, 50, 2000⟩

/-- Two soft blocks on anchor 10 are not posted as they were. -/
theorem reorgReasons_of_two : ∃ map, createBatchMap postingInput (twoSoftBlocks 12) = .ok map ∧
    map.reorgReasons ≠ [] ∧
    (map.reorgReasons = [] ↔
      (postedBlocks map.intoVec.batches).Perm (twoSoftBlocks 12).preconfirmed) := by
  obtain ⟨map, hmap, hreasons⟩ : ∃ map,
      (createBatchMap postingInput (twoSoftBlocks 12)).toOption = some map ∧
        map.reorgReasons = [.reanchor 10 12] :=
    Option.map_eq_some_iff.mp (by decide)
  rw [toOption_eq_some] at hmap
  exact ⟨map, hmap, by simp [hreasons], reorgReasons_eq_nil_iff hmap (by decide) (by decide)⟩

/-- Once what a sync has posted is the preconfirmed chain, another sync finds nothing to change and
posts the same blocks, as long as the thresholds have not moved past those of the first one. -/
theorem resync_stable {input input' : PipelineInput} {soft soft' : ContiguousAnchoredBlocks}
    {map map' : BatchMap .retimestamped} (h : createBatchMap input soft = .ok map)
    (h' : createBatchMap input' soft' = .ok map')
    (hsafe : input.minProposableAnchor ≤ input.safeL1Anchor.number)
    (hrange : input.minTs ≤ input.maxTs)
    (hchain : soft'.preconfirmed.Perm (postedBlocks map.intoVec.batches))
    (hanchor : input'.minProposableAnchor ≤ input.minProposableAnchor)
    (hminTs : input'.minTs ≤ input.minTs) (hmaxTs : input.maxTs ≤ input'.maxTs) :
    map'.reorgReasons = [] ∧
      (postedBlocks map'.intoVec.batches).Perm (postedBlocks map.intoVec.batches) := by
  have hposted := (accepts_postedBlocks h hsafe hrange).perm hchain
  have haccepts : input'.Accepts soft'.preconfirmed := by
    refine ⟨fun block hblock => hanchor.trans (hposted.anchors block hblock),
      fun block hblock => ?_⟩
    obtain ⟨hmin, hmax⟩ := hposted.timestamps block hblock
    exact ⟨hminTs.trans hmin, hmax.trans hmaxTs⟩
  exact ⟨(reorgReasons_eq_nil_iff_accepts h').mpr haccepts,
    (postedBlocks_of_accepts h' haccepts).1.trans hchain⟩

/-- The two blocks after they have been posted on anchor 12. -/
def repostedBlocks : ContiguousAnchoredBlocks :=
  ⟨[{ softBlock 1 100 with anchor := l1Header 12 }, { softBlock 2 112 with anchor := l1Header 12 }],
    by simp [softBlock, AnchoredBlock.number]⟩

/-- The next sync leaves the two blocks on anchor 12 as they are. -/
theorem resync_stable_two : ∃ map map', createBatchMap postingInput (twoSoftBlocks 12) = .ok map ∧
    createBatchMap postingInput repostedBlocks = .ok map' ∧ map'.reorgReasons = [] ∧
    (postedBlocks map'.intoVec.batches).Perm (postedBlocks map.intoVec.batches) := by
  obtain ⟨map, hmap, hposted⟩ : ∃ map,
      (createBatchMap postingInput (twoSoftBlocks 12)).toOption = some map ∧
        postedBlocks map.intoVec.batches = repostedBlocks.preconfirmed :=
    Option.map_eq_some_iff.mp (by decide)
  obtain ⟨map', hmap', -⟩ : ∃ map',
      (createBatchMap postingInput repostedBlocks).toOption = some map' ∧
        map'.reorgReasons = [] :=
    Option.map_eq_some_iff.mp (by decide)
  rw [toOption_eq_some] at hmap hmap'
  have hchain : repostedBlocks.preconfirmed.Perm (postedBlocks map.intoVec.batches) :=
    hposted ▸ List.Perm.refl _
  exact ⟨map, map', hmap, hmap', resync_stable hmap hmap' (by decide) (by decide) hchain
    (Nat.le_refl _) (Nat.le_refl _) (Nat.le_refl _)⟩

end Mk1
