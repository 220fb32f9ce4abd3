import Mk1.Library.OrderedMap
import Mk1.Primitives.Block

/-!
# The batch map

The pipeline of `taiko/batch_map.rs` that turns soft blocks into batches:
`BatchMap.new`, `ensureUniqueCoinbase`, `reanchor`, `retimestamp` and
`intoVec`. The stage that a map has reached is a type index, as it is a marker
type in the source, and every `expect` is a possible `Panic`.

The `i`-th block that a loop places meets the compression estimate `estimates i`.
-/

namespace Mk1

/-- The stages of a batch map, each of which implies the ones before it. -/
inductive MapStage where
  | initial
  | coinbaseChecked
  | anchored
  | retimestamped

/-- The reason for which a batch might cause an L2 reorg. -/
inductive ReorgReason where
  | reanchor (expiredAnchor newAnchor : Nat)
  | retimestamp (minTs maxTs : Nat)
  deriving DecidableEq, Repr

/-- `ReorgReasons::only_reanchoring`. -/
def onlyReanchoring (reasons : List ReorgReason) : Bool :=
  reasons.all fun reason =>
    match reason with
    | .reanchor .. => true
    | .retimestamp .. => false

/-- Whether a reason is a re-anchoring. -/
def ReorgReason.isReanchor : ReorgReason → Bool
  | .reanchor .. => true
  | .retimestamp .. => false

/-- Whether a reason is a re-timestamping. -/
def ReorgReason.isRetimestamp : ReorgReason → Bool
  | .reanchor .. => false
  | .retimestamp .. => true

/-- A map of anchor block ids to their batches, with the reorg reasons collected so far. -/
structure BatchMap (stage : MapStage) where
  inner : OrderedMap Nat (List Batch)
  reorgReasons : List ReorgReason

/-- The compression estimate met by each of the size checks of a loop. -/
abbrev Estimates := Nat → CompressionEstimate

/-- The estimates met after the first size check. -/
def Estimates.tail (estimates : Estimates) : Estimates := fun check => estimates (check + 1)

namespace BatchMap

/-- `BatchMap::from`: a map without reorg reasons. -/
def ofInner {stage : MapStage} (inner : OrderedMap Nat (List Batch)) : BatchMap stage :=
  ⟨inner, []⟩

/-- The empty map. -/
def default {stage : MapStage} : BatchMap stage := ofInner .empty

/-- One iteration of the loop of `BatchMap::new`. -/
def addAnchoredBlock (estimate : CompressionEstimate) (settings : BatchSettings)
    (inner : OrderedMap Nat (List Batch)) (anchoredBlock : AnchoredBlock) :
    Except Panic (OrderedMap Nat (List Batch)) :=
  let preconfirmed := PreconfirmedBlock.fromBlock anchoredBlock.block
  let anchor := anchoredBlock.anchor
  let anchorBlockId := anchor.number
  match inner.find? anchorBlockId with
  | some batchesByAnchor => do
      let currentBatch ← expect batchesByAnchor.getLast? "map entry exists"
      let batchesByAnchor := batchesByAnchor.dropLast
      match currentBatch.addBlockAndResetIfFull estimate preconfirmed anchor with
      | (.added _, currentBatch) =>
          pure (inner.insert anchorBlockId (batchesByAnchor ++ [currentBatch]))
      | (.full _ batch, newBatch) =>
          pure (inner.insert anchorBlockId (batchesByAnchor ++ [batch, newBatch]))
  | none =>
      -- the first batch under an anchor takes the coinbase of its first block
      let batch := Batch.fromBlocksUnchecked anchor
        { settings with defaultCoinbase := preconfirmed.coinbase } [preconfirmed]
      pure (inner.insert anchorBlockId [batch])

/-- The loop of `BatchMap::new`. -/
def addAnchoredBlocks (estimates : Estimates) (settings : BatchSettings)
    (inner : OrderedMap Nat (List Batch)) :
    List AnchoredBlock → Except Panic (OrderedMap Nat (List Batch))
  | [] => pure inner
  | anchoredBlock :: rest => do
      let inner ← addAnchoredBlock (estimates 0) settings inner anchoredBlock
      addAnchoredBlocks estimates.tail settings inner rest

/-- The first block number of a batch, which must not be empty. -/
def firstNumber (batch : Batch) : Except Panic Nat := do
  let first ← expect batch.blocks.head? "non-empty batches"
  pure first.number

/-- Pair every batch with its first block number. -/
def keyByFirstNumber : List Batch → Except Panic (List (Nat × Batch))
  | [] => pure []
  | batch :: rest => do
      let number ← firstNumber batch
      let keyed ← keyByFirstNumber rest
      pure ((number, batch) :: keyed)

/-- Sort batches by their first block number. A list of fewer than two elements is left alone
without computing a key. -/
def sortByFirstNumber (batches : List Batch) : Except Panic (List Batch) :=
  if batches.length < 2 then pure batches
  else do
    let keyed ← keyByFirstNumber batches
    pure ((sortByKey Prod.fst keyed).map Prod.snd)

/-- Group soft blocks by anchor, filling batches up to the settings' limits. -/
def new (estimates : Estimates) (anchoredBlocks : ContiguousAnchoredBlocks)
    (settings : BatchSettings) : Except Panic (BatchMap .initial) :=
  if anchoredBlocks.blocks.isEmpty then pure default
  else do
    let inner ← addAnchoredBlocks estimates settings .empty anchoredBlocks.blocks
    let inner ← inner.traverseValues sortByFirstNumber
    pure (ofInner inner)

/-- Split the batches whose blocks do not share a coinbase. -/
def ensureUniqueCoinbase (map : BatchMap .initial) : BatchMap .coinbaseChecked :=
  ofInner (map.inner.mapValues fun batches => batches.flatMap Batch.splitByCoinbase)

/-- The least anchor block number in the map. -/
def minAnchor {stage : MapStage} (map : BatchMap stage) : Option Nat :=
  map.inner.minKey?

/-- Whether the oldest anchor is below the minimum proposable one. -/
def shouldReanchor {stage : MapStage} (map : BatchMap stage)
    (minProposableAnchor : Nat) : Except Panic Bool :=
  match map.minAnchor with
  | none => pure false
  | some key => do
      let batches ← expect (map.inner.find? key) "key exists"
      match batches.head? with
      | none => pure false
      | some first => pure (decide (first.anchorBlock.number < minProposableAnchor))

/-- `entry(key).or_insert_with(Vec::new).push(batch)`. -/
def pushBatch (inner : OrderedMap Nat (List Batch)) (key : Nat) (batch : Batch) :
    OrderedMap Nat (List Batch) :=
  inner.insert key ((inner.find? key).getD [] ++ [batch])

/-- The loop of `BatchMap::reanchor`: the map being built, the batch being filled, and the
blocks still to place. -/
def reassemble (estimates : Estimates) (safeL1Anchor : Header)
    (inner : OrderedMap Nat (List Batch)) (cursor : Batch) :
    List PreconfirmedBlock → OrderedMap Nat (List Batch) × Batch
  | [] => (inner, cursor)
  | block :: rest =>
      match cursor.addBlockAndResetIfFull (estimates 0) block safeL1Anchor with
      | (.added _, cursor) => reassemble estimates.tail safeL1Anchor inner cursor rest
      | (.full _ batch, cursor) =>
          reassemble estimates.tail safeL1Anchor (pushBatch inner batch.anchorId batch) cursor rest

/-- If some anchor is too old, rebuild all batches on the safe anchor. -/
def reanchor (estimates : Estimates) (map : BatchMap .coinbaseChecked)
    (minProposableAnchor : Nat) (safeL1Anchor : Header) (settings : BatchSettings) :
    Except Panic (BatchMap .anchored) :=
  match map.minAnchor with
  | none => pure (ofInner map.inner)
  | some minAnchor => do
      if !(← map.shouldReanchor minProposableAnchor) then return ofInner map.inner
      -- dismantle the batches back into blocks, sorted by number
      let blocks := map.inner.values.flatten.flatMap Batch.blocks
      let blocks := sortByKey PreconfirmedBlock.number blocks
      -- reassemble them on the safe anchor
      let (inner, cursor) :=
        reassemble estimates safeL1Anchor .empty (Batch.new safeL1Anchor settings) blocks
      let inner := pushBatch inner safeL1Anchor.number cursor
      pure ⟨inner, [.reanchor minAnchor safeL1Anchor.number]⟩

/-- Whether a block's timestamp is outside of the valid range. -/
def timestampOutOfRange (minTs maxTs : Nat) (block : PreconfirmedBlock) : Bool :=
  block.timestamp < minTs || maxTs < block.timestamp

/-- The inner loop of `BatchMap::retimestamp`: the batches under one anchor. Once a batch has a
block outside of the range, it and every later batch is moved to the maximum timestamp. -/
def retimestampBatches (minTs maxTs : Nat) (shouldRetimestamp : Bool) :
    List Batch → Bool × List Batch
  | [] => (shouldRetimestamp, [])
  | batch :: rest =>
      let shouldRetimestamp :=
        shouldRetimestamp || batch.blocks.any (timestampOutOfRange minTs maxTs)
      let batch := if shouldRetimestamp then batch.setAllBlocksTimestamp maxTs else batch
      let (final, batches) := retimestampBatches minTs maxTs shouldRetimestamp rest
      (final, batch :: batches)

/-- Move the timestamps to the maximum from the first batch with a block outside of the range. -/
def retimestamp (map : BatchMap .anchored) (minTs maxTs : Nat) :
    BatchMap .retimestamped :=
  let (shouldRetimestamp, inner) :=
    map.inner.accumValues (retimestampBatches minTs maxTs) false
  let reorgReasons :=
    if shouldRetimestamp then map.reorgReasons ++ [.retimestamp minTs maxTs]
    else map.reorgReasons
  ⟨inner, reorgReasons⟩

/-- The batches in the order of their anchors. -/
def intoVec (map : BatchMap .retimestamped) : OrderedBatches :=
  ⟨map.inner.values.flatten⟩

end BatchMap

/-- What the two placing loops of the pipeline read besides the soft blocks: the settings, the
estimates met by the loop of `new` and by the loop of `reanchor`, and the arguments of
`reanchor` and `retimestamp`. -/
structure PipelineInput where
  settings : BatchSettings
  newEstimates : Estimates
  reanchorEstimates : Estimates
  minProposableAnchor : Nat
  safeL1Anchor : Header
  minTs : Nat
  maxTs : Nat

/-- The calls that `Syncer::create_batch_map` chains. -/
def createBatchMap (input : PipelineInput) (soft : ContiguousAnchoredBlocks) :
    Except Panic (BatchMap .retimestamped) := do
  let map ← BatchMap.new input.newEstimates soft input.settings
  let map ← map.ensureUniqueCoinbase.reanchor input.reanchorEstimates input.minProposableAnchor
    input.safeL1Anchor input.settings
  pure (map.retimestamp input.minTs input.maxTs)

end Mk1
