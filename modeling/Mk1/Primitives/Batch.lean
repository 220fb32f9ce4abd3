import Mk1.Primitives.Basic

/-!
# Batches of preconfirmed blocks

The `Batch` of `taiko/batch.rs` with the operations that fill, trim, split and
reset it. Every function that asks `ZlibCompressionEstimate::get` for a
compressed size takes that function as an argument, because the estimate is a
process-wide value which the batch poster moves between two calls.
-/

namespace Mk1

/-- What `ZlibCompressionEstimate::get` returns for each uncompressed size at some moment. -/
abbrev CompressionEstimate := Nat → Nat

/-- An L2 block that is preconfirmed and waiting to be proposed to L1. -/
structure PreconfirmedBlock where
  timestamp : Nat
  number : Nat
  coinbase : Address
  txList : List TxEnvelope
  deriving DecidableEq, Repr

namespace PreconfirmedBlock

/-- Build a block from a header and a list of transactions. -/
def new (header : Header) (txList : List TxEnvelope) : PreconfirmedBlock :=
  { timestamp := header.timestamp, number := header.number, coinbase := header.beneficiary,
    txList := txList }

/-- The raw encoded size of the transactions in the block. -/
def rawSize (block : PreconfirmedBlock) : Nat :=
  (block.txList.map TxEnvelope.eip2718EncodedLength).sum

/-- Build a block from a full block, leaving out the anchor transactions. -/
def fromBlock (value : Block) : PreconfirmedBlock :=
  { number := value.header.number, timestamp := value.header.timestamp,
    txList := (value.transactions.filter fun tx => tx.signer ≠ TAIKO_GOLDEN_TOUCH_ACCOUNT).map
      Transaction.inner,
    coinbase := value.header.beneficiary }

end PreconfirmedBlock

/-- The settings of a batch. -/
structure BatchSettings where
  capacity : Nat
  targetCompressedSize : Nat
  defaultCoinbase : Address
  maxAnchorHeightOffset : Nat
  anchorMaxHeightBuffer : Nat
  deriving DecidableEq, Repr

/-- A batch of blocks that have been produced but not yet proposed to the L1. -/
structure Batch where
  blocks : List PreconfirmedBlock
  anchorBlock : Header
  settings : BatchSettings
  coinbase : Address
  deriving DecidableEq, Repr

/-- The reason why a block could not be added to a batch. -/
inductive DoesntFitBlockReason where
  | capacity
  | targetSize (actual target : Nat)
  deriving DecidableEq, Repr

/-- The result of `Batch.addBlockAndResetIfFull`. -/
inductive AddBlockResult where
  | added (rawSize : Nat)
  | full (reason : DoesntFitBlockReason) (batch : Batch)
  deriving DecidableEq, Repr

namespace Batch

/-- An empty batch. -/
def new (anchorBlock : Header) (settings : BatchSettings) : Batch :=
  { blocks := [], anchorBlock := anchorBlock, settings := settings,
    coinbase := settings.defaultCoinbase }

/-- A batch with the given blocks, none of which is checked. -/
def fromBlocksUnchecked (anchorBlock : Header) (settings : BatchSettings)
    (blocks : List PreconfirmedBlock) : Batch :=
  { blocks := blocks, anchorBlock := anchorBlock, settings := settings,
    coinbase := settings.defaultCoinbase }

/-- The number of the anchor block. -/
def anchorId (batch : Batch) : Nat := batch.anchorBlock.number

/-- The raw size of the batch. -/
def rawSize (batch : Batch) : Nat := (batch.blocks.map PreconfirmedBlock.rawSize).sum

/-- Whether the batch has no blocks. -/
def isEmpty (batch : Batch) : Bool := batch.blocks.isEmpty

/-- Whether the batch can take a block with this transaction list: `none` if it can, the reason
otherwise. The size is checked before the capacity. -/
def doesntFit (estimate : CompressionEstimate) (batch : Batch) (txList : List TxEnvelope) :
    Option DoesntFitBlockReason :=
  let newBlockSize := (txList.map TxEnvelope.eip2718EncodedLength).sum
  let newCompressedSize := estimate (batch.rawSize + newBlockSize)
  if batch.settings.targetCompressedSize < newCompressedSize then
    some (.targetSize newCompressedSize batch.settings.targetCompressedSize)
  else if batch.blocks.length = batch.settings.capacity then some .capacity
  else none

/-- Keep the blocks whose number is greater than the given one. -/
def retainBlocksAfter (batch : Batch) (blockNumber : Nat) : Batch :=
  { batch with blocks := batch.blocks.filter fun block => blockNumber < block.number }

/-- Keep the blocks whose number is less than the given one. -/
def retainBlocksBefore (batch : Batch) (blockNumber : Nat) : Batch :=
  { batch with blocks := batch.blocks.filter fun block => block.number < blockNumber }

/-- Move the blocks out into a batch of their own, and give the emptied batch a new anchor.
The first component is the batch taken, the second the batch left behind. -/
def takeAndReset (batch : Batch) (newAnchorBlock : Header) : Batch × Batch :=
  (batch, { batch with blocks := [], anchorBlock := newAnchorBlock })

/-- Append a block. -/
def push (batch : Batch) (block : PreconfirmedBlock) : Batch :=
  { batch with blocks := batch.blocks ++ [block] }

/-- Add a block to the batch. If it does not fit, the batch is taken and returned, and the block
goes alone into the reset batch. The second component is the batch after the call. -/
def addBlockAndResetIfFull (estimate : CompressionEstimate) (batch : Batch)
    (block : PreconfirmedBlock) (newAnchor : Header) : AddBlockResult × Batch :=
  let batch := batch.retainBlocksBefore block.number
  match batch.doesntFit estimate block.txList with
  | none =>
      let batch := batch.push block
      (.added batch.rawSize, batch)
  | some reason =>
      let (this, batch) := batch.takeAndReset newAnchor
      (.full reason this, batch.push block)

/-- The timestamp of the first block. -/
def firstTimestamp (batch : Batch) : Option Nat :=
  batch.blocks.head?.map PreconfirmedBlock.timestamp

/-- The timestamp of the last block. -/
def lastTimestamp (batch : Batch) : Option Nat :=
  batch.blocks.getLast?.map PreconfirmedBlock.timestamp

/-- Whether the last block is so far behind the new one that an empty block should be built to
reset the timeshift. -/
def shouldBuildEmptyBlock (batch : Batch) (newBlockTs : Nat) : Bool :=
  match batch.lastTimestamp with
  | none => false
  | some lastTs => lastTs ≤ newBlockTs - TIMESHIFT_BUFFER_SECS

/-- The number of slots left before the anchor or the first timestamp of the batch is too old. -/
def computeAgeLimit (batch : Batch) (nextBlockTs : Nat) (nextBlockNumber : Nat) :
    Nat :=
  let anchorAge := nextBlockNumber - batch.anchorId
  let anchorSlotsLeft := batch.settings.maxAnchorHeightOffset - anchorAge
  let timeshiftLimit := batch.settings.maxAnchorHeightOffset * SLOT_DURATION_SECS
  match batch.firstTimestamp with
  | some firstTimestamp =>
      let distance := nextBlockTs - firstTimestamp
      let timeshiftSecondsLeft := timeshiftLimit - distance
      let timeshiftSlotsLeft := timeshiftSecondsLeft / SLOT_DURATION_SECS
      min anchorSlotsLeft timeshiftSlotsLeft
  | none => anchorSlotsLeft

/-- The range of block numbers in the batch, `0..=0` if it is empty. -/
def blocksRange (batch : Batch) : RangeInclusive :=
  match batch.blocks.head?, batch.blocks.getLast? with
  | some first, some last => ⟨first.number, last.number⟩
  | _, _ => ⟨0, 0⟩

/-- Change the anchor block of the batch. -/
def changeAnchor (batch : Batch) (newAnchor : Header) : Batch :=
  { batch with anchorBlock := newAnchor }

/-- Change the coinbase of the batch. -/
def changeCoinbase (batch : Batch) (newCoinbase : Address) : Batch :=
  { batch with coinbase := newCoinbase }

/-- Give every block of the batch the same timestamp. -/
def setAllBlocksTimestamp (batch : Batch) (timestamp : Nat) : Batch :=
  { batch with blocks := batch.blocks.map fun block => { block with timestamp := timestamp } }

/-- The loop of `Batch.splitByCoinbase`: the batch being filled and the blocks still to place. -/
def splitByCoinbaseLoop (currentBatch : Batch) : List PreconfirmedBlock → List Batch
  | [] => [currentBatch]
  | block :: rest =>
      if currentBatch.coinbase ≠ block.coinbase then
        let fresh := (new currentBatch.anchorBlock currentBatch.settings).changeCoinbase
          block.coinbase
        currentBatch :: splitByCoinbaseLoop (fresh.push block) rest
      else splitByCoinbaseLoop (currentBatch.push block) rest

/-- Split the batch where the coinbase of its blocks changes. -/
def splitByCoinbase (batch : Batch) : List Batch :=
  match batch.blocks with
  | [] => []
  | firstBlock :: _ =>
      splitByCoinbaseLoop
        ((new batch.anchorBlock batch.settings).changeCoinbase firstBlock.coinbase) batch.blocks

end Batch

/-- Batches in the order in which they are proposed. -/
structure OrderedBatches where
  batches : List Batch
  deriving DecidableEq, Repr

/-- The last batch if its coinbase is the given one, and the batches that stay behind. -/
def OrderedBatches.popWithCoinbase (ordered : OrderedBatches) (coinbase : Address) :
    Option Batch × OrderedBatches :=
  match ordered.batches.getLast? with
  | none => (none, ordered)
  | some last =>
      if last.coinbase ≠ coinbase then (none, ordered)
      else (some last, ⟨ordered.batches.dropLast⟩)

/-! ## What the operations do to a batch -/

namespace Batch

@[simp] theorem blocks_new (anchorBlock : Header) (settings : BatchSettings) :
    (new anchorBlock settings).blocks = [] := rfl

@[simp] theorem anchorBlock_new (anchorBlock : Header) (settings : BatchSettings) :
    (new anchorBlock settings).anchorBlock = anchorBlock := rfl

@[simp] theorem blocks_changeCoinbase (batch : Batch) (newCoinbase : Address) :
    (batch.changeCoinbase newCoinbase).blocks = batch.blocks := rfl

@[simp] theorem anchorBlock_changeCoinbase (batch : Batch) (newCoinbase : Address) :
    (batch.changeCoinbase newCoinbase).anchorBlock = batch.anchorBlock := rfl

@[simp] theorem blocks_push (batch : Batch) (block : PreconfirmedBlock) :
    (batch.push block).blocks = batch.blocks ++ [block] := rfl

@[simp] theorem anchorBlock_push (batch : Batch) (block : PreconfirmedBlock) :
    (batch.push block).anchorBlock = batch.anchorBlock := rfl

@[simp] theorem settings_push (batch : Batch) (block : PreconfirmedBlock) :
    (batch.push block).settings = batch.settings := rfl

@[simp] theorem coinbase_push (batch : Batch) (block : PreconfirmedBlock) :
    (batch.push block).coinbase = batch.coinbase := rfl

/-- A batch whose blocks all come before the number keeps them. -/
theorem retainBlocksBefore_eq_self {batch : Batch} {blockNumber : Nat}
    (h : ∀ block ∈ batch.blocks, block.number < blockNumber) :
    batch.retainBlocksBefore blockNumber = batch := by
  have hblocks : batch.blocks.filter (fun block => block.number < blockNumber) = batch.blocks :=
    List.filter_eq_self.mpr fun block hblock => by simpa using h block hblock
  simp [retainBlocksBefore, hblocks]

@[simp] theorem rawSize_push (batch : Batch) (block : PreconfirmedBlock) :
    (batch.push block).rawSize = batch.rawSize + block.rawSize := by
  simp [rawSize]

/-- A block fits if the estimate for the batch with it is within the target and the batch is not
at its capacity. -/
theorem doesntFit_eq_none_iff {estimate : CompressionEstimate} {batch : Batch}
    {block : PreconfirmedBlock} : batch.doesntFit estimate block.txList = none ↔
      estimate (batch.rawSize + block.rawSize) ≤ batch.settings.targetCompressedSize ∧
        batch.blocks.length ≠ batch.settings.capacity := by
  unfold doesntFit PreconfirmedBlock.rawSize
  dsimp only
  split
  · next hlarge => simp [Nat.not_le.mpr hlarge]
  · next hsmall =>
      split
      · next hfull => simp [hfull]
      · next hfull => simp [Nat.not_lt.mp hsmall, hfull]

/-- Everything a call of `addBlockAndResetIfFull` can do: the blocks from the number of the new one
on are dropped; then it is appended, or the batch is handed out and the block starts the next one
under the new anchor. -/
theorem add_block_spec (estimate : CompressionEstimate) (batch : Batch) (block : PreconfirmedBlock)
    (newAnchor : Header) :
    ((batch.retainBlocksBefore block.number).doesntFit estimate block.txList = none ∧
      batch.addBlockAndResetIfFull estimate block newAnchor =
        (.added ((batch.retainBlocksBefore block.number).push block).rawSize,
          (batch.retainBlocksBefore block.number).push block)) ∨
    ∃ reason,
      (batch.retainBlocksBefore block.number).doesntFit estimate block.txList = some reason ∧
      batch.addBlockAndResetIfFull estimate block newAnchor =
        (.full reason (batch.retainBlocksBefore block.number),
          { batch with blocks := [block], anchorBlock := newAnchor }) := by
  simp only [addBlockAndResetIfFull]
  cases hfit : (batch.retainBlocksBefore block.number).doesntFit estimate block.txList with
  | none => exact .inl ⟨rfl, rfl⟩
  | some reason => exact .inr ⟨reason, rfl, rfl⟩

/-- The same when the new block comes after the blocks of the batch, so that none is dropped. -/
theorem add_block_cases (estimate : CompressionEstimate) {batch : Batch}
    {block : PreconfirmedBlock} (newAnchor : Header)
    (h : ∀ previous ∈ batch.blocks, previous.number < block.number) :
    (batch.doesntFit estimate block.txList = none ∧
      batch.addBlockAndResetIfFull estimate block newAnchor =
        (.added (batch.push block).rawSize, batch.push block)) ∨
    ∃ reason, batch.doesntFit estimate block.txList = some reason ∧
      batch.addBlockAndResetIfFull estimate block newAnchor =
        (.full reason batch, { batch with blocks := [block], anchorBlock := newAnchor }) := by
  have hspec := add_block_spec estimate batch block newAnchor
  rwa [retainBlocksBefore_eq_self h] at hspec

end Batch

end Mk1
