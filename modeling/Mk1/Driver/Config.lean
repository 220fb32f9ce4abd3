import Mk1.Primitives.Batch
import Mk1.Primitives.Time

/-!
# Runtime configuration

The options and protocol parameters of `config.rs` that the modelled parts of
the driver read.
-/

namespace Mk1

/-- The runtime configuration of the driver. `operator` is the address of the operator's key. -/
structure RuntimeConfig where
  operator : Address
  l1GenesisTimestamp : Nat
  l1BlockTime : Nat
  l2BlockTime : Nat
  handoverWindowSlots : Nat
  handoverSkipSlots : Nat
  anchorBlockLag : Nat
  anchorMaxHeightBuffer : Nat
  batchSizeTargetKb : Nat
  minBatchTipWei : Nat
  enableBuildingEmptyBlocks : Bool
  maxBlockSizeBytes : Nat
  maxBlocksPerBatch : Nat
  maxAnchorHeightOffset : Nat
  deriving DecidableEq, Repr

namespace RuntimeConfig

/-- The L1 slot of a timestamp. -/
def timestampToL1Slot (cfg : RuntimeConfig) (timestamp : Nat) : Nat :=
  Mk1.timestampToL1Slot timestamp cfg.l1GenesisTimestamp cfg.l1BlockTime

/-- The timestamp of an L1 slot. -/
def slotToTimestamp (cfg : RuntimeConfig) (slot : Nat) : Nat :=
  Mk1.slotToTimestamp slot cfg.l1GenesisTimestamp cfg.l1BlockTime

/-- The maximum age in seconds of a block that can still be proposed. -/
def maxProposableBlockAgeSecs (cfg : RuntimeConfig) : Nat :=
  cfg.maxAnchorHeightOffset * cfg.l1BlockTime

/-- The time kept in reserve for the proposal of a batch. -/
def defaultProposalTimeBuffer (cfg : RuntimeConfig) : Nat :=
  cfg.anchorMaxHeightBuffer * cfg.l1BlockTime

/-- The default settings of a batch. -/
def batchSettings (cfg : RuntimeConfig) : BatchSettings :=
  { capacity := cfg.maxBlocksPerBatch
    targetCompressedSize := cfg.batchSizeTargetKb * 1024
    defaultCoinbase := cfg.operator
    maxAnchorHeightOffset := cfg.maxAnchorHeightOffset
    anchorMaxHeightBuffer := cfg.anchorMaxHeightBuffer }

end RuntimeConfig

/-- A configuration with the default options and an L1 genesis at time zero. -/
def defaultConfig (operator : Address) : RuntimeConfig :=
  { operator := operator
    l1GenesisTimestamp := 0
    l1BlockTime := 12
    l2BlockTime := 2
    handoverWindowSlots := 4
    handoverSkipSlots := 1
    anchorBlockLag := 4
    anchorMaxHeightBuffer := 6
    batchSizeTargetKb := 380
    minBatchTipWei := 1000000
    enableBuildingEmptyBlocks := false
    maxBlockSizeBytes := 126976
    maxBlocksPerBatch := 768
    maxAnchorHeightOffset := 64 }

end Mk1
