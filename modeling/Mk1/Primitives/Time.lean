import Mk1.Primitives.Basic

/-!
# Slots, epochs and timestamps

The conversions of `lib.rs` and `time.rs` between L1 slots, epochs and UNIX
timestamps in seconds.
-/

namespace Mk1

/-- The number of slots in an epoch, `alloy::eips::merge::EPOCH_SLOTS`. -/
def EPOCH_SLOTS : Nat := 32

/-- `std::ops::Range<u64>`: the end is excluded. -/
structure Range where
  start : Nat
  stop : Nat
  deriving DecidableEq, Repr

/-- `Range::contains`. -/
def Range.contains (range : Range) (number : Nat) : Bool :=
  range.start ≤ number && number < range.stop

/-- The epoch of a slot. -/
def toEpoch (slot : Nat) : Nat := slot / EPOCH_SLOTS

/-- The first slot of an epoch. -/
def toSlot (epoch : Nat) : Nat := epoch * EPOCH_SLOTS

/-- The range of slots of an epoch. -/
def toSlotRange (epoch : Nat) : Range :=
  let start := toSlot epoch
  ⟨start, saturatingAdd start EPOCH_SLOTS⟩

/-- The L1 slot of a timestamp, from the genesis timestamp and the block time. -/
def timestampToL1Slot (timestamp genesisTimestamp blockTime : Nat) : Nat :=
  (timestamp - genesisTimestamp) / blockTime

/-- The timestamp of an L1 slot. -/
def slotToTimestamp (slot genesisTimestamp blockTime : Nat) : Nat :=
  genesisTimestamp + slot * blockTime

/-- `u64::next_multiple_of`. -/
def nextMultipleOf (number factor : Nat) : Nat := (number + factor - 1) / factor * factor

end Mk1
