import Mathlib

/-!
# Shared primitive types

The types that the rest of the development is written in: panics, addresses,
headers, transactions and L2 blocks, with the fields that some modelled
function reads. Block numbers, timestamps in seconds, slots and epochs are all
`u64` in the source and `Nat` here; where the width matters the operation says
so (`saturatingAdd`).
-/

namespace Mk1

/-- A Rust panic, with the message of the `expect` or `assert!` that raised it. -/
structure Panic where
  message : String
  deriving DecidableEq, Repr

/-- `Option::expect`. -/
def expect {α : Type} (value : Option α) (message : String) : Except Panic α :=
  match value with
  | some value => .ok value
  | none => .error ⟨message⟩

/-- Only a result without a panic is a value. -/
theorem toOption_eq_some {α : Type} {result : Except Panic α} {value : α} :
    result.toOption = some value ↔ result = .ok value := by
  cases result with
  | error panic => simp [Except.toOption]
  | ok other => simp [Except.toOption]

/-- A computation that continues with a result has one. -/
theorem bind_eq_ok {ε α β : Type} {first : Except ε α} {next : α → Except ε β} {result : β} :
    (first >>= next) = .ok result ↔ ∃ value, first = .ok value ∧ next value = .ok result := by
  cases first with
  | error failure => simp [bind, Except.bind]
  | ok value => simp [bind, Except.bind]

/-- A computation panics at its first step or goes on from a result to a panic. -/
theorem bind_eq_error {α β : Type} {first : Except Panic α} {next : α → Except Panic β}
    {panic : Panic} : (first >>= next) = .error panic ↔
      first = .error panic ∨ ∃ value, first = .ok value ∧ next value = .error panic := by
  cases first with
  | error panic => simp [bind, Except.bind]
  | ok value => simp [bind, Except.bind]

/-- An account address. -/
abbrev Address := BitVec 160

/-- A 32-byte hash. -/
abbrev B256 := BitVec 256

/-- The largest `u64`. -/
def u64Max : Nat := 2 ^ 64 - 1

/-- `u64::saturating_add`. -/
def saturatingAdd (left right : Nat) : Nat := min (left + right) u64Max

/-- `std::ops::RangeInclusive<u64>`. -/
structure RangeInclusive where
  start : Nat
  stop : Nat
  deriving DecidableEq, Repr

/-- `RangeInclusive::is_empty`. -/
def RangeInclusive.isEmpty (range : RangeInclusive) : Bool := range.stop < range.start

/-- Membership of a number in a range that includes both of its ends. -/
instance : Membership Nat RangeInclusive where
  mem range number := range.start ≤ number ∧ number ≤ range.stop

/-- A block header of either chain. -/
structure Header where
  number : Nat
  timestamp : Nat
  hash : B256
  beneficiary : Address
  baseFeePerGas : Option Nat
  deriving DecidableEq, Repr

/-- A signed transaction, as its EIP-2718 encoding. -/
structure TxEnvelope where
  encoded2718 : List UInt8
  deriving DecidableEq, Repr

/-- `Encodable2718::eip2718_encoded_length`. -/
def TxEnvelope.eip2718EncodedLength (tx : TxEnvelope) : Nat := tx.encoded2718.length

/-- A transaction of a full block: its recovered signer, the envelope, and the anchor block id
that its input decodes to as an `anchorV3` call, if it does. -/
structure Transaction where
  signer : Address
  inner : TxEnvelope
  anchorV3BlockId : Option Nat
  deriving DecidableEq, Repr

/-- A full block as returned by an execution client. -/
structure Block where
  header : Header
  transactions : List Transaction
  deriving DecidableEq, Repr

/-- The address of the "golden touch" account, which signs the anchor transactions. -/
def TAIKO_GOLDEN_TOUCH_ACCOUNT : Address := 0x0000777735367b36bC9B61C50022d9D0700dB4Ec#160

/-- The maximum timeshift in seconds allowed between any 2 blocks in an outstanding batch.
Timeshifts are cast to `u8` in `TaikoInbox.sol`. -/
def MAX_TIMESHIFT_SECS : Nat := 255

/-- The timeshift with a safety margin, for the decision to produce an empty block. -/
def TIMESHIFT_BUFFER_SECS : Nat := MAX_TIMESHIFT_SECS - 4

/-- The length of an L1 slot, `alloy::eips::merge::SLOT_DURATION_SECS`. -/
def SLOT_DURATION_SECS : Nat := 12

/-- `slice::sort_by_key`: a stable sort in increasing key order. -/
def sortByKey {α : Type} (key : α → Nat) (list : List α) : List α :=
  list.insertionSort fun first second => key first ≤ key second

end Mk1
