import Mk1.Primitives.Basic

/-!
# Fees of blob transactions

`BlobTxFeesHints` of `blob.rs`, the fees that a proposal offers, and what can
happen to them between two submissions. The arithmetic is that of `u128` in a
build with overflow checks: a sum, product or difference that leaves the range
is a `Panic`.
-/

namespace Mk1

/-- The largest `u128`. -/
def u128Max : Nat := 2 ^ 128 - 1

/-- `u128` addition. -/
def checkedAdd (left right : Nat) : Except Panic Nat :=
  if left + right ≤ u128Max then .ok (left + right) else .error ⟨"attempt to add with overflow"⟩

/-- `u128` subtraction. -/
def checkedSub (left right : Nat) : Except Panic Nat :=
  if right ≤ left then .ok (left - right) else .error ⟨"attempt to subtract with overflow"⟩

/-- `u128` multiplication. -/
def checkedMul (left right : Nat) : Except Panic Nat :=
  if left * right ≤ u128Max then .ok (left * right)
  else .error ⟨"attempt to multiply with overflow"⟩

/-- `u128::saturating_add`. -/
def saturatingAdd128 (left right : Nat) : Nat := min (left + right) u128Max

/-- The estimation of EIP-1559 fees by an execution client. -/
structure Eip1559Estimation where
  maxFeePerGas : Nat
  maxPriorityFeePerGas : Nat
  deriving DecidableEq, Repr

/-- Gas fee hints for producing a blob transaction. -/
structure BlobTxFeesHints where
  maxPriorityFeePerGas : Nat
  maxFeePerGas : Nat
  blobFeePerGas : Nat
  deriving DecidableEq, Repr

namespace BlobTxFeesHints

/-- Create hints from an EL estimation. -/
def fromEstimation (estimation : Eip1559Estimation) (blobFeePerGas : Nat) : BlobTxFeesHints :=
  { maxPriorityFeePerGas := estimation.maxPriorityFeePerGas
    maxFeePerGas := estimation.maxFeePerGas
    blobFeePerGas := blobFeePerGas }

/-- Double all the fees. -/
def double (hints : BlobTxFeesHints) : Except Panic BlobTxFeesHints := do
  let maxPriorityFeePerGas ← checkedMul hints.maxPriorityFeePerGas 2
  let maxFeePerGas ← checkedMul hints.maxFeePerGas 2
  let blobFeePerGas ← checkedMul hints.blobFeePerGas 2
  pure ⟨maxPriorityFeePerGas, maxFeePerGas, blobFeePerGas⟩

/-- A fee increased by 12.5%: `fee * 1_125 / 1_000 + 1`. -/
def increased (fee : Nat) : Except Panic Nat := do
  let product ← checkedMul fee 1125
  checkedAdd (product / 1000) 1

/-- Increase the base fee and the blob base fee by 12.5%. -/
def withNextBlockIncrease (hints : BlobTxFeesHints) : Except Panic BlobTxFeesHints := do
  let baseFee ← checkedSub hints.maxFeePerGas hints.maxPriorityFeePerGas
  let baseFeeIncreased ← increased baseFee
  let withoutBaseFee ← checkedSub hints.maxFeePerGas baseFee
  let maxFeePerGasIncreased ← checkedAdd withoutBaseFee baseFeeIncreased
  let blobBaseFeeIncreased ← increased hints.blobFeePerGas
  pure ⟨hints.maxPriorityFeePerGas, maxFeePerGasIncreased, blobBaseFeeIncreased⟩

/-- Make sure that the priority fee is at least the tip. -/
def withEnforcedMinBatchTipWei (hints : BlobTxFeesHints) (tip : Nat) :
    Except Panic BlobTxFeesHints :=
  let diff := tip - hints.maxPriorityFeePerGas
  if 0 < diff then do
    let maxPriorityFeePerGas ← checkedAdd tip 1
    let withDiff ← checkedAdd hints.maxFeePerGas diff
    let maxFeePerGas ← checkedAdd withDiff 1
    let blobFeePerGas ← checkedAdd hints.blobFeePerGas 1
    pure ⟨maxPriorityFeePerGas, maxFeePerGas, blobFeePerGas⟩
  else pure hints

/-- The end of `bumpBaseFee`, for a new base fee and the max fee that it leads to: the max priority
fee becomes at least a tenth of the base fee. -/
def raisePriority (hints : BlobTxFeesHints) (newBaseFee maxFeePerGas : Nat) : BlobTxFeesHints :=
  if hints.maxPriorityFeePerGas < newBaseFee / 10 then
    let maxFeePerGas := maxFeePerGas - hints.maxPriorityFeePerGas
    let maxPriorityFeePerGas := (newBaseFee + 9) / 10
    { hints with
      maxPriorityFeePerGas := maxPriorityFeePerGas
      maxFeePerGas := saturatingAdd128 maxFeePerGas maxPriorityFeePerGas }
  else { hints with maxFeePerGas := maxFeePerGas }

/-- Increase the base fee to the provided value. The flag says whether it was increased. -/
def bumpBaseFee (hints : BlobTxFeesHints) (newBaseFee : Nat) :
    Except Panic (Bool × BlobTxFeesHints) :=
  if newBaseFee < hints.maxFeePerGas - hints.maxPriorityFeePerGas then pure (false, hints)
  else do
    let maxFeePerGas ← checkedAdd newBaseFee hints.maxPriorityFeePerGas
    pure (true, hints.raisePriority newBaseFee maxFeePerGas)

/-! ## How the fees grow -/

/-- No fee of the first hints is above that of the second. -/
structure NotAbove (lower higher : BlobTxFeesHints) : Prop where
  priority : lower.maxPriorityFeePerGas ≤ higher.maxPriorityFeePerGas
  maxFee : lower.maxFeePerGas ≤ higher.maxFeePerGas
  blobFee : lower.blobFeePerGas ≤ higher.blobFeePerGas

/-- Each fee of the second hints is at least twice that of the first. -/
structure AtLeastTwice (lower higher : BlobTxFeesHints) : Prop where
  priority : 2 * lower.maxPriorityFeePerGas ≤ higher.maxPriorityFeePerGas
  maxFee : 2 * lower.maxFeePerGas ≤ higher.maxFeePerGas
  blobFee : 2 * lower.blobFeePerGas ≤ higher.blobFeePerGas

/-- Fees that grow stay twice as high. -/
theorem AtLeastTwice.mono {lower middle higher : BlobTxFeesHints}
    (h : AtLeastTwice lower middle) (hgrow : NotAbove middle higher) :
    AtLeastTwice lower higher where
  priority := h.priority.trans hgrow.priority
  maxFee := h.maxFee.trans hgrow.maxFee
  blobFee := h.blobFee.trans hgrow.blobFee

/-- Without overflow, addition adds, and the sum is in range. -/
theorem checkedAdd_eq_ok {left right sum : Nat} (h : checkedAdd left right = .ok sum) :
    left + right = sum ∧ sum ≤ u128Max := by
  unfold checkedAdd at h
  split at h
  · next hrange =>
      cases h
      exact ⟨rfl, hrange⟩
  · cases h

/-- Without overflow, subtraction subtracts. -/
theorem checkedSub_eq_ok {left right difference : Nat}
    (h : checkedSub left right = .ok difference) : difference + right = left := by
  unfold checkedSub at h
  split at h
  · next hle =>
      rw [← Except.ok.inj h]
      exact Nat.sub_add_cancel hle
  · cases h

/-- Without overflow, multiplication multiplies. -/
theorem checkedMul_eq_ok {left right product : Nat} (h : checkedMul left right = .ok product) :
    left * right = product := by
  unfold checkedMul at h
  split at h
  · exact Except.ok.inj h
  · cases h

/-- An increased fee is higher. -/
theorem le_of_increased {fee result : Nat} (h : increased fee = .ok result) : fee ≤ result := by
  obtain ⟨product, hproduct, hsum⟩ := bind_eq_ok.mp h
  have hproduct := checkedMul_eq_ok hproduct
  have hsum := (checkedAdd_eq_ok hsum).1
  omega

/-- Doubling makes each fee twice as high. -/
theorem atLeastTwice_double {hints doubled : BlobTxFeesHints} (h : hints.double = .ok doubled) :
    AtLeastTwice hints doubled := by
  obtain ⟨priority, hpriority, h⟩ := bind_eq_ok.mp h
  obtain ⟨maxFee, hmaxFee, h⟩ := bind_eq_ok.mp h
  obtain ⟨blobFee, hblobFee, h⟩ := bind_eq_ok.mp h
  cases h
  have hpriority := checkedMul_eq_ok hpriority
  have hmaxFee := checkedMul_eq_ok hmaxFee
  have hblobFee := checkedMul_eq_ok hblobFee
  exact ⟨by dsimp only; omega, by dsimp only; omega, by dsimp only; omega⟩

/-- The increase for the next block lowers no fee. -/
theorem notAbove_withNextBlockIncrease {hints increased : BlobTxFeesHints}
    (h : hints.withNextBlockIncrease = .ok increased) : NotAbove hints increased := by
  obtain ⟨baseFee, hbaseFee, h⟩ := bind_eq_ok.mp h
  obtain ⟨baseFeeIncreased, hincreased, h⟩ := bind_eq_ok.mp h
  obtain ⟨withoutBaseFee, hwithout, h⟩ := bind_eq_ok.mp h
  obtain ⟨maxFee, hmaxFee, h⟩ := bind_eq_ok.mp h
  obtain ⟨blobFee, hblobFee, h⟩ := bind_eq_ok.mp h
  cases h
  have hwithout := checkedSub_eq_ok hwithout
  have hmaxFee := (checkedAdd_eq_ok hmaxFee).1
  have hbase := le_of_increased hincreased
  exact ⟨le_refl _, by dsimp only; omega, le_of_increased hblobFee⟩

/-- A bump of the base fee lowers no fee. -/
theorem notAbove_bumpBaseFee {hints bumped : BlobTxFeesHints} {newBaseFee : Nat}
    (h : hints.bumpBaseFee newBaseFee = .ok (true, bumped)) : NotAbove hints bumped := by
  unfold bumpBaseFee at h
  split at h
  · cases h
  · next hbump =>
      obtain ⟨maxFee, hmaxFee, h⟩ := bind_eq_ok.mp h
      cases h
      obtain ⟨hmaxFee, hrange⟩ := checkedAdd_eq_ok hmaxFee
      unfold raisePriority saturatingAdd128
      split
      · next hlow => exact ⟨by dsimp only; omega, by dsimp only; omega, le_refl _⟩
      · exact ⟨le_refl _, by dsimp only; omega, le_refl _⟩

/-- A bump increases nothing exactly if the hints are above the new base fee. -/
theorem bumpBaseFee_flag {hints result : BlobTxFeesHints} {newBaseFee : Nat} {bumped : Bool}
    (h : hints.bumpBaseFee newBaseFee = .ok (bumped, result)) :
    decide (newBaseFee < hints.maxFeePerGas - hints.maxPriorityFeePerGas) = !bumped := by
  unfold bumpBaseFee at h
  split at h
  · next hlow =>
      cases h
      simpa using hlow
  · next hhigh =>
      obtain ⟨maxFee, -, h⟩ := bind_eq_ok.mp h
      cases h
      simpa using hhigh

end BlobTxFeesHints

end Mk1
