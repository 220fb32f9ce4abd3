import Mk1.Library.Transition
import Mk1.Primitives.Fees

/-!
# Fee hints stay consistent

The fees of a blob transaction are changed by four operations, each of which rewrites two coupled
fields. The base fee is what the max fee leaves above the priority fee, so that the priority fee
must never exceed the max fee. `fees_stay_consistent` says that no sequence of operations breaks
this or lowers a fee, and what each step does, as long as no sum or product overflows.
-/

namespace Mk1

/-- An operation on the fee hints. -/
inductive FeeOp where
  | double
  | nextBlockIncrease
  | withEnforcedMinBatchTipWei (tip : Nat)
  | bumpBaseFee (newBaseFee : Nat)
  deriving DecidableEq, Repr

namespace FeeOp

/-- Perform an operation. The flag is the result of `bump_base_fee`, and true for the others. -/
def apply (hints : BlobTxFeesHints) : FeeOp → Except Panic (Bool × BlobTxFeesHints)
  | .double => do pure (true, ← hints.double)
  | .nextBlockIncrease => do pure (true, ← hints.withNextBlockIncrease)
  | .withEnforcedMinBatchTipWei tip => do pure (true, ← hints.withEnforcedMinBatchTipWei tip)
  | .bumpBaseFee newBaseFee => hints.bumpBaseFee newBaseFee

/-- The hints after an operation, unless it panics. -/
def step (hints : BlobTxFeesHints) (op : FeeOp) : Option BlobTxFeesHints :=
  (op.apply hints).toOption.map Prod.snd

/-- The saturating addition of `bump_base_fee`, when it is reached, does not saturate. -/
def SumFits (hints : BlobTxFeesHints) : FeeOp → Prop
  | .bumpBaseFee newBaseFee =>
      hints.maxFeePerGas - hints.maxPriorityFeePerGas ≤ newBaseFee →
        hints.maxPriorityFeePerGas < newBaseFee / 10 →
          newBaseFee + (newBaseFee + 9) / 10 ≤ u128Max
  | _ => True

instance (hints : BlobTxFeesHints) : ∀ op : FeeOp, Decidable (op.SumFits hints)
  | .double | .nextBlockIncrease | .withEnforcedMinBatchTipWei _ => isTrue trivial
  | .bumpBaseFee newBaseFee =>
      inferInstanceAs (Decidable (hints.maxFeePerGas - hints.maxPriorityFeePerGas ≤ newBaseFee →
        hints.maxPriorityFeePerGas < newBaseFee / 10 →
          newBaseFee + (newBaseFee + 9) / 10 ≤ u128Max))

/-- No addition and no multiplication of the operation overflows. -/
def NoOverflow (hints : BlobTxFeesHints) (op : FeeOp) : Prop :=
  op.apply hints ≠ .error ⟨"attempt to add with overflow"⟩ ∧
    op.apply hints ≠ .error ⟨"attempt to multiply with overflow"⟩ ∧ op.SumFits hints

instance (hints : BlobTxFeesHints) (op : FeeOp) : Decidable (op.NoOverflow hints) :=
  inferInstanceAs (Decidable (_ ∧ _ ∧ _))

/-- What an operation does besides. The base-fee part is the max fee minus the priority fee. -/
def Effect (before : BlobTxFeesHints) (bumped : Bool) (after : BlobTxFeesHints) : FeeOp → Prop
  | .withEnforcedMinBatchTipWei tip =>
      tip ≤ after.maxPriorityFeePerGas ∧
        after.maxFeePerGas - after.maxPriorityFeePerGas =
          before.maxFeePerGas - before.maxPriorityFeePerGas
  | .bumpBaseFee newBaseFee =>
      (bumped = false ↔ newBaseFee < before.maxFeePerGas - before.maxPriorityFeePerGas) ∧
        (bumped = false → after = before) ∧
        (bumped = true → after.maxFeePerGas - after.maxPriorityFeePerGas = newBaseFee ∧
          newBaseFee / 10 ≤ after.maxPriorityFeePerGas)
  | _ => True

/-- The operation does not panic, the priority fee stays at or below the max fee, no fee becomes
lower, and the operation does what it should. -/
def StaysConsistent (before : BlobTxFeesHints) (op : FeeOp) : Prop :=
  ∃ bumped after, op.apply before = .ok (bumped, after) ∧
    after.maxPriorityFeePerGas ≤ after.maxFeePerGas ∧ BlobTxFeesHints.NotAbove before after ∧
      op.Effect before bumped after

end FeeOp

namespace BlobTxFeesHints

/-! ## No subtraction underflows -/

/-- A panic about a sum or a product. -/
def IsOverflow (panic : Panic) : Prop :=
  panic = ⟨"attempt to add with overflow"⟩ ∨ panic = ⟨"attempt to multiply with overflow"⟩

/-- An addition only panics because it overflows. -/
theorem isOverflow_of_checkedAdd {left right : Nat} {panic : Panic}
    (h : checkedAdd left right = .error panic) : IsOverflow panic := by
  unfold checkedAdd at h
  split at h
  · cases h
  · exact .inl (Except.error.inj h).symm

/-- A multiplication only panics because it overflows. -/
theorem isOverflow_of_checkedMul {left right : Nat} {panic : Panic}
    (h : checkedMul left right = .error panic) : IsOverflow panic := by
  unfold checkedMul at h
  split at h
  · cases h
  · exact .inr (Except.error.inj h).symm

/-- A subtraction of what is no greater does not panic. -/
theorem checkedSub_of_le {left right : Nat} (h : right ≤ left) :
    checkedSub left right = .ok (left - right) := if_pos h

/-- Increasing a fee only panics because it overflows. -/
theorem isOverflow_of_increased {fee : Nat} {panic : Panic} (h : increased fee = .error panic) :
    IsOverflow panic := by
  obtain hproduct | ⟨product, -, hsum⟩ := bind_eq_error.mp h
  · exact isOverflow_of_checkedMul hproduct
  · exact isOverflow_of_checkedAdd hsum

/-- Doubling only panics because it overflows. -/
theorem isOverflow_of_double {hints : BlobTxFeesHints} {panic : Panic}
    (h : hints.double = .error panic) : IsOverflow panic := by
  obtain hpriority | ⟨priority, -, h⟩ := bind_eq_error.mp h
  · exact isOverflow_of_checkedMul hpriority
  obtain hmaxFee | ⟨maxFee, -, h⟩ := bind_eq_error.mp h
  · exact isOverflow_of_checkedMul hmaxFee
  obtain hblobFee | ⟨blobFee, -, h⟩ := bind_eq_error.mp h
  · exact isOverflow_of_checkedMul hblobFee
  · cases h

/-- While the priority fee does not exceed the max fee, the increase for the next block only panics
because it overflows. -/
theorem isOverflow_of_withNextBlockIncrease {hints : BlobTxFeesHints}
    (hle : hints.maxPriorityFeePerGas ≤ hints.maxFeePerGas) {panic : Panic}
    (h : hints.withNextBlockIncrease = .error panic) : IsOverflow panic := by
  obtain hbaseFee | ⟨baseFee, hbaseFee, h⟩ := bind_eq_error.mp h
  · rw [checkedSub_of_le hle] at hbaseFee
    cases hbaseFee
  obtain hincreased | ⟨baseFeeIncreased, -, h⟩ := bind_eq_error.mp h
  · exact isOverflow_of_increased hincreased
  obtain hwithout | ⟨withoutBaseFee, -, h⟩ := bind_eq_error.mp h
  · -- the base fee is a part of the max fee
    have hpart := checkedSub_eq_ok hbaseFee
    rw [checkedSub_of_le (by omega)] at hwithout
    cases hwithout
  obtain hmaxFee | ⟨maxFee, -, h⟩ := bind_eq_error.mp h
  · exact isOverflow_of_checkedAdd hmaxFee
  obtain hblobFee | ⟨blobFee, -, h⟩ := bind_eq_error.mp h
  · exact isOverflow_of_increased hblobFee
  · cases h

/-- Enforcing a tip only panics because it overflows. -/
theorem isOverflow_of_withEnforcedMinBatchTipWei {hints : BlobTxFeesHints} {tip : Nat}
    {panic : Panic} (h : hints.withEnforcedMinBatchTipWei tip = .error panic) :
    IsOverflow panic := by
  unfold withEnforcedMinBatchTipWei at h
  dsimp only at h
  split at h
  · obtain hpriority | ⟨priority, -, h⟩ := bind_eq_error.mp h
    · exact isOverflow_of_checkedAdd hpriority
    obtain hwithDiff | ⟨withDiff, -, h⟩ := bind_eq_error.mp h
    · exact isOverflow_of_checkedAdd hwithDiff
    obtain hmaxFee | ⟨maxFee, -, h⟩ := bind_eq_error.mp h
    · exact isOverflow_of_checkedAdd hmaxFee
    obtain hblobFee | ⟨blobFee, -, h⟩ := bind_eq_error.mp h
    · exact isOverflow_of_checkedAdd hblobFee
    · cases h
  · cases h

/-- Bumping the base fee only panics because it overflows. -/
theorem isOverflow_of_bumpBaseFee {hints : BlobTxFeesHints} {newBaseFee : Nat} {panic : Panic}
    (h : hints.bumpBaseFee newBaseFee = .error panic) : IsOverflow panic := by
  unfold bumpBaseFee at h
  split at h
  · cases h
  · obtain hmaxFee | ⟨maxFee, -, h⟩ := bind_eq_error.mp h
    · exact isOverflow_of_checkedAdd hmaxFee
    · cases h

/-! ## What the operations do -/

/-- Doubling keeps the order of the fees. -/
theorem priority_le_of_double {hints doubled : BlobTxFeesHints} (h : hints.double = .ok doubled)
    (hle : hints.maxPriorityFeePerGas ≤ hints.maxFeePerGas) :
    doubled.maxPriorityFeePerGas ≤ doubled.maxFeePerGas := by
  obtain ⟨priority, hpriority, h⟩ := bind_eq_ok.mp h
  obtain ⟨maxFee, hmaxFee, h⟩ := bind_eq_ok.mp h
  obtain ⟨blobFee, -, h⟩ := bind_eq_ok.mp h
  cases h
  have hpriority := checkedMul_eq_ok hpriority
  have hmaxFee := checkedMul_eq_ok hmaxFee
  dsimp only
  omega

/-- Doubling lowers no fee. -/
theorem notAbove_double {hints doubled : BlobTxFeesHints} (h : hints.double = .ok doubled) :
    NotAbove hints doubled := by
  obtain ⟨hpriority, hmaxFee, hblobFee⟩ := atLeastTwice_double h
  exact ⟨by omega, by omega, by omega⟩

/-- The increase for the next block leaves the priority fee alone. -/
theorem priority_withNextBlockIncrease {hints increased : BlobTxFeesHints}
    (h : hints.withNextBlockIncrease = .ok increased) :
    increased.maxPriorityFeePerGas = hints.maxPriorityFeePerGas := by
  obtain ⟨baseFee, -, h⟩ := bind_eq_ok.mp h
  obtain ⟨baseFeeIncreased, -, h⟩ := bind_eq_ok.mp h
  obtain ⟨withoutBaseFee, -, h⟩ := bind_eq_ok.mp h
  obtain ⟨maxFee, -, h⟩ := bind_eq_ok.mp h
  obtain ⟨blobFee, -, h⟩ := bind_eq_ok.mp h
  cases h
  rfl

/-- Enforcing a tip raises the priority fee to it, and the max fee by the same amount. -/
theorem withEnforcedMinBatchTipWei_eq_ok {hints enforced : BlobTxFeesHints} {tip : Nat}
    (h : hints.withEnforcedMinBatchTipWei tip = .ok enforced) :
    tip ≤ enforced.maxPriorityFeePerGas ∧ NotAbove hints enforced ∧
      enforced.maxFeePerGas + hints.maxPriorityFeePerGas =
        hints.maxFeePerGas + enforced.maxPriorityFeePerGas := by
  unfold withEnforcedMinBatchTipWei at h
  dsimp only at h
  split at h
  · obtain ⟨priority, hpriority, h⟩ := bind_eq_ok.mp h
    obtain ⟨withDiff, hwithDiff, h⟩ := bind_eq_ok.mp h
    obtain ⟨maxFee, hmaxFee, h⟩ := bind_eq_ok.mp h
    obtain ⟨blobFee, hblobFee, h⟩ := bind_eq_ok.mp h
    cases h
    have hpriority := (checkedAdd_eq_ok hpriority).1
    have hwithDiff := (checkedAdd_eq_ok hwithDiff).1
    have hmaxFee := (checkedAdd_eq_ok hmaxFee).1
    have hblobFee := (checkedAdd_eq_ok hblobFee).1
    refine ⟨by dsimp only; omega, ⟨?_, ?_, ?_⟩, by dsimp only; omega⟩
    · dsimp only
      omega
    · dsimp only
      omega
    · dsimp only
      omega
  · next hhigh =>
      cases h
      exact ⟨by omega, ⟨le_rfl, le_rfl, le_rfl⟩, rfl⟩

/-- A bump makes the base-fee part the new base fee, unless the saturating addition saturates, and
the priority fee at least a tenth of it. -/
theorem bumpBaseFee_eq_ok {hints bumped : BlobTxFeesHints} {newBaseFee : Nat}
    (hfits : (FeeOp.bumpBaseFee newBaseFee).SumFits hints)
    (h : hints.bumpBaseFee newBaseFee = .ok (true, bumped)) :
    bumped.maxFeePerGas = newBaseFee + bumped.maxPriorityFeePerGas ∧
      newBaseFee / 10 ≤ bumped.maxPriorityFeePerGas := by
  unfold bumpBaseFee at h
  split at h
  · cases h
  · next hbump =>
      obtain ⟨maxFee, hmaxFee, h⟩ := bind_eq_ok.mp h
      cases h
      have hmaxFee := (checkedAdd_eq_ok hmaxFee).1
      unfold raisePriority saturatingAdd128
      split
      · next hlow =>
          have hrange := hfits (Nat.not_lt.mp hbump) hlow
          dsimp only
          omega
      · dsimp only
        omega

/-- A bump that increases nothing leaves the hints alone. -/
theorem bumpBaseFee_of_false {hints after : BlobTxFeesHints} {newBaseFee : Nat}
    (h : hints.bumpBaseFee newBaseFee = .ok (false, after)) : after = hints := by
  unfold bumpBaseFee at h
  split at h
  · cases h
    rfl
  · obtain ⟨maxFee, -, h⟩ := bind_eq_ok.mp h
    cases h

end BlobTxFeesHints

namespace FeeOp

open BlobTxFeesHints

/-- Only an overflow makes an operation panic, while the priority fee does not exceed the max
fee. -/
theorem isOverflow_of_apply {hints : BlobTxFeesHints} {op : FeeOp}
    (hle : hints.maxPriorityFeePerGas ≤ hints.maxFeePerGas) {panic : Panic}
    (h : op.apply hints = .error panic) : IsOverflow panic := by
  cases op with
  | double =>
      obtain hdouble | ⟨doubled, -, hpure⟩ := bind_eq_error.mp h
      · exact isOverflow_of_double hdouble
      · cases hpure
  | nextBlockIncrease =>
      obtain hincrease | ⟨increased, -, hpure⟩ := bind_eq_error.mp h
      · exact isOverflow_of_withNextBlockIncrease hle hincrease
      · cases hpure
  | withEnforcedMinBatchTipWei tip =>
      obtain henforce | ⟨enforced, -, hpure⟩ := bind_eq_error.mp h
      · exact isOverflow_of_withEnforcedMinBatchTipWei henforce
      · cases hpure
  | bumpBaseFee newBaseFee => exact isOverflow_of_bumpBaseFee h

/-- One operation that does not overflow stays consistent. -/
theorem staysConsistent_of_noOverflow {hints : BlobTxFeesHints} {op : FeeOp}
    (hle : hints.maxPriorityFeePerGas ≤ hints.maxFeePerGas) (h : op.NoOverflow hints) :
    op.StaysConsistent hints := by
  obtain ⟨hadd, hmul, hfits⟩ := h
  -- the only panics are overflows: no subtraction underflows below the max fee
  obtain ⟨⟨bumped, after⟩, hafter⟩ : ∃ result, op.apply hints = .ok result := by
    cases happly : op.apply hints with
    | ok result => exact ⟨result, rfl⟩
    | error panic =>
        obtain rfl | rfl := isOverflow_of_apply hle happly
        · exact absurd happly hadd
        · exact absurd happly hmul
  refine ⟨bumped, after, hafter, ?_⟩
  cases op with
  | double =>
      obtain ⟨doubled, hdouble, hpure⟩ := bind_eq_ok.mp hafter
      cases hpure
      exact ⟨priority_le_of_double hdouble hle, notAbove_double hdouble, trivial⟩
  | nextBlockIncrease =>
      obtain ⟨increased, hincrease, hpure⟩ := bind_eq_ok.mp hafter
      cases hpure
      have hgrow := notAbove_withNextBlockIncrease hincrease
      refine ⟨?_, hgrow, trivial⟩
      rw [priority_withNextBlockIncrease hincrease]
      exact hle.trans hgrow.maxFee
  | withEnforcedMinBatchTipWei tip =>
      obtain ⟨enforced, henforce, hpure⟩ := bind_eq_ok.mp hafter
      cases hpure
      obtain ⟨htip, hgrow, hsame⟩ := withEnforcedMinBatchTipWei_eq_ok henforce
      exact ⟨by omega, hgrow, htip, by omega⟩
  | bumpBaseFee newBaseFee =>
      have hflag := bumpBaseFee_flag hafter
      cases bumped with
      | false =>
          obtain rfl := bumpBaseFee_of_false hafter
          exact ⟨hle, ⟨le_rfl, le_rfl, le_rfl⟩, by simpa using hflag, fun _ => rfl,
            fun htrue => Bool.noConfusion htrue⟩
      | true =>
          obtain ⟨hmaxFee, htenth⟩ := bumpBaseFee_eq_ok hfits hafter
          refine ⟨by omega, notAbove_bumpBaseFee hafter, by simpa using hflag,
            fun hfalse => Bool.noConfusion hfalse, fun _ => ⟨by omega, htenth⟩⟩

/-- From hints whose priority fee does not exceed the max fee, no sequence of operations without an
overflow panics, so no subtraction underflows, and every step stays consistent. -/
theorem fees_stay_consistent {hints : BlobTxFeesHints}
    (hle : hints.maxPriorityFeePerGas ≤ hints.maxFeePerGas) {ops : List FeeOp}
    (hmeet : Transition.StepsMeet step (fun hints op => op.NoOverflow hints) hints ops) :
    (∃ final, Transition.run step hints ops = some final ∧
        final.maxPriorityFeePerGas ≤ final.maxFeePerGas) ∧
      Transition.StepsMeet step (fun hints op => op.StaysConsistent hints) hints ops := by
  have hstep : ∀ (before : BlobTxFeesHints) (op : FeeOp),
      before.maxPriorityFeePerGas ≤ before.maxFeePerGas → op.NoOverflow before →
        ∃ after, step before op = some after ∧
          after.maxPriorityFeePerGas ≤ after.maxFeePerGas := by
    intro before op hbefore hfits
    obtain ⟨bumped, after, hafter, hafterLe, -⟩ := staysConsistent_of_noOverflow hbefore hfits
    exact ⟨after, by simp [step, hafter, Except.toOption], hafterLe⟩
  refine ⟨Transition.exists_run_of_invariant hstep hle hmeet, ?_⟩
  refine Transition.stepsMeet_of_invariant (fun before op after hbefore hfits hafter => ?_)
    (fun before op hbefore hfits => staysConsistent_of_noOverflow hbefore hfits) hle hmeet
  obtain ⟨other, hother, hle⟩ := hstep before op hbefore hfits
  exact Option.some.inj (hother.symm.trans hafter) ▸ hle

/-- All four operations, starting from a priority fee of 2, a max fee of 10 and a blob fee of 1. -/
theorem fees_stay_consistent_four :
    Transition.run step ⟨2, 10, 1⟩
        [.double, .nextBlockIncrease, .withEnforcedMinBatchTipWei 9, .bumpBaseFee 200] =
      some ⟨20, 220, 4⟩ ∧
    Transition.StepsMeet step (fun hints op => op.StaysConsistent hints) ⟨2, 10, 1⟩
      [.double, .nextBlockIncrease, .withEnforcedMinBatchTipWei 9, .bumpBaseFee 200] :=
  ⟨by decide, (fees_stay_consistent (by decide) (by decide)).2⟩

end FeeOp

end Mk1
