import Mk1.Driver.Processor.Overlap
import Mk1.Library.TruncatedDecay

/-!
# The throttled block size

The processor suggests a size for the next block that decays with the length of its queue: each
queued batch takes one of `daThrottlingFactor` parts away, rounded down. Nothing excludes a factor
of zero, which the division does not survive. `throttlesWell_iff` says that nothing else goes wrong,
and `suggestedSizes_run` what this means for the sizes that a run suggests.
-/

namespace Mk1

namespace BatchSubmissionProcessor

open TruncatedDecay

/-- With a factor, each round takes a part away. -/
theorem throttle_eq {factor : Nat} (hfactor : factor ≠ 0) (size rounds : Nat) :
    throttle factor size rounds = .ok (decay factor size rounds) := by
  induction rounds generalizing size with
  | zero => rfl
  | succ rounds ih =>
      rw [throttle, if_neg hfactor, decay_succ]
      exact ih (shrink factor size)

/-- A factor of zero is divided by in the first round. -/
theorem throttle_zero (size rounds : Nat) :
    throttle 0 size (rounds + 1) = .error ⟨"attempt to divide by zero"⟩ := rfl

variable {processor processor' : BatchSubmissionProcessor}

/-- An empty queue does not throttle. -/
theorem calcMaxNextBlockSize_of_nil (hqueue : processor.requestQueue = []) :
    processor.calcMaxNextBlockSize = .ok processor.maxBlockSize := by
  unfold calcMaxNextBlockSize
  rw [hqueue]
  rfl

/-- With a factor, the suggested size decays with the length of the queue. -/
theorem calcMaxNextBlockSize_eq (hfactor : processor.daThrottlingFactor ≠ 0) :
    processor.calcMaxNextBlockSize =
      .ok (decay processor.daThrottlingFactor processor.maxBlockSize
        processor.requestQueue.length) := by
  cases hqueue : processor.requestQueue with
  | nil => exact calcMaxNextBlockSize_of_nil hqueue
  | cons first rest =>
      have hthrottled : DA_THROTTLE_THRESHOLD ≤ (first :: rest).length :=
        Nat.succ_le_succ (Nat.zero_le _)
      unfold calcMaxNextBlockSize
      dsimp only
      rw [hqueue, if_pos hthrottled]
      exact throttle_eq hfactor _ _

/-- A factor of zero panics as soon as a batch is queued. -/
theorem calcMaxNextBlockSize_of_zero (hfactor : processor.daThrottlingFactor = 0)
    (hqueue : processor.requestQueue ≠ []) :
    processor.calcMaxNextBlockSize = .error ⟨"attempt to divide by zero"⟩ := by
  obtain ⟨first, rest, hcons⟩ := List.exists_cons_of_ne_nil hqueue
  unfold calcMaxNextBlockSize
  rw [hcons, hfactor]
  exact throttle_zero processor.maxBlockSize rest.length

/-- A size is suggested, it is at most the configured one, and no longer queue has a larger one. If
the factor leaves something of every block, the size is positive and at least what is left without
rounding. -/
def ThrottlesWell (processor : BatchSubmissionProcessor) : Prop :=
  ∃ size, processor.calcMaxNextBlockSize = .ok size ∧ size ≤ processor.maxBlockSize ∧
    (∀ queue size', processor.requestQueue.length ≤ queue.length →
      { processor with requestQueue := queue }.calcMaxNextBlockSize = .ok size' → size' ≤ size) ∧
    (2 ≤ processor.daThrottlingFactor → 0 < processor.maxBlockSize →
      0 < size ∧ (processor.maxBlockSize : ℚ) *
        ((processor.daThrottlingFactor - 1) / processor.daThrottlingFactor) ^
          processor.requestQueue.length ≤ size)

/-- With a factor, all of it holds. -/
theorem throttlesWell_of_factor (hfactor : processor.daThrottlingFactor ≠ 0) :
    processor.ThrottlesWell := by
  refine ⟨_, calcMaxNextBlockSize_eq hfactor, decay_le _, ?_, ?_⟩
  · intro queue size' hlonger hsize
    have hthrottled : { processor with requestQueue := queue }.calcMaxNextBlockSize = .ok _ :=
      calcMaxNextBlockSize_eq hfactor
    obtain rfl := Except.ok.inj (hthrottled.symm.trans hsize)
    exact decay_antitone _ _ hlonger
  · intro hparts hpositive
    exact ⟨decay_pos hparts hpositive _, mul_pow_le_decay (Nat.pos_of_ne_zero hfactor) _⟩

/-- With an empty queue, all of it holds for any factor. -/
theorem throttlesWell_of_nil (hqueue : processor.requestQueue = []) : processor.ThrottlesWell := by
  by_cases hfactor : processor.daThrottlingFactor = 0
  · refine ⟨_, calcMaxNextBlockSize_of_nil hqueue, le_rfl, ?_, ?_⟩
    · intro queue size' _ hsize
      by_cases hempty : queue = []
      · rw [calcMaxNextBlockSize_of_nil hempty] at hsize
        cases hsize
        exact le_rfl
      · -- a longer queue has no size to compare with
        have hpanic : { processor with requestQueue := queue }.calcMaxNextBlockSize = .error _ :=
          calcMaxNextBlockSize_of_zero hfactor hempty
        rw [hpanic] at hsize
        cases hsize
    · intro hparts
      omega
  · exact throttlesWell_of_factor hfactor

/-- The suggested size is as it should be exactly if the factor is not zero or nothing is queued. -/
theorem throttlesWell_iff (processor : BatchSubmissionProcessor) :
    processor.ThrottlesWell ↔
      processor.daThrottlingFactor ≠ 0 ∨ processor.requestQueue = [] := by
  constructor
  · rintro ⟨size, hsize, -⟩
    by_contra hneither
    obtain ⟨hfactor, hqueue⟩ := not_or.mp hneither
    rw [calcMaxNextBlockSize_of_zero (not_not.mp hfactor) hqueue] at hsize
    cases hsize
  · rintro (hfactor | hqueue)
    · exact throttlesWell_of_factor hfactor
    · exact throttlesWell_of_nil hqueue

/-- With a factor of zero, the first batch that is queued makes the next request for a size panic,
although a size is suggested as long as there is none. -/
theorem division_by_zero_with_one_batch :
    ∃ processor, Transition.run step (new 126976 0)
        [.send (.submit (rangeRequest 1 5)), .receive] = some processor ∧
      processor.calcMaxNextBlockSize = .error ⟨"attempt to divide by zero"⟩ ∧
      ¬ processor.ThrottlesWell := by
  refine ⟨_, rfl, rfl, ?_⟩
  rintro ⟨size, hsize, -⟩
  cases hsize

/-! ## The sizes that a run suggests -/

/-- An event keeps the configuration, and suggests at most the size that goes with the queue. -/
theorem suggestedSizes_step {event : Event} (h : processor.step event = some processor') :
    processor'.maxBlockSize = processor.maxBlockSize ∧
      processor'.daThrottlingFactor = processor.daThrottlingFactor ∧
      (processor'.suggestedSizes = processor.suggestedSizes ∨
        ∃ size, processor.calcMaxNextBlockSize = .ok size ∧
          processor'.suggestedSizes = processor.suggestedSizes ++ [size]) := by
  cases event with
  | send cmd =>
      obtain ⟨-, rfl⟩ := step_send.mp h
      exact ⟨rfl, rfl, .inl rfl⟩
  | readResult =>
      cases h
      exact ⟨rfl, rfl, .inl rfl⟩
  | complete result =>
      obtain ⟨-, hcomplete⟩ := step_complete.mp h
      unfold complete onProposal at hcomplete
      cases result with
      | ok receipt =>
          rw [sendResult_eq_ok hcomplete]
          exact ⟨rfl, rfl, .inl rfl⟩
      | error e =>
          dsimp only at hcomplete
          split at hcomplete
          · cases hcomplete
            exact ⟨rfl, rfl, .inl rfl⟩
          · rw [sendResult_eq_ok hcomplete]
            exact ⟨rfl, rfl, .inl rfl⟩
  | startNext =>
      obtain ⟨-, rfl⟩ := step_startNext.mp h
      unfold startNext
      split
      · exact ⟨rfl, rfl, .inl rfl⟩
      · exact ⟨rfl, rfl, .inl rfl⟩
  | receive =>
      obtain ⟨cmd, rest, -, hcmd⟩ := step_receive.mp h
      cases cmd with
      | submit req =>
          cases hcmd
          unfold handleBatchSubmissionRequest
          dsimp only
          split
          · exact ⟨rfl, rfl, .inl rfl⟩
          · exact ⟨rfl, rfl, .inl rfl⟩
      | clearQueue =>
          cases hcmd
          exact ⟨rfl, rfl, .inl rfl⟩
      | getSuggestedMaxSize =>
          obtain ⟨size, hsize, hnext⟩ := bind_eq_ok.mp hcmd
          cases hnext
          exact ⟨rfl, rfl, .inr ⟨size, hsize, rfl⟩⟩

/-- A run keeps the factor. -/
theorem daThrottlingFactor_run {events : List Event}
    (hrun : Transition.run step processor events = some processor') :
    processor'.daThrottlingFactor = processor.daThrottlingFactor := by
  let sameFactor : BatchSubmissionProcessor → Prop := fun reached =>
    reached.daThrottlingFactor = processor.daThrottlingFactor
  have hstep : ∀ reached event next, sameFactor reached → step reached event = some next →
      sameFactor next := fun _ _ _ hsame hnext => (suggestedSizes_step hnext).2.1.trans hsame
  have hfinal : sameFactor processor' := Transition.invariant_run_of_step hstep rfl hrun
  exact hfinal

/-- The configuration is this one, and every size that has been suggested is positive and at most
the configured one. -/
structure SuggestsWithin (maxBlockSize factor : Nat) (processor : BatchSubmissionProcessor) :
    Prop where
  size : processor.maxBlockSize = maxBlockSize
  factor : processor.daThrottlingFactor = factor
  within : ∀ size ∈ processor.suggestedSizes, 0 < size ∧ size ≤ maxBlockSize

/-- With a factor that leaves something of every block, an event suggests such a size. -/
theorem SuggestsWithin.step {maxBlockSize factor : Nat} (hpositive : 0 < maxBlockSize)
    (hparts : 2 ≤ factor) {event : Event} (h : processor.SuggestsWithin maxBlockSize factor)
    (hstep : processor.step event = some processor') :
    processor'.SuggestsWithin maxBlockSize factor := by
  obtain ⟨hsize, hfactor, hsuggested⟩ := suggestedSizes_step hstep
  refine ⟨hsize.trans h.size, hfactor.trans h.factor, ?_⟩
  obtain hsame | ⟨suggested, hcalc, hadded⟩ := hsuggested
  · rw [hsame]
    exact h.within
  · rw [hadded]
    refine List.forall_mem_append.mpr ⟨h.within, List.forall_mem_singleton.mpr ?_⟩
    have hne : processor.daThrottlingFactor ≠ 0 := by
      rw [h.factor]
      omega
    obtain rfl := Except.ok.inj ((calcMaxNextBlockSize_eq hne).symm.trans hcalc)
    rw [h.factor, h.size]
    exact ⟨decay_pos hparts hpositive _, decay_le _⟩

/-- In a run of a processor with such a factor, every suggested size is positive and at most the
configured one. -/
theorem suggestedSizes_run {maxBlockSize factor : Nat} (hpositive : 0 < maxBlockSize)
    (hparts : 2 ≤ factor) {events : List Event}
    (hrun : Transition.run step (new maxBlockSize factor) events = some processor) :
    ∀ size ∈ processor.suggestedSizes, 0 < size ∧ size ≤ maxBlockSize := by
  have hnew : (new maxBlockSize factor).SuggestsWithin maxBlockSize factor :=
    ⟨rfl, rfl, fun _ hnone => absurd hnone List.not_mem_nil⟩
  refine (Transition.invariant_run_of_step (fun _ _ _ hinv hstep => ?_) hnew hrun).within
  exact hinv.step hpositive hparts hstep

end BatchSubmissionProcessor

end Mk1
