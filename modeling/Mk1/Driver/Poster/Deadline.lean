import Mk1.Driver.Poster

/-!
# The deadline of a proposal

The loop of the poster looks at the clock at its end, and the branches for gas
errors go on without reaching it. `deadline_respected_iff` says that there is a
look at the clock between any two submissions exactly in the runs in which no
gas error is retried.
-/

namespace Mk1

/-- Since the last submission, the current slot was read and found not past the deadline. -/
def ReadInTime (deadline : Nat) : List PosterAction → Prop
  | [] => False
  | .submission .. :: _ => False
  | .slotRead slot :: earlier => slot ≤ deadline ∨ ReadInTime deadline earlier

/-- Before each submission, and after the one before it, the current slot was read and found not
past the deadline. -/
def SubmissionsInTime (deadline : Nat) : List PosterAction → Prop
  | [] => True
  | .submission .. :: earlier => ReadInTime deadline earlier ∧ SubmissionsInTime deadline earlier
  | .slotRead _ :: earlier => SubmissionsInTime deadline earlier

namespace PosterState

/-- The deadline is respected by the submissions so far, and by the one that comes next. -/
def RespectsDeadline (deadline : Nat) : PosterState → Prop
  | .running loop => ReadInTime deadline loop.trace ∧ SubmissionsInTime deadline loop.trace
  | .done trace _ => SubmissionsInTime deadline trace

/-- A gas error of a submission ends the call: it needs an estimation of the fees, which fails. -/
def GasErrorsEnd (blobsLen : Nat) (state : PosterState) (reads : RoundReads) : Prop :=
  ∀ loop e, state = .running loop → loop.submit blobsLen reads = .error e → e.isRetryable = true →
    e.needsEstimation loop.feesHints = true ∧ ∃ failure, reads.feeEstimation = .error failure

/-- Without a gas error there is nothing to end. -/
theorem gasErrorsEnd_of_accepted {blobsLen : Nat} {loop : PosterLoop} {reads : RoundReads}
    {sent : B256 × Nat × Nat} (h : loop.submit blobsLen reads = .ok sent) :
    GasErrorsEnd blobsLen (.running loop) reads := by
  intro other e hloop hsubmit
  cases hloop
  rw [h] at hsubmit
  cases hsubmit

/-- A gas error that is retried at the end of a round is not ended. -/
theorem not_gasErrorsEnd {blobsLen : Nat} {loop : PosterLoop} {reads : RoundReads}
    {e : RetryBatchSubmissionError} (h : loop.submit blobsLen reads = .error e)
    (hretryable : e.isRetryable = true)
    (hretried : e.needsEstimation loop.feesHints = false ∨ ∃ estimated,
      reads.feeEstimation = .ok estimated) : ¬ GasErrorsEnd blobsLen (.running loop) reads := by
  intro hends
  obtain ⟨hestimation, failure, hfailure⟩ := hends loop e rfl h hretryable
  rcases hretried with hnone | ⟨estimated, hestimated⟩
  · rw [hestimation] at hnone
    cases hnone
  · rw [hfailure] at hestimated
    cases hestimated

/-- A round respects the deadline exactly if a gas error in it ends the call. -/
theorem respectsDeadline_step_iff {cfg : RuntimeConfig} {deadline blobsLen : Nat}
    {state next : PosterState} {reads : RoundReads} (h : state.RespectsDeadline deadline)
    (hstep : state.step cfg deadline blobsLen reads = some next) :
    next.RespectsDeadline deadline ↔ state.GasErrorsEnd blobsLen reads := by
  cases state with
  | done trace result => cases hstep
  | running loop =>
      have hround := toOption_eq_some.mp hstep
      unfold PosterLoop.round at hround
      cases hsubmit : loop.submit blobsLen reads with
      | ok sent =>
          rw [hsubmit] at hround
          have hrecorded : SubmissionsInTime deadline (loop.record (.ok sent)).trace := h
          refine iff_of_true ?_ (gasErrorsEnd_of_accepted hsubmit)
          obtain ⟨result, rfl⟩ | rfl | ⟨hslot, feesHints, latestHead, -, rfl⟩ :=
            PosterLoop.onAccepted_cases hround
          · exact hrecorded
          · exact hrecorded
          · exact ⟨.inl hslot, hrecorded⟩
      | error e =>
          rw [hsubmit] at hround
          have hrecorded : SubmissionsInTime deadline (loop.record (.error e)).trace := h
          obtain ⟨hfatal, rfl⟩ | ⟨hretryable, hestimation, feesHints, -, rfl⟩ |
              ⟨hestimation, hreestimate⟩ := PosterLoop.onFailed_cases hround
          · refine iff_of_true hrecorded fun other failure hloop hfailed hretryable => ?_
            cases hloop
            obtain rfl : e = failure := Except.error.inj (hsubmit.symm.trans hfailed)
            rw [hfatal] at hretryable
            cases hretryable
          · -- the next submission follows the failed one at once
            exact iff_of_false (fun hnext => hnext.1)
              (not_gasErrorsEnd hsubmit hretryable (.inl hestimation))
          · obtain ⟨failure, hfailure, rfl⟩ | ⟨feesHints, hfees, rfl⟩ :=
              PosterLoop.reestimate_cases hreestimate
            · refine iff_of_true hrecorded fun other error hloop hfailed _ => ?_
              cases hloop
              obtain rfl : e = error := Except.error.inj (hsubmit.symm.trans hfailed)
              exact ⟨hestimation, failure, hfailure⟩
            · refine iff_of_false (fun hnext => hnext.1) (not_gasErrorsEnd hsubmit
                (RetryBatchSubmissionError.isRetryable_of_needsEstimation hestimation) (.inr ?_))
              cases hestimated : reads.feeEstimation with
              | ok estimated => exact ⟨estimated, rfl⟩
              | error failure =>
                  rw [hestimated] at hfees
                  cases hfees

/-- The deadline is respected in every state of a run, whatever is read, exactly if every gas error
ends the call. -/
theorem deadline_respected_iff (cfg : RuntimeConfig) (deadline blobsLen currentSlot : Nat)
    (head : Except RpcError (Option Nat)) (feesHints : BlobTxFeesHints) {rounds : List RoundReads}
    {final : PosterState}
    (hrun : Transition.run (step cfg deadline blobsLen) (start deadline currentSlot head feesHints)
      rounds = some final) :
    (∀ before after reached, rounds = before ++ after →
        Transition.run (step cfg deadline blobsLen) (start deadline currentSlot head feesHints)
          before = some reached → reached.RespectsDeadline deadline) ↔
      Transition.StepsMeet (step cfg deadline blobsLen) (GasErrorsEnd blobsLen)
        (start deadline currentSlot head feesHints) rounds := by
  have hstart : (start deadline currentSlot head feesHints).RespectsDeadline deadline := by
    unfold start
    dsimp only
    split
    · trivial
    · next hslot =>
        split
        · trivial
        · trivial
        · exact ⟨.inl (Nat.le_of_not_lt hslot), trivial⟩
  refine Transition.property_iff_stepsMeet_of_step (fun state reads next hrespects hstep => ?_)
    hstart hrun
  exact respectsDeadline_step_iff hrespects hstep

/-- After an accepted submission before the deadline, the next one follows a look at the clock. -/
theorem deadline_respected_after_accepted :
    ∃ final, Transition.run (step (defaultConfig 0) 100 6) (start 100 10 (.ok (some 10)) gweiHints)
        [roundAtSlot 10 (.ok 0)] = some final ∧ final.RespectsDeadline 100 := by
  obtain ⟨final, hrun⟩ : ∃ final,
      Transition.run (step (defaultConfig 0) 100 6) (start 100 10 (.ok (some 10)) gweiHints)
        [roundAtSlot 10 (.ok 0)] = some final := ⟨_, rfl⟩
  refine ⟨final, hrun, ?_⟩
  refine (deadline_respected_iff (defaultConfig 0) 100 6 10 (.ok (some 10)) gweiHints hrun).mpr ?_ _
    [] final (List.append_nil _).symm hrun
  exact ⟨gasErrorsEnd_of_accepted rfl, fun _ _ => trivial⟩

/-- At slot 200, past the deadline 100, a node that answers that the blob gas is too low gets
submission after submission. -/
theorem submissions_after_deadline :
    ∃ loop, Transition.run (step (defaultConfig 0) 100 6) (start 100 10 (.ok (some 10)) gweiHints)
        [roundAtSlot 200 (answered BLOB_GAS_TOO_LOW_ERROR),
          roundAtSlot 200 (answered BLOB_GAS_TOO_LOW_ERROR)] = some (.running loop) ∧
      loop.attempts = 2 ∧ ¬ SubmissionsInTime 100 loop.trace :=
  ⟨_, rfl, rfl, fun h => h.1⟩

end PosterState

end Mk1
