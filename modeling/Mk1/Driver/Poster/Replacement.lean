import Mk1.Driver.Poster

/-!
# Fees of replacements

A node replaces a pending blob transaction only by one whose fees are all at
least twice as high. The loop doubles the fees after an accepted submission and
raises them after a gas error, but a new estimation of the fees starts from the
market. `replacement_rule_iff` says that the rule is kept exactly in the runs
whose new estimations are high enough.
-/

namespace Mk1

/-- The hints of the last accepted submission, newest action first. -/
def lastAccepted : List PosterAction → Option BlobTxFeesHints
  | [] => none
  | .submission feesHints _ _ (.ok _) :: _ => some feesHints
  | .submission _ _ _ (.error _) :: earlier => lastAccepted earlier
  | .slotRead _ :: earlier => lastAccepted earlier

/-- The fees are all at least twice those of the last accepted submission, if there was one. -/
def Replaces (feesHints : BlobTxFeesHints) (earlier : List PosterAction) : Prop :=
  ∀ accepted ∈ lastAccepted earlier, accepted.AtLeastTwice feesHints

/-- Every submission replaces the last accepted one before it. -/
def ReplacementsDouble : List PosterAction → Prop
  | [] => True
  | .submission feesHints _ _ _ :: earlier =>
      Replaces feesHints earlier ∧ ReplacementsDouble earlier
  | .slotRead _ :: earlier => ReplacementsDouble earlier

namespace PosterState

/-- Every submission of the call so far, and the one that comes next, replaces the last accepted
one before it. -/
def ReplacementRule : PosterState → Prop
  | .running loop => Replaces loop.feesHints loop.trace ∧ ReplacementsDouble loop.trace
  | .done trace _ => ReplacementsDouble trace

/-- If the submission of a round fails with an error for which the fees are estimated anew, and the
estimation succeeds, its fees are at least twice those of the last accepted submission. -/
def EstimatesHighEnough (cfg : RuntimeConfig) (blobsLen : Nat) (state : PosterState)
    (reads : RoundReads) : Prop :=
  ∀ loop e feesHints, state = .running loop → loop.submit blobsLen reads = .error e →
    e.needsEstimation loop.feesHints = true →
    createBlobFeesHints cfg reads.feeEstimation = .ok (.ok feesHints) →
    Replaces feesHints loop.trace

/-- The estimations of a round whose submission is accepted do not matter. -/
theorem estimatesHighEnough_of_accepted {cfg : RuntimeConfig} {blobsLen : Nat} {loop : PosterLoop}
    {reads : RoundReads} {sent : B256 × Nat × Nat} (h : loop.submit blobsLen reads = .ok sent) :
    EstimatesHighEnough cfg blobsLen (.running loop) reads := by
  intro other e feesHints hloop hsubmit
  cases hloop
  rw [h] at hsubmit
  cases hsubmit

/-- A round whose submission fails is high enough if its error leads to no estimation. -/
theorem estimatesHighEnough_of_failed {cfg : RuntimeConfig} {blobsLen : Nat} {loop : PosterLoop}
    {reads : RoundReads} {e : RetryBatchSubmissionError}
    (h : loop.submit blobsLen reads = .error e)
    (hestimation : e.needsEstimation loop.feesHints = false) :
    EstimatesHighEnough cfg blobsLen (.running loop) reads := by
  intro other failure feesHints hloop hsubmit hneeds
  cases hloop
  obtain rfl : e = failure := Except.error.inj (h.symm.trans hsubmit)
  rw [hestimation] at hneeds
  cases hneeds

/-- A round keeps the rule exactly if its estimation is high enough. -/
theorem replacementRule_step_iff {cfg : RuntimeConfig} {deadline blobsLen : Nat}
    {state next : PosterState} {reads : RoundReads} (h : state.ReplacementRule)
    (hstep : state.step cfg deadline blobsLen reads = some next) :
    next.ReplacementRule ↔ state.EstimatesHighEnough cfg blobsLen reads := by
  cases state with
  | done trace result => cases hstep
  | running loop =>
      obtain ⟨hnext, htrace⟩ := h
      have hround := toOption_eq_some.mp hstep
      unfold PosterLoop.round at hround
      cases hsubmit : loop.submit blobsLen reads with
      | ok sent =>
          rw [hsubmit] at hround
          have hrecorded : ReplacementsDouble ((loop.record (.ok sent)).trace) := ⟨hnext, htrace⟩
          refine iff_of_true ?_ (estimatesHighEnough_of_accepted hsubmit)
          obtain ⟨result, rfl⟩ | rfl | ⟨-, feesHints, latestHead, hdouble, rfl⟩ :=
            PosterLoop.onAccepted_cases hround
          · exact hrecorded
          · exact hrecorded
          · refine ⟨fun accepted haccepted => ?_, hrecorded⟩
            -- the submission of this round is the last accepted one
            cases haccepted
            exact BlobTxFeesHints.atLeastTwice_double hdouble
      | error e =>
          rw [hsubmit] at hround
          have hrecorded : ReplacementsDouble ((loop.record (.error e)).trace) := ⟨hnext, htrace⟩
          obtain ⟨hfatal, rfl⟩ | ⟨-, hestimation, feesHints, hgrow, rfl⟩ |
              ⟨hestimation, hreestimate⟩ := PosterLoop.onFailed_cases hround
          · refine iff_of_true hrecorded (estimatesHighEnough_of_failed hsubmit ?_)
            -- an error that needs an estimation is retryable, so it is not a fatal one
            cases hneeds : e.needsEstimation loop.feesHints with
            | false => rfl
            | true =>
                rw [RetryBatchSubmissionError.isRetryable_of_needsEstimation hneeds] at hfatal
                cases hfatal
          · refine iff_of_true ⟨fun accepted haccepted => ?_, hrecorded⟩
              (estimatesHighEnough_of_failed hsubmit hestimation)
            exact (hnext accepted haccepted).mono hgrow
          · obtain ⟨failure, hfailure, rfl⟩ | ⟨feesHints, hfees, rfl⟩ :=
              PosterLoop.reestimate_cases hreestimate
            · refine iff_of_true hrecorded fun other error feesHints hloop _ _ hfees => ?_
              rw [hfailure] at hfees
              cases hfees
            -- only here are new fees taken over as they are estimated
            · constructor
              · rintro ⟨hhigh, -⟩ other error hints hloop hfailed _ hhints
                cases hloop
                obtain rfl : feesHints = hints := by
                  rw [hfees] at hhints
                  exact Except.ok.inj (Except.ok.inj hhints)
                exact hhigh
              · intro hhigh
                exact ⟨hhigh loop e feesHints rfl hsubmit hestimation hfees, hrecorded⟩

/-- The replacement rule is kept in every state of a run, whatever the node answers, exactly if
every new estimation of the fees is high enough. -/
theorem replacement_rule_iff (cfg : RuntimeConfig) (deadline blobsLen currentSlot : Nat)
    (head : Except RpcError (Option Nat)) (feesHints : BlobTxFeesHints) {rounds : List RoundReads}
    {final : PosterState}
    (hrun : Transition.run (step cfg deadline blobsLen) (start deadline currentSlot head feesHints)
      rounds = some final) :
    (∀ before after reached, rounds = before ++ after →
        Transition.run (step cfg deadline blobsLen) (start deadline currentSlot head feesHints)
          before = some reached → reached.ReplacementRule) ↔
      Transition.StepsMeet (step cfg deadline blobsLen) (EstimatesHighEnough cfg blobsLen)
        (start deadline currentSlot head feesHints) rounds := by
  have hstart : (start deadline currentSlot head feesHints).ReplacementRule := by
    unfold start
    dsimp only
    split
    · trivial
    · split
      · trivial
      · trivial
      · refine ⟨fun accepted haccepted => ?_, trivial⟩
        cases haccepted
  refine Transition.property_iff_stepsMeet_of_step (fun state reads next hrule hstep => ?_) hstart
    hrun
  exact replacementRule_step_iff hrule hstep

/-- A first submission is accepted, and the second, with twice the fees, offers too little for the
blobs: the third offers still more. -/
theorem replacement_rule_of_blob_gas_too_low :
    ∃ final, Transition.run (step (defaultConfig 0) 100 6) (start 100 10 (.ok (some 10)) gweiHints)
        [roundAtSlot 10 (.ok 0), roundAtSlot 11 (answered BLOB_GAS_TOO_LOW_ERROR)] = some final ∧
      final.trace.length = 4 ∧ final.ReplacementRule := by
  obtain ⟨final, hrun, hlength⟩ : ∃ final,
      Transition.run (step (defaultConfig 0) 100 6) (start 100 10 (.ok (some 10)) gweiHints)
        [roundAtSlot 10 (.ok 0), roundAtSlot 11 (answered BLOB_GAS_TOO_LOW_ERROR)] = some final ∧
      final.trace.length = 4 := ⟨_, rfl, rfl⟩
  refine ⟨final, hrun, hlength, ?_⟩
  refine (replacement_rule_iff (defaultConfig 0) 100 6 10 (.ok (some 10)) gweiHints hrun).mpr ?_ _
    [] final (List.append_nil _).symm hrun
  obtain ⟨trace, hfirst⟩ : ∃ trace, step (defaultConfig 0) 100 6
      (start 100 10 (.ok (some 10)) gweiHints) (roundAtSlot 10 (.ok 0)) =
        some (.running ⟨⟨2000000000, 6000000000, 200⟩, some 7, some 400000, 11, 1, trace⟩) :=
    ⟨_, rfl⟩
  refine ⟨estimatesHighEnough_of_accepted rfl, fun next hnext => ?_⟩
  obtain rfl := Option.some.inj (hfirst.symm.trans hnext)
  have hfees : maxBatchFee 6000000000 400000 200 6 ≤ MAX_FEES := by decide
  have hsubmit : PosterLoop.submit
      ⟨⟨2000000000, 6000000000, 200⟩, some 7, some 400000, 11, 1, trace⟩ 6
      (roundAtSlot 11 (answered BLOB_GAS_TOO_LOW_ERROR)) =
        .error (.rpcError (.errorResp BLOB_GAS_TOO_LOW_ERROR)) :=
    retryTxSubmission_of_fees_le rfl hfees
  refine ⟨estimatesHighEnough_of_failed hsubmit ?_, fun _ _ => trivial⟩
  unfold RetryBatchSubmissionError.needsEstimation
  rw [retryDecision_blob_gas_too_low]

/-- A first submission is accepted, and for the second the node answers that the max fee is too
low, without the base fee: the third falls back to the fees of the market. -/
theorem replacement_below_accepted :
    ∃ loop, Transition.run (step (defaultConfig 0) 100 6) (start 100 10 (.ok (some 10)) gweiHints)
        [roundAtSlot 10 (.ok 0), roundAtSlot 11 (answered MAX_FEE_PER_GAS_TOO_LOW_ERROR),
          roundAtSlot 11 (.ok 0)] = some (.running loop) ∧
      ¬ ReplacementsDouble loop.trace := by
  refine ⟨_, rfl, fun hdouble => ?_⟩
  have hreplaces : BlobTxFeesHints.AtLeastTwice gweiHints ⟨1000000000, 3250000001, 113⟩ :=
    hdouble.1 gweiHints rfl
  exact absurd hreplaces.priority (by decide)

end PosterState

end Mk1
