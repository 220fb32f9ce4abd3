import Mk1.Driver.Poster
import Mk1.Driver.Processor.Overlap

/-!
# Proposals of the processor

`post_batch` of the poster and the processor that awaits it. An error of a
proposal clears the queue and is reported to the driver, except for one that
the processor takes for a success: `failed_proposal_reported_iff` says that this
is the answer "nonce too low" of the node to the last submission, and no other
error, and that a report needs room in the results channel.
-/

namespace Mk1

/-- An error of making the sidecar of a batch. -/
inductive SidecarError where
  | zlib
  | blobSidecar
  deriving DecidableEq, Repr

/-- The conversion of such an error. -/
def SidecarError.into : SidecarError → BatchProposalError
  | .zlib => .zlib
  | .blobSidecar => .blobSidecar

/-- What the proposal of a batch reads: the number of blobs in its sidecar or the error of making
it, the fees, the slot, the number of the latest block, and what each round of the loop reads. -/
structure ProposalReads where
  sidecar : Except SidecarError Nat
  feeEstimation : FeeEstimation
  currentSlot : Nat
  head : Except RpcError (Option Nat)
  rounds : List RoundReads

/-- The number of blobs and the fee hints of `generate_batch`. -/
def generateBatch (cfg : RuntimeConfig) (reads : ProposalReads) :
    Except Panic (Except BatchProposalError (Nat × BlobTxFeesHints)) :=
  match reads.sidecar with
  | .error e => pure (.error e.into)
  | .ok blobs => do
      match ← createBlobFeesHints cfg reads.feeEstimation with
      | .error e => pure (.error (.rpcError e))
      | .ok feesHints => pure (.ok (blobs, feesHints))

/-- A transaction that was included may have been reverted. -/
def checkReceipt : BatchResult → BatchResult
  | .ok receipt =>
      if receipt.status then .ok receipt else .error (.reverted receipt.transactionHash)
  | .error e => .error e

/-- `post_batch`, with the actions of the poster. There is no result if the batch is empty, if some
arithmetic overflows, or if the loop is still running after the rounds. -/
def postBatch (cfg : RuntimeConfig) (batch : Batch) (deadline : Nat) (reads : ProposalReads) :
    Option (List PosterAction × BatchResult) := do
  let _ ← batch.blocks.getLast?
  match ← (generateBatch cfg reads).toOption with
  | .error e => pure ([], .error e)
  | .ok (blobs, feesHints) =>
      match ← Transition.run (PosterState.step cfg deadline blobs)
          (.start deadline reads.currentSlot reads.head feesHints) reads.rounds with
      | .running _ => none
      | .done trace result => pure (trace, checkReceipt result)

/-- The error is the answer of the node to the last submission, that the nonce is too low. -/
def AnsweredNonceTooLow (trace : List PosterAction) (e : BatchProposalError) : Prop :=
  ∃ message feesHints nonce gasLimit earlier,
    e = .batchRetryError (.rpcError (.errorResp message)) ∧
    containsMessage (toLowercase message.toList) NONCE_TOO_LOW_ERROR = true ∧
    trace =
      .submission feesHints nonce gasLimit (.error (.rpcError (.errorResp message))) :: earlier

/-- An error that is taken for a success is such an answer, if it comes from a submission at all. -/
theorem answeredNonceTooLow_of_matches {e : RetryBatchSubmissionError} {feesHints : BlobTxFeesHints}
    {nonce gasLimit : Option Nat} {earlier : List PosterAction}
    (h : (BatchProposalError.batchRetryError e).matchesNonceTooLow = true) :
    AnsweredNonceTooLow (.submission feesHints nonce gasLimit (.error e) :: earlier)
      (.batchRetryError e) := by
  cases e with
  | rpcError e =>
      cases e with
      | errorResp message => exact ⟨message, feesHints, nonce, gasLimit, earlier, rfl, h, rfl⟩
      | other => cases h
  | taikoInbox e => cases h
  | unknownSelector => cases h
  | feesTooHigh got max => cases h

namespace PosterState

/-- If the call has ended with an error that is taken for a success, it is the answer to the last
submission. -/
def EndsInOrder : PosterState → Prop
  | .running _ => True
  | .done trace result =>
      ∀ e, result = .error e → e.matchesNonceTooLow = true → AnsweredNonceTooLow trace e

/-- An error in waiting for a new block is not taken for a success. -/
theorem matchesNonceTooLow_waitForNewBlock {heads : Nat → Except RpcError (Option Nat)}
    {latestHead look left : Nat} {e : BatchProposalError}
    (h : waitForNewBlock heads latestHead look left = .error e) : e.matchesNonceTooLow = false := by
  induction left generalizing look with
  | zero =>
      cases h
      rfl
  | succ left ih =>
      unfold waitForNewBlock at h
      split at h
      · cases h
        rfl
      · cases h
        rfl
      · split at h
        · cases h
        · exact ih h

/-- After an accepted submission the call does not end in an error that is taken for a success. -/
theorem endsInOrder_onAccepted {loop : PosterLoop} {deadline : Nat} {reads : RoundReads}
    {next : PosterState} (h : loop.onAccepted deadline reads = .ok next) : next.EndsInOrder := by
  unfold PosterLoop.onAccepted at h
  split at h
  · next e hwait =>
      cases h
      rintro _ ⟨⟩ hnonce
      rw [matchesNonceTooLow_waitForNewBlock hwait] at hnonce
      cases hnonce
  · dsimp only at h
    split at h
    · cases h
      rintro _ ⟨⟩ hnonce
      cases hnonce
    · cases h
      rintro _ ⟨⟩
    · unfold PosterLoop.checkDeadline at h
      dsimp only at h
      split at h
      · cases h
        rintro _ ⟨⟩ hnonce
        cases hnonce
      · obtain ⟨feesHints, -, h⟩ := bind_eq_ok.mp h
        cases h
        trivial

/-- Every round ends in order. -/
theorem endsInOrder_step {cfg : RuntimeConfig} {deadline blobsLen : Nat} {state next : PosterState}
    {reads : RoundReads} (hstep : state.step cfg deadline blobsLen reads = some next) :
    next.EndsInOrder := by
  cases state with
  | done trace result => cases hstep
  | running loop =>
      have hround := toOption_eq_some.mp hstep
      unfold PosterLoop.round at hround
      cases hsubmit : loop.submit blobsLen reads with
      | ok sent =>
          rw [hsubmit] at hround
          exact endsInOrder_onAccepted hround
      | error e =>
          rw [hsubmit] at hround
          obtain ⟨-, rfl⟩ | ⟨-, -, feesHints, -, rfl⟩ | ⟨-, hreestimate⟩ :=
            PosterLoop.onFailed_cases hround
          · rintro _ ⟨⟩ hnonce
            exact answeredNonceTooLow_of_matches hnonce
          · trivial
          · obtain ⟨failure, -, rfl⟩ | ⟨feesHints, -, rfl⟩ :=
              PosterLoop.reestimate_cases hreestimate
            · rintro _ ⟨⟩ hnonce
              cases hnonce
            · trivial

/-- Every call ends in order. -/
theorem endsInOrder_run {cfg : RuntimeConfig} {deadline blobsLen currentSlot : Nat}
    {head : Except RpcError (Option Nat)} {feesHints : BlobTxFeesHints} {rounds : List RoundReads}
    {final : PosterState}
    (hrun : Transition.run (step cfg deadline blobsLen) (start deadline currentSlot head feesHints)
      rounds = some final) : final.EndsInOrder := by
  have hstart : (start deadline currentSlot head feesHints).EndsInOrder := by
    unfold start
    dsimp only
    split
    · rintro _ ⟨⟩ hnonce
      cases hnonce
    · split
      · rintro _ ⟨⟩ hnonce
        cases hnonce
      · rintro _ ⟨⟩ hnonce
        cases hnonce
      · trivial
  exact Transition.invariant_run_of_step (fun _ _ _ _ hstep => endsInOrder_step hstep) hstart hrun

end PosterState

/-- An error in making a batch does not come from a submission. -/
theorem matchesNonceTooLow_generateBatch {cfg : RuntimeConfig} {reads : ProposalReads}
    {e : BatchProposalError} (h : generateBatch cfg reads = .ok (.error e)) :
    e.matchesNonceTooLow = false := by
  unfold generateBatch at h
  split at h
  · next failure _ =>
      cases h
      cases failure with
      | zlib => rfl
      | blobSidecar => rfl
  · obtain ⟨answer, -, h⟩ := bind_eq_ok.mp h
    cases answer with
    | error failure =>
        cases h
        rfl
    | ok feesHints => cases h

/-- The error of a proposal is taken for a success exactly if it is the answer of the node to the
last submission, that the nonce is too low. -/
theorem matchesNonceTooLow_postBatch_iff {cfg : RuntimeConfig} {batch : Batch} {deadline : Nat}
    {reads : ProposalReads} {trace : List PosterAction} {e : BatchProposalError}
    (h : postBatch cfg batch deadline reads = some (trace, .error e)) :
    e.matchesNonceTooLow = true ↔ AnsweredNonceTooLow trace e := by
  constructor
  · intro hnonce
    obtain ⟨last, -, h⟩ := Option.bind_eq_some_iff.mp h
    obtain ⟨generated, hgenerated, h⟩ := Option.bind_eq_some_iff.mp h
    cases generated with
    | error failure =>
        cases h
        rw [matchesNonceTooLow_generateBatch (toOption_eq_some.mp hgenerated)] at hnonce
        cases hnonce
    | ok made =>
        obtain ⟨blobs, feesHints⟩ := made
        obtain ⟨final, hfinal, h⟩ := Option.bind_eq_some_iff.mp h
        cases final with
        | running loop => cases h
        | done actions result =>
            obtain ⟨rfl, hresult⟩ := Prod.mk.inj (Option.some.inj h)
            have hends := PosterState.endsInOrder_run hfinal
            cases result with
            | error failure =>
                cases hresult
                exact hends e rfl hnonce
            | ok receipt =>
                unfold checkReceipt at hresult
                dsimp only at hresult
                split at hresult
                · cases hresult
                · cases hresult
                  cases hnonce
  · rintro ⟨message, -, -, -, -, rfl, hmessage, -⟩
    exact hmessage

/-! ## The processor with its proposals -/

namespace BatchSubmissionProcessor

/-- What can happen to the processor when its proposals are those of the poster: the pending one
ends after some reads, or something else happens. -/
inductive ProposalEvent where
  | proposalEnds (reads : ProposalReads)
  | otherwise (event : Event)

/-- One such event. -/
def proposalStep (cfg : RuntimeConfig) (processor : BatchSubmissionProcessor) :
    ProposalEvent → Option BatchSubmissionProcessor
  | .proposalEnds reads => do
      let (batch, deadline) ← processor.pendingProposal
      let (_, result) ← postBatch cfg batch deadline reads
      processor.step (.complete result)
  | .otherwise (.complete _) => none
  | .otherwise event => processor.step event

/-- The pending proposal completes with the result of the poster. -/
theorem proposalStep_proposalEnds {cfg : RuntimeConfig} {processor : BatchSubmissionProcessor}
    {batch : Batch} {deadline : Nat} {reads : ProposalReads} {trace : List PosterAction}
    {result : BatchResult} (hpending : processor.pendingProposal = some (batch, deadline))
    (hpost : postBatch cfg batch deadline reads = some (trace, result)) :
    processor.proposalStep cfg (.proposalEnds reads) = processor.step (.complete result) := by
  unfold proposalStep
  simp only [hpending, hpost, Option.bind_some, Option.bind_eq_bind]

/-- The driver is told about an error: the queue is cleared, and the error is the last result. -/
structure Reported (before after : BatchSubmissionProcessor) (e : BatchProposalError) : Prop where
  cleared : after.requestQueue = []
  sent : after.resultTx = before.resultTx ++ [.error e]

/-- Nothing happens because of an error: the queue and the results stay as they are. -/
structure Ignored (before after : BatchSubmissionProcessor) : Prop where
  kept : after.requestQueue = before.requestQueue
  unsent : after.resultTx = before.resultTx

/-- The message of the `expect` on the results channel for an error. -/
def sendErrorMessage : String := "Failed to send batch proposal error"

/-- An error that is taken for a success is ignored; any other is reported if there is room for it
in the results channel, and else the `expect` panics. -/
theorem complete_error_cases (processor : BatchSubmissionProcessor) (e : BatchProposalError) :
    (e.matchesNonceTooLow = true ∧
        ∃ next, processor.complete (.error e) = .ok next ∧ Ignored processor next) ∨
      (e.matchesNonceTooLow = false ∧ processor.resultTx.length < MAX_BUFFERED_BATCHES ∧
        ∃ next, processor.complete (.error e) = .ok next ∧ Reported processor next e) ∨
      (e.matchesNonceTooLow = false ∧ MAX_BUFFERED_BATCHES ≤ processor.resultTx.length ∧
        processor.complete (.error e) = .error ⟨sendErrorMessage⟩) := by
  unfold complete onProposal
  dsimp only
  cases hnonce : e.matchesNonceTooLow with
  | true => exact .inl ⟨rfl, _, if_pos rfl, rfl, rfl⟩
  | false =>
      rw [if_neg Bool.false_ne_true]
      unfold sendResult
      dsimp only
      by_cases hroom : processor.resultTx.length < MAX_BUFFERED_BATCHES
      · exact .inr (.inl ⟨rfl, hroom, _, if_pos hroom, rfl, rfl⟩)
      · exact .inr (.inr ⟨rfl, Nat.le_of_not_lt hroom, if_neg hroom⟩)

/-- An error is not both reported and ignored. -/
theorem Reported.not_ignored {before after : BatchSubmissionProcessor} {e : BatchProposalError}
    (hreported : Reported before after e) : ¬ Ignored before after := by
  intro hignored
  have hlengths := congrArg List.length (hreported.sent.symm.trans hignored.unsent)
  simp at hlengths

/-- A proposal that ends with an error is reported to the driver, in whatever state and whatever the
node has answered, exactly if the error is not the answer "nonce too low" to its last submission
and there is room in the results channel. Exactly after that answer nothing happens, and exactly
with a full channel and another error the processor panics. -/
theorem failed_proposal_reported_iff {cfg : RuntimeConfig} {processor : BatchSubmissionProcessor}
    {batch : Batch} {deadline : Nat} {reads : ProposalReads} {trace : List PosterAction}
    {e : BatchProposalError} (hpending : processor.pendingProposal = some (batch, deadline))
    (hpost : postBatch cfg batch deadline reads = some (trace, .error e)) :
    ((∃ next, processor.proposalStep cfg (.proposalEnds reads) = some next ∧
        Reported processor next e) ↔
      ¬ AnsweredNonceTooLow trace e ∧ processor.resultTx.length < MAX_BUFFERED_BATCHES) ∧
    ((∃ next, processor.proposalStep cfg (.proposalEnds reads) = some next ∧
        Ignored processor next) ↔ AnsweredNonceTooLow trace e) ∧
    (processor.complete (.error e) = .error ⟨sendErrorMessage⟩ ↔
      ¬ AnsweredNonceTooLow trace e ∧ MAX_BUFFERED_BATCHES ≤ processor.resultTx.length) := by
  have hstep : ∀ next, processor.proposalStep cfg (.proposalEnds reads) = some next ↔
      processor.complete (.error e) = .ok next := by
    intro next
    rw [proposalStep_proposalEnds hpending hpost, step_complete, hpending]
    exact and_iff_right (Option.some_ne_none _)
  simp only [hstep, ← matchesNonceTooLow_postBatch_iff hpost]
  obtain ⟨hnonce, done, hdone, hignored⟩ | ⟨hnonce, hroom, done, hdone, hreported⟩ |
    ⟨hnonce, hfull, hpanic⟩ := complete_error_cases processor e
  · refine ⟨iff_of_false ?_ (fun h => h.1 hnonce), iff_of_true ⟨done, hdone, hignored⟩ hnonce,
      iff_of_false ?_ (fun h => h.1 hnonce)⟩
    · rintro ⟨next, hnext, hreported⟩
      cases hdone.symm.trans hnext
      exact hreported.not_ignored hignored
    · rw [hdone]
      rintro ⟨⟩
  · have hnot : ¬ e.matchesNonceTooLow = true := by simp [hnonce]
    refine ⟨iff_of_true ⟨done, hdone, hreported⟩ ⟨hnot, hroom⟩, iff_of_false ?_ hnot,
      iff_of_false ?_ (fun h => Nat.not_lt_of_le h.2 hroom)⟩
    · rintro ⟨next, hnext, hignored⟩
      cases hdone.symm.trans hnext
      exact hreported.not_ignored hignored
    · rw [hdone]
      rintro ⟨⟩
  · have hnot : ¬ e.matchesNonceTooLow = true := by simp [hnonce]
    refine ⟨iff_of_false ?_ (fun h => Nat.not_lt_of_le hfull h.2), iff_of_false ?_ hnot,
      iff_of_true hpanic ⟨hnot, hfull⟩⟩
    · rintro ⟨next, hnext, -⟩
      cases hpanic.symm.trans hnext
    · rintro ⟨next, hnext, -⟩
      cases hpanic.symm.trans hnext

/-- A proposal at slot 10 whose first submission is answered with this message. -/
def proposalAnswered (message : String) : ProposalReads :=
  { sidecar := .ok 6
    feeEstimation := .ok (100, ⟨3000000000, 1000000000⟩)
    currentSlot := 10
    head := .ok (some 10)
    rounds := [roundAtSlot 10 (answered message)] }

/-- The processor proposes blocks 1 to 5, and blocks 6 and 7 are queued. -/
def proposingFirst : BatchSubmissionProcessor :=
  { new 1000 10 with
    pendingProposal := some ((rangeRequest 1 5).batch, 50)
    requestQueue := [((rangeRequest 6 2).batch, 50)] }

/-- A first submission that the node rejects is reported, and the queue is cleared. -/
theorem failed_proposal_reported_rejected :
    ∃ trace e next,
      postBatch (defaultConfig 0) (rangeRequest 1 5).batch 50 (proposalAnswered "rejected") =
        some (trace, .error e) ∧
      proposingFirst.proposalStep (defaultConfig 0) (.proposalEnds (proposalAnswered "rejected")) =
        some next ∧
      Reported proposingFirst next e := by
  obtain ⟨trace, hpost⟩ : ∃ trace,
      postBatch (defaultConfig 0) (rangeRequest 1 5).batch 50 (proposalAnswered "rejected") =
        some (trace, .error (.batchRetryError (.rpcError (.errorResp "rejected")))) := ⟨_, rfl⟩
  have hother : ¬ AnsweredNonceTooLow trace
      (.batchRetryError (.rpcError (.errorResp "rejected"))) := by
    rintro ⟨message, -, -, -, -, he, hmessage, -⟩
    cases he
    exact absurd hmessage (by decide)
  obtain ⟨next, hnext, hreported⟩ :=
    (@failed_proposal_reported_iff _ proposingFirst _ _ _ _ _ rfl hpost).1.mpr
      ⟨hother, by decide⟩
  exact ⟨trace, _, next, hpost, hnext, hreported⟩

/-- A first submission that the node answers with "nonce too low" ends the proposal with an error,
although nothing was accepted, and neither is the driver told nor the queue cleared. -/
theorem silent_after_nonce_too_low :
    ∃ events processor next feesHints e,
      Transition.run (proposalStep (defaultConfig 0)) (new 1000 10) events = some processor ∧
      processor.pendingProposal = some ((rangeRequest 1 5).batch, 50) ∧
      postBatch (defaultConfig 0) (rangeRequest 1 5).batch 50
        (proposalAnswered "nonce too low") =
          some ([.submission feesHints none none (.error e), .slotRead 10],
            .error (.batchRetryError e)) ∧
      processor.proposalStep (defaultConfig 0)
        (.proposalEnds (proposalAnswered "nonce too low")) = some next ∧
      next.resultTx = [] ∧ next.requestQueue = [((rangeRequest 6 2).batch, 50)] := by
  have hpost : postBatch (defaultConfig 0) (rangeRequest 1 5).batch 50
      (proposalAnswered "nonce too low") = some
        ([.submission ⟨1000000000, 3250000001, 113⟩ none none
            (.error (.rpcError (.errorResp "nonce too low"))), .slotRead 10],
          .error (.batchRetryError (.rpcError (.errorResp "nonce too low")))) := by
    decide +kernel
  have hnonce : (BatchProposalError.batchRetryError
      (.rpcError (.errorResp "nonce too low"))).matchesNonceTooLow = true := by decide
  refine ⟨(submitTwice (rangeRequest 1 5) (rangeRequest 6 2)).map .otherwise, proposingFirst,
    { proposingFirst with pendingProposal := none }, _, _, rfl, rfl, hpost, ?_, rfl, rfl⟩
  rw [proposalStep_proposalEnds rfl hpost]
  simp only [step, proposingFirst, complete, onProposal, hnonce, if_pos]
  rfl

end BatchSubmissionProcessor

end Mk1
