import Mk1.Driver.Config
import Mk1.Driver.Errors
import Mk1.Library.Transition
import Mk1.Primitives.Blob

/-!
# The batch poster

`propose_batch_with_retries` of `batch_submitter/poster.rs`. One round of its
loop submits the transaction and handles the answer; what it reads from the node
and from the clock comes with the round. The `trace` records the submissions and
the slots that were read, newest first, and the program does not read it.
-/

namespace Mk1

/-- The maximum fees to be paid for a single batch proposal. -/
def MAX_FEES : Nat := 10 ^ 18 / 8

/-- The minimum gas limit for the batch proposal transaction. -/
def MIN_GAS_LIMIT : Nat := 5000000

/-- How often to look for a new block. -/
def MAX_RETRIES_FOR_NEW_BLOCK : Nat := 32

/-- `u128::saturating_mul`. -/
def saturatingMul128 (left right : Nat) : Nat := min (left * right) u128Max

/-- The maximum fees of a batch transaction. -/
def maxBatchFee (maxFeePerGas gasLimit maxFeePerBlobGas blobsLen : Nat) : Nat :=
  let blobGasUsed := saturatingMul128 blobsLen BYTES_PER_BLOB
  let blobFees := saturatingMul128 maxFeePerBlobGas blobGasUsed
  let executionFees := saturatingMul128 maxFeePerGas gasLimit
  saturatingAdd128 executionFees blobFees

/-- What one submission reads: the nonce and the gas limit that the provider fills in where they
are not set, and the hash of the transaction that was sent. -/
structure SubmissionReads where
  fill : Except RetryBatchSubmissionError (Nat × Nat)
  send : Except RetryBatchSubmissionError B256

/-- The fees estimated by the execution client: the blob base fee and the EIP-1559 fees. -/
abbrev FeeEstimation := Except RpcError (Nat × Eip1559Estimation)

/-- What one round of the loop reads. `heads` are the numbers of the latest block at each look for
a new one. -/
structure RoundReads where
  submission : SubmissionReads
  heads : Nat → Except RpcError (Option Nat)
  receipt : Except RpcError (Option TransactionReceipt)
  feeEstimation : FeeEstimation
  currentSlot : Nat

/-- `create_blob_fees_hints`. -/
def createBlobFeesHints (cfg : RuntimeConfig) (estimation : FeeEstimation) :
    Except Panic (Except RpcError BlobTxFeesHints) :=
  match estimation with
  | .error e => pure (.error e)
  | .ok (blobFeePerGas, eip1559Hints) => do
      let hints ← (BlobTxFeesHints.fromEstimation eip1559Hints blobFeePerGas).withNextBlockIncrease
      let hints ← hints.withEnforcedMinBatchTipWei cfg.minBatchTipWei
      pure (.ok hints)

/-- `retry_tx_submission`: the hash, the nonce and the gas limit of an accepted transaction. -/
def retryTxSubmission (reads : SubmissionReads) (blobsLen : Nat) (feesHints : BlobTxFeesHints)
    (nonce gasLimit : Option Nat) : Except RetryBatchSubmissionError (B256 × Nat × Nat) := do
  let (filledNonce, filledGasLimit) ← reads.fill
  let txNonce := nonce.getD filledNonce
  let txGasLimit := gasLimit.getD filledGasLimit
  let totalFees :=
    maxBatchFee feesHints.maxFeePerGas txGasLimit feesHints.blobFeePerGas blobsLen
  if MAX_FEES < totalFees then throw (.feesTooHigh totalFees MAX_FEES)
  else do
    let hash ← reads.send
    pure (hash, txNonce, min (min (txGasLimit * 2) u64Max) MIN_GAS_LIMIT)

/-- A transaction whose fees are too high is not sent. -/
theorem retryTxSubmission_of_lt_fees {reads : SubmissionReads} {blobsLen : Nat}
    {feesHints : BlobTxFeesHints} {nonce gasLimit : Option Nat} {filledNonce filledGasLimit : Nat}
    (hfill : reads.fill = .ok (filledNonce, filledGasLimit))
    (hfees : MAX_FEES < maxBatchFee feesHints.maxFeePerGas (gasLimit.getD filledGasLimit)
      feesHints.blobFeePerGas blobsLen) :
    retryTxSubmission reads blobsLen feesHints nonce gasLimit =
      .error (.feesTooHigh (maxBatchFee feesHints.maxFeePerGas (gasLimit.getD filledGasLimit)
        feesHints.blobFeePerGas blobsLen) MAX_FEES) := by
  unfold retryTxSubmission
  simp only [hfill, bind, Except.bind, if_pos hfees]
  rfl

/-- A transaction whose fees are not too high is answered by the node. -/
theorem retryTxSubmission_of_fees_le {reads : SubmissionReads} {blobsLen : Nat}
    {feesHints : BlobTxFeesHints} {nonce gasLimit : Option Nat} {filledNonce filledGasLimit : Nat}
    (hfill : reads.fill = .ok (filledNonce, filledGasLimit))
    (hfees : maxBatchFee feesHints.maxFeePerGas (gasLimit.getD filledGasLimit)
      feesHints.blobFeePerGas blobsLen ≤ MAX_FEES) :
    retryTxSubmission reads blobsLen feesHints nonce gasLimit = reads.send.map fun hash =>
      (hash, nonce.getD filledNonce,
        min (min (gasLimit.getD filledGasLimit * 2) u64Max) MIN_GAS_LIMIT) := by
  unfold retryTxSubmission
  simp only [hfill, bind, Except.bind, if_neg (Nat.not_lt.mpr hfees)]
  cases reads.send with
  | error e => rfl
  | ok hash => rfl

/-- `wait_for_new_block`, from some look for it on, with some looks left. -/
def waitForNewBlock (heads : Nat → Except RpcError (Option Nat)) (latestHead look : Nat) :
    Nat → Except BatchProposalError Nat
  | 0 => .error .noHead
  | left + 1 =>
      match heads look with
      | .error e => .error (.rpcError e)
      | .ok none => .error .noHead
      | .ok (some newHead) =>
          if latestHead < newHead then .ok newHead
          else waitForNewBlock heads latestHead (look + 1) left

/-- What to do about a failed submission. -/
inductive RetryDecision where
  | giveUp
  | nextBlockIncrease
  | bumpBaseFee (newBaseFee : Nat)
  | reestimate
  deriving DecidableEq, Repr

/-- The decision of the loop for the error of a submission. -/
def retryDecision : RetryBatchSubmissionError → RetryDecision
  | .rpcError (.errorResp message) =>
      let msg := toLowercase message.toList
      if containsMessage msg BLOB_GAS_TOO_LOW_ERROR then .nextBlockIncrease
      else if containsMessage msg MAX_FEE_PER_GAS_TOO_LOW_ERROR then
        match extractBaseFeeFromErr msg with
        | none => .reestimate
        | some newBaseFee => .bumpBaseFee newBaseFee
      else .giveUp
  | _ => .giveUp

/-- The bare message for blob gas that is too low leads to an increase. -/
theorem retryDecision_blob_gas_too_low :
    retryDecision (.rpcError (.errorResp BLOB_GAS_TOO_LOW_ERROR)) = .nextBlockIncrease := by decide

/-- What the poster has done: it submitted the transaction with these parameters and result, or
it read the current slot. -/
inductive PosterAction where
  | submission (feesHints : BlobTxFeesHints) (nonce gasLimit : Option Nat)
      (result : Except RetryBatchSubmissionError (B256 × Nat × Nat))
  | slotRead (slot : Nat)
  deriving DecidableEq

/-- The variables of the loop. -/
structure PosterLoop where
  feesHints : BlobTxFeesHints
  nonce : Option Nat
  gasLimit : Option Nat
  latestHead : Nat
  attempts : Nat
  trace : List PosterAction

/-- A call of `propose_batch_with_retries`: at the head of its loop, or finished. -/
inductive PosterState where
  | running (loop : PosterLoop)
  | done (trace : List PosterAction) (result : BatchResult)

namespace PosterLoop

/-- End the call. -/
def finish (loop : PosterLoop) (result : BatchResult) : PosterState := .done loop.trace result

/-- Go on with other hints. -/
def continueWith (loop : PosterLoop) (feesHints : BlobTxFeesHints) : PosterState :=
  .running { loop with feesHints := feesHints }

/-- Go on with new hints, unless the estimation fails. -/
def reestimate (cfg : RuntimeConfig) (loop : PosterLoop) (estimation : FeeEstimation) :
    Except Panic PosterState := do
  match ← createBlobFeesHints cfg estimation with
  | .error e => pure (loop.finish (.error (.rpcError e)))
  | .ok feesHints => pure (loop.continueWith feesHints)

/-- Handle the error of a submission. -/
def onFailed (cfg : RuntimeConfig) (loop : PosterLoop) (estimation : FeeEstimation)
    (e : RetryBatchSubmissionError) : Except Panic PosterState :=
  match retryDecision e with
  | .giveUp => pure (loop.finish (.error (.batchRetryError e)))
  | .nextBlockIncrease => do
      let feesHints ← loop.feesHints.withNextBlockIncrease
      pure (loop.continueWith feesHints)
  | .reestimate => loop.reestimate cfg estimation
  | .bumpBaseFee newBaseFee => do
      let (bumped, feesHints) ← loop.feesHints.bumpBaseFee newBaseFee
      if bumped then pure (loop.continueWith feesHints) else loop.reestimate cfg estimation

/-- The end of the loop: stop after the deadline, or double the fees. -/
def checkDeadline (loop : PosterLoop) (deadline currentSlot : Nat) : Except Panic PosterState :=
  let loop := { loop with trace := .slotRead currentSlot :: loop.trace }
  if deadline < currentSlot then pure (loop.finish (.error .deadlineReached))
  else do
    let feesHints ← loop.feesHints.double
    pure (loop.continueWith feesHints)

/-- Remember the nonce and the gas limit of the first accepted transaction. -/
def remember (loop : PosterLoop) (latestNonce latestGasLimit : Nat) : PosterLoop :=
  { loop with
    nonce := some (loop.nonce.getD latestNonce)
    gasLimit := some (loop.gasLimit.getD latestGasLimit) }

/-- Handle an accepted submission: wait for a new block and look for the receipt. -/
def onAccepted (loop : PosterLoop) (deadline : Nat) (reads : RoundReads) :
    Except Panic PosterState :=
  match waitForNewBlock reads.heads loop.latestHead 0 MAX_RETRIES_FOR_NEW_BLOCK with
  | .error e => pure (loop.finish (.error e))
  | .ok latestHead =>
      let loop := { loop with latestHead := latestHead }
      match reads.receipt with
      | .error e => pure (loop.finish (.error (.rpcError e)))
      | .ok (some receipt) => pure (loop.finish (.ok receipt))
      | .ok none => loop.checkDeadline deadline reads.currentSlot

/-- The result of the submission of a round. -/
def submit (loop : PosterLoop) (blobsLen : Nat) (reads : RoundReads) :
    Except RetryBatchSubmissionError (B256 × Nat × Nat) :=
  retryTxSubmission reads.submission blobsLen loop.feesHints loop.nonce loop.gasLimit

/-- Count a submission and record it. -/
def record (loop : PosterLoop)
    (result : Except RetryBatchSubmissionError (B256 × Nat × Nat)) : PosterLoop :=
  { loop with
    attempts := loop.attempts + 1
    trace := .submission loop.feesHints loop.nonce loop.gasLimit result :: loop.trace }

/-- One round of the loop. -/
def round (cfg : RuntimeConfig) (deadline blobsLen : Nat) (loop : PosterLoop)
    (reads : RoundReads) : Except Panic PosterState :=
  let result := loop.submit blobsLen reads
  let loop := loop.record result
  match result with
  | .ok (_, latestNonce, latestGasLimit) =>
      (loop.remember latestNonce latestGasLimit).onAccepted deadline reads
  | .error e => loop.onFailed cfg reads.feeEstimation e

end PosterLoop

namespace PosterState

/-- The call up to its loop, with the current slot and the number of the latest block. -/
def start (deadline currentSlot : Nat) (head : Except RpcError (Option Nat))
    (feesHints : BlobTxFeesHints) : PosterState :=
  let trace := [.slotRead currentSlot]
  if deadline < currentSlot then .done trace (.error .deadlineReached)
  else
    match head with
    | .error e => .done trace (.error (.rpcError e))
    | .ok none => .done trace (.error .noHead)
    | .ok (some latestHead) =>
        .running
          { feesHints := feesHints, nonce := none, gasLimit := none, latestHead := latestHead,
            attempts := 0, trace := trace }

/-- One round, if the call is not finished and no arithmetic overflows. -/
def step (cfg : RuntimeConfig) (deadline blobsLen : Nat) (state : PosterState)
    (reads : RoundReads) : Option PosterState :=
  match state with
  | .running loop => (loop.round cfg deadline blobsLen reads).toOption
  | .done .. => none

/-- What the poster has done so far. -/
def trace : PosterState → List PosterAction
  | .running loop => loop.trace
  | .done trace _ => trace

end PosterState

/-! ## What a round can do -/

/-- Whether the loop goes on after an error of a submission, if estimations succeed. -/
def RetryBatchSubmissionError.isRetryable (e : RetryBatchSubmissionError) : Bool :=
  retryDecision e ≠ .giveUp

/-- Whether the loop estimates the fees anew after an error: the base fee could not be parsed, or
the hints are above it already. -/
def RetryBatchSubmissionError.needsEstimation (e : RetryBatchSubmissionError)
    (feesHints : BlobTxFeesHints) : Bool :=
  match retryDecision e with
  | .reestimate => true
  | .bumpBaseFee newBaseFee => newBaseFee < feesHints.maxFeePerGas - feesHints.maxPriorityFeePerGas
  | .giveUp | .nextBlockIncrease => false

/-- Fees are only estimated anew after a retryable error. -/
theorem RetryBatchSubmissionError.isRetryable_of_needsEstimation {e : RetryBatchSubmissionError}
    {feesHints : BlobTxFeesHints} (h : e.needsEstimation feesHints = true) :
    e.isRetryable = true := by
  unfold needsEstimation at h
  unfold isRetryable
  split at h
  · next hdecision => simp [hdecision]
  · next hdecision => simp [hdecision]
  · cases h
  · cases h

namespace PosterLoop

variable {cfg : RuntimeConfig} {loop : PosterLoop} {next : PosterState}

/-- An estimation of the fees ends the call or replaces the hints. -/
theorem reestimate_cases {estimation : FeeEstimation}
    (h : loop.reestimate cfg estimation = .ok next) :
    (∃ e, estimation = .error e ∧ next = .done loop.trace (.error (.rpcError e))) ∨
      ∃ feesHints, createBlobFeesHints cfg estimation = .ok (.ok feesHints) ∧
        next = .running { loop with feesHints := feesHints } := by
  obtain ⟨answer, hanswer, h⟩ := bind_eq_ok.mp h
  cases answer with
  | ok feesHints =>
      cases h
      exact .inr ⟨feesHints, hanswer, rfl⟩
  | error e =>
      cases h
      refine .inl ⟨e, ?_, rfl⟩
      unfold createBlobFeesHints at hanswer
      split at hanswer
      · cases hanswer
        rfl
      · obtain ⟨increased, -, hanswer⟩ := bind_eq_ok.mp hanswer
        obtain ⟨enforced, -, hanswer⟩ := bind_eq_ok.mp hanswer
        cases hanswer

/-- Everything that the error of a submission can lead to: the end of the call, hints that are not
lower, or an estimation of the fees. -/
theorem onFailed_cases {estimation : FeeEstimation} {e : RetryBatchSubmissionError}
    (h : loop.onFailed cfg estimation e = .ok next) :
    (e.isRetryable = false ∧ next = .done loop.trace (.error (.batchRetryError e))) ∨
      (e.isRetryable = true ∧ e.needsEstimation loop.feesHints = false ∧
        ∃ feesHints, loop.feesHints.NotAbove feesHints ∧
          next = .running { loop with feesHints := feesHints }) ∨
      (e.needsEstimation loop.feesHints = true ∧ loop.reestimate cfg estimation = .ok next) := by
  unfold onFailed at h
  unfold RetryBatchSubmissionError.isRetryable RetryBatchSubmissionError.needsEstimation
  cases hdecision : retryDecision e with
  | giveUp =>
      rw [hdecision] at h
      cases h
      exact .inl ⟨by simp, rfl⟩
  | nextBlockIncrease =>
      rw [hdecision] at h
      obtain ⟨feesHints, hincrease, h⟩ := bind_eq_ok.mp h
      cases h
      exact .inr (.inl ⟨by simp, rfl, feesHints,
        BlobTxFeesHints.notAbove_withNextBlockIncrease hincrease, rfl⟩)
  | reestimate =>
      rw [hdecision] at h
      exact .inr (.inr ⟨rfl, h⟩)
  | bumpBaseFee newBaseFee =>
      rw [hdecision] at h
      obtain ⟨⟨bumped, feesHints⟩, hbump, h⟩ := bind_eq_ok.mp h
      have hflag := BlobTxFeesHints.bumpBaseFee_flag hbump
      cases bumped with
      | true =>
          cases h
          refine .inr (.inl ⟨by simp, ?_, feesHints,
            BlobTxFeesHints.notAbove_bumpBaseFee hbump, rfl⟩)
          simpa using hflag
      | false => exact .inr (.inr ⟨by simpa using hflag, h⟩)

/-- Everything that an accepted submission can lead to: the end of the call, with or without a
look at the clock, or doubled fees before the deadline. -/
theorem onAccepted_cases {deadline : Nat} {reads : RoundReads}
    (h : loop.onAccepted deadline reads = .ok next) :
    (∃ result, next = .done loop.trace result) ∨
      next = .done (.slotRead reads.currentSlot :: loop.trace) (.error .deadlineReached) ∨
      (reads.currentSlot ≤ deadline ∧ ∃ feesHints latestHead,
        loop.feesHints.double = .ok feesHints ∧
        next = .running { loop with
          feesHints := feesHints
          latestHead := latestHead
          trace := .slotRead reads.currentSlot :: loop.trace }) := by
  unfold onAccepted at h
  split at h
  · cases h
    exact .inl ⟨_, rfl⟩
  · dsimp only at h
    split at h
    · cases h
      exact .inl ⟨_, rfl⟩
    · cases h
      exact .inl ⟨_, rfl⟩
    · unfold checkDeadline at h
      dsimp only at h
      split at h
      · cases h
        exact .inr (.inl rfl)
      · next hslot =>
          obtain ⟨feesHints, hdouble, h⟩ := bind_eq_ok.mp h
          cases h
          exact .inr (.inr ⟨Nat.le_of_not_lt hslot, feesHints, _, hdouble, rfl⟩)

end PosterLoop

/-! ## A small instance -/

/-- Fees of 1 and 3 gwei, with a blob fee of 100 wei. -/
abbrev gweiHints : BlobTxFeesHints := ⟨1000000000, 3000000000, 100⟩

/-- A round at a slot whose submission is answered like this, and in which the market is still at
the fees of `gweiHints`. A transaction that is accepted is not included in the next block. -/
def roundAtSlot (currentSlot : Nat) (send : Except RetryBatchSubmissionError B256) : RoundReads :=
  { submission := { fill := .ok (7, 200000), send := send }
    heads := fun _ => .ok (some (currentSlot + 1))
    receipt := .ok none
    feeEstimation := .ok (100, ⟨3000000000, 1000000000⟩)
    currentSlot := currentSlot }

/-- The answer of a node to a submission, as an error response. -/
def answered (message : String) : Except RetryBatchSubmissionError B256 :=
  .error (.rpcError (.errorResp message))

end Mk1
