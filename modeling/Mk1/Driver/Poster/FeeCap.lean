import Mathlib.Data.Nat.Log
import Mk1.Driver.Poster
import Mk1.Primitives.Fees.Consistency

/-!
# How often a batch can be replaced

Every accepted submission that does not land doubles the fees, and a transaction
above the maximum fees is not sent. So the number of accepted submissions of one
batch is bounded for every estimation of the fees, however late the deadline is.
-/

namespace Mk1

/-- How many submissions can be accepted before the fees are estimated anew: as often as a blob fee
of one can be doubled. -/
def replacementLimit (blobsLen : Nat) : Nat :=
  Nat.log 2 (MAX_FEES / (blobsLen * BYTES_PER_BLOB)) + 1

/-- Whether a submission was accepted. -/
def PosterAction.isAccepted : PosterAction → Bool
  | .submission _ _ _ (.ok _) => true
  | _ => false

namespace PosterState

/-- The number of submissions that were accepted. -/
def accepted (state : PosterState) : Nat := state.trace.countP PosterAction.isAccepted

/-- Whether a round estimates the fees anew. -/
def estimatesAnew (blobsLen : Nat) (state : PosterState) (reads : RoundReads) : Bool :=
  match state with
  | .running loop =>
      match loop.submit blobsLen reads with
      | .ok _ => false
      | .error e => e.needsEstimation loop.feesHints
  | .done .. => false

/-- The number of rounds that estimate the fees anew. -/
def estimations (cfg : RuntimeConfig) (deadline blobsLen : Nat) :
    PosterState → List RoundReads → Nat
  | _, [] => 0
  | state, reads :: rest =>
      (if state.estimatesAnew blobsLen reads then 1 else 0) +
        match state.step cfg deadline blobsLen reads with
        | some next => next.estimations cfg deadline blobsLen rest
        | none => 0

/-- After some estimations and some more accepted submissions the blob fee has been doubled as
often. A call that is done has at most one more. -/
def WithinLimit (blobsLen estimations : Nat) : PosterState → Prop
  | .running loop => ∃ doublings, doublings ≤ replacementLimit blobsLen ∧
      loop.trace.countP PosterAction.isAccepted ≤
        replacementLimit blobsLen * estimations + doublings ∧
      2 ^ doublings ≤ loop.feesHints.blobFeePerGas
  | .done trace _ =>
      trace.countP PosterAction.isAccepted ≤ replacementLimit blobsLen * (1 + estimations)

end PosterState

/-! ## The fees of a transaction that is sent -/

/-- The blob fees are part of the maximum fees. -/
theorem blobFees_le {maxFeePerGas gasLimit maxFeePerBlobGas blobsLen : Nat}
    (h : maxBatchFee maxFeePerGas gasLimit maxFeePerBlobGas blobsLen ≤ MAX_FEES) :
    maxFeePerBlobGas * (blobsLen * BYTES_PER_BLOB) ≤ MAX_FEES := by
  have hcap : MAX_FEES < u128Max := by decide
  unfold maxBatchFee saturatingMul128 saturatingAdd128 at h
  dsimp only at h
  generalize blobsLen * BYTES_PER_BLOB = blobGas at h ⊢
  by_contra hhigh
  have hblob : MAX_FEES < maxFeePerBlobGas * min blobGas u128Max := by
    rcases Nat.le_total blobGas u128Max with hle | hle
    · rwa [min_eq_left hle, ← not_le]
    · rw [min_eq_right hle]
      refine hcap.trans_le (Nat.le_mul_of_pos_left _ (Nat.pos_of_ne_zero ?_))
      rintro rfl
      simp at hhigh
  omega

/-- The fees of an accepted submission are not above the maximum. -/
theorem fees_le_of_submit {loop : PosterLoop} {blobsLen : Nat} {reads : RoundReads}
    {sent : B256 × Nat × Nat} (h : loop.submit blobsLen reads = .ok sent) :
    ∃ gasLimit, maxBatchFee loop.feesHints.maxFeePerGas gasLimit loop.feesHints.blobFeePerGas
      blobsLen ≤ MAX_FEES := by
  unfold PosterLoop.submit retryTxSubmission at h
  obtain ⟨⟨filledNonce, filledGasLimit⟩, -, h⟩ := bind_eq_ok.mp h
  dsimp only at h
  split at h
  · cases h
  · next hfees => exact ⟨_, Nat.le_of_not_lt hfees⟩

/-- An accepted submission leaves room for one doubling fewer. -/
theorem lt_replacementLimit {loop : PosterLoop} {blobsLen doublings : Nat} {reads : RoundReads}
    {sent : B256 × Nat × Nat} (hblobs : 0 < blobsLen)
    (h : loop.submit blobsLen reads = .ok sent)
    (hdoubled : 2 ^ doublings ≤ loop.feesHints.blobFeePerGas) :
    doublings < replacementLimit blobsLen := by
  obtain ⟨gasLimit, hfees⟩ := fees_le_of_submit h
  have hblobGas : 0 < blobsLen * BYTES_PER_BLOB := Nat.mul_pos hblobs (by decide)
  have hcap := hdoubled.trans ((Nat.le_div_iff_mul_le hblobGas).mpr (blobFees_le hfees))
  exact Nat.lt_succ_of_le (Nat.le_log_of_pow_le Nat.one_lt_two hcap)

/-- The increase for the next block makes the blob fee at least one. -/
theorem BlobTxFeesHints.one_le_of_withNextBlockIncrease {hints increased : BlobTxFeesHints}
    (h : hints.withNextBlockIncrease = .ok increased) : 1 ≤ increased.blobFeePerGas := by
  obtain ⟨baseFee, -, h⟩ := bind_eq_ok.mp h
  obtain ⟨baseFeeIncreased, -, h⟩ := bind_eq_ok.mp h
  obtain ⟨withoutBaseFee, -, h⟩ := bind_eq_ok.mp h
  obtain ⟨maxFee, -, h⟩ := bind_eq_ok.mp h
  obtain ⟨blobFee, hblobFee, h⟩ := bind_eq_ok.mp h
  cases h
  obtain ⟨product, -, hsum⟩ := bind_eq_ok.mp hblobFee
  exact (Nat.le_add_left 1 _).trans (checkedAdd_eq_ok hsum).1.le

/-- The blob fee of new hints is not zero. -/
theorem one_le_blobFee {cfg : RuntimeConfig} {estimation : FeeEstimation}
    {feesHints : BlobTxFeesHints} (h : createBlobFeesHints cfg estimation = .ok (.ok feesHints)) :
    1 ≤ feesHints.blobFeePerGas := by
  unfold createBlobFeesHints at h
  split at h
  · cases h
  · obtain ⟨hints, hincrease, h⟩ := bind_eq_ok.mp h
    obtain ⟨enforced, henforced, h⟩ := bind_eq_ok.mp h
    cases h
    have hincreased := BlobTxFeesHints.one_le_of_withNextBlockIncrease hincrease
    have hgrow := (BlobTxFeesHints.withEnforcedMinBatchTipWei_eq_ok henforced).2.1.blobFee
    exact hincreased.trans hgrow

namespace PosterState

variable {cfg : RuntimeConfig} {deadline blobsLen : Nat}

/-- An accepted submission keeps to the limit. -/
theorem withinLimit_of_accepted {loop : PosterLoop} {next : PosterState} {reads : RoundReads}
    {sent : B256 × Nat × Nat} {estimations : Nat} (hblobs : 0 < blobsLen)
    (h : (PosterState.running loop).WithinLimit blobsLen estimations)
    (hsubmit : loop.submit blobsLen reads = .ok sent)
    (hround : ((loop.record (.ok sent)).remember sent.2.1 sent.2.2).onAccepted deadline reads =
      .ok next) : next.WithinLimit blobsLen estimations := by
  obtain ⟨doublings, hlimit, hcount, hdoubled⟩ := h
  have hlt := lt_replacementLimit hblobs hsubmit hdoubled
  have haccepted : (loop.record (.ok sent)).trace.countP PosterAction.isAccepted =
      loop.trace.countP PosterAction.isAccepted + 1 := List.countP_cons_of_pos rfl
  have hone : (loop.record (.ok sent)).trace.countP PosterAction.isAccepted ≤
      replacementLimit blobsLen * (1 + estimations) := by
    rw [haccepted, Nat.mul_add, Nat.mul_one]
    omega
  obtain ⟨result, rfl⟩ | rfl | ⟨-, feesHints, latestHead, hdouble, rfl⟩ :=
    PosterLoop.onAccepted_cases hround
  · exact hone
  · exact (List.countP_cons_of_neg Bool.false_ne_true).le.trans hone
  · have htwice := (BlobTxFeesHints.atLeastTwice_double hdouble).blobFee
    refine ⟨doublings + 1, hlt, ?_, ?_⟩
    · refine (List.countP_cons_of_neg Bool.false_ne_true).le.trans ?_
      show (loop.record (.ok sent)).trace.countP PosterAction.isAccepted ≤ _
      rw [haccepted]
      omega
    · rw [Nat.pow_succ, Nat.mul_comm]
      exact (Nat.mul_le_mul_left 2 hdoubled).trans htwice

/-- A failed submission keeps to the limit, with one estimation more if the fees are estimated
anew. -/
theorem withinLimit_of_failed {loop : PosterLoop} {next : PosterState} {reads : RoundReads}
    {e : RetryBatchSubmissionError} {estimations : Nat}
    (h : (PosterState.running loop).WithinLimit blobsLen estimations)
    (hround : (loop.record (.error e)).onFailed cfg reads.feeEstimation e = .ok next) :
    next.WithinLimit blobsLen
      (estimations + if e.needsEstimation loop.feesHints then 1 else 0) := by
  obtain ⟨doublings, hlimit, hcount, hdoubled⟩ := h
  have hsame : (loop.record (.error e)).trace.countP PosterAction.isAccepted =
      loop.trace.countP PosterAction.isAccepted := List.countP_cons_of_neg Bool.false_ne_true
  have hone : (loop.record (.error e)).trace.countP PosterAction.isAccepted ≤
      replacementLimit blobsLen * (1 + estimations) := by
    rw [hsame, Nat.mul_add, Nat.mul_one]
    omega
  obtain ⟨hfatal, rfl⟩ | ⟨-, hestimation, feesHints, hgrow, rfl⟩ |
      ⟨hestimation, hreestimate⟩ := PosterLoop.onFailed_cases hround
  · refine hone.trans (Nat.mul_le_mul_left _ ?_)
    omega
  · have hestimation : e.needsEstimation loop.feesHints = false := hestimation
    rw [hestimation]
    exact ⟨doublings, hlimit, hsame.le.trans hcount, hdoubled.trans hgrow.blobFee⟩
  · have hestimation : e.needsEstimation loop.feesHints = true := hestimation
    rw [hestimation, if_pos rfl]
    obtain ⟨failure, -, rfl⟩ | ⟨feesHints, hfees, rfl⟩ := PosterLoop.reestimate_cases hreestimate
    · refine hone.trans (Nat.mul_le_mul_left _ ?_)
      omega
    · refine ⟨0, Nat.zero_le _, ?_, one_le_blobFee hfees⟩
      rw [Nat.add_comm estimations 1]
      exact hone

/-- A round keeps to the limit, with one estimation more if it estimates the fees anew. -/
theorem WithinLimit.step {state next : PosterState} {reads : RoundReads} {estimations : Nat}
    (hblobs : 0 < blobsLen) (h : state.WithinLimit blobsLen estimations)
    (hstep : state.step cfg deadline blobsLen reads = some next) :
    next.WithinLimit blobsLen
      (estimations + if state.estimatesAnew blobsLen reads then 1 else 0) := by
  cases state with
  | done trace result => cases hstep
  | running loop =>
      have hround := toOption_eq_some.mp hstep
      unfold PosterLoop.round at hround
      unfold estimatesAnew
      cases hsubmit : loop.submit blobsLen reads with
      | ok sent =>
          rw [hsubmit] at hround
          simp only [hsubmit, Bool.false_eq_true, if_false, Nat.add_zero]
          exact withinLimit_of_accepted hblobs h hsubmit hround
      | error e =>
          rw [hsubmit] at hround
          simp only [hsubmit]
          exact withinLimit_of_failed h hround

/-- A run keeps to the limit. -/
theorem WithinLimit.run {state final : PosterState} {rounds : List RoundReads} {estimations : Nat}
    (hblobs : 0 < blobsLen) (h : state.WithinLimit blobsLen estimations)
    (hrun : Transition.run (PosterState.step cfg deadline blobsLen) state rounds = some final) :
    final.WithinLimit blobsLen
      (estimations + state.estimations cfg deadline blobsLen rounds) := by
  induction rounds generalizing state estimations with
  | nil =>
      cases hrun
      exact h
  | cons reads rest ih =>
      obtain ⟨next, hstep, hrest⟩ := Transition.run_cons.mp hrun
      have hfinal := ih (h.step hblobs hstep) hrest
      unfold PosterState.estimations
      rw [hstep]
      rwa [Nat.add_assoc] at hfinal

/-- A call starts with no accepted submission. -/
theorem withinLimit_start {currentSlot : Nat} {head : Except RpcError (Option Nat)}
    {feesHints : BlobTxFeesHints} (hfee : 1 ≤ feesHints.blobFeePerGas) :
    (start deadline currentSlot head feesHints).WithinLimit blobsLen 0 := by
  unfold start
  dsimp only
  split
  · exact Nat.zero_le _
  · split
    · exact Nat.zero_le _
    · exact Nat.zero_le _
    · exact ⟨0, Nat.zero_le _, Nat.zero_le _, hfee⟩

/-- More blobs leave no more room. -/
theorem replacementLimit_le (hblobs : 0 < blobsLen) :
    replacementLimit blobsLen ≤ replacementLimit 1 :=
  Nat.succ_le_succ (Nat.log_mono_right (Nat.div_le_div_left
    (Nat.mul_le_mul_right BYTES_PER_BLOB hblobs) (by decide)))

/-- In every run of `propose_batch_with_retries`, whatever the node answers and however late the
deadline is, the number of accepted submissions is bounded for every estimation of the fees, and
the bound is at most 40. -/
theorem accepted_le (cfg : RuntimeConfig) (deadline currentSlot : Nat)
    (head : Except RpcError (Option Nat)) (hblobs : 0 < blobsLen) {estimation : FeeEstimation}
    {feesHints : BlobTxFeesHints} (hfees : createBlobFeesHints cfg estimation = .ok (.ok feesHints))
    {rounds : List RoundReads} {final : PosterState}
    (hrun : Transition.run (step cfg deadline blobsLen) (start deadline currentSlot head feesHints)
      rounds = some final) :
    final.accepted ≤ replacementLimit blobsLen *
        (1 + (start deadline currentSlot head feesHints).estimations cfg deadline blobsLen rounds) ∧
      replacementLimit blobsLen ≤ 40 := by
  refine ⟨?_, (replacementLimit_le hblobs).trans (by decide)⟩
  have hfinal := (withinLimit_start (one_le_blobFee hfees)).run hblobs hrun
  rw [Nat.zero_add] at hfinal
  cases final with
  | done trace result => exact hfinal
  | running loop =>
      obtain ⟨doublings, hlimit, hcount, -⟩ := hfinal
      refine hcount.trans ?_
      rw [Nat.mul_add, Nat.mul_one, Nat.add_comm]
      exact Nat.add_le_add_right hlimit _

/-- Two accepted submissions with an estimation of the fees between them. -/
theorem accepted_le_two :
    ∃ final, Transition.run (step (defaultConfig 0) 100 6)
        (start 100 10 (.ok (some 10)) ⟨1000000000, 3250000001, 113⟩)
        [roundAtSlot 10 (.ok 0), roundAtSlot 11 (answered MAX_FEE_PER_GAS_TOO_LOW_ERROR),
          roundAtSlot 11 (.ok 0)] = some final ∧
      final.accepted = 2 ∧ final.accepted ≤ replacementLimit 6 * (1 + 1) := by
  obtain ⟨final, hrun, haccepted⟩ : ∃ final, Transition.run (step (defaultConfig 0) 100 6)
      (start 100 10 (.ok (some 10)) ⟨1000000000, 3250000001, 113⟩)
      [roundAtSlot 10 (.ok 0), roundAtSlot 11 (answered MAX_FEE_PER_GAS_TOO_LOW_ERROR),
        roundAtSlot 11 (.ok 0)] = some final ∧ final.accepted = 2 := ⟨_, rfl, rfl⟩
  have hfees : createBlobFeesHints (defaultConfig 0) (.ok (100, ⟨3000000000, 1000000000⟩)) =
      .ok (.ok ⟨1000000000, 3250000001, 113⟩) := by rfl
  exact ⟨final, hrun, haccepted,
    (accepted_le (defaultConfig 0) 100 10 (.ok (some 10)) (by decide) hfees hrun).1⟩

end PosterState

end Mk1
