import Mk1.Driver.Poster

/-!
# Nonce and gas limit of replacements

The provider fills in the nonce and the gas limit of the first transaction that
is accepted, and the loop uses the nonce and a gas limit computed from that one
for all later transactions. The computation takes the lower of the doubled gas
limit and `MIN_GAS_LIMIT`, where the higher one was meant.
`nonce_and_gas_iff` says in which runs the gas limit is high enough nevertheless.
-/

namespace Mk1

/-- A transaction that was sent to the node, and whether the node accepted it. -/
structure SentTransaction where
  nonce : Nat
  gasLimit : Nat
  accepted : Bool
  deriving DecidableEq, Repr

/-- The transaction that a round sends, if the provider fills it in and its fees are not too
high. -/
def PosterLoop.sent (loop : PosterLoop) (blobsLen : Nat) (reads : RoundReads) :
    Option SentTransaction :=
  match reads.submission.fill with
  | .error _ => none
  | .ok (filledNonce, filledGasLimit) =>
      let txGasLimit := loop.gasLimit.getD filledGasLimit
      let totalFees :=
        maxBatchFee loop.feesHints.maxFeePerGas txGasLimit loop.feesHints.blobFeePerGas blobsLen
      if MAX_FEES < totalFees then none
      else some ⟨loop.nonce.getD filledNonce, txGasLimit, reads.submission.send.toOption.isSome⟩

/-- The transactions that a call sends in some rounds, the first one first. -/
def PosterState.sentBy (cfg : RuntimeConfig) (deadline blobsLen : Nat) :
    PosterState → List RoundReads → List SentTransaction
  | .running loop, reads :: rest =>
      let later :=
        match (PosterState.running loop).step cfg deadline blobsLen reads with
        | none => []
        | some next => next.sentBy cfg deadline blobsLen rest
      (loop.sent blobsLen reads).toList ++ later
  | _, _ => []

/-- The first transaction that was accepted, and those that were sent after it. -/
def firstAccepted : List SentTransaction → Option (SentTransaction × List SentTransaction)
  | [] => none
  | tx :: later => if tx.accepted then some (tx, later) else firstAccepted later

/-- All accepted transactions have the same nonce. -/
def SameNonce (sent : List SentTransaction) : Prop :=
  ∀ tx ∈ sent, ∀ other ∈ sent, tx.accepted = true → other.accepted = true → tx.nonce = other.nonce

/-- Every transaction sent after the first accepted one has at least its gas limit, and at least the
minimum. -/
def EnoughGas (sent : List SentTransaction) : Prop :=
  ∀ first later, firstAccepted sent = some (first, later) →
    ∀ tx ∈ later, max first.gasLimit MIN_GAS_LIMIT ≤ tx.gasLimit

/-- The gas limit of the first accepted transaction is between half the minimum and the minimum, if
any transaction is sent after it. -/
def FilledGasInRange (sent : List SentTransaction) : Prop :=
  ∀ first later, firstAccepted sent = some (first, later) → later ≠ [] →
    MIN_GAS_LIMIT ≤ 2 * first.gasLimit ∧ first.gasLimit ≤ MIN_GAS_LIMIT

/-! ## One round -/

namespace PosterLoop

variable {cfg : RuntimeConfig} {deadline blobsLen : Nat} {loop : PosterLoop} {reads : RoundReads}

/-- The gas limit that is computed from that of an accepted transaction. -/
def replacementGasLimit (gasLimit : Nat) : Nat := min (min (gasLimit * 2) u64Max) MIN_GAS_LIMIT

/-- An accepted submission has sent a transaction, whose nonce it returns. -/
theorem sent_of_submit_ok {hash : B256} {nonce gasLimit : Nat}
    (h : loop.submit blobsLen reads = .ok (hash, nonce, gasLimit)) :
    ∃ tx, loop.sent blobsLen reads = some tx ∧ tx.accepted = true ∧ tx.nonce = nonce ∧
      replacementGasLimit tx.gasLimit = gasLimit ∧
      ∃ filledNonce filledGasLimit, reads.submission.fill = .ok (filledNonce, filledGasLimit) ∧
        tx.nonce = loop.nonce.getD filledNonce ∧
        tx.gasLimit = loop.gasLimit.getD filledGasLimit := by
  unfold submit at h
  unfold sent
  cases hfill : reads.submission.fill with
  | error e =>
      unfold retryTxSubmission at h
      rw [hfill] at h
      cases h
  | ok filled =>
      obtain ⟨filledNonce, filledGasLimit⟩ := filled
      dsimp only
      rcases Nat.lt_or_ge MAX_FEES (maxBatchFee loop.feesHints.maxFeePerGas
        (loop.gasLimit.getD filledGasLimit) loop.feesHints.blobFeePerGas blobsLen) with hlt | hfees
      · rw [retryTxSubmission_of_lt_fees hfill hlt] at h
        cases h
      · rw [retryTxSubmission_of_fees_le hfill hfees] at h
        rw [if_neg (Nat.not_lt.mpr hfees)]
        cases hsend : reads.submission.send with
        | error e =>
            rw [hsend] at h
            cases h
        | ok sentHash =>
            rw [hsend] at h
            cases h
            exact ⟨_, rfl, rfl, rfl, rfl, filledNonce, filledGasLimit, rfl, rfl, rfl⟩

/-- A failed submission has sent no transaction that was accepted. -/
theorem not_accepted_of_submit_error {e : RetryBatchSubmissionError} {tx : SentTransaction}
    (h : loop.submit blobsLen reads = .error e) (hsent : loop.sent blobsLen reads = some tx) :
    tx.accepted = false := by
  unfold submit at h
  unfold sent at hsent
  cases hfill : reads.submission.fill with
  | error e =>
      rw [hfill] at hsent
      cases hsent
  | ok filled =>
      obtain ⟨filledNonce, filledGasLimit⟩ := filled
      rw [hfill] at hsent
      dsimp only at hsent
      split at hsent
      · cases hsent
      · next hfees =>
          cases hsent
          rw [retryTxSubmission_of_fees_le hfill (Nat.le_of_not_lt hfees)] at h
          cases hsend : reads.submission.send with
          | error e => rfl
          | ok hash =>
              rw [hsend] at h
              cases h

/-- A round that goes on keeps the nonce and the gas limit, or remembers those of the transaction
that has been accepted. -/
theorem remembered_of_round {next : PosterLoop}
    (h : loop.round cfg deadline blobsLen reads = .ok (.running next)) :
    (∃ hash nonce gasLimit, loop.submit blobsLen reads = .ok (hash, nonce, gasLimit) ∧
        next.nonce = some (loop.nonce.getD nonce) ∧
        next.gasLimit = some (loop.gasLimit.getD gasLimit)) ∨
      ∃ e, loop.submit blobsLen reads = .error e ∧ next.nonce = loop.nonce ∧
        next.gasLimit = loop.gasLimit := by
  unfold round at h
  cases hsubmit : loop.submit blobsLen reads with
  | ok sent =>
      obtain ⟨hash, nonce, gasLimit⟩ := sent
      rw [hsubmit] at h
      obtain ⟨result, hdone⟩ | hdone | ⟨-, feesHints, latestHead, -, hnext⟩ := onAccepted_cases h
      · cases hdone
      · cases hdone
      · cases hnext
        exact .inl ⟨hash, nonce, gasLimit, rfl, rfl, rfl⟩
  | error e =>
      rw [hsubmit] at h
      obtain ⟨-, hdone⟩ | ⟨-, -, feesHints, -, hnext⟩ | ⟨-, hreestimate⟩ := onFailed_cases h
      · cases hdone
      · cases hnext
        exact .inr ⟨e, rfl, rfl, rfl⟩
      · obtain ⟨failure, -, hdone⟩ | ⟨feesHints, -, hnext⟩ := reestimate_cases hreestimate
        · cases hdone
        · cases hnext
          exact .inr ⟨e, rfl, rfl, rfl⟩

end PosterLoop

/-! ## Runs -/

namespace PosterState

open PosterLoop (replacementGasLimit)

variable {cfg : RuntimeConfig} {deadline blobsLen : Nat}

/-- What a call sends in a round and in the rounds after it. -/
theorem sentBy_running (cfg : RuntimeConfig) (deadline blobsLen : Nat) (loop : PosterLoop)
    (reads : RoundReads) (rest : List RoundReads) :
    ∃ later, (PosterState.running loop).sentBy cfg deadline blobsLen (reads :: rest) =
        (loop.sent blobsLen reads).toList ++ later ∧
      (later = [] ∨ ∃ next : PosterLoop,
        loop.round cfg deadline blobsLen reads = .ok (.running next) ∧
          later = (PosterState.running next).sentBy cfg deadline blobsLen rest) := by
  refine ⟨_, rfl, ?_⟩
  cases hstep : (PosterState.running loop).step cfg deadline blobsLen reads with
  | none => exact .inl rfl
  | some next =>
      cases next with
      | done trace result =>
          cases rest with
          | nil => exact .inl rfl
          | cons reads rest => exact .inl rfl
      | running next => exact .inr ⟨next, toOption_eq_some.mp hstep, rfl⟩

/-- Once a nonce and a gas limit are remembered, all transactions have them. -/
theorem sentBy_remembered {loop : PosterLoop} {nonce gasLimit : Nat}
    (hnonce : loop.nonce = some nonce) (hgasLimit : loop.gasLimit = some gasLimit)
    (rounds : List RoundReads) :
    ∀ tx ∈ (PosterState.running loop).sentBy cfg deadline blobsLen rounds,
      tx.nonce = nonce ∧ tx.gasLimit = gasLimit := by
  induction rounds generalizing loop with
  | nil => simp [sentBy]
  | cons reads rest ih =>
      obtain ⟨later, heq, hlater⟩ := sentBy_running cfg deadline blobsLen loop reads rest
      intro tx htx
      rw [heq] at htx
      rcases List.mem_append.mp htx with hnow | hafter
      · have hsent : loop.sent blobsLen reads = some tx := by simpa using hnow
        unfold PosterLoop.sent at hsent
        split at hsent
        · cases hsent
        · dsimp only at hsent
          split at hsent
          · cases hsent
          · cases hsent
            simp [hnonce, hgasLimit]
      · obtain rfl | ⟨next, hround, rfl⟩ := hlater
        · cases hafter
        · obtain ⟨hash, otherNonce, otherGas, -, hnextNonce, hnextGas⟩ |
              ⟨e, -, hnextNonce, hnextGas⟩ := PosterLoop.remembered_of_round hround
          · refine ih ?_ ?_ tx hafter
            · rw [hnextNonce, hnonce]
              rfl
            · rw [hnextGas, hgasLimit]
              rfl
          · exact ih (hnextNonce.trans hnonce) (hnextGas.trans hgasLimit) tx hafter

/-- What a round sends whose submission fails is not the first accepted transaction. -/
theorem firstAccepted_of_submit_error {loop : PosterLoop} {reads : RoundReads}
    {e : RetryBatchSubmissionError} (h : loop.submit blobsLen reads = .error e)
    (later : List SentTransaction) :
    firstAccepted ((loop.sent blobsLen reads).toList ++ later) = firstAccepted later := by
  cases hsent : loop.sent blobsLen reads with
  | none => rfl
  | some tx =>
      have hrejected := PosterLoop.not_accepted_of_submit_error h hsent
      rw [Option.toList_some, List.singleton_append, firstAccepted, if_neg (by simp [hrejected])]

/-- The nonce and the gas limit of the first accepted transaction were filled in by the provider.
All later transactions have this nonce and the gas limit computed from this one. -/
theorem sentBy_firstAccepted {loop : PosterLoop} (hnonce : loop.nonce = none)
    (hgasLimit : loop.gasLimit = none) {rounds : List RoundReads} {first : SentTransaction}
    {later : List SentTransaction}
    (h : firstAccepted ((PosterState.running loop).sentBy cfg deadline blobsLen rounds) =
      some (first, later)) :
    (∃ reads ∈ rounds, reads.submission.fill = .ok (first.nonce, first.gasLimit)) ∧
      ∀ tx ∈ later, tx.nonce = first.nonce ∧
        tx.gasLimit = replacementGasLimit first.gasLimit := by
  induction rounds generalizing loop with
  | nil => cases h
  | cons reads rest ih =>
      obtain ⟨rounds', heq, hrounds'⟩ := sentBy_running cfg deadline blobsLen loop reads rest
      rw [heq] at h
      cases hsubmit : loop.submit blobsLen reads with
      | ok sent =>
          obtain ⟨hash, nonce, gasLimit⟩ := sent
          obtain ⟨tx, hsent, haccepted, htxNonce, htxGas, filledNonce, filledGasLimit, hfill,
            hfilledNonce, hfilledGas⟩ := PosterLoop.sent_of_submit_ok hsubmit
          rw [hnonce, Option.getD_none] at hfilledNonce
          rw [hgasLimit, Option.getD_none] at hfilledGas
          rw [hsent, Option.toList_some, List.singleton_append, firstAccepted,
            if_pos haccepted] at h
          cases h
          -- nothing is remembered yet, so the provider has filled in both
          refine ⟨⟨reads, List.mem_cons_self, ?_⟩, ?_⟩
          · rw [hfill, hfilledNonce, hfilledGas]
          · obtain rfl | ⟨next, hround, rfl⟩ := hrounds'
            · simp
            · obtain ⟨hash', nonce', gasLimit', hsubmit', hnextNonce, hnextGas⟩ | ⟨e, herror, -⟩ :=
                PosterLoop.remembered_of_round hround
              · rw [hsubmit] at hsubmit'
                cases hsubmit'
                rw [hnonce, Option.getD_none, ← htxNonce] at hnextNonce
                rw [hgasLimit, Option.getD_none, ← htxGas] at hnextGas
                exact sentBy_remembered hnextNonce hnextGas rest
              · rw [hsubmit] at herror
                cases herror
      | error e =>
          -- a failed submission has nothing accepted and leaves nothing to remember
          rw [firstAccepted_of_submit_error hsubmit] at h
          obtain rfl | ⟨next, hround, rfl⟩ := hrounds'
          · cases h
          · obtain ⟨hash, nonce, gasLimit, hok, -⟩ | ⟨e', -, hnextNonce, hnextGas⟩ :=
              PosterLoop.remembered_of_round hround
            · rw [hsubmit] at hok
              cases hok
            · obtain ⟨⟨filled, hfilled, hfill⟩, hall⟩ :=
                ih (hnextNonce.trans hnonce) (hnextGas.trans hgasLimit) h
              exact ⟨⟨filled, List.mem_cons_of_mem _ hfilled, hfill⟩, hall⟩

/-- A call starts without a nonce and a gas limit to remember. -/
theorem remembered_of_start {currentSlot : Nat} {head : Except RpcError (Option Nat)}
    {feesHints : BlobTxFeesHints} {loop : PosterLoop}
    (h : start deadline currentSlot head feesHints = .running loop) :
    loop.nonce = none ∧ loop.gasLimit = none := by
  unfold start at h
  dsimp only at h
  split at h
  · cases h
  · split at h
    · cases h
    · cases h
    · cases h
      exact ⟨rfl, rfl⟩

/-- In every call, all transactions after the first accepted one have its nonce and the gas limit
computed from its own. -/
theorem sentBy_start {currentSlot : Nat} {head : Except RpcError (Option Nat)}
    {feesHints : BlobTxFeesHints} {rounds : List RoundReads} {first : SentTransaction}
    {later : List SentTransaction}
    (h : firstAccepted ((start deadline currentSlot head feesHints).sentBy cfg deadline blobsLen
      rounds) = some (first, later)) :
    ∀ tx ∈ later, tx.nonce = first.nonce ∧ tx.gasLimit = replacementGasLimit first.gasLimit := by
  cases hstart : start deadline currentSlot head feesHints with
  | done trace result =>
      rw [hstart] at h
      cases rounds with
      | nil => cases h
      | cons reads rest => cases h
  | running loop =>
      rw [hstart] at h
      obtain ⟨hnonce, hgasLimit⟩ := remembered_of_start hstart
      exact (sentBy_firstAccepted hnonce hgasLimit h).2

end PosterState

/-- An accepted transaction is the first one or was sent after it. -/
theorem mem_firstAccepted {sent : List SentTransaction} {tx : SentTransaction} (htx : tx ∈ sent)
    (haccepted : tx.accepted = true) :
    ∃ first later, firstAccepted sent = some (first, later) ∧ (tx = first ∨ tx ∈ later) := by
  induction sent with
  | nil => cases htx
  | cons other later ih =>
      unfold firstAccepted
      by_cases hother : other.accepted = true
      · rw [if_pos hother]
        exact ⟨other, later, rfl, List.mem_cons.mp htx⟩
      · rw [if_neg hother]
        refine ih ((List.mem_cons.mp htx).resolve_left ?_)
        rintro rfl
        exact hother haccepted

/-- The computed gas limit is high enough exactly if the one that was filled in is in the range. -/
theorem max_le_replacementGasLimit_iff {gasLimit : Nat} :
    max gasLimit MIN_GAS_LIMIT ≤ PosterLoop.replacementGasLimit gasLimit ↔
      MIN_GAS_LIMIT ≤ 2 * gasLimit ∧ gasLimit ≤ MIN_GAS_LIMIT := by
  have hfits : MIN_GAS_LIMIT ≤ u64Max := by decide
  unfold PosterLoop.replacementGasLimit
  generalize u64Max = bound at *
  omega

/-- In every call, whatever the node answers, all accepted transactions have the same nonce and
those after the first one have enough gas, exactly if the gas limit that the provider filled in for
the first one is in the range where the lower of its double and the minimum is no loss. -/
theorem nonce_and_gas_iff (cfg : RuntimeConfig) (deadline blobsLen currentSlot : Nat)
    (head : Except RpcError (Option Nat)) (feesHints : BlobTxFeesHints)
    (rounds : List RoundReads) :
    let sent :=
      (PosterState.start deadline currentSlot head feesHints).sentBy cfg deadline blobsLen rounds
    SameNonce sent ∧ EnoughGas sent ↔ FilledGasInRange sent := by
  intro sent
  have hfirst : ∀ first later, firstAccepted sent = some (first, later) →
      ∀ tx ∈ later, tx.nonce = first.nonce ∧
        tx.gasLimit = PosterLoop.replacementGasLimit first.gasLimit :=
    fun first later hsent => PosterState.sentBy_start hsent
  constructor
  · rintro ⟨-, hgas⟩ first later hsent hlater
    obtain ⟨tx, htx⟩ := List.exists_mem_of_ne_nil later hlater
    have henough := hgas first later hsent tx htx
    rw [(hfirst first later hsent tx htx).2] at henough
    exact max_le_replacementGasLimit_iff.mp henough
  · intro hrange
    constructor
    · intro tx htx other hother htxAccepted hotherAccepted
      obtain ⟨first, later, hsent, htxPlace⟩ := mem_firstAccepted htx htxAccepted
      obtain ⟨first', later', hsent', hotherPlace⟩ := mem_firstAccepted hother hotherAccepted
      cases hsent.symm.trans hsent'
      have hnonce : ∀ tx, tx = first ∨ tx ∈ later → tx.nonce = first.nonce := by
        rintro tx (rfl | hlater)
        · rfl
        · exact (hfirst first later hsent tx hlater).1
      exact (hnonce tx htxPlace).trans (hnonce other hotherPlace).symm
    · intro first later hsent tx htx
      rw [(hfirst first later hsent tx htx).2]
      exact max_le_replacementGasLimit_iff.mpr
        (hrange first later hsent (List.ne_nil_of_mem htx))

/-- The provider fills in a gas limit of 200000 for the first transaction, which is accepted. The
second one has twice this gas limit, far below the minimum. -/
theorem replacement_below_min_gas_limit :
    (PosterState.start 100 10 (.ok (some 10)) gweiHints).sentBy (defaultConfig 0) 100 6
        [roundAtSlot 10 (.ok 0), roundAtSlot 11 (.ok 0)] =
      [⟨7, 200000, true⟩, ⟨7, 400000, true⟩] ∧
    ¬ EnoughGas ((PosterState.start 100 10 (.ok (some 10)) gweiHints).sentBy (defaultConfig 0) 100 6
        [roundAtSlot 10 (.ok 0), roundAtSlot 11 (.ok 0)]) := by
  have hsent : (PosterState.start 100 10 (.ok (some 10)) gweiHints).sentBy (defaultConfig 0) 100 6
      [roundAtSlot 10 (.ok 0), roundAtSlot 11 (.ok 0)] =
        [⟨7, 200000, true⟩, ⟨7, 400000, true⟩] := by decide
  refine ⟨hsent, fun hgas => ?_⟩
  rw [hsent] at hgas
  have henough := hgas ⟨7, 200000, true⟩ [⟨7, 400000, true⟩] rfl ⟨7, 400000, true⟩ (by simp)
  revert henough
  decide

end Mk1
