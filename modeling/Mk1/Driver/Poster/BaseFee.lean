import Mk1.Driver.Poster
import Mk1.Library.TextSearch

/-!
# The base fee in an error message

The execution client names the base fee of the block in the text with which it
rejects a max fee that is too low. The loop reads it from there, so that the next
submission offers enough for this block.
-/

namespace Mk1

/-! ## Reading the base fee -/

/-- A message rejects a max fee that is too low and names the base fee of the block. What stands
around the base fee is up to the client. -/
structure ReportsBaseFee (message : String) (baseFee : Nat) : Prop where
  maxFeeTooLow : containsMessage (toLowercase message.toList) MAX_FEE_PER_GAS_TOO_LOW_ERROR = true
  blobGas : containsMessage (toLowercase message.toList) BLOB_GAS_TOO_LOW_ERROR = false
  text : ∃ before after,
    message.toList = before ++ ("baseFee: ".toList ++ (Nat.toDigits 10 baseFee ++ after)) ∧
      ¬ "basefee: ".toList <:+: toLowercase before ∧ ∀ next ∈ after.head?, next.isDigit = false

/-- A letter that is not a capital stays as it is. -/
theorem toLower_of_not_isUpper {c : Char} (h : c.isUpper = false) : c.toLower = c := by
  unfold Char.isUpper at h
  unfold Char.toLower
  rw [dif_neg]
  simpa using h

/-- No letter is a capital after lowering. -/
theorem isUpper_toLower (c : Char) : c.toLower.isUpper = false := by
  simp only [Char.isUpper, Char.toLower]
  split <;> grind [UInt32.toNat_add, Char.toNat_val]

/-- Lowering makes no digits. -/
theorem isDigit_toLower (c : Char) : c.toLower.isDigit = c.isDigit := by
  simp only [Char.isDigit, Char.toLower]
  split <;> grind [UInt32.toNat_add, Char.toNat_val]

/-- A digit is not a capital. -/
theorem isUpper_of_isDigit {c : Char} (h : c.isDigit = true) : c.isUpper = false := by
  simp only [Char.isDigit, Char.isUpper] at *
  grind

/-- A digit is not whitespace. -/
theorem isWhitespace_of_isDigit {c : Char} (h : c.isDigit = true) : c.isWhitespace = false := by
  refine Bool.eq_false_iff.mpr fun hspace => ?_
  have hspaces : ((c = ' ' ∨ c = '\t') ∨ c = '\r') ∨ c = '\n' := by
    simpa [Char.isWhitespace] using hspace
  rcases hspaces with ((rfl | rfl) | rfl) | rfl
  all_goals
    revert h
    decide

/-- Lowering a second time changes nothing. -/
theorem toLowercase_of_subset {text original : List Char} (h : text ⊆ toLowercase original) :
    toLowercase text = text := by
  refine (List.map_congr_left fun c hc => ?_).trans (List.map_id text)
  obtain ⟨c, -, rfl⟩ := List.mem_map.mp (h hc)
  exact toLower_of_not_isUpper (isUpper_toLower c)

/-- Digits stay as they are. -/
theorem toLowercase_toDigits (n : Nat) : toLowercase (Nat.toDigits 10 n) = Nat.toDigits 10 n := by
  refine (List.map_congr_left fun c hc => ?_).trans (List.map_id _)
  have hdigit := Nat.isDigit_of_mem_toDigits (by decide) (by decide) hc
  exact toLower_of_not_isUpper (isUpper_of_isDigit hdigit)

/-- The text after a message is found if the message does not occur before. -/
theorem textAfter_append {message before rest : List Char} (hmessage : Unbordered message)
    (hne : message ≠ []) (h : ¬ message <:+: before) :
    textAfter message (before ++ (message ++ rest)) = some rest := by
  induction before with
  | nil =>
      obtain ⟨first, others, rfl⟩ := List.exists_cons_of_ne_nil hne
      refine (if_pos (List.isPrefixOf_iff_prefix.mpr ?_)).trans (congrArg some List.drop_left)
      exact List.prefix_append (first :: others) rest
  | cons first before ih =>
      have hstarts : ¬ message <+: (first :: before) ++ (message ++ rest) :=
        hmessage.not_isPrefix (List.cons_ne_nil _ _) h
      refine (if_neg fun hfirst => hstarts (List.isPrefixOf_iff_prefix.mp hfirst)).trans ?_
      exact ih fun hoccurs => h (hoccurs.trans (List.suffix_cons first before).isInfix)

/-- The digits of a number are parsed back to it. -/
theorem parseU128_toDigits {n : Nat} (h : n ≤ u128Max) :
    parseU128 (Nat.toDigits 10 n) = some n := by
  have hvalue : (Nat.toDigits 10 n).foldl
      (fun value digit => 10 * value + (digit.toNat - '0'.toNat)) 0 = n := by
    rw [← Nat.ofDigitChars_eq_foldl, Nat.ofDigitChars_ten_toDigits]
  unfold parseU128
  dsimp only
  rw [hvalue]
  simp [Nat.not_lt.mpr h, Nat.toDigits_ne_nil]

/-- The text that is trimmed off stays outside a middle part that neither begins nor ends with
whitespace. -/
theorem trim_append (before after : List Char) {middle : List Char} (hne : middle ≠ [])
    (hfirst : (middle.head hne).isWhitespace = false)
    (hlast : (middle.getLast hne).isWhitespace = false) :
    ∃ before' after', before' <:+ before ∧ after' <+: after ∧
      trim (before ++ (middle ++ after)) = before' ++ (middle ++ after') := by
  refine ⟨before.dropWhile Char.isWhitespace,
    (after.reverse.dropWhile Char.isWhitespace).reverse, List.dropWhile_suffix _, ?_, ?_⟩
  · have hsuffix := List.dropWhile_suffix Char.isWhitespace (l := after.reverse)
    rwa [← List.reverse_prefix, List.reverse_reverse] at hsuffix
  · have hfront : (before ++ (middle ++ after)).dropWhile Char.isWhitespace =
        before.dropWhile Char.isWhitespace ++ (middle ++ after) := by
      rw [← List.cons_head_tail hne]
      exact dropWhile_append_of_head hfirst
    have hback (rest : List Char) :
        (after.reverse ++ (middle.reverse ++ rest)).dropWhile Char.isWhitespace =
          after.reverse.dropWhile Char.isWhitespace ++ (middle.reverse ++ rest) := by
      have hreverse : middle.reverse = middle.getLast hne :: middle.dropLast.reverse := by
        rw [← List.reverse_concat, List.dropLast_append_getLast]
      rw [hreverse]
      exact dropWhile_append_of_head hlast
    unfold trim
    rw [hfront, List.reverse_append, List.reverse_append, List.append_assoc, hback]
    simp only [List.reverse_append, List.reverse_reverse, List.append_assoc]

/-- The text after a number still begins with something else when it is lowered and cut off. -/
theorem isDigit_eq_false_of_starts {after after' : List Char}
    (hafter : ∀ next ∈ after.head?, next.isDigit = false) (hstarts : after' <+: toLowercase after) :
    ∀ next ∈ after'.head?, next.isDigit = false := by
  intro next hnext
  obtain ⟨dropped, hafter'⟩ := hstarts
  cases after' with
  | nil => cases hnext
  | cons first others =>
      obtain rfl := Option.some.inj hnext
      cases after with
      | nil => cases hafter'
      | cons original after =>
          obtain rfl : first = original.toLower := (List.cons.inj hafter').1
          rw [isDigit_toLower]
          exact hafter original rfl

/-- Trimming adds nothing. -/
theorem trim_subset (text : List Char) : trim text ⊆ text := by
  intro c hc
  have hreverse := (List.dropWhile_subset _) (List.mem_reverse.mp hc)
  exact (List.dropWhile_subset _) (List.mem_reverse.mp hreverse)

/-- The base fee is read from a message that reports it. -/
theorem extractBaseFeeFromErr_of_reports {message : String} {baseFee : Nat}
    (h : ReportsBaseFee message baseFee) (hrange : baseFee ≤ u128Max) :
    extractBaseFeeFromErr (toLowercase message.toList) = some baseFee := by
  obtain ⟨before, after, htext, hbefore, hafter⟩ := h.text
  have hdigits : Nat.toDigits 10 baseFee ≠ [] := Nat.toDigits_ne_nil
  have hmiddle : "basefee: ".toList ++ Nat.toDigits 10 baseFee ≠ [] :=
    List.append_ne_nil_of_right_ne_nil _ hdigits
  have hlower : toLowercase message.toList = toLowercase before ++
      (("basefee: ".toList ++ Nat.toDigits 10 baseFee) ++ toLowercase after) := by
    have hword : toLowercase "baseFee: ".toList = "basefee: ".toList := by decide
    have hmap (left right : List Char) :
        toLowercase (left ++ right) = toLowercase left ++ toLowercase right := List.map_append
    rw [htext, hmap, hmap, hmap, hword, toLowercase_toDigits, List.append_assoc]
  have hlast : (("basefee: ".toList ++ Nat.toDigits 10 baseFee).getLast hmiddle).isWhitespace =
      false := by
    rw [List.getLast_append_of_ne_nil _ hdigits]
    exact isWhitespace_of_isDigit
      (Nat.isDigit_of_mem_toDigits (by decide) (by decide) (List.getLast_mem hdigits))
  obtain ⟨before', after', hsuffix, hstarts, htrim⟩ :=
    trim_append (toLowercase before) (toLowercase after) hmiddle rfl hlast
  have hagain : toLowercase (trim (toLowercase message.toList)) =
      before' ++ ("basefee: ".toList ++ (Nat.toDigits 10 baseFee ++ after')) := by
    rw [toLowercase_of_subset (trim_subset _), hlower, htrim, List.append_assoc]
  have hrest : textAfter "basefee: ".toList
      (before' ++ ("basefee: ".toList ++ (Nat.toDigits 10 baseFee ++ after'))) =
        some (Nat.toDigits 10 baseFee ++ after') :=
    textAfter_append (by unfold Unbordered; decide) (by decide)
      fun hoccurs => hbefore (hoccurs.trans hsuffix.isInfix)
  have htake : (Nat.toDigits 10 baseFee ++ after').takeWhile Char.isDigit =
      Nat.toDigits 10 baseFee :=
    takeWhile_append_eq_left
      (fun c hc => Nat.isDigit_of_mem_toDigits (by decide) (by decide) hc)
      (isDigit_eq_false_of_starts hafter hstarts)
  unfold extractBaseFeeFromErr
  dsimp only
  rw [hagain, hrest]
  show parseU128 ((Nat.toDigits 10 baseFee ++ after').takeWhile Char.isDigit) = some baseFee
  rw [htake, parseU128_toDigits hrange]

/-- A reported base fee is what the loop raises the fees to. -/
theorem retryDecision_of_reports {message : String} {baseFee : Nat}
    (h : ReportsBaseFee message baseFee) (hrange : baseFee ≤ u128Max) :
    retryDecision (.rpcError (.errorResp message)) = .bumpBaseFee baseFee := by
  unfold retryDecision
  simp only [h.blobGas, h.maxFeeTooLow, Bool.false_eq_true, if_false, if_true,
    extractBaseFeeFromErr_of_reports h hrange]

/-! ## Offering it -/

/-- The fees are raised to a base fee: the max fee is this base fee and the priority fee, which is
at least a tenth of it and not below the one before. The blob fee is not touched. -/
structure BlobTxFeesHints.RaisedTo (rejected : BlobTxFeesHints) (baseFee : Nat)
    (raised : BlobTxFeesHints) : Prop where
  maxFee : raised.maxFeePerGas = saturatingAdd128 baseFee raised.maxPriorityFeePerGas
  priority : max rejected.maxPriorityFeePerGas (baseFee / 10) ≤ raised.maxPriorityFeePerGas
  blobFee : raised.blobFeePerGas = rejected.blobFeePerGas

/-- A bump raises the fees. -/
theorem BlobTxFeesHints.raisedTo_of_bumpBaseFee {hints bumped : BlobTxFeesHints} {baseFee : Nat}
    (h : hints.bumpBaseFee baseFee = .ok (true, bumped)) : hints.RaisedTo baseFee bumped := by
  unfold bumpBaseFee at h
  split at h
  · cases h
  · obtain ⟨maxFee, hmaxFee, h⟩ := bind_eq_ok.mp h
    cases h
    obtain ⟨hmaxFee, hfits⟩ := checkedAdd_eq_ok hmaxFee
    unfold raisePriority
    split
    · next hlow =>
        refine ⟨?_, ?_, rfl⟩
        · dsimp only
          rw [← hmaxFee, Nat.add_sub_cancel]
        · dsimp only
          omega
    · next hhigh =>
        refine ⟨?_, ?_, rfl⟩
        · unfold saturatingAdd128
          dsimp only
          omega
        · dsimp only
          omega

/-- A submission with these hints was rejected for its max fee, and the base fee was reported. The
hints are not above this base fee yet. -/
def PosterAction.ReportsTooLow (rejected : BlobTxFeesHints) (baseFee : Nat) : PosterAction → Prop
  | .submission feesHints _ _ (.error (.rpcError (.errorResp message))) =>
      feesHints = rejected ∧ ReportsBaseFee message baseFee ∧ baseFee ≤ u128Max ∧
        rejected.maxFeePerGas ≤ baseFee + rejected.maxPriorityFeePerGas
  | _ => False

/-- The newest action does not report a base fee. -/
def NothingReported (trace : List PosterAction) : Prop :=
  ∀ newest ∈ trace.head?, ∀ rejected baseFee, ¬ newest.ReportsTooLow rejected baseFee

/-- If the newest action reports a base fee, the hints are raised to it. -/
def OffersReported (feesHints : BlobTxFeesHints) (trace : List PosterAction) : Prop :=
  ∀ newest ∈ trace.head?, ∀ rejected baseFee, newest.ReportsTooLow rejected baseFee →
    rejected.RaisedTo baseFee feesHints

/-- After every report comes a submission that offers the base fee. -/
def ReportsAnswered : List PosterAction → Prop
  | [] => True
  | .submission feesHints _ _ _ :: earlier => OffersReported feesHints earlier ∧
      ReportsAnswered earlier
  | .slotRead _ :: earlier => NothingReported earlier ∧ ReportsAnswered earlier

/-- What comes after a report in a trace begins with a submission that offers the base fee. -/
theorem ReportsAnswered.answer {later earlier : List PosterAction} {report next : PosterAction}
    {rejected : BlobTxFeesHints} {baseFee : Nat}
    (h : ReportsAnswered (later ++ next :: report :: earlier))
    (hreport : report.ReportsTooLow rejected baseFee) :
    ∃ feesHints nonce gasLimit result, next = .submission feesHints nonce gasLimit result ∧
      rejected.RaisedTo baseFee feesHints := by
  induction later with
  | nil =>
      cases next with
      | slotRead slot => exact absurd hreport (h.1 report rfl rejected baseFee)
      | submission feesHints nonce gasLimit result =>
          exact ⟨feesHints, nonce, gasLimit, result, rfl, h.1 report rfl rejected baseFee hreport⟩
  | cons newest later ih =>
      cases newest with
      | slotRead slot => exact ih h.2
      | submission feesHints nonce gasLimit result => exact ih h.2

namespace PosterLoop

variable {cfg : RuntimeConfig} {loop : PosterLoop} {next : PosterState}

/-- A reported base fee raises the fees and lets the loop go on. -/
theorem onFailed_of_reports {estimation : FeeEstimation} {message : String} {baseFee : Nat}
    (hreport : ReportsBaseFee message baseFee) (hrange : baseFee ≤ u128Max)
    (h : loop.onFailed cfg estimation (.rpcError (.errorResp message)) = .ok next)
    (hlow : loop.feesHints.maxFeePerGas ≤ baseFee + loop.feesHints.maxPriorityFeePerGas) :
    ∃ feesHints, loop.feesHints.RaisedTo baseFee feesHints ∧
      next = .running { loop with feesHints := feesHints } := by
  unfold onFailed at h
  rw [retryDecision_of_reports hreport hrange] at h
  obtain ⟨⟨bumped, feesHints⟩, hbump, h⟩ := bind_eq_ok.mp h
  have hflag := BlobTxFeesHints.bumpBaseFee_flag hbump
  cases bumped with
  | true =>
      cases h
      exact ⟨feesHints, BlobTxFeesHints.raisedTo_of_bumpBaseFee hbump, rfl⟩
  | false =>
      have hhigh : baseFee < loop.feesHints.maxFeePerGas - loop.feesHints.maxPriorityFeePerGas :=
        by simpa using hflag
      omega

/-- A failed submission ends the call or leads to other hints, and records nothing. -/
theorem onFailed_next {estimation : FeeEstimation} {e : RetryBatchSubmissionError}
    (h : loop.onFailed cfg estimation e = .ok next) :
    (∃ result, next = .done loop.trace result) ∨
      ∃ feesHints, next = .running { loop with feesHints := feesHints } := by
  obtain ⟨-, rfl⟩ | ⟨-, -, feesHints, -, rfl⟩ | ⟨-, hreestimate⟩ := onFailed_cases h
  · exact .inl ⟨_, rfl⟩
  · exact .inr ⟨feesHints, rfl⟩
  · obtain ⟨e, -, rfl⟩ | ⟨feesHints, -, rfl⟩ := reestimate_cases hreestimate
    · exact .inl ⟨_, rfl⟩
    · exact .inr ⟨feesHints, rfl⟩

end PosterLoop

namespace PosterState

/-- Every report so far is answered, and if the newest action is one, the call goes on with hints
that are raised to its base fee. -/
def AnswersReports : PosterState → Prop
  | .running loop => OffersReported loop.feesHints loop.trace ∧ ReportsAnswered loop.trace
  | .done trace _ => NothingReported trace ∧ ReportsAnswered trace

/-- A round answers the reports. -/
theorem answersReports_step {cfg : RuntimeConfig} {deadline blobsLen : Nat}
    {state next : PosterState} {reads : RoundReads} (h : state.AnswersReports)
    (hstep : state.step cfg deadline blobsLen reads = some next) : next.AnswersReports := by
  cases state with
  | done trace result => cases hstep
  | running loop =>
      have hround := toOption_eq_some.mp hstep
      unfold PosterLoop.round at hround
      cases hsubmit : loop.submit blobsLen reads with
      | ok sent =>
          rw [hsubmit] at hround
          have hnothing : NothingReported (loop.record (.ok sent)).trace := by
            intro newest hnewest rejected baseFee hreport
            cases hnewest
            exact hreport
          have hread (slot : Nat) :
              NothingReported (.slotRead slot :: (loop.record (.ok sent)).trace) := by
            intro newest hnewest rejected baseFee hreport
            cases hnewest
            exact hreport
          have hrecorded : ReportsAnswered (loop.record (.ok sent)).trace := h
          obtain ⟨result, rfl⟩ | rfl | ⟨-, feesHints, latestHead, -, rfl⟩ :=
            PosterLoop.onAccepted_cases hround
          · exact ⟨hnothing, hrecorded⟩
          · exact ⟨hread _, hnothing, hrecorded⟩
          · exact ⟨fun newest hnewest rejected baseFee hreport =>
              absurd hreport (hread _ newest hnewest rejected baseFee), hnothing, hrecorded⟩
      | error e =>
          rw [hsubmit] at hround
          have hfailed : (loop.record (.error e)).onFailed cfg reads.feeEstimation e = .ok next :=
            hround
          have hrecorded : ReportsAnswered (loop.record (.error e)).trace := h
          have hraised {rejected : BlobTxFeesHints} {baseFee : Nat}
              (hreport : (PosterAction.submission loop.feesHints loop.nonce loop.gasLimit
                (.error e)).ReportsTooLow rejected baseFee) :
              ∃ feesHints, rejected.RaisedTo baseFee feesHints ∧
                next = .running { loop.record (.error e) with feesHints := feesHints } := by
            unfold PosterAction.ReportsTooLow at hreport
            split at hreport
            · next message hresult =>
                cases hresult
                obtain ⟨rfl, hmessage, hrange, hlow⟩ := hreport
                exact PosterLoop.onFailed_of_reports hmessage hrange hfailed hlow
            · exact hreport.elim
          obtain ⟨result, rfl⟩ | ⟨feesHints, rfl⟩ := PosterLoop.onFailed_next hfailed
          · refine ⟨fun newest hnewest rejected baseFee hreport => ?_, hrecorded⟩
            cases hnewest
            obtain ⟨feesHints, -, hnext⟩ := hraised hreport
            cases hnext
          · refine ⟨fun newest hnewest rejected baseFee hreport => ?_, hrecorded⟩
            cases hnewest
            obtain ⟨raised, hoffer, hnext⟩ := hraised hreport
            cases hnext
            exact hoffer

/-- A call starts with nothing reported. -/
theorem answersReports_start (deadline currentSlot : Nat) (head : Except RpcError (Option Nat))
    (feesHints : BlobTxFeesHints) :
    (start deadline currentSlot head feesHints).AnswersReports := by
  have hnothing : NothingReported [.slotRead currentSlot] := by
    intro newest hnewest rejected baseFee hreport
    cases hnewest
    exact hreport
  have hempty : NothingReported [] := fun newest hnewest => by cases hnewest
  unfold start
  dsimp only
  split
  · exact ⟨hnothing, hempty, trivial⟩
  · split
    · exact ⟨hnothing, hempty, trivial⟩
    · exact ⟨hnothing, hempty, trivial⟩
    · exact ⟨fun newest hnewest rejected baseFee hreport =>
        absurd hreport (hnothing newest hnewest rejected baseFee), hempty, trivial⟩

/-- In every run of `propose_batch_with_retries`, a submission that the client rejects with a
message that reports the base fee, whatever the text around it, is followed by one that is raised
to this base fee, and the call does not end before. -/
theorem reported_baseFee_is_offered (cfg : RuntimeConfig) (deadline blobsLen currentSlot : Nat)
    (head : Except RpcError (Option Nat)) (feesHints : BlobTxFeesHints) {rounds : List RoundReads}
    {final : PosterState}
    (hrun : Transition.run (step cfg deadline blobsLen) (start deadline currentSlot head feesHints)
      rounds = some final)
    {later earlier : List PosterAction} {rejected : BlobTxFeesHints} {nonce gasLimit : Option Nat}
    {message : String} {baseFee : Nat}
    (htrace : final.trace = later ++
      .submission rejected nonce gasLimit (.error (.rpcError (.errorResp message))) :: earlier)
    (hreport : ReportsBaseFee message baseFee) (hrange : baseFee ≤ u128Max)
    (hlow : rejected.maxFeePerGas ≤ baseFee + rejected.maxPriorityFeePerGas) :
    (∃ others raised nonce gasLimit result,
        later = others ++ [.submission raised nonce gasLimit result] ∧
          rejected.RaisedTo baseFee raised) ∨
      ∃ loop, later = [] ∧ final = .running loop ∧ rejected.RaisedTo baseFee loop.feesHints := by
  have hstep : ∀ (state : PosterState) (reads : RoundReads) (next : PosterState),
      state.AnswersReports → state.step cfg deadline blobsLen reads = some next →
        next.AnswersReports := fun _ _ _ => answersReports_step
  have hfinal : final.AnswersReports :=
    Transition.invariant_run_of_step hstep
      (answersReports_start deadline currentSlot head feesHints) hrun
  have hrejected : (PosterAction.submission rejected nonce gasLimit
      (.error (.rpcError (.errorResp message)))).ReportsTooLow rejected baseFee :=
    ⟨rfl, hreport, hrange, hlow⟩
  rcases List.eq_nil_or_concat later with rfl | ⟨others, next, rfl⟩
  · cases final with
    | done trace result =>
        obtain rfl : trace = _ := htrace
        exact absurd hrejected (hfinal.1 _ rfl rejected baseFee)
    | running loop =>
        have hloop : loop.trace = _ := htrace
        refine .inr ⟨loop, rfl, rfl, hfinal.1 _ ?_ rejected baseFee hrejected⟩
        rw [hloop]
        rfl
  · have hanswered : ReportsAnswered final.trace := by
      cases final with
      | done trace result => exact hfinal.2
      | running loop => exact hfinal.2
    rw [htrace, List.concat_eq_append, List.append_assoc] at hanswered
    obtain ⟨raised, nonce, gasLimit, result, rfl, hraised⟩ := hanswered.answer hrejected
    exact .inl ⟨others, raised, nonce, gasLimit, result, List.concat_eq_append, hraised⟩

/-- What a client says before the base fee. -/
def beforeBaseFee : String := "max fee per gas less than block base fee: maxFeePerGas: 1009953, "

/-- The answer of this client to a submission whose max fee was 1009953 wei. -/
def maxFeeTooLowMessage : String := beforeBaseFee ++ "baseFee: 64546698"

/-- The answer reports the base fee that stands at its end. -/
theorem reportsBaseFee_maxFeeTooLowMessage : ReportsBaseFee maxFeeTooLowMessage 64546698 where
  maxFeeTooLow := by decide +kernel
  blobGas := by decide +kernel
  text := ⟨beforeBaseFee.toList, [], by decide +kernel, by decide +kernel, by simp⟩

/-- The fees of the next submission are raised to the base fee in this answer. -/
theorem base_fee_64546698_is_offered :
    ∃ loop, Transition.run (step (defaultConfig 0) 100 6)
        (start 100 10 (.ok (some 10)) ⟨1000, 1009953, 5⟩)
        [roundAtSlot 10 (answered maxFeeTooLowMessage)] = some (.running loop) ∧
      BlobTxFeesHints.RaisedTo ⟨1000, 1009953, 5⟩ 64546698 loop.feesHints := by
  obtain ⟨final, hrun, htrace⟩ := Option.map_eq_some_iff.mp (show
    (Transition.run (step (defaultConfig 0) 100 6)
      (start 100 10 (.ok (some 10)) ⟨1000, 1009953, 5⟩)
      [roundAtSlot 10 (answered maxFeeTooLowMessage)]).map trace =
        some ([] ++ .submission ⟨1000, 1009953, 5⟩ none none
          (.error (.rpcError (.errorResp maxFeeTooLowMessage))) :: [.slotRead 10]) from by
    decide +kernel)
  obtain ⟨others, raised, nonce, gasLimit, result, hlater, -⟩ | ⟨loop, -, rfl, hraised⟩ :=
    reported_baseFee_is_offered (defaultConfig 0) 100 6 10 (.ok (some 10)) ⟨1000, 1009953, 5⟩ hrun
      htrace reportsBaseFee_maxFeeTooLowMessage (by decide) (by decide)
  · exact absurd hlater (by simp)
  · exact ⟨loop, hrun, hraised⟩

end PosterState

end Mk1
