import Mk1.Driver.EventLoop.Channels
import Mk1.Driver.EventLoop.Log
import Mk1.Driver.EventLoop.Provenance
import Mk1.Driver.Processor.Ledger

/-!
# The driver and the batch submission processor

The two sides of the batch submitter's channels: the driver sends commands and handles
the errors of proposals, while the processor proposes one batch after the other.
`sequencer_accountable` says what holds in every interleaving of the two: batches are
proposed in the order in which the driver submitted them, with blocks that were
delivered to it; and the driver handles the errors of the proposals in their order.
-/

namespace Mk1

/-- The driver, the commands that its handlers have still to put into the channel, and the processor
with its ledger. -/
structure Sequencer where
  driver : Driver
  outbox : List BatchSubmissionCmd
  submitter : TracedProcessor

/-- Whether an event of the driver takes a result out of the channel. -/
def Driver.Event.readsResult : Driver.Event → Bool
  | .handle (.batchProposalErr _) => true
  | _ => false

namespace Sequencer

/-- A step of the driver, or the question of an L2 tick for the suggested size; the next command
that is put into the channel; the result of a successful proposal, which the event loop skips; or
progress of the processor. -/
inductive Event where
  | driver (event : Driver.Event)
  | askSize
  | send
  | skipResult
  | receive
  | startNext
  | complete (result : BatchResult)

/-- A driver that starts next to a new processor. -/
def new (cfg : RuntimeConfig) (l1 : L1State) (l2 : L2State)
    (maxBlockSize daThrottlingFactor : Nat) : Sequencer :=
  { driver := .new cfg l1 l2, outbox := [], submitter := .new maxBlockSize daThrottlingFactor }

/-- Whether the driver can take a step: its handlers go on once their commands are in the channel,
and an error that is handled is the first result. -/
def isReady (sequencer : Sequencer) : Driver.Event → Bool
  | .background _ => true
  | .handle (.batchProposalErr e) => sequencer.outbox.isEmpty &&
      sequencer.submitter.processor.resultTx.head? = some (.error e)
  | _ => sequencer.outbox.isEmpty

/-- The first result in the channel is that of a successful proposal. -/
def skipsResult (sequencer : Sequencer) : Bool :=
  match sequencer.submitter.processor.resultTx with
  | .ok _ :: _ => true
  | _ => false

/-- A step of the processor. -/
def progress (sequencer : Sequencer) (event : BatchSubmissionProcessor.Event) : Option Sequencer :=
  (sequencer.submitter.step event).map fun submitter => { sequencer with submitter := submitter }

/-- A step of the driver, whose new commands have to be sent. -/
def stepDriver (sequencer : Sequencer) (event : Driver.Event) : Option Sequencer := do
  let next ← sequencer.driver.step event
  let sent := sequencer.driver.sentCommands
  let sequencer :=
    { sequencer with
      driver := next
      outbox := sequencer.outbox ++ next.sentCommands.drop sent.length }
  if event.readsResult then sequencer.progress .readResult else pure sequencer

/-- One step. -/
def step (sequencer : Sequencer) : Event → Option Sequencer
  | .driver event => if sequencer.isReady event then sequencer.stepDriver event else none
  | .askSize =>
      if sequencer.outbox.isEmpty && sequencer.driver.isListening then
        some { sequencer with outbox := [.getSuggestedMaxSize] }
      else none
  | .send =>
      match sequencer.outbox with
      | [] => none
      | cmd :: rest => { sequencer with outbox := rest }.progress (.send cmd)
  | .skipResult =>
      if sequencer.skipsResult && sequencer.driver.isListening then sequencer.progress .readResult
      else none
  | .receive => sequencer.progress .receive
  | .startNext => sequencer.progress .startNext
  | .complete result => sequencer.progress (.complete result)

/-! ## What is observed -/

/-- The events of the driver. -/
def driverEvents (events : List Event) : List Driver.Event :=
  events.filterMap fun
    | .driver event => some event
    | _ => none

/-- The errors that the driver has handled. -/
def handledErrors (events : List Event) : List BatchProposalError :=
  events.filterMap fun
    | .driver (.handle (.batchProposalErr e)) => some e
    | _ => none

/-- The errors of proposals that were reported. -/
def reportedErrors (events : List Event) : List BatchProposalError :=
  events.filterMap fun
    | .complete (.error e) => if e.matchesNonceTooLow then none else some e
    | _ => none

/-- The errors in the channel of the results. -/
def unreadErrors (sequencer : Sequencer) : List BatchProposalError :=
  sequencer.submitter.processor.resultTx.filterMap fun
    | .ok _ => none
    | .error e => some e

/-- The batches that the driver has submitted, in order. -/
def submissions (sequencer : Sequencer) : List BatchSubmissionRequest :=
  sequencer.driver.sentCommands.filterMap TracedProcessor.submitted

/-- The batches whose proposals have started, in order. -/
def proposals (sequencer : Sequencer) : List BatchSubmissionRequest :=
  sequencer.submitter.tickets.started.filterMap (sequencer.submitter.requests[·]?)

end Sequencer

/-! ## What a step does -/

namespace TracedProcessor

variable {traced next : TracedProcessor} {event : BatchSubmissionProcessor.Event}

/-- A command in the channel has been there before or is sent. -/
theorem mem_requestRx_step (h : traced.step event = some next) {cmd : BatchSubmissionCmd}
    (hcmd : cmd ∈ next.processor.requestRx) :
    cmd ∈ traced.processor.requestRx ∨ event = .send cmd := by
  obtain ⟨hprocessor, -, -⟩ := step_eq_some.mp h
  cases event with
  | send other =>
      obtain ⟨-, heq⟩ := BatchSubmissionProcessor.step_send.mp hprocessor
      rw [← heq] at hcmd
      refine (List.mem_append.mp hcmd).imp_right fun hnew => ?_
      rw [List.mem_singleton.mp hnew]
  | readResult =>
      rw [← Option.some.inj hprocessor] at hcmd
      exact .inl hcmd
  | complete result =>
      obtain ⟨-, hcomplete⟩ := BatchSubmissionProcessor.step_complete.mp hprocessor
      rw [(onProposal_eq hcomplete).1] at hcmd
      exact .inl hcmd
  | startNext =>
      obtain ⟨-, heq⟩ := BatchSubmissionProcessor.step_startNext.mp hprocessor
      rw [← heq] at hcmd
      unfold BatchSubmissionProcessor.startNext at hcmd
      split at hcmd
      · exact .inl hcmd
      · exact .inl hcmd
  | receive =>
      obtain ⟨first, rest, hrequests, hreceived⟩ :=
        BatchSubmissionProcessor.step_receive.mp hprocessor
      rw [(BatchSubmissionProcessor.channels_onCmd hreceived).1] at hcmd
      rw [hrequests]
      exact .inl (List.mem_cons_of_mem _ hcmd)

/-- A batch that is dropped was so before, or is in a queue that is cleared on command or after a
failed proposal. -/
theorem mem_dropped_step (h : traced.step event = some next) {ticket : Nat} {cause : DropCause}
    (hdropped : (ticket, cause) ∈ next.tickets.dropped) :
    (ticket, cause) ∈ traced.tickets.dropped ∨
      (cause = .clearQueue ∧ .clearQueue ∈ traced.processor.requestRx) ∨
      ∃ e, cause = .failedProposal e ∧ event = .complete (.error e) := by
  obtain ⟨hprocessor, htickets, -⟩ := step_eq_some.mp h
  rw [htickets] at hdropped
  cases event with
  | send cmd =>
      cases cmd with
      | submit req => exact .inl hdropped
      | clearQueue => exact .inl hdropped
      | getSuggestedMaxSize => exact .inl hdropped
  | readResult => exact .inl hdropped
  | startNext =>
      change _ ∈ traced.tickets.start.dropped at hdropped
      rw [Tickets.dropped_start] at hdropped
      exact .inl hdropped
  | complete result =>
      cases result with
      | ok receipt => exact .inl hdropped
      | error e =>
          change _ ∈ (noteResult traced.tickets (.error e)).dropped at hdropped
          unfold noteResult at hdropped
          dsimp only at hdropped
          split at hdropped
          · exact .inl hdropped
          · rcases List.mem_append.mp hdropped with hold | hnew
            · exact .inl hold
            · obtain ⟨other, -, heq⟩ := List.mem_map.mp hnew
              cases heq
              exact .inr (.inr ⟨e, rfl, rfl⟩)
  | receive =>
      obtain ⟨cmd, rest, hrequests, -⟩ := BatchSubmissionProcessor.step_receive.mp hprocessor
      rw [note_receive hrequests] at hdropped
      cases cmd with
      | submit req =>
          unfold noteCmd at hdropped
          dsimp only at hdropped
          split at hdropped
          · exact .inl hdropped
          · rw [Tickets.dropped_accept] at hdropped
            exact .inl hdropped
      | clearQueue =>
          rcases List.mem_append.mp hdropped with hold | hnew
          · exact .inl hold
          · obtain ⟨other, -, heq⟩ := List.mem_map.mp hnew
            cases heq
            exact .inr (.inl ⟨rfl, hrequests ▸ List.mem_cons_self⟩)
      | getSuggestedMaxSize => exact .inl hdropped

end TracedProcessor

namespace Sequencer

variable {sequencer next : Sequencer}

/-- What a step can do: a step of the driver, which may take a result out of the channel; a question
of the driver; a command that is put into the channel; or another step of the processor. -/
inductive Stepped (sequencer : Sequencer) : Event → Sequencer → Prop
  | driver (event : Driver.Event) (next : Driver) (hready : sequencer.isReady event = true)
      (hnext : sequencer.driver.step event = some next) (submitter : TracedProcessor)
      (hsubmitter : event.readsResult = false ∧ submitter = sequencer.submitter ∨
        event.readsResult = true ∧ sequencer.submitter.step .readResult = some submitter) :
      Stepped sequencer (.driver event)
        { driver := next
          outbox := sequencer.outbox ++
            next.sentCommands.drop sequencer.driver.sentCommands.length
          submitter := submitter }
  | asked (hsent : sequencer.outbox = []) :
      Stepped sequencer .askSize { sequencer with outbox := [.getSuggestedMaxSize] }
  | sent (cmd : BatchSubmissionCmd) (rest : List BatchSubmissionCmd) (submitter : TracedProcessor)
      (houtbox : sequencer.outbox = cmd :: rest)
      (hsubmitter : sequencer.submitter.step (.send cmd) = some submitter) :
      Stepped sequencer .send { sequencer with outbox := rest, submitter := submitter }
  | skipped (submitter : TracedProcessor) (hskips : sequencer.skipsResult = true)
      (hsubmitter : sequencer.submitter.step .readResult = some submitter) :
      Stepped sequencer .skipResult { sequencer with submitter := submitter }
  | received (submitter : TracedProcessor)
      (hsubmitter : sequencer.submitter.step .receive = some submitter) :
      Stepped sequencer .receive { sequencer with submitter := submitter }
  | started (submitter : TracedProcessor)
      (hsubmitter : sequencer.submitter.step .startNext = some submitter) :
      Stepped sequencer .startNext { sequencer with submitter := submitter }
  | completed (result : BatchResult) (submitter : TracedProcessor)
      (hsubmitter : sequencer.submitter.step (.complete result) = some submitter) :
      Stepped sequencer (.complete result) { sequencer with submitter := submitter }

/-- Every step does one of these things. -/
theorem step_cases {event : Event} (h : sequencer.step event = some next) :
    Stepped sequencer event next := by
  cases event with
  | driver event =>
      obtain ⟨hready, h⟩ := Option.ite_none_right_eq_some.mp h
      obtain ⟨driver, hdriver, h⟩ := Option.bind_eq_some_iff.mp h
      dsimp only at h
      cases hreads : event.readsResult with
      | false =>
          rw [hreads] at h
          cases h
          exact .driver event driver hready hdriver sequencer.submitter (.inl ⟨hreads, rfl⟩)
      | true =>
          rw [hreads, if_pos rfl] at h
          obtain ⟨submitter, hsubmitter, rfl⟩ := Option.map_eq_some_iff.mp h
          exact .driver event driver hready hdriver submitter (.inr ⟨hreads, hsubmitter⟩)
  | askSize =>
      obtain ⟨hready, h⟩ := Option.ite_none_right_eq_some.mp h
      cases h
      exact .asked (List.isEmpty_iff.mp (Bool.and_eq_true_iff.mp hready).1)
  | send =>
      cases houtbox : sequencer.outbox with
      | nil =>
          simp only [step, houtbox] at h
          cases h
      | cons cmd rest =>
          simp only [step, houtbox] at h
          obtain ⟨submitter, hsubmitter, rfl⟩ := Option.map_eq_some_iff.mp h
          exact .sent cmd rest submitter houtbox hsubmitter
  | skipResult =>
      obtain ⟨hready, h⟩ := Option.ite_none_right_eq_some.mp h
      obtain ⟨submitter, hsubmitter, rfl⟩ := Option.map_eq_some_iff.mp h
      exact .skipped submitter (Bool.and_eq_true_iff.mp hready).1 hsubmitter
  | receive =>
      obtain ⟨submitter, hsubmitter, rfl⟩ := Option.map_eq_some_iff.mp h
      exact .received submitter hsubmitter
  | startNext =>
      obtain ⟨submitter, hsubmitter, rfl⟩ := Option.map_eq_some_iff.mp h
      exact .started submitter hsubmitter
  | complete result =>
      obtain ⟨submitter, hsubmitter, rfl⟩ := Option.map_eq_some_iff.mp h
      exact .completed result submitter hsubmitter

/-! ## The way of the batches -/

/-- The commands that wait were sent by the driver, and the ledger knows the batches that it has
submitted, in their order. A batch that was dropped was so on a command of the driver or after a
proposal that has failed. -/
structure Linked (failed : BatchProposalError → Prop) (sequencer : Sequencer) : Prop where
  waiting : ∀ cmd, cmd ∈ sequencer.submitter.processor.requestRx ∨ cmd ∈ sequencer.outbox →
    cmd ≠ .getSuggestedMaxSize → cmd ∈ sequencer.driver.sentCommands
  submitted : sequencer.submitter.requests ++
    sequencer.outbox.filterMap TracedProcessor.submitted = sequencer.submissions
  dropped : ∀ ticket cause, (ticket, cause) ∈ sequencer.submitter.tickets.dropped →
    (cause = .clearQueue ∧ .clearQueue ∈ sequencer.driver.sentCommands) ∨
      ∃ e, cause = .failedProposal e ∧ failed e
  audited : sequencer.submitter.Audited

variable {failed : BatchProposalError → Prop}

theorem linked_new (cfg : RuntimeConfig) (l1 : L1State) (l2 : L2State)
    (maxBlockSize daThrottlingFactor : Nat) :
    (new cfg l1 l2 maxBlockSize daThrottlingFactor).Linked failed where
  waiting := by
    rintro cmd (hcmd | hcmd)
    · cases hcmd
    · cases hcmd
  submitted := rfl
  dropped := fun ticket cause hdropped => by cases hdropped
  audited := TracedProcessor.audited_new maxBlockSize daThrottlingFactor

/-- A step of the processor that sends nothing keeps the link. -/
theorem Linked.progress (h : sequencer.Linked failed) {event : BatchSubmissionProcessor.Event}
    {submitter : TracedProcessor} (hsubmitter : sequencer.submitter.step event = some submitter)
    (hsends : ∀ cmd, event ≠ .send cmd)
    (hfailed : ∀ e, event = .complete (.error e) → failed e) :
    { sequencer with submitter := submitter }.Linked failed where
  waiting := by
    rintro cmd (hcmd | hcmd) hother
    · obtain hold | hsent := TracedProcessor.mem_requestRx_step hsubmitter hcmd
      · exact h.waiting cmd (.inl hold) hother
      · exact absurd hsent (hsends cmd)
    · exact h.waiting cmd (.inr hcmd) hother
  submitted := by
    have hrequests : submitter.requests = sequencer.submitter.requests := by
      rw [(TracedProcessor.step_eq_some.mp hsubmitter).2.2]
      cases event with
      | send cmd => exact absurd rfl (hsends cmd)
      | readResult | complete result | startNext | receive => rfl
    dsimp only
    rw [hrequests]
    exact h.submitted
  dropped := by
    intro ticket cause hdropped
    obtain hold | ⟨rfl, hclear⟩ | ⟨e, rfl, hcomplete⟩ :=
      TracedProcessor.mem_dropped_step hsubmitter hdropped
    · exact h.dropped ticket cause hold
    · exact .inl ⟨rfl, h.waiting .clearQueue (.inl hclear) (by simp)⟩
    · exact .inr ⟨e, rfl, hfailed e hcomplete⟩
  audited := h.audited.step hsubmitter

/-- A command that is put into the channel leaves the outbox. -/
theorem Linked.sent (h : sequencer.Linked failed) {cmd : BatchSubmissionCmd}
    {rest : List BatchSubmissionCmd} {submitter : TracedProcessor}
    (houtbox : sequencer.outbox = cmd :: rest)
    (hsubmitter : sequencer.submitter.step (.send cmd) = some submitter) :
    { sequencer with outbox := rest, submitter := submitter }.Linked failed where
  waiting := by
    rintro other (hother | hother) hasks
    · obtain hold | hsent := TracedProcessor.mem_requestRx_step hsubmitter hother
      · exact h.waiting other (.inl hold) hasks
      · cases hsent
        exact h.waiting cmd (.inr (houtbox ▸ List.mem_cons_self)) hasks
    · exact h.waiting other (.inr (houtbox ▸ List.mem_cons_of_mem _ hother)) hasks
  submitted := by
    have hsubmitted := h.submitted
    have hrequests := (TracedProcessor.step_eq_some.mp hsubmitter).2.2
    rw [houtbox] at hsubmitted
    dsimp only
    rw [hrequests]
    refine Eq.trans ?_ hsubmitted
    cases cmd with
    | submit req =>
        show sequencer.submitter.requests ++ [req] ++ _ = _
        rw [List.append_assoc]
        rfl
    | clearQueue => rfl
    | getSuggestedMaxSize => rfl
  dropped := by
    intro ticket cause hdropped
    obtain hold | ⟨rfl, hclear⟩ | ⟨e, -, hcomplete⟩ :=
      TracedProcessor.mem_dropped_step hsubmitter hdropped
    · exact h.dropped ticket cause hold
    · exact .inl ⟨rfl, h.waiting .clearQueue (.inl hclear) (by simp)⟩
    · cases hcomplete
  audited := h.audited.step hsubmitter

/-- The commands of a step of the driver wait behind those that it sent before. -/
theorem Linked.driver (h : sequencer.Linked failed) {event : Driver.Event} {next : Driver}
    (hnext : sequencer.driver.step event = some next) :
    Linked failed
      { driver := next
        outbox := sequencer.outbox ++ next.sentCommands.drop sequencer.driver.sentCommands.length
        submitter := sequencer.submitter } := by
  obtain ⟨cmds, hcmds, -⟩ := Driver.sentCommands_step hnext
  have hdrop : next.sentCommands.drop sequencer.driver.sentCommands.length = cmds := by
    rw [hcmds, List.drop_left]
  have hkept : ∀ cmd ∈ sequencer.driver.sentCommands, cmd ∈ next.sentCommands := fun cmd hcmd =>
    hcmds ▸ List.mem_append_left _ hcmd
  rw [hdrop]
  constructor
  · rintro cmd (hcmd | hcmd) hasks
    · exact hkept cmd (h.waiting cmd (.inl hcmd) hasks)
    · rcases List.mem_append.mp hcmd with hold | hnew
      · exact hkept cmd (h.waiting cmd (.inr hold) hasks)
      · show cmd ∈ next.sentCommands
        rw [hcmds]
        exact List.mem_append_right _ hnew
  · have hsubmitted := h.submitted
    unfold submissions at hsubmitted ⊢
    dsimp only
    rw [List.filterMap_append, ← List.append_assoc, hsubmitted, hcmds, List.filterMap_append]
  · exact fun ticket cause hdropped =>
      (h.dropped ticket cause hdropped).imp_left fun hcleared =>
        ⟨hcleared.1, hkept _ hcleared.2⟩
  · exact h.audited

/-- Every step keeps the link. -/
theorem Linked.step (h : sequencer.Linked failed) {event : Event}
    (hfailed : ∀ e, event = .complete (.error e) → failed e)
    (hstep : sequencer.step event = some next) : next.Linked failed := by
  cases step_cases hstep with
  | driver event driver hready hnext submitter hsubmitter =>
      have hdriver := h.driver hnext
      obtain ⟨-, rfl⟩ | ⟨-, hread⟩ := hsubmitter
      · exact hdriver
      · exact hdriver.progress hread (by simp) (by simp)
  | asked hsent =>
      refine ⟨?_, ?_, h.dropped, h.audited⟩
      · rintro cmd (hcmd | hcmd) hasks
        · exact h.waiting cmd (.inl hcmd) hasks
        · exact absurd (List.mem_singleton.mp hcmd) hasks
      · have hsubmitted := h.submitted
        rw [hsent] at hsubmitted
        exact hsubmitted
  | sent cmd rest submitter houtbox hsubmitter => exact h.sent houtbox hsubmitter
  | skipped submitter hskips hsubmitter => exact h.progress hsubmitter (by simp) (by simp)
  | received submitter hsubmitter => exact h.progress hsubmitter (by simp) (by simp)
  | started submitter hsubmitter => exact h.progress hsubmitter (by simp) (by simp)
  | completed result submitter hsubmitter =>
      refine h.progress hsubmitter (by simp) fun e heq => hfailed e ?_
      cases heq
      rfl

/-! ## The way of the errors -/

/-- The results in the channel after the processor has made a step. -/
theorem resultTx_step {traced next : TracedProcessor} {event : BatchSubmissionProcessor.Event}
    (h : traced.step event = some next) (hreads : event ≠ .readResult)
    (hcompletes : ∀ result, event ≠ .complete result) :
    next.processor.resultTx = traced.processor.resultTx := by
  obtain ⟨hprocessor, -, -⟩ := TracedProcessor.step_eq_some.mp h
  cases event with
  | send cmd =>
      obtain ⟨-, heq⟩ := BatchSubmissionProcessor.step_send.mp hprocessor
      rw [← heq]
  | readResult => exact absurd rfl hreads
  | complete result => exact absurd rfl (hcompletes result)
  | startNext =>
      obtain ⟨-, heq⟩ := BatchSubmissionProcessor.step_startNext.mp hprocessor
      rw [← heq]
      unfold BatchSubmissionProcessor.startNext
      split
      · rfl
      · rfl
  | receive =>
      obtain ⟨cmd, rest, -, hcmd⟩ := BatchSubmissionProcessor.step_receive.mp hprocessor
      exact (BatchSubmissionProcessor.channels_onCmd hcmd).2

/-- Reading takes the first result. -/
theorem resultTx_readResult {traced next : TracedProcessor}
    (h : traced.step .readResult = some next) :
    next.processor.resultTx = traced.processor.resultTx.tail := by
  obtain ⟨hprocessor, -, -⟩ := TracedProcessor.step_eq_some.mp h
  rw [← Option.some.inj hprocessor]

/-- A proposal that ends adds its error, unless it is taken for a success. -/
theorem unreadErrors_complete {submitter : TracedProcessor} {result : BatchResult}
    (h : sequencer.submitter.step (.complete result) = some submitter) :
    { sequencer with submitter := submitter }.unreadErrors =
      sequencer.unreadErrors ++ reportedErrors [.complete result] := by
  obtain ⟨hprocessor, -, -⟩ := TracedProcessor.step_eq_some.mp h
  obtain ⟨-, hcomplete⟩ := BatchSubmissionProcessor.step_complete.mp hprocessor
  unfold BatchSubmissionProcessor.complete BatchSubmissionProcessor.onProposal at hcomplete
  cases result with
  | ok receipt =>
      unfold unreadErrors
      rw [BatchSubmissionProcessor.sendResult_eq_ok hcomplete, List.filterMap_append]
      rfl
  | error e =>
      dsimp only at hcomplete
      by_cases hnonce : e.matchesNonceTooLow = true
      · have hsilent : reportedErrors [.complete (.error e)] = [] := by
          simp [reportedErrors, hnonce]
        rw [if_pos hnonce] at hcomplete
        unfold unreadErrors
        rw [← Except.ok.inj hcomplete, hsilent, List.append_nil]
      · have hreported : reportedErrors [.complete (.error e)] = [e] := by
          simp [reportedErrors, hnonce]
        rw [if_neg hnonce] at hcomplete
        unfold unreadErrors
        rw [BatchSubmissionProcessor.sendResult_eq_ok hcomplete, hreported, List.filterMap_append]
        rfl

/-- The errors before a step and those that it reports are those that it handles and those after
it. -/
theorem unreadErrors_step {event : Event} (h : sequencer.step event = some next) :
    handledErrors [event] ++ next.unreadErrors =
      sequencer.unreadErrors ++ reportedErrors [event] := by
  cases step_cases h with
  | driver event driver hready hnext submitter hsubmitter =>
      obtain ⟨hreads, rfl⟩ | ⟨hreads, hread⟩ := hsubmitter
      · have hhandled : handledErrors [.driver event] = [] := by
          unfold handledErrors
          cases event with
          | handle event =>
              cases event with
              | batchProposalErr e => cases hreads
              | _ => rfl
          | _ => rfl
        rw [hhandled]
        exact (List.append_nil _).symm
      · have hchannel := resultTx_readResult hread
        cases event with
        | handle event =>
            cases event with
            | batchProposalErr e =>
                obtain ⟨-, hfirst⟩ := Bool.and_eq_true_iff.mp hready
                obtain ⟨rest, hresults⟩ := List.head?_eq_some_iff.mp (of_decide_eq_true hfirst)
                unfold unreadErrors
                dsimp only
                rw [hchannel, hresults]
                exact (List.append_nil _).symm
            | _ => cases hreads
        | _ => cases hreads
  | asked hsent => exact (List.append_nil _).symm
  | sent cmd rest submitter houtbox hsubmitter =>
      unfold unreadErrors
      dsimp only
      rw [resultTx_step hsubmitter (by simp) (by simp)]
      exact (List.append_nil _).symm
  | skipped submitter hskips hsubmitter =>
      have hchannel := resultTx_readResult hsubmitter
      unfold unreadErrors
      dsimp only
      rw [hchannel]
      unfold skipsResult at hskips
      split at hskips
      · next receipt rest hresults =>
          rw [hresults]
          exact (List.append_nil _).symm
      · cases hskips
  | received submitter hsubmitter =>
      unfold unreadErrors
      dsimp only
      rw [resultTx_step hsubmitter (by simp) (by simp)]
      exact (List.append_nil _).symm
  | started submitter hsubmitter =>
      unfold unreadErrors
      dsimp only
      rw [resultTx_step hsubmitter (by simp) (by simp)]
      exact (List.append_nil _).symm
  | completed result submitter hsubmitter => exact unreadErrors_complete hsubmitter

/-- The errors that were reported are those that the driver has handled and then those in the
channel. -/
theorem handledErrors_append_unreadErrors {start final : Sequencer} {events : List Event}
    (hrun : Transition.run step start events = some final) :
    handledErrors events ++ final.unreadErrors = start.unreadErrors ++ reportedErrors events := by
  induction events generalizing start with
  | nil =>
      cases hrun
      exact (List.append_nil _).symm
  | cons event rest ih =>
      obtain ⟨next, hnext, hrest⟩ := Transition.run_cons.mp hrun
      have hhandled : handledErrors (event :: rest) =
          handledErrors [event] ++ handledErrors rest :=
        List.filterMap_append (l := [event])
      have hreported : reportedErrors (event :: rest) =
          reportedErrors [event] ++ reportedErrors rest :=
        List.filterMap_append (l := [event])
      rw [hhandled, hreported, List.append_assoc, ih hrest, ← List.append_assoc,
        unreadErrors_step hnext, List.append_assoc]

/-- The events of the driver in a run are a run of the driver. -/
theorem run_driver {start final : Sequencer} {events : List Event}
    (hrun : Transition.run step start events = some final) :
    Transition.run Driver.step start.driver (driverEvents events) = some final.driver := by
  induction events generalizing start with
  | nil =>
      cases hrun
      rfl
  | cons event rest ih =>
      obtain ⟨next, hnext, hrest⟩ := Transition.run_cons.mp hrun
      have hrun := ih hrest
      cases step_cases hnext with
      | driver event driver hready hdriver submitter hsubmitter =>
          exact Transition.run_cons.mpr ⟨driver, hdriver, hrun⟩
      | asked hsent => exact hrun
      | sent cmd rest submitter houtbox hsubmitter => exact hrun
      | skipped submitter hskips hsubmitter => exact hrun
      | received submitter hsubmitter => exact hrun
      | started submitter hsubmitter => exact hrun
      | completed result submitter hsubmitter => exact hrun

/-! ## What holds in every run -/

/-- A command to submit a batch or to clear the queue has left an entry in the log. -/
theorem mem_log_of_sent {driver : Driver} {cmd : BatchSubmissionCmd}
    (h : cmd ∈ driver.sentCommands) : ∃ entry ∈ driver.log, entry.command = some cmd := by
  obtain ⟨entry, hentry, heq⟩ := List.mem_filterMap.mp h
  exact ⟨entry, List.mem_reverse.mp hentry, heq⟩

/-- Where the proposals of a run come from. They start in the order in which the driver has
submitted the batches, and consist of blocks that were delivered to it. A batch in the queue is
dropped only if the driver has cleared the queue after a reorg or a proposal has failed (one that
overlaps the queue is skipped when it is received), and the driver has handled the errors of
proposals in their order, up to those that are still in the channel. -/
structure Accountable (events : List Event) (sequencer : Sequencer) : Prop where
  inOrder : sequencer.proposals.Sublist sequencer.submissions
  delivered : ∀ req ∈ sequencer.proposals, ∀ block ∈ req.batch.blocks,
    ∃ event ∈ driverEvents events, block.content ∈ event.delivered
  dropped : ∀ ticket cause, (ticket, cause) ∈ sequencer.submitter.tickets.dropped →
    (cause = .clearQueue ∧ .queueCleared ∈ sequencer.driver.log) ∨
      ∃ e ∈ reportedErrors events, cause = .failedProposal e
  errors : handledErrors events ++ sequencer.unreadErrors = reportedErrors events

/-- The proposals are batches that the driver has submitted, in their order. -/
theorem Linked.proposals_sublist (h : sequencer.Linked failed) :
    sequencer.proposals.Sublist sequencer.submissions := by
  have haccounted := h.audited.accounted
  have hstarted : sequencer.submitter.tickets.started.Pairwise (· < ·) :=
    (List.pairwise_append.mp haccounted.inOrder).1.sublist
      ((List.sublist_append_left _ _).trans haccounted.fifo)
  rw [← h.submitted]
  exact (Tickets.filterMap_getElem?_sublist _ hstarted).trans (List.sublist_append_left _ _)

/-- The driver and the processor are linked after every run. -/
theorem linked_of_run {cfg : RuntimeConfig} {l1 : L1State} {l2 : L2State}
    {maxBlockSize daThrottlingFactor : Nat} {events : List Event}
    (hrun : Transition.run step (new cfg l1 l2 maxBlockSize daThrottlingFactor) events =
      some sequencer) : sequencer.Linked fun e => .complete (.error e) ∈ events := by
  have hevents : ∀ event ∈ events, ∀ e : BatchProposalError, event = .complete (.error e) →
      .complete (.error e) ∈ events := fun event hevent e heq => heq ▸ hevent
  exact Transition.invariant_run_of_forall
    (fun _ _ _ hinv hevent hstep => hinv.step hevent hstep)
    (linked_new cfg l1 l2 maxBlockSize daThrottlingFactor) hevents hrun

/-- The driver has logged the submission of what is proposed. -/
theorem Linked.submitted_of_proposal (h : sequencer.Linked failed) {req : BatchSubmissionRequest}
    (hreq : req ∈ sequencer.proposals) :
    ∃ status reorgReasons, .submitted req status reorgReasons ∈ sequencer.driver.log := by
  obtain ⟨cmd, hcmd, hsubmit⟩ := List.mem_filterMap.mp (h.proposals_sublist.subset hreq)
  obtain ⟨entry, hentry, hcommand⟩ := mem_log_of_sent hcmd
  cases entry with
  | submitted other status reorgReasons =>
      cases hcommand
      cases hsubmit
      exact ⟨status, reorgReasons, hentry⟩
  | queueCleared =>
      cases hcommand
      cases hsubmit
  | _ => cases hcommand

/-- In every interleaving of a driver that starts and of the processor, the proposals are
accountable. -/
theorem sequencer_accountable {cfg : RuntimeConfig} {l1 : L1State} {l2 : L2State}
    {maxBlockSize daThrottlingFactor : Nat} {events : List Event}
    (hrun : Transition.run step (new cfg l1 l2 maxBlockSize daThrottlingFactor) events =
      some sequencer) : sequencer.Accountable events := by
  have hlinked := linked_of_run hrun
  constructor
  · exact hlinked.proposals_sublist
  · intro req hreq block hblock
    obtain ⟨status, reorgReasons, hsubmitted⟩ := hlinked.submitted_of_proposal hreq
    exact (Driver.comesFrom_of_run (run_driver hrun)).submitted _ _ _ hsubmitted block hblock
  · intro ticket cause hdropped
    obtain ⟨rfl, hclear⟩ | ⟨e, rfl, hfailed⟩ := hlinked.dropped ticket cause hdropped
    · obtain ⟨entry, hentry, hcommand⟩ := mem_log_of_sent hclear
      cases entry with
      | queueCleared => exact .inl ⟨rfl, hentry⟩
      | _ => cases hcommand
    · have hnonce := hlinked.audited.causes ticket e hdropped
      refine .inr ⟨e, List.mem_filterMap.mpr ⟨_, hfailed, ?_⟩, rfl⟩
      simp [hnonce]
  · exact handledErrors_append_unreadErrors hrun

open Driver in
/-- Block 2 is built, the next L1 tick submits it with block 1, the proposal starts and fails, and
the driver handles the error. -/
def failedProposal : List Event :=
  (triggerOn48 ++ finishBlock2 ++ nextL1Slot.take 2).map .driver ++ [.send] ++
    (nextL1Slot.drop 2).map .driver ++
    [.receive, .startNext, .complete (.error .deadlineReached),
      .driver (.handle (.batchProposalErr .deadlineReached))]

/-- The batch of blocks 1 and 2 is proposed. -/
theorem sequencer_accountable_failedProposal :
    ∃ sequencer : Sequencer, Transition.run step
        ⟨Driver.startAt 38412 1, [], .new 126976 50⟩ failedProposal = some sequencer ∧
      sequencer.proposals = [⟨Driver.batchOn48, 3208⟩] ∧
      handledErrors failedProposal = [.deadlineReached] ∧
      sequencer.Accountable failedProposal := by
  obtain ⟨sequencer, hrun, hproposals⟩ : ∃ sequencer : Sequencer, Transition.run step
      ⟨Driver.startAt 38412 1, [], .new 126976 50⟩ failedProposal = some sequencer ∧
        sequencer.proposals = [⟨Driver.batchOn48, 3208⟩] :=
    Transition.exists_run (by decide +kernel)
  exact ⟨sequencer, hrun, hproposals, rfl, sequencer_accountable hrun⟩

end Sequencer

end Mk1
