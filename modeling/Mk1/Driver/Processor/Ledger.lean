import Mk1.Driver.Processor.Overlap
import Mk1.Library.TicketQueue

/-!
# A ledger of submissions

`TracedProcessor` is the processor together with a ticket for each batch that
was sent to it, and with what has become of the tickets. The ledger only looks
on (`run_erase`, `exists_run`), and its queue and channel are those of the
processor (`Tracks`). `fifo_without_loss` says that no accepted batch is lost,
proposed twice or overtaken.
-/

namespace Mk1

/-- Why a batch was dropped from the queue: a command, or a failed proposal. -/
inductive DropCause where
  | clearQueue
  | failedProposal (e : BatchProposalError)
  deriving DecidableEq, Repr

/-- The processor with its ledger. `requests` are all batches sent, in the order of their
tickets. -/
structure TracedProcessor where
  processor : BatchSubmissionProcessor
  tickets : Tickets DropCause
  requests : List BatchSubmissionRequest

namespace TracedProcessor

open BatchSubmissionProcessor (Event SendsWellNumbered AllWellNumbered overlapsQueue)

/-- A new processor with an empty ledger. -/
def new (maxBlockSize daThrottlingFactor : Nat) : TracedProcessor :=
  { processor := .new maxBlockSize daThrottlingFactor, tickets := .new, requests := [] }

/-- What a command that is received does to the tickets. -/
def noteCmd (processor : BatchSubmissionProcessor) (tickets : Tickets DropCause) :
    BatchSubmissionCmd → Tickets DropCause
  | .submit req => if processor.overlapsQueue req then tickets.refuse else tickets.accept
  | .clearQueue => tickets.clear .clearQueue
  | .getSuggestedMaxSize => tickets

/-- What the result of a proposal does to the tickets. -/
def noteResult (tickets : Tickets DropCause) : BatchResult → Tickets DropCause
  | .ok _ => tickets.finish
  | .error e =>
      if e.matchesNonceTooLow then tickets.finish else tickets.finish.clear (.failedProposal e)

/-- What an event does to the tickets, in the state of the processor before it. -/
def note (traced : TracedProcessor) : Event → Tickets DropCause
  | .send (.submit _) => traced.tickets.send
  | .send .clearQueue | .send .getSuggestedMaxSize | .readResult => traced.tickets
  | .complete result => noteResult traced.tickets result
  | .startNext => traced.tickets.start
  | .receive =>
      match traced.processor.requestRx with
      | [] => traced.tickets
      | cmd :: _ => noteCmd traced.processor traced.tickets cmd

/-- The batches sent after an event. -/
def noteRequest (traced : TracedProcessor) : Event → List BatchSubmissionRequest
  | .send (.submit req) => traced.requests ++ [req]
  | _ => traced.requests

/-- One event of the processor, with its note. -/
def step (traced : TracedProcessor) (event : Event) : Option TracedProcessor :=
  (traced.processor.step event).map fun processor =>
    { processor := processor, tickets := traced.note event, requests := traced.noteRequest event }

/-- A step is one of the processor, with its note. -/
theorem step_eq_some {traced next : TracedProcessor} {event : Event} :
    traced.step event = some next ↔
      traced.processor.step event = some next.processor ∧ next.tickets = traced.note event ∧
        next.requests = traced.noteRequest event := by
  unfold step
  rw [Option.map_eq_some_iff]
  constructor
  · rintro ⟨processor, hstep, rfl⟩
    exact ⟨hstep, rfl, rfl⟩
  · rintro ⟨hstep, htickets, hrequests⟩
    exact ⟨next.processor, hstep, by rw [← htickets, ← hrequests]⟩

/-- A run with a ledger is a run of the processor. -/
theorem run_erase {traced final : TracedProcessor} {events : List Event}
    (h : Transition.run step traced events = some final) :
    Transition.run BatchSubmissionProcessor.step traced.processor events =
      some final.processor := by
  induction events generalizing traced with
  | nil =>
      cases h
      rfl
  | cons event rest ih =>
      obtain ⟨next, hnext, hrest⟩ := Transition.run_cons.mp h
      exact Transition.run_cons.mpr ⟨next.processor, (step_eq_some.mp hnext).1, ih hrest⟩

/-- Every run of the processor is one with a ledger. -/
theorem exists_run {traced : TracedProcessor} {processor : BatchSubmissionProcessor}
    {events : List Event}
    (h : Transition.run BatchSubmissionProcessor.step traced.processor events = some processor) :
    ∃ final, Transition.run step traced events = some final ∧ final.processor = processor := by
  induction events generalizing traced with
  | nil =>
      cases h
      exact ⟨traced, rfl, rfl⟩
  | cons event rest ih =>
      obtain ⟨next, hnext, hrest⟩ := Transition.run_cons.mp h
      let noted : TracedProcessor := ⟨next, traced.note event, traced.noteRequest event⟩
      have hnoted : traced.step event = some noted := step_eq_some.mpr ⟨hnext, rfl, rfl⟩
      obtain ⟨final, hfinal, hprocessor⟩ := @ih noted hrest
      exact ⟨final, Transition.run_cons.mpr ⟨noted, hnoted, hfinal⟩, hprocessor⟩

/-! ## The ledger follows the processor -/

/-- Receiving notes the first command of the channel. -/
theorem note_receive {traced : TracedProcessor} {cmd : BatchSubmissionCmd}
    {rest : List BatchSubmissionCmd} (h : traced.processor.requestRx = cmd :: rest) :
    traced.note .receive = noteCmd traced.processor traced.tickets cmd := by
  unfold note
  dsimp only
  rw [h]

/-- What an event does to the tickets: nothing, or one operation on them. A proposal only starts
when none is pending, and clears the queue in the end only if it is not taken for a success. -/
theorem tickets_step {traced next : TracedProcessor} {event : Event}
    (h : traced.step event = some next) :
    next.tickets = traced.tickets ∨ next.tickets = traced.tickets.send ∨
      next.tickets = traced.tickets.accept ∨ next.tickets = traced.tickets.refuse ∨
      (traced.processor.pendingProposal = none ∧ next.tickets = traced.tickets.start) ∨
      next.tickets = traced.tickets.finish ∨ next.tickets = traced.tickets.clear .clearQueue ∨
      ∃ e, e.matchesNonceTooLow = false ∧
        next.tickets = traced.tickets.finish.clear (.failedProposal e) := by
  obtain ⟨hprocessor, htickets, -⟩ := step_eq_some.mp h
  rw [htickets]
  cases event with
  | send cmd =>
      cases cmd with
      | submit req => exact .inr (.inl rfl)
      | clearQueue => exact .inl rfl
      | getSuggestedMaxSize => exact .inl rfl
  | readResult => exact .inl rfl
  | startNext =>
      obtain ⟨hnone, -⟩ := BatchSubmissionProcessor.step_startNext.mp hprocessor
      exact .inr (.inr (.inr (.inr (.inl ⟨hnone, rfl⟩))))
  | complete result =>
      cases result with
      | ok receipt => exact .inr (.inr (.inr (.inr (.inr (.inl rfl)))))
      | error e =>
          unfold note noteResult
          dsimp only
          by_cases hnonce : e.matchesNonceTooLow = true
          · rw [if_pos hnonce]
            exact .inr (.inr (.inr (.inr (.inr (.inl rfl)))))
          · rw [if_neg hnonce]
            exact .inr (.inr (.inr (.inr (.inr (.inr (.inr
              ⟨e, Bool.eq_false_of_not_eq_true hnonce, rfl⟩))))))
  | receive =>
      obtain ⟨cmd, rest, hrequests, -⟩ := BatchSubmissionProcessor.step_receive.mp hprocessor
      rw [note_receive hrequests]
      cases cmd with
      | submit req =>
          by_cases hoverlap : traced.processor.overlapsQueue req = true
          · exact .inr (.inr (.inr (.inl (if_pos hoverlap))))
          · exact .inr (.inr (.inl (if_neg hoverlap)))
      | clearQueue => exact .inr (.inr (.inr (.inr (.inr (.inr (.inl rfl))))))
      | getSuggestedMaxSize => exact .inl rfl

/-- Every event keeps the books of the tickets. -/
theorem accounted_step {traced next : TracedProcessor} {event : Event}
    (h : traced.tickets.Accounted)
    (hpending : traced.processor.pendingProposal = none → traced.tickets.pending = none)
    (hstep : traced.step event = some next) : next.tickets.Accounted := by
  rcases tickets_step hstep with heq | heq | heq | heq | ⟨hnone, heq⟩ | heq | heq | ⟨e, -, heq⟩
  all_goals rw [heq]
  · exact h
  · exact h.send
  · exact h.accept
  · exact h.refuse
  · exact h.start (hpending hnone)
  · exact h.finish
  · exact h.clear _
  · exact h.finish.clear _

/-- The request of a command to submit a batch. -/
def submitted : BatchSubmissionCmd → Option BatchSubmissionRequest
  | .submit req => some req
  | .clearQueue | .getSuggestedMaxSize => none

/-- The tickets in the channel, in the queue and pending stand for the batches there. -/
structure Tracks (traced : TracedProcessor) : Prop where
  sent : traced.requests.length = traced.tickets.sent
  channel : traced.tickets.channel.map (traced.requests[·]?) =
    (traced.processor.requestRx.filterMap submitted).map some
  queue : traced.tickets.queue.map (traced.requests[·]?) =
    traced.processor.requestQueue.map fun (batch, deadline) => some ⟨batch, deadline⟩
  pending : traced.tickets.pending.map (traced.requests[·]?) =
    traced.processor.pendingProposal.map fun (batch, deadline) => some ⟨batch, deadline⟩

/-- No ticket is pending if no proposal is. -/
theorem Tracks.pending_eq_none {traced : TracedProcessor} (h : traced.Tracks)
    (hnone : traced.processor.pendingProposal = none) : traced.tickets.pending = none := by
  have hpending := h.pending
  rw [hnone] at hpending
  exact Option.map_eq_none_iff.mp hpending

/-- Every ticket that the ledger keeps track of stands for a batch that was sent. -/
theorem lt_length (traced : TracedProcessor) (haccounted : traced.tickets.Accounted)
    (hsent : traced.requests.length = traced.tickets.sent) {ticket : Nat}
    (hticket : ticket ∈ traced.tickets.channel ∨ ticket ∈ traced.tickets.queue ∨
      ticket ∈ traced.tickets.pending) : ticket < traced.requests.length := by
  rw [hsent]
  refine haccounted.bounded ticket (List.mem_append.mpr ?_)
  rcases hticket with hchannel | hqueue | hpending
  · exact .inr hchannel
  · exact .inl (haccounted.fifo.subset (List.mem_append.mpr (.inr hqueue)))
  · have hstarted : ticket ∈ traced.tickets.started := by
      rw [haccounted.onePending]
      exact List.mem_append.mpr (.inr (Option.mem_toList.mpr hpending))
    exact .inl (haccounted.fifo.subset (List.mem_append.mpr (.inl hstarted)))

/-- A newly sent batch leaves those of the other tickets in place. -/
theorem Tracks.send {traced : TracedProcessor} (h : traced.Tracks)
    (haccounted : traced.tickets.Accounted) (req : BatchSubmissionRequest) :
    Tracks
      { processor :=
          { traced.processor with requestRx := traced.processor.requestRx ++ [.submit req] }
        tickets := traced.tickets.send
        requests := traced.requests ++ [req] } := by
  have hlt : ∀ ticket, ticket ∈ traced.tickets.channel ∨ ticket ∈ traced.tickets.queue ∨
      ticket ∈ traced.tickets.pending → ticket < traced.requests.length :=
    fun _ hticket => traced.lt_length haccounted h.sent hticket
  have hsame : ∀ ticket < traced.requests.length,
      (traced.requests ++ [req])[ticket]? = traced.requests[ticket]? :=
    fun ticket hticket => List.getElem?_append_left hticket
  constructor
  · simp [Tickets.send, h.sent]
  · show (traced.tickets.channel ++ [traced.tickets.sent]).map _ = _
    have hnew : (traced.requests ++ [req])[traced.tickets.sent]? = some req := by
      rw [← h.sent, List.getElem?_concat_length]
    have hold : traced.tickets.channel.map ((traced.requests ++ [req])[·]?) =
        traced.tickets.channel.map (traced.requests[·]?) :=
      List.map_congr_left fun ticket hticket => hsame ticket (hlt ticket (.inl hticket))
    rw [List.map_append, hold, h.channel]
    simp [hnew, submitted]
  · have hold : traced.tickets.queue.map ((traced.requests ++ [req])[·]?) =
        traced.tickets.queue.map (traced.requests[·]?) :=
      List.map_congr_left fun ticket hticket => hsame ticket (hlt ticket (.inr (.inl hticket)))
    exact hold.trans h.queue
  · have hold : traced.tickets.pending.map ((traced.requests ++ [req])[·]?) =
        traced.tickets.pending.map (traced.requests[·]?) :=
      Option.map_congr fun ticket hticket => hsame ticket (hlt ticket (.inr (.inr hticket)))
    exact hold.trans h.pending

/-- A command that submits nothing gets no ticket. -/
theorem Tracks.sendOther {traced : TracedProcessor} (h : traced.Tracks) {cmd : BatchSubmissionCmd}
    (hcmd : submitted cmd = none) :
    Tracks
      { processor := { traced.processor with requestRx := traced.processor.requestRx ++ [cmd] }
        tickets := traced.tickets
        requests := traced.requests } := by
  refine ⟨h.sent, ?_, h.queue, h.pending⟩
  rw [List.filterMap_append, List.filterMap_cons_none hcmd, List.filterMap_nil, List.append_nil]
  exact h.channel

/-- The queue after a proposal: it is cleared after an error, unless that says that the nonce was
too low. -/
def queueAfterResult (queue : List (Batch × Nat)) : BatchResult → List (Batch × Nat)
  | .ok _ => queue
  | .error e => if e.matchesNonceTooLow then queue else []

/-- The result of a proposal changes nothing but the queue and the results. -/
theorem onProposal_eq {processor processor' : BatchSubmissionProcessor} {result : BatchResult}
    (h : processor.onProposal result = .ok processor') :
    processor'.requestRx = processor.requestRx ∧
      processor'.pendingProposal = processor.pendingProposal ∧
      processor'.requestQueue = queueAfterResult processor.requestQueue result := by
  cases result with
  | ok receipt =>
      rw [BatchSubmissionProcessor.sendResult_eq_ok h]
      exact ⟨rfl, rfl, rfl⟩
  | error e =>
      unfold BatchSubmissionProcessor.onProposal at h
      unfold queueAfterResult
      by_cases hnonce : e.matchesNonceTooLow = true
      · simp only [if_pos hnonce] at h ⊢
        cases h
        exact ⟨rfl, rfl, rfl⟩
      · simp only [if_neg hnonce] at h ⊢
        rw [BatchSubmissionProcessor.sendResult_eq_ok h]
        exact ⟨rfl, rfl, rfl⟩

/-- The queue after a command. -/
def queueAfterCmd (processor : BatchSubmissionProcessor) :
    BatchSubmissionCmd → List (Batch × Nat)
  | .submit req =>
      if processor.overlapsQueue req then processor.requestQueue
      else processor.requestQueue ++ [(req.batch, req.deadline)]
  | .clearQueue => []
  | .getSuggestedMaxSize => processor.requestQueue

/-- A command leaves the pending proposal alone. -/
theorem onCmd_eq {processor processor' : BatchSubmissionProcessor} {cmd : BatchSubmissionCmd}
    (h : processor.onCmd cmd = .ok processor') :
    processor'.pendingProposal = processor.pendingProposal ∧
      processor'.requestQueue = queueAfterCmd processor cmd := by
  cases cmd with
  | submit req =>
      cases h
      unfold BatchSubmissionProcessor.handleBatchSubmissionRequest queueAfterCmd
      dsimp only
      by_cases hoverlap : processor.overlapsQueue req = true
      · rw [if_pos hoverlap]
        rw [overlapsQueue] at hoverlap
        rw [if_pos hoverlap]
        exact ⟨rfl, rfl⟩
      · rw [if_neg hoverlap]
        rw [overlapsQueue] at hoverlap
        rw [if_neg hoverlap]
        exact ⟨rfl, rfl⟩
  | clearQueue =>
      cases h
      exact ⟨rfl, rfl⟩
  | getSuggestedMaxSize =>
      obtain ⟨size, -, h⟩ := bind_eq_ok.mp h
      cases h
      exact ⟨rfl, rfl⟩

/-- A command that is received leaves the ledger in step with the processor. -/
theorem Tracks.receive {traced : TracedProcessor} (h : traced.Tracks)
    {cmd : BatchSubmissionCmd} {rest : List BatchSubmissionCmd}
    (hrequests : traced.processor.requestRx = cmd :: rest)
    {processor : BatchSubmissionProcessor}
    (hcmd : { traced.processor with requestRx := rest }.onCmd cmd = .ok processor) :
    Tracks ⟨processor, noteCmd traced.processor traced.tickets cmd, traced.requests⟩ := by
  have hrest : processor.requestRx = rest := (BatchSubmissionProcessor.channels_onCmd hcmd).1
  obtain ⟨hpendingKept, hqueue⟩ := onCmd_eq hcmd
  have hpending := h.pending
  rw [← hpendingKept] at hpending
  have hchannel := h.channel
  rw [hrequests] at hchannel
  cases cmd with
  | submit req =>
      cases htickets : traced.tickets.channel with
      | nil =>
          rw [htickets] at hchannel
          simp [submitted] at hchannel
      | cons ticket tickets =>
          rw [htickets] at hchannel
          -- the request that is received is the one with the first ticket of the channel
          obtain ⟨hticket, htail⟩ : traced.requests[ticket]? = some req ∧
              tickets.map (traced.requests[·]?) = (rest.filterMap submitted).map some := by
            simpa [submitted] using hchannel
          by_cases hoverlap : traced.processor.overlapsQueue req = true
          · have hnote : noteCmd traced.processor traced.tickets (.submit req) =
                traced.tickets.refuse := if_pos hoverlap
            rw [hnote]
            refine ⟨h.sent, ?_, ?_, hpending⟩
            · show traced.tickets.channel.tail.map _ = _
              rw [htickets, hrest]
              exact htail
            · have hkept : processor.requestQueue = traced.processor.requestQueue :=
                hqueue.trans (if_pos hoverlap)
              rw [hkept]
              exact h.queue
          · have hnote : noteCmd traced.processor traced.tickets (.submit req) =
                traced.tickets.accept := if_neg hoverlap
            rw [hnote, Tickets.accept, htickets]
            refine ⟨h.sent, ?_, ?_, hpending⟩
            · rw [hrest]
              exact htail
            · have hjoined : processor.requestQueue =
                  traced.processor.requestQueue ++ [(req.batch, req.deadline)] :=
                hqueue.trans (if_neg hoverlap)
              rw [hjoined]
              show (traced.tickets.queue ++ [ticket]).map _ = _
              rw [List.map_append, List.map_append, h.queue]
              simp [hticket]
  | clearQueue =>
      refine ⟨h.sent, ?_, ?_, hpending⟩
      · rw [hrest]
        exact hchannel
      · rw [hqueue]
        rfl
  | getSuggestedMaxSize =>
      refine ⟨h.sent, ?_, ?_, hpending⟩
      · rw [hrest]
        exact hchannel
      · rw [hqueue]
        exact h.queue

/-- The ledger stays in step with the processor. -/
theorem Tracks.step {traced next : TracedProcessor} {event : Event} (h : traced.Tracks)
    (haccounted : traced.tickets.Accounted) (hstep : traced.step event = some next) :
    next.Tracks := by
  obtain ⟨processor, tickets, requests⟩ := next
  obtain ⟨hprocessor, rfl, rfl⟩ := step_eq_some.mp hstep
  dsimp only at hprocessor
  cases event with
  | send cmd =>
      obtain ⟨-, rfl⟩ := BatchSubmissionProcessor.step_send.mp hprocessor
      cases cmd with
      | submit req => exact h.send haccounted req
      | clearQueue => exact h.sendOther rfl
      | getSuggestedMaxSize => exact h.sendOther rfl
  | readResult =>
      cases hprocessor
      exact ⟨h.sent, h.channel, h.queue, h.pending⟩
  | complete result =>
      obtain ⟨-, hcomplete⟩ := BatchSubmissionProcessor.step_complete.mp hprocessor
      obtain ⟨hrequests, hpending, hqueue⟩ := onProposal_eq hcomplete
      cases result with
      | ok receipt =>
          exact ⟨h.sent, hrequests ▸ h.channel, hqueue ▸ h.queue, hpending ▸ rfl⟩
      | error e =>
          unfold note noteResult
          unfold queueAfterResult at hqueue
          dsimp only at hqueue ⊢
          split
          · next hnonce =>
              rw [if_pos hnonce] at hqueue
              exact ⟨h.sent, hrequests ▸ h.channel, hqueue ▸ h.queue, hpending ▸ rfl⟩
          · next hnonce =>
              rw [if_neg hnonce] at hqueue
              -- any other error drops the queue, and the ledger with it
              exact ⟨h.sent, hrequests ▸ h.channel, hqueue ▸ rfl, hpending ▸ rfl⟩
  | startNext =>
      obtain ⟨-, rfl⟩ := BatchSubmissionProcessor.step_startNext.mp hprocessor
      have hqueue := h.queue
      unfold note Tickets.start BatchSubmissionProcessor.startNext
      dsimp only
      cases htickets : traced.tickets.queue with
      | nil =>
          rw [htickets, List.map_nil, eq_comm, List.map_eq_nil_iff] at hqueue
          rw [hqueue]
          exact ⟨h.sent, h.channel, by rw [htickets, hqueue]; rfl, h.pending⟩
      | cons ticket rest =>
          rw [htickets] at hqueue
          obtain ⟨⟨batch, deadline⟩, queue, hrequests, hticket, hrest⟩ :=
            List.map_eq_cons_iff.mp hqueue.symm
          rw [hrequests]
          exact ⟨h.sent, h.channel, hrest.symm, congrArg some hticket.symm⟩
  | receive =>
      obtain ⟨cmd, rest, hrequests, hcmd⟩ := BatchSubmissionProcessor.step_receive.mp hprocessor
      rw [note_receive hrequests]
      exact h.receive hrequests hcmd

/-! ## No loss and no duplication -/

/-- The ranges of the queued batches are disjoint. -/
def QueueApart (processor : BatchSubmissionProcessor) : Prop :=
  processor.requestQueue.Pairwise fun first second => Batch.Apart first.1 second.1

/-- A batch that does not overlap the queue is apart from its batches. -/
theorem apart_of_overlapsQueue {processor : BatchSubmissionProcessor}
    {req : BatchSubmissionRequest} (h : processor.AllWellNumbered)
    (hreq : req.batch.WellNumbered) (hoverlap : processor.overlapsQueue req = false)
    {queued : Batch × Nat} (hqueued : queued ∈ processor.requestQueue) :
    Batch.Apart queued.1 req.batch := by
  have hinFlight : queued.1 ∈ processor.inFlight :=
    List.mem_map_of_mem (List.mem_append_right _ hqueued)
  refine (Batch.apart_iff (h.inFlight _ hinFlight) hreq).mpr ?_
  have hnone := List.any_eq_false.mp hoverlap queued.1.blocksRange
    (List.mem_map_of_mem hqueued)
  exact Bool.eq_false_of_not_eq_true hnone

/-- Every event keeps the queued batches apart. -/
theorem queueApart_step {processor processor' : BatchSubmissionProcessor} {event : Event}
    (h : QueueApart processor) (hnumbered : processor.AllWellNumbered)
    (hstep : processor.step event = some processor') : QueueApart processor' := by
  cases event with
  | send cmd =>
      obtain ⟨-, rfl⟩ := BatchSubmissionProcessor.step_send.mp hstep
      exact h
  | readResult =>
      cases hstep
      exact h
  | complete result =>
      obtain ⟨-, hcomplete⟩ := BatchSubmissionProcessor.step_complete.mp hstep
      obtain ⟨-, -, hqueue⟩ := onProposal_eq hcomplete
      unfold QueueApart
      rw [hqueue]
      unfold queueAfterResult
      split
      · exact h
      · split
        · exact h
        · exact List.Pairwise.nil
  | startNext =>
      obtain ⟨-, rfl⟩ := BatchSubmissionProcessor.step_startNext.mp hstep
      unfold QueueApart BatchSubmissionProcessor.startNext
      split
      · exact h
      · next hqueue =>
          unfold QueueApart at h
          rw [hqueue] at h
          exact (List.pairwise_cons.mp h).2
  | receive =>
      obtain ⟨cmd, rest, hrequests, hcmd⟩ := BatchSubmissionProcessor.step_receive.mp hstep
      obtain ⟨-, hqueue⟩ := onCmd_eq hcmd
      unfold QueueApart
      cases cmd with
      | clearQueue =>
          rw [hqueue]
          exact List.Pairwise.nil
      | getSuggestedMaxSize =>
          rw [hqueue]
          exact h
      | submit req =>
          by_cases hoverlap : processor.overlapsQueue req = true
          · have hkept : processor'.requestQueue = processor.requestQueue :=
              hqueue.trans (if_pos hoverlap)
            rw [hkept]
            exact h
          · have hjoined : processor'.requestQueue =
                processor.requestQueue ++ [(req.batch, req.deadline)] :=
              hqueue.trans (if_neg hoverlap)
            -- accepted, it is apart from what is queued: the check was against all in flight
            have hreq : req.batch.WellNumbered :=
              hnumbered.requestRx _ (by rw [hrequests]; exact List.mem_cons_self) req rfl
            have hfree := Bool.eq_false_of_not_eq_true hoverlap
            rw [hjoined]
            refine List.pairwise_append.mpr ⟨h, List.pairwise_singleton _ _, ?_⟩
            intro queued hqueued other hother
            rw [List.mem_singleton.mp hother]
            exact apart_of_overlapsQueue hnumbered hreq hfree hqueued

/-- A batch is only dropped for a failed proposal if that is not taken for a success. -/
def CausesFail (tickets : Tickets DropCause) : Prop :=
  ∀ ticket e, (ticket, .failedProposal e) ∈ tickets.dropped → e.matchesNonceTooLow = false

/-- Only what was dropped matters for the causes. -/
theorem CausesFail.of_dropped {tickets tickets' : Tickets DropCause} (h : CausesFail tickets)
    (hdropped : tickets'.dropped = tickets.dropped) : CausesFail tickets' := by
  unfold CausesFail
  rw [hdropped]
  exact h

/-- The queue may be cleared for a cause that is in order. -/
theorem CausesFail.clear {tickets : Tickets DropCause} (h : CausesFail tickets) {cause : DropCause}
    (hcause : ∀ e, cause = .failedProposal e → e.matchesNonceTooLow = false) :
    CausesFail (tickets.clear cause) := by
  intro ticket e hmem
  rcases List.mem_append.mp hmem with hold | hnew
  · exact h ticket e hold
  · obtain ⟨dropped, -, heq⟩ := List.mem_map.mp hnew
    exact hcause e (Prod.mk.inj heq).2

/-- Every event keeps the causes in order. -/
theorem causesFail_step {traced next : TracedProcessor} {event : Event}
    (h : CausesFail traced.tickets) (hstep : traced.step event = some next) :
    CausesFail next.tickets := by
  rcases tickets_step hstep with heq | heq | heq | heq | ⟨-, heq⟩ | heq | heq | ⟨e, hfailed, heq⟩
  all_goals rw [heq]
  · exact h
  · exact h.of_dropped rfl
  · exact h.of_dropped (Tickets.dropped_accept _)
  · exact h.of_dropped rfl
  · exact h.of_dropped (Tickets.dropped_start _)
  · exact h.of_dropped rfl
  · refine h.clear fun e heq => ?_
    cases heq
  · have hfinished : CausesFail traced.tickets.finish := h.of_dropped rfl
    refine hfinished.clear fun other heq => ?_
    cases heq
    exact hfailed

/-- The invariant of a ledger: it is that of the processor and keeps its books. -/
structure Audited (traced : TracedProcessor) : Prop where
  tracks : traced.Tracks
  accounted : traced.tickets.Accounted
  causes : CausesFail traced.tickets

theorem audited_new (maxBlockSize daThrottlingFactor : Nat) :
    (new maxBlockSize daThrottlingFactor).Audited where
  tracks := ⟨rfl, rfl, rfl, rfl⟩
  accounted := Tickets.accounted_new
  causes := fun _ _ hmem => by cases hmem

theorem Audited.step {traced next : TracedProcessor} {event : Event} (h : traced.Audited)
    (hstep : traced.step event = some next) : next.Audited where
  tracks := h.tracks.step h.accounted hstep
  accounted := accounted_step h.accounted h.tracks.pending_eq_none hstep
  causes := causesFail_step h.causes hstep

/-- Every ledger of a run is in order. -/
theorem audited_run {maxBlockSize daThrottlingFactor : Nat} {events : List Event}
    {traced : TracedProcessor}
    (hrun : Transition.run step (new maxBlockSize daThrottlingFactor) events = some traced) :
    traced.Audited :=
  Transition.invariant_run_of_step (fun _ _ _ hinv hstep => hinv.step hstep)
    (audited_new maxBlockSize daThrottlingFactor) hrun

/-- All batches are well-numbered, and those in the queue are apart. -/
structure QueueInOrder (processor : BatchSubmissionProcessor) : Prop where
  numbered : processor.AllWellNumbered
  apart : QueueApart processor

/-- In a run that is sent well-numbered batches, the queued ones stay apart. -/
theorem queueInOrder_run {maxBlockSize daThrottlingFactor : Nat} {events : List Event}
    {processor : BatchSubmissionProcessor} (hevents : ∀ event ∈ events, SendsWellNumbered event)
    (hrun : Transition.run BatchSubmissionProcessor.step
      (.new maxBlockSize daThrottlingFactor) events = some processor) :
    QueueInOrder processor := by
  refine Transition.invariant_run_of_forall (fun before event next hinv hevent hstep => ?_)
    ⟨BatchSubmissionProcessor.allWellNumbered_new _ _, List.Pairwise.nil⟩ hevents hrun
  exact ⟨hinv.numbered.step hevent hstep, queueApart_step hinv.apart hinv.numbered hstep⟩

/-- No accepted batch is lost, duplicated or overtaken. The ledger is that of the processor; the
queued batches are apart; every accepted batch was proposed, is queued or was dropped for a cause,
just once in all; proposals start in the order of acceptance, and all but the last are done. -/
structure FifoWithoutLoss (traced : TracedProcessor) : Prop where
  tracks : traced.Tracks
  apart : QueueApart traced.processor
  once : ∀ ticket ∈ traced.tickets.accepted,
    traced.tickets.started.count ticket + traced.tickets.queue.count ticket +
      (traced.tickets.dropped.map Prod.fst).count ticket = 1
  causes : CausesFail traced.tickets
  inOrder : traced.tickets.accepted.Pairwise (· < ·)
  fifo : (traced.tickets.started ++ traced.tickets.queue).Sublist traced.tickets.accepted
  onePending : traced.tickets.started =
    traced.tickets.finished ++ traced.tickets.pending.toList

/-- In every run that is sent batches with ascending block numbers, no accepted batch is lost,
proposed twice or overtaken. -/
theorem fifo_without_loss (maxBlockSize daThrottlingFactor : Nat) {events : List Event}
    {processor : BatchSubmissionProcessor} (hevents : ∀ event ∈ events, SendsWellNumbered event)
    (hrun : Transition.run BatchSubmissionProcessor.step
      (.new maxBlockSize daThrottlingFactor) events = some processor) :
    ∃ traced, Transition.run step (new maxBlockSize daThrottlingFactor) events = some traced ∧
      traced.processor = processor ∧ traced.FifoWithoutLoss := by
  have herase : Transition.run BatchSubmissionProcessor.step
      (new maxBlockSize daThrottlingFactor).processor events = some processor := hrun
  obtain ⟨traced, htraced, hprocessor⟩ := exists_run herase
  refine ⟨traced, htraced, hprocessor, ?_⟩
  have haudited := audited_run htraced
  exact
    { tracks := haudited.tracks
      apart := hprocessor ▸ (queueInOrder_run hevents hrun).apart
      once := fun _ hticket => haudited.accounted.once hticket
      causes := haudited.causes
      inOrder := (List.pairwise_append.mp haudited.accounted.inOrder).1
      fifo := haudited.accounted.fifo
      onePending := haudited.accounted.onePending }

/-- Blocks 1 to 5 are being proposed, and blocks 6 and 7 are queued behind them. -/
theorem fifo_without_loss_of_next_blocks :
    ∃ traced, Transition.run step (new 1000 10)
        (BatchSubmissionProcessor.submitTwice (BatchSubmissionProcessor.rangeRequest 1 5)
          (BatchSubmissionProcessor.rangeRequest 6 2)) = some traced ∧
      traced.tickets.started = [0] ∧ traced.tickets.queue = [1] ∧ traced.FifoWithoutLoss := by
  have hevents : ∀ event ∈ BatchSubmissionProcessor.submitTwice
      (BatchSubmissionProcessor.rangeRequest 1 5) (BatchSubmissionProcessor.rangeRequest 6 2),
      SendsWellNumbered event :=
    BatchSubmissionProcessor.submitTwice_sendsWellNumbered
      (BatchSubmissionProcessor.sendsWellNumbered_rangeRequest (by decide))
      (BatchSubmissionProcessor.sendsWellNumbered_rangeRequest (by decide))
  obtain ⟨traced, htraced, -, hfifo⟩ := fifo_without_loss 1000 10 hevents rfl
  refine ⟨traced, htraced, ?_, ?_, hfifo⟩
  · cases htraced
    rfl
  · cases htraced
    rfl

end TracedProcessor

end Mk1
