import Mk1.Driver.Processor.Ledger
import Mk1.Driver.Processor.Polling

/-!
# The places of `poll`

An iteration of `poll` comes to its three kinds of progress in a fixed order: it
polls the pending proposal, it pops the queue, and it receives commands until the
channel is empty. `PolledProcessor` is the processor at one of these places, with
other tasks sending commands and reading results in between. Its runs are runs of
the processor (`run_erase`), and every call of `poll` is one of them (`run_poll`).
-/

namespace Mk1

open BatchSubmissionProcessor (Event PollReads)

/-- A place in an iteration of `poll`: before the pending proposal is polled, before the queue is
popped, and in the loop that receives commands. -/
inductive PollPlace where
  | proposal
  | queue
  | commands
  deriving DecidableEq, Repr

/-- What happens to a processor that is being polled: another task sends a command or reads a
result, or `poll` goes on. It leaves the loop that receives commands only if there is none. -/
inductive PollEvent where
  | send (cmd : BatchSubmissionCmd)
  | readResult
  | pollProposal (ready : Option BatchResult)
  | popNext
  | receive
  | drained
  deriving DecidableEq, Repr

/-- The processor with its ledger, at a place of `poll`. -/
structure PolledProcessor where
  traced : TracedProcessor
  place : PollPlace

namespace PolledProcessor

/-- A new processor, before it is polled. -/
def new (maxBlockSize daThrottlingFactor : Nat) : PolledProcessor :=
  { traced := .new maxBlockSize daThrottlingFactor, place := .proposal }

/-- An event of the processor, after which `poll` is at a place. -/
def goOn (polled : PolledProcessor) (event : Event) (place : PollPlace) : Option PolledProcessor :=
  (polled.traced.step event).map fun traced => { traced := traced, place := place }

/-- Polling the proposal: it completes if it is ready. -/
def stepProposal (polled : PolledProcessor) (ready : Option BatchResult) :
    Option PolledProcessor :=
  match polled.traced.processor.pendingProposal, ready with
  | some _, some result => polled.goOn (.complete result) .queue
  | _, _ => some { polled with place := .queue }

/-- Popping the queue: the next proposal starts if none is pending. -/
def stepQueue (polled : PolledProcessor) : Option PolledProcessor :=
  match polled.traced.processor.pendingProposal with
  | none => polled.goOn .startNext .commands
  | some _ => some { polled with place := .commands }

/-- One event. After the last command, `poll` begins its next iteration, or it returns and begins
one when it is called again. -/
def step (polled : PolledProcessor) : PollEvent → Option PolledProcessor
  | .send cmd => polled.goOn (.send cmd) polled.place
  | .readResult => polled.goOn .readResult polled.place
  | .pollProposal ready => if polled.place = .proposal then polled.stepProposal ready else none
  | .popNext => if polled.place = .queue then polled.stepQueue else none
  | .receive => if polled.place = .commands then polled.goOn .receive .commands else none
  | .drained =>
      if polled.place = .commands ∧ polled.traced.processor.requestRx = [] then
        some { polled with place := .proposal }
      else none

variable {polled next final : PolledProcessor}

/-! ## What an event does -/

theorem goOn_eq_some {event : Event} {place : PollPlace} :
    polled.goOn event place = some next ↔
      polled.traced.step event = some next.traced ∧ next.place = place := by
  unfold goOn
  rw [Option.map_eq_some_iff]
  constructor
  · rintro ⟨traced, hstep, rfl⟩
    exact ⟨hstep, rfl⟩
  · rintro ⟨hstep, rfl⟩
    exact ⟨next.traced, hstep, rfl⟩

theorem step_pollProposal {ready : Option BatchResult} :
    polled.step (.pollProposal ready) = some next ↔
      polled.place = .proposal ∧ polled.stepProposal ready = some next :=
  Option.ite_none_right_eq_some

theorem step_popNext : polled.step .popNext = some next ↔
    polled.place = .queue ∧ polled.stepQueue = some next :=
  Option.ite_none_right_eq_some

theorem step_receive : polled.step .receive = some next ↔
    polled.place = .commands ∧ polled.traced.step .receive = some next.traced ∧
      next.place = .commands := by
  rw [← goOn_eq_some]
  exact Option.ite_none_right_eq_some

theorem step_drained : polled.step .drained = some next ↔
    (polled.place = .commands ∧ polled.traced.processor.requestRx = []) ∧
      { polled with place := .proposal } = next :=
  Option.ite_none_right_eq_some.trans (and_congr_right fun _ => Option.some_inj)

/-- A pending proposal that is ready completes. -/
theorem stepProposal_of_ready (polled : PolledProcessor) {result : BatchResult}
    (hpending : polled.traced.processor.pendingProposal ≠ none) :
    polled.stepProposal (some result) = polled.goOn (.complete result) .queue := by
  obtain ⟨pending, hsome⟩ := Option.ne_none_iff_exists'.mp hpending
  unfold stepProposal
  rw [hsome]

/-- The next proposal starts if none is pending. -/
theorem stepQueue_of_none (polled : PolledProcessor)
    (hpending : polled.traced.processor.pendingProposal = none) :
    polled.stepQueue = polled.goOn .startNext .commands := by
  unfold stepQueue
  rw [hpending]

/-- An event is one of the processor, or none. -/
theorem erase_step {event : PollEvent} (h : polled.step event = some next) :
    next.traced = polled.traced ∨ ∃ e, polled.traced.step e = some next.traced := by
  cases event with
  | send cmd => exact .inr ⟨_, (goOn_eq_some.mp h).1⟩
  | readResult => exact .inr ⟨_, (goOn_eq_some.mp h).1⟩
  | pollProposal ready =>
      obtain ⟨-, hproposal⟩ := step_pollProposal.mp h
      unfold stepProposal at hproposal
      split at hproposal
      · exact .inr ⟨_, (goOn_eq_some.mp hproposal).1⟩
      · cases hproposal
        exact .inl rfl
  | popNext =>
      obtain ⟨-, hqueue⟩ := step_popNext.mp h
      unfold stepQueue at hqueue
      split at hqueue
      · exact .inr ⟨_, (goOn_eq_some.mp hqueue).1⟩
      · cases hqueue
        exact .inl rfl
  | receive => exact .inr ⟨_, (step_receive.mp h).2.1⟩
  | drained =>
      obtain ⟨-, rfl⟩ := step_drained.mp h
      exact .inl rfl

/-- A run is one of the processor with its ledger. -/
theorem run_erase {events : List PollEvent} (h : Transition.run step polled events = some final) :
    ∃ erased, Transition.run TracedProcessor.step polled.traced erased = some final.traced := by
  induction events generalizing polled with
  | nil =>
      cases h
      exact ⟨[], rfl⟩
  | cons event rest ih =>
      obtain ⟨next, hnext, hrest⟩ := Transition.run_cons.mp h
      obtain ⟨erased, herased⟩ := ih hrest
      obtain heq | ⟨e, he⟩ := erase_step hnext
      · exact ⟨erased, heq ▸ herased⟩
      · exact ⟨e :: erased, Transition.run_cons.mpr ⟨next.traced, he, herased⟩⟩

/-- A run keeps a ledger in order. -/
theorem audited_of_run {events : List PollEvent} (haudited : polled.traced.Audited)
    (h : Transition.run step polled events = some final) : final.traced.Audited := by
  obtain ⟨erased, herased⟩ := run_erase h
  exact Transition.invariant_run_of_step (fun _ _ _ hinv hstep => hinv.step hstep) haudited herased

/-- Every ledger of a run is in order. -/
theorem audited_run {maxBlockSize daThrottlingFactor : Nat} {events : List PollEvent}
    (h : Transition.run step (new maxBlockSize daThrottlingFactor) events = some final) :
    final.traced.Audited :=
  audited_of_run (TracedProcessor.audited_new maxBlockSize daThrottlingFactor) h

/-! ## Every call of `poll` is a run -/

/-- The commands that are sent during some events. -/
def sentCmds (events : List PollEvent) : List BatchSubmissionCmd :=
  events.filterMap fun
    | .send cmd => some cmd
    | _ => none

/-- From each ledger of a processor at a place, a run that sends some commands leads to another
processor at another place. -/
def Reaches (processor : BatchSubmissionProcessor) (place : PollPlace)
    (next : BatchSubmissionProcessor) (nextPlace : PollPlace) (cmds : List BatchSubmissionCmd) :
    Prop :=
  ∀ tickets requests, ∃ events final,
    Transition.run step ⟨⟨processor, tickets, requests⟩, place⟩ events = some final ∧
      final.traced.processor = next ∧ final.place = nextPlace ∧ sentCmds events = cmds

section

variable {processor middle after : BatchSubmissionProcessor} {place middlePlace : PollPlace}
  {cmds arrived : List BatchSubmissionCmd}

theorem Reaches.refl (processor : BatchSubmissionProcessor) (place : PollPlace) :
    Reaches processor place processor place [] :=
  fun _ _ => ⟨[], _, rfl, rfl, rfl, rfl⟩

theorem Reaches.trans {afterPlace : PollPlace}
    (hleft : Reaches processor place middle middlePlace cmds)
    (hright : Reaches middle middlePlace after afterPlace arrived) :
    Reaches processor place after afterPlace (cmds ++ arrived) := by
  intro tickets requests
  obtain ⟨first, reached, hfirst, rfl, rfl, rfl⟩ := hleft tickets requests
  obtain ⟨second, final, hsecond, hprocessor, hplace, rfl⟩ :=
    hright reached.traced.tickets reached.traced.requests
  exact ⟨first ++ second, final, Transition.run_append.mpr ⟨reached, hfirst, hsecond⟩, hprocessor,
    hplace, List.filterMap_append⟩

/-- An event of the processor that an event of `poll` stands for. -/
theorem Reaches.of_step {event : Event} (pollEvent : PollEvent)
    (hstep : processor.step event = some after)
    (hgoOn : ∀ tickets requests,
      step ⟨⟨processor, tickets, requests⟩, place⟩ pollEvent =
        goOn ⟨⟨processor, tickets, requests⟩, place⟩ event middlePlace) :
    Reaches processor place after middlePlace (sentCmds [pollEvent]) := by
  intro tickets requests
  let traced : TracedProcessor := ⟨processor, tickets, requests⟩
  let noted : TracedProcessor := ⟨after, traced.note event, traced.noteRequest event⟩
  have hnoted : traced.step event = some noted :=
    TracedProcessor.step_eq_some.mpr ⟨hstep, rfl, rfl⟩
  refine ⟨[pollEvent], ⟨noted, middlePlace⟩, Transition.run_cons.mpr ⟨_, ?_, rfl⟩, rfl, rfl, rfl⟩
  exact (hgoOn tickets requests).trans (goOn_eq_some.mpr ⟨hnoted, rfl⟩)

/-- The loop that receives commands follows the processor. -/
theorem follows_reaches :
    BatchSubmissionProcessor.Follows (Reaches · .commands · .commands) where
  refl processor := .refl processor .commands
  trans := .trans
  send hstep := .of_step (.send _) hstep fun _ _ => rfl
  receive hstep := .of_step .receive hstep fun _ _ => rfl

/-- The pending proposal is polled. -/
theorem reaches_pollProposal {ready : Option BatchResult}
    (h : processor.pollProposal ready = .ok after) :
    Reaches processor .proposal after .queue [] := by
  -- a proposal that is not ready is left alone
  have hidle (hsame : ∀ tickets requests,
      stepProposal ⟨⟨processor, tickets, requests⟩, .proposal⟩ ready =
        some ⟨⟨processor, tickets, requests⟩, .queue⟩) :
      Reaches processor .proposal processor .queue [] := fun tickets requests =>
    ⟨[.pollProposal ready], _, Transition.run_cons.mpr
      ⟨_, step_pollProposal.mpr ⟨rfl, hsame tickets requests⟩, rfl⟩, rfl, rfl, rfl⟩
  unfold BatchSubmissionProcessor.pollProposal at h
  cases hpending : processor.pendingProposal with
  | none =>
      rw [hpending] at h
      cases h
      refine hidle fun _ _ => ?_
      unfold stepProposal
      rw [hpending]
  | some pending =>
      cases ready with
      | none =>
          rw [hpending] at h
          cases h
          refine hidle fun _ _ => ?_
          unfold stepProposal
          rw [hpending]
      | some result =>
          rw [hpending] at h
          have hsome : processor.pendingProposal ≠ none := by simp [hpending]
          refine .of_step (.pollProposal (some result))
            (BatchSubmissionProcessor.step_complete.mpr ⟨hsome, h⟩) fun tickets requests => ?_
          exact stepProposal_of_ready ⟨⟨processor, tickets, requests⟩, .proposal⟩ hsome

/-- The queue is popped. -/
theorem reaches_popNext (processor : BatchSubmissionProcessor) :
    Reaches processor .queue processor.popNext .commands [] := by
  unfold BatchSubmissionProcessor.popNext
  cases hpending : processor.pendingProposal with
  | none =>
      refine .of_step .popNext
        (BatchSubmissionProcessor.step_startNext.mpr ⟨hpending, rfl⟩) fun tickets requests => ?_
      exact stepQueue_of_none ⟨⟨processor, tickets, requests⟩, .queue⟩ hpending
  | some pending =>
      intro tickets requests
      have hsame : stepQueue ⟨⟨processor, tickets, requests⟩, .queue⟩ =
          some ⟨⟨processor, tickets, requests⟩, .commands⟩ := by
        unfold stepQueue
        rw [hpending]
      exact ⟨[.popNext], _, Transition.run_cons.mpr
        ⟨_, step_popNext.mpr ⟨rfl, hsame⟩, rfl⟩, rfl, rfl, rfl⟩

/-- The loop that receives commands ends with an empty channel. -/
theorem reaches_drained (hempty : processor.requestRx = []) :
    Reaches processor .commands processor .proposal [] :=
  fun _ _ => ⟨[.drained], _, Transition.run_cons.mpr
    ⟨_, step_drained.mpr ⟨⟨rfl, hempty⟩, rfl⟩, rfl⟩, rfl, rfl, rfl⟩

/-- An iteration goes once through the places, and sends what arrives. -/
theorem run_pollIteration {reads : PollReads} {progress : Bool}
    (h : processor.pollIteration reads = .ok (after, progress)) :
    Reaches processor .proposal after .proposal reads.arrived := by
  have hempty := (BatchSubmissionProcessor.potential_pollIteration h).1
  obtain ⟨polled, hpolled, h⟩ := bind_eq_ok.mp h
  obtain ⟨received, hreceived, h⟩ := bind_eq_ok.mp h
  cases h
  have hdrained := (follows_reaches.receiveAll rfl hreceived).trans (reaches_drained hempty)
  rw [List.append_nil] at hdrained
  exact (reaches_pollProposal hpolled).trans ((reaches_popNext polled).trans hdrained)

/-- A call of `poll` goes through the places until it finds nothing to do. -/
theorem run_poll {reads : List PollReads} (h : processor.poll reads = .ok (some after)) :
    ∃ front last back, reads = front ++ last :: back ∧
      BatchSubmissionProcessor.Idle after last ∧
      Reaches processor .proposal after .proposal (BatchSubmissionProcessor.arrivals front) := by
  induction reads generalizing processor with
  | nil => cases h
  | cons first rest ih =>
      obtain ⟨⟨following, progress⟩, hiteration, h⟩ := bind_eq_ok.mp h
      dsimp only at h
      split at h
      · obtain ⟨front, last, back, rfl, hidle, hrun⟩ := ih h
        exact ⟨first :: front, last, back, rfl, hidle, (run_pollIteration hiteration).trans hrun⟩
      · next hprogress =>
          obtain rfl := Option.some.inj (Except.ok.inj h)
          rw [Bool.not_eq_true] at hprogress
          subst hprogress
          obtain ⟨rfl, hidle⟩ := BatchSubmissionProcessor.idle_of_pollIteration hiteration
          exact ⟨[], first, rest, rfl, hidle, .refl following .proposal⟩

end

end PolledProcessor

end Mk1
