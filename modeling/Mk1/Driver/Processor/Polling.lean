import Mk1.Driver.Config
import Mk1.Driver.Processor.Throttling

/-!
# The loop of `poll`

`poll` repeats its iteration as long as one of them makes progress. Every
iteration that does uses up some of a potential, so the loop ends once nothing
arrives any more (`poll_returns`), and then the processor has nothing left to do
but to wait: its channel is empty, and if no proposal is pending then its queue
is empty too. Every call is a run of the events of the processor (`run_poll`).
-/

namespace Mk1

namespace BatchSubmissionProcessor

/-- What one iteration of `poll` reads: whether the task of the pending proposal is ready with a
result, and the commands that arrive before the channel is found empty. -/
structure PollReads where
  ready : Option BatchResult
  arrived : List BatchSubmissionCmd
  deriving DecidableEq, Repr

/-- Whether a proposal completes when it is polled. -/
def completes (processor : BatchSubmissionProcessor) (ready : Option BatchResult) : Bool :=
  processor.pendingProposal.isSome && ready.isSome

/-- Whether there is a batch to start a proposal with. -/
def canStart (processor : BatchSubmissionProcessor) : Bool :=
  processor.pendingProposal.isNone && !processor.requestQueue.isEmpty

/-- One iteration of the loop, with its `progress` flag. -/
def pollIteration (processor : BatchSubmissionProcessor) (reads : PollReads) :
    Except Panic (BatchSubmissionProcessor × Bool) := do
  let polled ← processor.pollProposal reads.ready
  let cmds := polled.popNext.requestRx ++ reads.arrived
  let received ← { polled.popNext with requestRx := cmds }.receiveAll cmds
  pure (received, processor.completes reads.ready || polled.canStart || !cmds.isEmpty)

/-- `poll`, with what each iteration reads. It returns `Poll::Pending` after an iteration without
progress; `none` is a loop that still goes on. -/
def poll (processor : BatchSubmissionProcessor) :
    List PollReads → Except Panic (Option BatchSubmissionProcessor)
  | [] => pure none
  | reads :: rest => do
      let (next, progress) ← processor.pollIteration reads
      if progress then next.poll rest else pure (some next)

/-- What is left to do: a command can become a queued batch, and a queued batch a pending
proposal. -/
def potential (processor : BatchSubmissionProcessor) : Nat :=
  3 * processor.requestRx.length + 2 * processor.requestQueue.length +
    processor.pendingProposal.toList.length

/-- The commands that arrive during some iterations. -/
def arrivals (reads : List PollReads) : List BatchSubmissionCmd := reads.flatMap PollReads.arrived

/-- The number of iterations that find a result. -/
def readyCount (reads : List PollReads) : Nat := reads.countP fun read => read.ready.isSome

/-- There is nothing to do in a state: an iteration finds no command, a pending proposal is not
ready, and there is no batch to start if none is pending. -/
structure Idle (processor : BatchSubmissionProcessor) (reads : PollReads) : Prop where
  requestRx : processor.requestRx = []
  arrived : reads.arrived = []
  ready : processor.pendingProposal ≠ none → reads.ready = none
  requestQueue : processor.pendingProposal = none → processor.requestQueue = []

variable {processor next : BatchSubmissionProcessor}

/-! ## The potential -/

/-- A command that is handled adds at most one batch to the queue. -/
theorem potential_onCmd {cmd : BatchSubmissionCmd} (h : processor.onCmd cmd = .ok next) :
    next.potential ≤ processor.potential + 2 := by
  cases cmd with
  | submit req =>
      cases h
      unfold handleBatchSubmissionRequest potential
      dsimp only
      split
      · exact Nat.le_add_right _ _
      · dsimp only
        rw [List.length_append, List.length_singleton]
        omega
  | clearQueue =>
      cases h
      unfold potential
      dsimp only [List.length_nil]
      omega
  | getSuggestedMaxSize =>
      obtain ⟨size, -, h⟩ := bind_eq_ok.mp h
      cases h
      exact Nat.le_add_right _ _

/-- Every command that is received uses up some of the potential. -/
theorem potential_receiveAll {cmds : List BatchSubmissionCmd} (hcmds : processor.requestRx = cmds)
    (h : processor.receiveAll cmds = .ok next) :
    next.requestRx = [] ∧ next.potential + cmds.length ≤ processor.potential := by
  induction cmds generalizing processor with
  | nil =>
      cases h
      exact ⟨hcmds, Nat.le_refl _⟩
  | cons cmd rest ih =>
      obtain ⟨received, hreceived, hrest⟩ := bind_eq_ok.mp h
      obtain ⟨hempty, hle⟩ := ih (channels_onCmd hreceived).1 hrest
      have hcmd := potential_onCmd hreceived
      have hlength : processor.requestRx.length = rest.length + 1 := by rw [hcmds]; rfl
      refine ⟨hempty, ?_⟩
      unfold potential at hcmd hle ⊢
      dsimp only at hcmd
      rw [List.length_cons]
      omega

/-- A result that is handled leaves the channel of commands alone, and adds nothing to the
queue. -/
theorem potential_onProposal {result : BatchResult} (h : processor.onProposal result = .ok next) :
    next.requestRx = processor.requestRx ∧ next.potential ≤ processor.potential := by
  unfold onProposal at h
  cases result with
  | ok receipt =>
      obtain rfl := sendResult_eq_ok h
      exact ⟨rfl, Nat.le_refl _⟩
  | error e =>
      dsimp only at h
      split at h
      · cases h
        exact ⟨rfl, Nat.le_refl _⟩
      · obtain rfl := sendResult_eq_ok h
        refine ⟨rfl, ?_⟩
        unfold potential
        dsimp only [List.length_nil]
        omega

/-- A proposal that completes uses up some of the potential. -/
theorem potential_pollProposal {ready : Option BatchResult}
    (h : processor.pollProposal ready = .ok next) :
    next.requestRx = processor.requestRx ∧
      next.potential + (processor.completes ready).toNat ≤ processor.potential := by
  unfold pollProposal at h
  unfold completes
  cases hpending : processor.pendingProposal with
  | none =>
      rw [hpending] at h
      cases h
      exact ⟨rfl, Nat.le_refl _⟩
  | some pending =>
      cases ready with
      | none =>
          rw [hpending] at h
          cases h
          exact ⟨rfl, Nat.le_refl _⟩
      | some result =>
          rw [hpending] at h
          obtain ⟨hrx, hle⟩ := potential_onProposal h
          have hpotential : { processor with pendingProposal := none }.potential + 1 =
              processor.potential := by
            unfold potential
            simp [hpending]
          exact ⟨hrx, (Nat.add_le_add_right hle 1).trans_eq hpotential⟩

/-- A proposal that starts uses up some of the potential. -/
theorem potential_popNext (processor : BatchSubmissionProcessor) :
    processor.popNext.requestRx = processor.requestRx ∧
      processor.popNext.potential + processor.canStart.toNat = processor.potential := by
  unfold popNext startNext canStart
  cases hpending : processor.pendingProposal with
  | some pending => exact ⟨rfl, rfl⟩
  | none =>
      cases hqueue : processor.requestQueue with
      | nil => exact ⟨rfl, rfl⟩
      | cons batch rest =>
          refine ⟨rfl, ?_⟩
          simp [potential, hpending, hqueue]
          omega

/-- An iteration empties the channel, and uses up some of the potential if it makes progress. -/
theorem potential_pollIteration {reads : PollReads} {progress : Bool}
    (h : processor.pollIteration reads = .ok (next, progress)) :
    next.requestRx = [] ∧
      next.potential + progress.toNat ≤ processor.potential + 3 * reads.arrived.length := by
  obtain ⟨polled, hpolled, h⟩ := bind_eq_ok.mp h
  obtain ⟨received, hreceived, h⟩ := bind_eq_ok.mp h
  cases h
  obtain ⟨-, hcompleted⟩ := potential_pollProposal hpolled
  obtain ⟨-, hstarted⟩ := polled.potential_popNext
  obtain ⟨hempty, hall⟩ := potential_receiveAll rfl hreceived
  refine ⟨hempty, ?_⟩
  have hreceived : next.potential + (polled.popNext.requestRx ++ reads.arrived).length ≤
      polled.popNext.potential + 3 * reads.arrived.length := by
    refine hall.trans_eq ?_
    unfold potential
    dsimp only
    rw [List.length_append]
    omega
  -- each of the three kinds of progress has used up at least one
  have hflag : ∀ (completed started : Bool) (cmds : List BatchSubmissionCmd),
      (completed || started || !cmds.isEmpty).toNat ≤
        completed.toNat + started.toNat + cmds.length := by
    intro completed started cmds
    cases completed with
    | true => simp only [Bool.true_or, Bool.toNat_true]; omega
    | false =>
        cases started with
        | true => simp only [Bool.false_or, Bool.true_or, Bool.toNat_true]; omega
        | false =>
            cases cmds with
            | nil => exact Nat.zero_le _
            | cons cmd rest => simp
  have hprogress := hflag (processor.completes reads.ready) polled.canStart
    (polled.popNext.requestRx ++ reads.arrived)
  omega

/-- The loop only goes on for as many iterations as there is potential. -/
theorem length_le_of_poll_none {reads : List PollReads} (h : processor.poll reads = .ok none) :
    reads.length ≤ processor.potential + 3 * (arrivals reads).length := by
  induction reads generalizing processor with
  | nil => exact Nat.zero_le _
  | cons first rest ih =>
      obtain ⟨⟨next, progress⟩, hiteration, h⟩ := bind_eq_ok.mp h
      dsimp only at h
      split at h
      · next hprogress =>
          subst hprogress
          obtain ⟨-, hle⟩ := potential_pollIteration hiteration
          have hrest := ih h
          unfold arrivals at hrest ⊢
          rw [List.flatMap_cons, List.length_append, List.length_cons]
          rw [Bool.toNat_true] at hle
          omega
      · cases h

/-! ## The end of the loop -/

/-- A proposal that does not complete leaves the processor alone. -/
theorem pollProposal_of_not_completes {ready : Option BatchResult}
    (h : processor.completes ready = false) : processor.pollProposal ready = .ok processor := by
  unfold pollProposal
  unfold completes at h
  cases hpending : processor.pendingProposal with
  | none => rfl
  | some pending =>
      cases ready with
      | none => rfl
      | some result =>
          rw [hpending] at h
          cases h

/-- No proposal starts if there is none to start. -/
theorem popNext_of_not_canStart (h : processor.canStart = false) :
    processor.popNext = processor := by
  unfold popNext startNext
  unfold canStart at h
  cases hpending : processor.pendingProposal with
  | some pending => rfl
  | none =>
      cases hqueue : processor.requestQueue with
      | nil => rfl
      | cons batch rest => simp [hpending, hqueue] at h

/-- An iteration without progress changes nothing, because there was nothing to do. -/
theorem idle_of_pollIteration {reads : PollReads}
    (h : processor.pollIteration reads = .ok (next, false)) :
    next = processor ∧ Idle processor reads := by
  obtain ⟨polled, hpolled, h⟩ := bind_eq_ok.mp h
  obtain ⟨received, hreceived, h⟩ := bind_eq_ok.mp h
  obtain ⟨hnext, hflag⟩ := Prod.mk.inj (Except.ok.inj h)
  obtain ⟨hboth, hcmds⟩ := Bool.or_eq_false_iff.mp hflag
  obtain ⟨hcompletes, hstart⟩ := Bool.or_eq_false_iff.mp hboth
  rw [pollProposal_of_not_completes hcompletes] at hpolled
  obtain rfl := Except.ok.inj hpolled
  rw [popNext_of_not_canStart hstart] at hcmds hreceived
  have hnone : processor.requestRx ++ reads.arrived = [] := by simpa using hcmds
  obtain ⟨hrx, harrived⟩ := List.append_eq_nil_iff.mp hnone
  rw [hnone] at hreceived
  obtain rfl := Except.ok.inj hreceived
  refine ⟨?_, hrx, harrived, fun hpending => ?_, fun hpending => ?_⟩
  · rw [← hnext, ← hrx]
  · unfold completes at hcompletes
    rw [Option.isSome_iff_ne_none.mpr hpending, Bool.true_and] at hcompletes
    exact Option.not_isSome_iff_eq_none.mp (by simp [hcompletes])
  · unfold canStart at hstart
    rw [hpending] at hstart
    simpa using hstart

/-! ## Every call is a run -/

/-- The commands that some events send. -/
def sentCmds (events : List Event) : List BatchSubmissionCmd :=
  events.filterMap fun
    | .send cmd => some cmd
    | _ => none

/-- A run that sends some commands. -/
def RunSending (processor next : BatchSubmissionProcessor) (cmds : List BatchSubmissionCmd) :
    Prop :=
  ∃ events, Transition.run step processor events = some next ∧ sentCmds events = cmds

/-- A run of no events. -/
theorem RunSending.refl (processor : BatchSubmissionProcessor) :
    RunSending processor processor [] := ⟨[], rfl, rfl⟩

/-- One run after the other. -/
theorem RunSending.trans {middle : BatchSubmissionProcessor} {left right : List BatchSubmissionCmd}
    (hleft : RunSending processor middle left) (hright : RunSending middle next right) :
    RunSending processor next (left ++ right) := by
  obtain ⟨first, hfirst, rfl⟩ := hleft
  obtain ⟨second, hsecond, rfl⟩ := hright
  exact ⟨first ++ second, Transition.run_append.mpr ⟨middle, hfirst, hsecond⟩,
    List.filterMap_append⟩

/-- One event. -/
theorem RunSending.of_step {event : Event} (h : processor.step event = some next) :
    RunSending processor next (sentCmds [event]) :=
  ⟨[event], Transition.run_cons.mpr ⟨next, h, rfl⟩, rfl⟩

/-- Handling a command does not look at the channel. -/
theorem onCmd_setRequestRx {cmd : BatchSubmissionCmd} (h : processor.onCmd cmd = .ok next)
    (requestRx : List BatchSubmissionCmd) :
    { processor with requestRx := requestRx }.onCmd cmd =
      .ok { next with requestRx := requestRx } := by
  cases cmd with
  | submit req =>
      cases h
      simp only [onCmd, handleBatchSubmissionRequest]
      split
      · rfl
      · rfl
  | clearQueue =>
      cases h
      rfl
  | getSuggestedMaxSize =>
      obtain ⟨size, hsize, h⟩ := bind_eq_ok.mp h
      cases h
      exact bind_eq_ok.mpr ⟨size, hsize, rfl⟩

/-- A relation that follows the processor while some commands are sent: it composes, and sending and
receiving belong to it. -/
structure Follows (reach : BatchSubmissionProcessor → BatchSubmissionProcessor →
    List BatchSubmissionCmd → Prop) : Prop where
  refl : ∀ processor, reach processor processor []
  trans : ∀ {processor middle next left right}, reach processor middle left →
    reach middle next right → reach processor next (left ++ right)
  send : ∀ {processor next cmd}, step processor (.send cmd) = some next →
    reach processor next [cmd]
  receive : ∀ {processor next}, step processor .receive = some next → reach processor next []

section

variable {reach : BatchSubmissionProcessor → BatchSubmissionProcessor →
  List BatchSubmissionCmd → Prop}

/-- Commands that arrive at an empty channel are sent and received one after the other. -/
theorem Follows.receiveAll_arrived (hreach : Follows reach) {arrived : List BatchSubmissionCmd}
    (hempty : processor.requestRx = [])
    (h : { processor with requestRx := arrived }.receiveAll arrived = .ok next) :
    reach processor next arrived := by
  induction arrived generalizing processor with
  | nil =>
      obtain rfl := Except.ok.inj h
      have heq : { processor with requestRx := [] } = processor := by rw [← hempty]
      rw [heq]
      exact hreach.refl processor
  | cons cmd rest ih =>
      obtain ⟨received, hreceived, h⟩ := bind_eq_ok.mp h
      have hsend : processor.step (.send cmd) = some { processor with requestRx := [cmd] } := by
        refine step_send.mpr ⟨?_, ?_⟩
        · rw [hempty]
          exact Nat.zero_lt_succ _
        · rw [hempty]
          rfl
      have hreceive : { processor with requestRx := [cmd] }.step .receive =
          some { received with requestRx := [] } :=
        step_receive.mpr ⟨cmd, [], rfl, onCmd_setRequestRx hreceived []⟩
      have hrx : received.requestRx = rest := (channels_onCmd hreceived).1
      have hrest : reach { received with requestRx := [] } next rest := by
        refine ih rfl ?_
        rw [← hrx] at h ⊢
        exact h
      exact hreach.trans (hreach.send hsend) (hreach.trans (hreach.receive hreceive) hrest)

/-- The commands in the channel are received first, and then those that arrive. -/
theorem Follows.receiveAll (hreach : Follows reach) {cmds arrived : List BatchSubmissionCmd}
    (hcmds : processor.requestRx = cmds)
    (h : { processor with requestRx := cmds ++ arrived }.receiveAll (cmds ++ arrived) = .ok next) :
    reach processor next arrived := by
  induction cmds generalizing processor with
  | nil => exact hreach.receiveAll_arrived hcmds h
  | cons cmd rest ih =>
      obtain ⟨received, hreceived, h⟩ := bind_eq_ok.mp h
      have hreceive : processor.step .receive = some { received with requestRx := rest } :=
        step_receive.mpr ⟨cmd, rest, hcmds, onCmd_setRequestRx hreceived rest⟩
      have hrx : received.requestRx = rest ++ arrived := (channels_onCmd hreceived).1
      have hrest : reach { received with requestRx := rest } next arrived := by
        refine ih rfl ?_
        change received.receiveAll (rest ++ arrived) = _ at h
        rw [← hrx] at h ⊢
        exact h
      exact hreach.trans (hreach.receive hreceive) hrest

end

/-- The runs of the processor follow it. -/
theorem follows_runSending : Follows RunSending where
  refl := .refl
  trans := .trans
  send := .of_step
  receive := .of_step

/-- Polling the proposal is at most one event. -/
theorem run_pollProposal {ready : Option BatchResult}
    (h : processor.pollProposal ready = .ok next) : RunSending processor next [] := by
  unfold pollProposal at h
  split at h
  · next pending result hpending =>
      have hsome : processor.pendingProposal ≠ none := by simp [hpending]
      exact RunSending.of_step (step_complete.mpr ⟨hsome, h⟩)
  · cases h
    exact .refl processor

/-- Starting the next proposal is at most one event. -/
theorem run_popNext (processor : BatchSubmissionProcessor) :
    RunSending processor processor.popNext [] := by
  unfold popNext
  cases hpending : processor.pendingProposal with
  | none => exact RunSending.of_step (step_startNext.mpr ⟨hpending, rfl⟩)
  | some pending => exact .refl processor

/-- An iteration is a run that sends what arrives. -/
theorem run_pollIteration {reads : PollReads} {progress : Bool}
    (h : processor.pollIteration reads = .ok (next, progress)) :
    RunSending processor next reads.arrived := by
  obtain ⟨polled, hpolled, h⟩ := bind_eq_ok.mp h
  obtain ⟨received, hreceived, h⟩ := bind_eq_ok.mp h
  cases h
  exact (run_pollProposal hpolled).trans
    ((run_popNext polled).trans (follows_runSending.receiveAll rfl hreceived))

/-- A call of `poll` is a run of events of the processor, which sends what arrives during the
iterations up to the last one, the one that makes no progress. -/
theorem run_poll {reads : List PollReads} (h : processor.poll reads = .ok (some next)) :
    ∃ front last back, reads = front ++ last :: back ∧ Idle next last ∧
      RunSending processor next (arrivals front) := by
  induction reads generalizing processor with
  | nil => cases h
  | cons first rest ih =>
      obtain ⟨⟨following, progress⟩, hiteration, h⟩ := bind_eq_ok.mp h
      dsimp only at h
      split at h
      · obtain ⟨front, last, back, rfl, hidle, hrun⟩ := ih h
        exact ⟨first :: front, last, back, rfl, hidle, (run_pollIteration hiteration).trans hrun⟩
      · next hprogress =>
          obtain rfl := Option.some.inj (Except.ok.inj h)
          rw [Bool.not_eq_true] at hprogress
          subst hprogress
          obtain ⟨rfl, hidle⟩ := idle_of_pollIteration hiteration
          exact ⟨[], first, rest, rfl, hidle, .refl following⟩

/-! ## The loop does not panic -/

/-- The throttling factor divides, and this many results fit into their channel. -/
structure HasRoom (processor : BatchSubmissionProcessor) (results : Nat) : Prop where
  factor : processor.daThrottlingFactor ≠ 0
  room : processor.resultTx.length + results ≤ MAX_BUFFERED_BATCHES

/-- A command can be handled, and leaves the room for results alone. -/
theorem HasRoom.onCmd {results : Nat} (h : HasRoom processor results) (cmd : BatchSubmissionCmd) :
    ∃ next, processor.onCmd cmd = .ok next ∧ HasRoom next results := by
  cases cmd with
  | submit req =>
      refine ⟨_, rfl, ?_⟩
      unfold handleBatchSubmissionRequest
      dsimp only
      split
      · exact h
      · exact ⟨h.factor, h.room⟩
  | clearQueue => exact ⟨_, rfl, h.factor, h.room⟩
  | getSuggestedMaxSize =>
      obtain ⟨size, hsize⟩ : ∃ size, processor.calcMaxNextBlockSize = .ok size :=
        ⟨_, calcMaxNextBlockSize_eq h.factor⟩
      refine ⟨{ processor with suggestedSizes := processor.suggestedSizes ++ [size] }, ?_,
        h.factor, h.room⟩
      unfold BatchSubmissionProcessor.onCmd
      rw [hsize]
      rfl

/-- All commands can be handled. -/
theorem HasRoom.receiveAll {results : Nat} (h : HasRoom processor results)
    (cmds : List BatchSubmissionCmd) :
    ∃ next, processor.receiveAll cmds = .ok next ∧ HasRoom next results := by
  induction cmds generalizing processor with
  | nil => exact ⟨processor, rfl, h⟩
  | cons cmd rest ih =>
      have hrest : HasRoom { processor with requestRx := rest } results := ⟨h.factor, h.room⟩
      obtain ⟨received, hreceived, hroom⟩ := hrest.onCmd cmd
      obtain ⟨next, hnext, hroom⟩ := ih hroom
      exact ⟨next, bind_eq_ok.mpr ⟨received, hreceived, hnext⟩, hroom⟩

/-- A result can be sent, which takes up its room. -/
theorem HasRoom.sendResult {results : Nat} (h : HasRoom processor (results + 1))
    (result : BatchResult) (message : String) :
    ∃ next, processor.sendResult result message = .ok next ∧ HasRoom next results := by
  have hroom := h.room
  refine ⟨{ processor with resultTx := processor.resultTx ++ [result] }, ?_, h.factor, ?_⟩
  · unfold BatchSubmissionProcessor.sendResult
    rw [if_pos (by omega)]
    rfl
  · dsimp only
    rw [List.length_append, List.length_singleton]
    omega

/-- A proposal can be polled, and takes up room for its result if it is ready. -/
theorem HasRoom.pollProposal {results : Nat} (ready : Option BatchResult)
    (h : HasRoom processor (results + ready.isSome.toNat)) :
    ∃ next, processor.pollProposal ready = .ok next ∧ HasRoom next results := by
  have hless : HasRoom processor results :=
    ⟨h.factor, (Nat.add_le_add_left (Nat.le_add_right _ _) _).trans h.room⟩
  unfold BatchSubmissionProcessor.pollProposal
  split
  · next pending result hpending =>
      unfold complete onProposal
      have hcleared : HasRoom { processor with pendingProposal := none } (results + 1) :=
        ⟨h.factor, h.room⟩
      cases result with
      | ok receipt => exact hcleared.sendResult _ _
      | error e =>
          dsimp only
          split
          · exact ⟨_, rfl, hless.factor, hless.room⟩
          · have hempty : HasRoom
                { processor with pendingProposal := none, requestQueue := [] } (results + 1) :=
              ⟨h.factor, h.room⟩
            exact hempty.sendResult _ _
  · exact ⟨processor, rfl, hless⟩

/-- Starting a proposal leaves the room for results alone. -/
theorem HasRoom.popNext {results : Nat} (h : HasRoom processor results) :
    HasRoom processor.popNext results := by
  unfold BatchSubmissionProcessor.popNext startNext
  split
  · split
    · exact h
    · exact ⟨h.factor, h.room⟩
  · exact h

/-- An iteration does not panic if the result that it may find has room. -/
theorem HasRoom.pollIteration {results : Nat} (reads : PollReads)
    (h : HasRoom processor (results + reads.ready.isSome.toNat)) :
    ∃ next progress, processor.pollIteration reads = .ok (next, progress) ∧
      HasRoom next results := by
  obtain ⟨polled, hpolled, hroom⟩ := HasRoom.pollProposal reads.ready h
  have hstarted : HasRoom { polled.popNext with
      requestRx := polled.popNext.requestRx ++ reads.arrived } results :=
    ⟨hroom.popNext.factor, hroom.popNext.room⟩
  obtain ⟨received, hreceived, hroom⟩ :=
    hstarted.receiveAll (polled.popNext.requestRx ++ reads.arrived)
  exact ⟨received, _, bind_eq_ok.mpr ⟨polled, hpolled,
    bind_eq_ok.mpr ⟨received, hreceived, rfl⟩⟩, hroom⟩

/-- The loop does not panic if the results of all its iterations have room. -/
theorem HasRoom.poll (reads : List PollReads) (h : HasRoom processor (readyCount reads)) :
    ∃ next, processor.poll reads = .ok next := by
  induction reads generalizing processor with
  | nil => exact ⟨none, rfl⟩
  | cons first rest ih =>
      have hcount : readyCount (first :: rest) = readyCount rest + first.ready.isSome.toNat := by
        unfold readyCount
        rw [List.countP_cons]
        cases first.ready <;> rfl
      obtain ⟨following, progress, hiteration, hroom⟩ :=
        HasRoom.pollIteration first (hcount ▸ h)
      cases progress with
      | true =>
          obtain ⟨next, hnext⟩ := ih hroom
          exact ⟨next, bind_eq_ok.mpr ⟨_, hiteration, hnext⟩⟩
      | false => exact ⟨some following, bind_eq_ok.mpr ⟨_, hiteration, rfl⟩⟩

/-- If the throttling factor is positive and there is room for the results, a call of `poll` does
not panic and returns, at the latest when its iterations outnumber what there was to do at first and
what has arrived since. Then there is nothing left to do, and the call was a run of events that sent
what arrived during its iterations. -/
theorem poll_returns {reads : List PollReads} (hroom : HasRoom processor (readyCount reads))
    (hlong : processor.potential + 3 * (arrivals reads).length < reads.length) :
    ∃ next front last back, processor.poll reads = .ok (some next) ∧
      reads = front ++ last :: back ∧ Idle next last ∧
      RunSending processor next (arrivals front) := by
  obtain ⟨result, hresult⟩ := HasRoom.poll reads hroom
  cases result with
  | none =>
      have hle := length_le_of_poll_none hresult
      omega
  | some next =>
      obtain ⟨front, last, back, hsplit, hidle, hrun⟩ := run_poll hresult
      exact ⟨next, front, last, back, hresult, hsplit, hidle, hrun⟩

/-- A processor with a queued batch is polled: a proposal starts, another batch arrives, the
proposal fails and drops it, and then nothing is left to do. -/
theorem poll_returns_after_failure :
    let batch : Batch := .new (l1Header 100) (defaultConfig 1).batchSettings
    let processor : BatchSubmissionProcessor :=
      { BatchSubmissionProcessor.new 1000 10 with requestQueue := [(batch, 7)] }
    let reads : List PollReads :=
      [⟨none, [.submit ⟨batch, 8⟩]⟩, ⟨some (.error (.reverted 0)), []⟩] ++
        List.replicate 6 ⟨none, []⟩
    ∃ next front last back, processor.poll reads = .ok (some next) ∧
      reads = front ++ last :: back ∧ Idle next last ∧
      RunSending processor next (arrivals front) :=
  poll_returns ⟨by decide, by decide⟩ (by decide)

end BatchSubmissionProcessor

end Mk1
