import Mk1.Driver.Sequencer

/-!
# Room in the channels of the batch submitter

Commands and results wait in two channels of fixed capacity, and a failed attempt to
send to them panics. `sends_fit_of_room` says that no attempt fails in an interleaving of
the driver and the processor if every step of the driver finds room for the commands
that it sends, and for the results of the batches among them. Without room for the
commands the channel overflows if the processor is not polled meanwhile
(`commands_overflow`), and without room for the results if the driver does not read
(`results_overflow`).
-/

namespace Mk1

/-- A command submits a batch or none. -/
theorem TracedProcessor.length_submitted_cons (cmd : BatchSubmissionCmd)
    (rest : List BatchSubmissionCmd) :
    ((cmd :: rest).filterMap submitted).length =
      (submitted cmd).toList.length + (rest.filterMap submitted).length := by
  cases cmd with
  | submit req => exact Nat.add_comm _ _
  | clearQueue => exact (Nat.zero_add _).symm
  | getSuggestedMaxSize => exact (Nat.zero_add _).symm

namespace BatchSubmissionProcessor

variable {processor next : BatchSubmissionProcessor}

/-- The batches that were sent to the processor and whose results have not been read: those in the
channel of the commands, queued, pending, and proposed. -/
def unfinished (processor : BatchSubmissionProcessor) : Nat :=
  processor.resultTx.length + processor.inFlight.length +
    (processor.requestRx.filterMap TracedProcessor.submitted).length

/-- The batches counted one kind after the other. -/
theorem unfinished_eq (processor : BatchSubmissionProcessor) :
    processor.unfinished = processor.resultTx.length + processor.pendingProposal.toList.length +
      processor.requestQueue.length +
        (processor.requestRx.filterMap TracedProcessor.submitted).length := by
  unfold unfinished inFlight
  rw [List.length_map, List.length_append, Nat.add_assoc _ _ processor.requestQueue.length]

/-- A result is sent if there is room. -/
theorem sendResult_ok_iff {result : BatchResult} {message : String} :
    (∃ next, processor.sendResult result message = .ok next) ↔
      processor.resultTx.length < MAX_BUFFERED_BATCHES := by
  unfold sendResult
  split
  · next hroom => exact ⟨fun _ => hroom, fun _ => ⟨_, rfl⟩⟩
  · next hfull =>
      refine ⟨fun h => ?_, fun hroom => absurd hroom hfull⟩
      obtain ⟨next, hnext⟩ := h
      cases hnext

/-- A command is sent if there is room. -/
theorem send_ok_iff {cmd : BatchSubmissionCmd} {message : String} :
    (∃ next, processor.send cmd message = .ok next) ↔
      processor.requestRx.length < MAX_BUFFERED_BATCHES := by
  unfold send
  split
  · next hroom => exact ⟨fun _ => hroom, fun _ => ⟨_, rfl⟩⟩
  · next hfull =>
      refine ⟨fun h => ?_, fun hroom => absurd hroom hfull⟩
      obtain ⟨next, hnext⟩ := h
      cases hnext

/-- Every result can be handled if there is room for it. -/
theorem complete_ok_of_room (h : processor.resultTx.length < MAX_BUFFERED_BATCHES)
    (result : BatchResult) : ∃ next, processor.complete result = .ok next := by
  unfold complete onProposal
  cases result with
  | ok receipt => exact sendResult_ok_iff.mpr h
  | error e =>
      dsimp only
      split
      · exact ⟨_, rfl⟩
      · exact sendResult_ok_iff.mpr h

/-- The result of a proposal makes room for itself. -/
theorem unfinished_complete {result : BatchResult} (hpending : processor.pendingProposal ≠ none)
    (h : processor.complete result = .ok next) :
    next.requestRx = processor.requestRx ∧ next.unfinished ≤ processor.unfinished := by
  obtain ⟨pending, hsome⟩ := Option.ne_none_iff_exists'.mp hpending
  unfold complete onProposal at h
  rw [unfinished_eq, unfinished_eq, hsome, Option.toList_some, List.length_singleton]
  cases result with
  | ok receipt =>
      rw [sendResult_eq_ok h]
      refine ⟨rfl, ?_⟩
      rw [List.length_append, List.length_singleton]
      exact Nat.le_refl _
  | error e =>
      dsimp only at h
      split at h
      · cases h
        refine ⟨rfl, ?_⟩
        dsimp only [Option.toList_none, List.length_nil]
        omega
      · rw [sendResult_eq_ok h]
        refine ⟨rfl, ?_⟩
        rw [List.length_append, List.length_singleton]
        dsimp only [Option.toList_none, List.length_nil]
        omega

/-- A command that is received makes room for its batch. -/
theorem unfinished_onCmd {cmd : BatchSubmissionCmd} {rest : List BatchSubmissionCmd}
    (hrequests : processor.requestRx = cmd :: rest)
    (h : { processor with requestRx := rest }.onCmd cmd = .ok next) :
    next.requestRx = rest ∧ next.unfinished ≤ processor.unfinished := by
  obtain ⟨hrest, hresults⟩ := channels_onCmd h
  obtain ⟨hpending, hqueue⟩ := TracedProcessor.onCmd_eq h
  refine ⟨hrest, ?_⟩
  rw [unfinished_eq, unfinished_eq, hresults, hrest, hrequests, hpending, hqueue,
    TracedProcessor.length_submitted_cons]
  dsimp only
  cases cmd with
  | submit req =>
      unfold TracedProcessor.queueAfterCmd
      dsimp only [TracedProcessor.submitted, Option.toList_some, List.length_singleton]
      split
      · omega
      · rw [List.length_append, List.length_singleton]
        omega
  | clearQueue =>
      dsimp only [TracedProcessor.queueAfterCmd, List.length_nil]
      omega
  | getSuggestedMaxSize =>
      dsimp only [TracedProcessor.queueAfterCmd]
      omega

/-- A step of the processor that sends no command takes up no more room. -/
theorem unfinished_step {event : Event} (hsends : ∀ cmd, event ≠ .send cmd)
    (h : processor.step event = some next) :
    next.requestRx.length ≤ processor.requestRx.length ∧
      next.unfinished ≤ processor.unfinished := by
  cases event with
  | send cmd => exact absurd rfl (hsends cmd)
  | readResult =>
      cases h
      unfold unfinished inFlight
      dsimp only
      rw [List.length_tail]
      exact ⟨Nat.le_refl _, by omega⟩
  | complete result =>
      obtain ⟨hpending, hcomplete⟩ := step_complete.mp h
      obtain ⟨hrequests, hle⟩ := unfinished_complete hpending hcomplete
      exact ⟨hrequests ▸ Nat.le_refl _, hle⟩
  | startNext =>
      obtain ⟨hnone, rfl⟩ := step_startNext.mp h
      obtain ⟨hrequests, hsame⟩ := inFlight_startNext hnone
      have hresults : processor.startNext.resultTx = processor.resultTx := by
        unfold startNext
        split
        · rfl
        · rfl
      unfold unfinished
      rw [hrequests, hsame, hresults]
      exact ⟨Nat.le_refl _, Nat.le_refl _⟩
  | receive =>
      obtain ⟨cmd, rest, hrequests, hcmd⟩ := step_receive.mp h
      obtain ⟨hrest, hle⟩ := unfinished_onCmd hrequests hcmd
      refine ⟨?_, hle⟩
      rw [hrest, hrequests]
      exact Nat.le_succ _

end BatchSubmissionProcessor

namespace Sequencer

variable {sequencer next : Sequencer}

/-- The commands that the processor has not received yet. -/
def waitingCommands (sequencer : Sequencer) : Nat :=
  sequencer.submitter.processor.requestRx.length + sequencer.outbox.length

/-- The batches that the driver has submitted and whose results it has not read, but for those that
were refused or dropped. -/
def unfinishedBatches (sequencer : Sequencer) : Nat :=
  sequencer.submitter.processor.unfinished +
    (sequencer.outbox.filterMap TracedProcessor.submitted).length

/-- A step of the driver finds room for the commands that it sends, behind those that have not been
received, and for the results of the batches that it submits, with those that are on their way. -/
def LeavesRoom (sequencer : Sequencer) : Event → Prop
  | .driver event =>
      sequencer.waitingCommands + sequencer.driver.commandCount event ≤ MAX_BUFFERED_BATCHES ∧
        sequencer.unfinishedBatches + sequencer.driver.submissionCount event ≤ MAX_BUFFERED_BATCHES
  | .askSize => sequencer.waitingCommands + 1 ≤ MAX_BUFFERED_BATCHES
  | _ => True

instance (sequencer : Sequencer) (event : Event) : Decidable (sequencer.LeavesRoom event) :=
  match event with
  | .driver _ => inferInstanceAs (Decidable (_ ∧ _))
  | .askSize => inferInstanceAs (Decidable (_ ≤ _))
  | .send | .skipResult | .receive | .startNext | .complete _ => isTrue trivial

/-- No attempt to send fails: neither that of the next command nor that of the result of the pending
proposal, whatever it is. -/
structure SendsFit (sequencer : Sequencer) : Prop where
  command : ∀ cmd rest message, sequencer.outbox = cmd :: rest →
    ∃ next, sequencer.submitter.processor.send cmd message = .ok next
  result : ∀ result, sequencer.submitter.processor.pendingProposal ≠ none →
    ∃ next, sequencer.submitter.processor.complete result = .ok next

/-- There is room for all commands and results that are on their way. -/
structure HasRoom (sequencer : Sequencer) : Prop where
  commands : sequencer.waitingCommands ≤ MAX_BUFFERED_BATCHES
  results : sequencer.unfinishedBatches ≤ MAX_BUFFERED_BATCHES

/-- With room for everything, each attempt to send finds it. -/
theorem HasRoom.sendsFit (h : sequencer.HasRoom) : sequencer.SendsFit where
  command := by
    intro cmd rest message houtbox
    have hcommands := h.commands
    unfold waitingCommands at hcommands
    rw [houtbox, List.length_cons] at hcommands
    exact BatchSubmissionProcessor.send_ok_iff.mpr (by omega)
  result := by
    intro result hpending
    obtain ⟨pending, hsome⟩ := Option.ne_none_iff_exists'.mp hpending
    have hresults := h.results
    unfold unfinishedBatches at hresults
    rw [BatchSubmissionProcessor.unfinished_eq, hsome, Option.toList_some,
      List.length_singleton] at hresults
    exact BatchSubmissionProcessor.complete_ok_of_room (by omega) result

theorem hasRoom_new (cfg : RuntimeConfig) (l1 : L1State) (l2 : L2State)
    (maxBlockSize daThrottlingFactor : Nat) :
    (new cfg l1 l2 maxBlockSize daThrottlingFactor).HasRoom :=
  ⟨Nat.zero_le _, Nat.zero_le _⟩

/-- A step of the processor that sends no command leaves the room. -/
theorem HasRoom.progress (h : sequencer.HasRoom) {event : BatchSubmissionProcessor.Event}
    {submitter : TracedProcessor} (hsubmitter : sequencer.submitter.step event = some submitter)
    (hsends : ∀ cmd, event ≠ .send cmd) :
    { sequencer with submitter := submitter }.HasRoom := by
  obtain ⟨hrequests, hunfinished⟩ := BatchSubmissionProcessor.unfinished_step hsends
    (TracedProcessor.step_eq_some.mp hsubmitter).1
  obtain ⟨hcommands, hresults⟩ := h
  unfold waitingCommands at hcommands
  unfold unfinishedBatches at hresults
  refine ⟨?_, ?_⟩
  · unfold waitingCommands
    dsimp only
    omega
  · unfold unfinishedBatches
    dsimp only
    omega

/-- Every step that finds room leaves it. -/
theorem HasRoom.step (h : sequencer.HasRoom) {event : Event} (hroom : sequencer.LeavesRoom event)
    (hstep : sequencer.step event = some next) : next.HasRoom := by
  cases step_cases hstep with
  | driver event driver hready hnext submitter hsubmitter =>
      obtain ⟨cmds, hsent, hcount, hsubmitted⟩ := Driver.sentCommands_step hnext
      have hdrop : driver.sentCommands.drop sequencer.driver.sentCommands.length = cmds := by
        rw [hsent, List.drop_left]
      have hdriver : HasRoom
          { driver := driver
            outbox := sequencer.outbox ++
              driver.sentCommands.drop sequencer.driver.sentCommands.length
            submitter := sequencer.submitter } := by
        obtain ⟨hcommands, hresults⟩ := hroom
        rw [hdrop]
        constructor
        · unfold waitingCommands at hcommands ⊢
          dsimp only
          rw [List.length_append, hcount]
          omega
        · unfold unfinishedBatches at hresults ⊢
          dsimp only
          rw [List.filterMap_append, List.length_append, hsubmitted]
          omega
      obtain ⟨-, rfl⟩ | ⟨-, hread⟩ := hsubmitter
      · exact hdriver
      · exact hdriver.progress hread (by simp)
  | asked hsent =>
      refine ⟨?_, ?_⟩
      · change sequencer.waitingCommands + 1 ≤ _ at hroom
        unfold waitingCommands at hroom ⊢
        rw [hsent] at hroom
        exact hroom
      · have hresults := h.results
        unfold unfinishedBatches at hresults ⊢
        rw [hsent] at hresults
        exact hresults
  | sent cmd rest submitter houtbox hsubmitter =>
      obtain ⟨-, heq⟩ := BatchSubmissionProcessor.step_send.mp
        (TracedProcessor.step_eq_some.mp hsubmitter).1
      obtain ⟨hcommands, hresults⟩ := h
      refine ⟨?_, ?_⟩
      · unfold waitingCommands at hcommands ⊢
        rw [houtbox, List.length_cons] at hcommands
        dsimp only
        rw [← heq, List.length_append, List.length_singleton]
        omega
      · unfold unfinishedBatches at hresults ⊢
        rw [BatchSubmissionProcessor.unfinished_eq] at hresults ⊢
        rw [houtbox, TracedProcessor.length_submitted_cons] at hresults
        dsimp only
        rw [← heq, List.filterMap_append, List.length_append,
          TracedProcessor.length_submitted_cons]
        dsimp only [List.filterMap_nil, List.length_nil]
        omega
  | skipped submitter hskips hsubmitter => exact h.progress hsubmitter (by simp)
  | received submitter hsubmitter => exact h.progress hsubmitter (by simp)
  | started submitter hsubmitter => exact h.progress hsubmitter (by simp)
  | completed result submitter hsubmitter => exact h.progress hsubmitter (by simp)

/-- However the driver sends commands and reads results while the processor goes on: no attempt to
send fails if every step of the driver finds room for what it sends. -/
theorem sends_fit_of_room {cfg : RuntimeConfig} {l1 : L1State} {l2 : L2State}
    {maxBlockSize daThrottlingFactor : Nat} {events : List Event}
    (hmeet : Transition.StepsMeet step LeavesRoom
      (new cfg l1 l2 maxBlockSize daThrottlingFactor) events)
    (hrun : Transition.run step (new cfg l1 l2 maxBlockSize daThrottlingFactor) events =
      some sequencer) : sequencer.SendsFit := by
  have hroom : sequencer.HasRoom := Transition.invariant_run
    (fun _ _ _ hinv hcondition hstep => hinv.step hcondition hstep)
    (hasRoom_new cfg l1 l2 maxBlockSize daThrottlingFactor) hmeet hrun
  exact hroom.sendsFit

/-- Somebody else's blocks, each on an anchor of its own, and what the nodes answer about them. -/
def manyAnchors (count : Nat) : Driver.Answers :=
  let blocks :=
    (List.range' 1 count).map fun number => Driver.l2BlockOn (50 + number) number 38400 2
  let answers :=
    Driver.answersWith 38412 104 1 1 51 (Driver.l2BlockOn (50 + count) count 38400 2)
  { answers with
    sync :=
      { answers.sync with
        l2Head := some count
        download := blocks.flatMap fun block =>
          [.block (some block), .anchor 0 (some (l1Header (50 + block.header.number)))] } }

/-- A driver of operator 1 that starts with this L2 head next to a new processor. -/
def startAt (headBlock : Nat) : Sequencer :=
  new (defaultConfig 1) (Driver.startAt 38412 headBlock).l1 (Driver.startAt 38412 headBlock).l2
    126976 50

/-- A sync of three batches, whose first proposal ends before the last command is received. -/
def syncOfThree : List Event :=
  (Driver.startup (manyAnchors 3)).map .driver ++
    [.send, .receive, .startNext, .send, .complete (.ok ⟨0, true⟩), .receive, .send, .startNext,
      .skipResult, .receive]

/-- A sync that finds room for its three batches. -/
theorem sends_fit_of_room_syncOfThree :
    ∃ sequencer, Transition.run step (startAt 3) syncOfThree = some sequencer ∧
      sequencer.driver.sentCommands.length = 3 ∧ sequencer.unfinishedBatches = 2 ∧
      sequencer.SendsFit := by
  have hmeet : Transition.StepsMeet step LeavesRoom (startAt 3) syncOfThree := by decide +kernel
  obtain ⟨sequencer, hrun, hsent, hunfinished⟩ : ∃ sequencer,
      Transition.run step (startAt 3) syncOfThree = some sequencer ∧
        sequencer.driver.sentCommands.length = 3 ∧ sequencer.unfinishedBatches = 2 :=
    Transition.exists_run (by decide +kernel)
  exact ⟨sequencer, hrun, hsent, hunfinished, sends_fit_of_room hmeet hrun⟩

/-! ## Without room -/

/-- Commands that the processor does not receive fill the channel. -/
theorem exists_full_of_sends {left : Nat}
    (hleft : sequencer.submitter.processor.requestRx.length + left = MAX_BUFFERED_BATCHES)
    (hmore : left < sequencer.outbox.length) :
    ∃ full, Transition.run step sequencer (List.replicate left .send) = some full ∧
      ¬ full.SendsFit := by
  induction left generalizing sequencer with
  | zero =>
      refine ⟨sequencer, rfl, fun hfit => ?_⟩
      obtain ⟨cmd, rest, houtbox⟩ := List.exists_cons_of_length_pos hmore
      have hroom := BatchSubmissionProcessor.send_ok_iff.mp (hfit.command cmd rest "" houtbox)
      omega
  | succ left ih =>
      obtain ⟨cmd, rest, houtbox⟩ := List.exists_cons_of_length_pos (Nat.zero_lt_of_lt hmore)
      have hroom : sequencer.submitter.processor.requestRx.length < MAX_BUFFERED_BATCHES := by omega
      obtain ⟨sent, hsent⟩ : ∃ sent, sequencer.submitter.step (.send cmd) = some sent := by
        obtain ⟨processor, hsend⟩ : ∃ processor,
            sequencer.submitter.processor.step (.send cmd) = some processor :=
          ⟨_, BatchSubmissionProcessor.step_send.mpr ⟨hroom, rfl⟩⟩
        exact ⟨⟨processor, _, _⟩, TracedProcessor.step_eq_some.mpr ⟨hsend, rfl, rfl⟩⟩
      have hstep : sequencer.step .send =
          some { sequencer with outbox := rest, submitter := sent } := by
        simp only [step, houtbox, progress]
        exact congrArg (Option.map _) hsent
      have hlength : sent.processor.requestRx.length + left = MAX_BUFFERED_BATCHES := by
        obtain ⟨-, heq⟩ := BatchSubmissionProcessor.step_send.mp
          (TracedProcessor.step_eq_some.mp hsent).1
        rw [← heq, List.length_append, List.length_singleton]
        omega
      have hrest : left < rest.length := by
        rw [houtbox, List.length_cons] at hmore
        omega
      obtain ⟨full, hfull, hnot⟩ :=
        @ih { sequencer with outbox := rest, submitter := sent } hlength hrest
      rw [List.replicate_succ]
      exact ⟨full, Transition.run_cons.mpr ⟨_, hstep, hfull⟩, hnot⟩

/-- A step of the driver without room for its commands overflows their channel, if the processor is
not polled meanwhile. -/
theorem commands_overflow {event : Driver.Event} (hsent : sequencer.outbox = [])
    (hfits : sequencer.waitingCommands ≤ MAX_BUFFERED_BATCHES)
    (hover : MAX_BUFFERED_BATCHES <
      sequencer.waitingCommands + sequencer.driver.commandCount event)
    (hstep : sequencer.step (.driver event) = some next) :
    ∃ full, Transition.run step next
        (List.replicate (MAX_BUFFERED_BATCHES - sequencer.waitingCommands) .send) = some full ∧
      ¬ full.SendsFit := by
  have hwaiting : sequencer.waitingCommands = sequencer.submitter.processor.requestRx.length := by
    unfold waitingCommands
    rw [hsent]
    rfl
  rw [hwaiting] at hfits hover ⊢
  cases step_cases hstep with
  | driver event driver hready hnext submitter hsubmitter =>
      obtain ⟨cmds, hcmds, hcount, -⟩ := Driver.sentCommands_step hnext
      have hdrop : driver.sentCommands.drop sequencer.driver.sentCommands.length = cmds := by
        rw [hcmds, List.drop_left]
      have hrequests : submitter.processor.requestRx.length =
          sequencer.submitter.processor.requestRx.length := by
        obtain ⟨-, rfl⟩ | ⟨-, hread⟩ := hsubmitter
        · rfl
        · rw [← Option.some.inj (TracedProcessor.step_eq_some.mp hread).1]
      refine exists_full_of_sends ?_ ?_
      · dsimp only
        omega
      · dsimp only
        rw [hsent, hdrop, List.nil_append, hcount]
        omega

/-- A sync of blocks on 33 anchors sends 33 batches in one step. If the processor is not polled
meanwhile, 32 of them fill the channel, and the last attempt to send fails. -/
theorem sync_overflows_channel :
    ∃ before next full,
      Transition.run step (startAt 33)
        [.driver (.resume (manyAnchors 33)), .driver (.resume (manyAnchors 33))] = some before ∧
      before.waitingCommands = 0 ∧ before.unfinishedBatches = 0 ∧
      before.driver.commandCount (.resume (manyAnchors 33)) = 33 ∧
      before.step (.driver (.resume (manyAnchors 33))) = some next ∧
      Transition.run step next (List.replicate 32 .send) = some full ∧
      ¬ full.SendsFit := by
  obtain ⟨before, hbefore, hsent, hwaiting, hunfinished, hcount, hsome⟩ :
      ∃ before, Transition.run step (startAt 33)
          [.driver (.resume (manyAnchors 33)), .driver (.resume (manyAnchors 33))] = some before ∧
        before.outbox = [] ∧ before.waitingCommands = 0 ∧ before.unfinishedBatches = 0 ∧
        before.driver.commandCount (.resume (manyAnchors 33)) = 33 ∧
        (before.step (.driver (.resume (manyAnchors 33)))).isSome = true :=
    Transition.exists_run (by decide +kernel)
  obtain ⟨next, hnext⟩ := Option.isSome_iff_exists.mp hsome
  obtain ⟨full, hfull, hnot⟩ := commands_overflow hsent (by rw [hwaiting]; decide)
    (by rw [hwaiting, hcount]; decide) hnext
  rw [hwaiting] at hfull
  exact ⟨before, next, full, hbefore, hwaiting, hunfinished, hcount, hnext, hfull, hnot⟩

/-- With a batch in flight, one is proposed sooner or later. -/
theorem exists_pending {processor : BatchSubmissionProcessor}
    (hbatches : 0 < processor.inFlight.length) :
    ∃ events next, Transition.run BatchSubmissionProcessor.step processor events = some next ∧
      next.pendingProposal ≠ none ∧ next.resultTx = processor.resultTx ∧
      next.inFlight = processor.inFlight := by
  cases hpending : processor.pendingProposal with
  | some pending => exact ⟨[], processor, rfl, by simp [hpending], rfl, rfl⟩
  | none =>
      obtain ⟨-, hsame⟩ := BatchSubmissionProcessor.inFlight_startNext hpending
      cases hqueue : processor.requestQueue with
      | nil =>
          unfold BatchSubmissionProcessor.inFlight at hbatches
          rw [hpending, hqueue] at hbatches
          cases hbatches
      | cons first rest =>
          refine ⟨[.startNext], processor.startNext, Transition.run_cons.mpr
            ⟨_, BatchSubmissionProcessor.step_startNext.mpr ⟨hpending, rfl⟩, rfl⟩, ?_, ?_, hsame⟩
          · unfold BatchSubmissionProcessor.startNext
            rw [hqueue]
            exact Option.some_ne_none first
          · unfold BatchSubmissionProcessor.startNext
            rw [hqueue]

/-- Batches in flight without room for their results overflow the channel of the results, if they
succeed and the driver does not read. -/
theorem results_overflow {processor : BatchSubmissionProcessor} {left : Nat}
    (hleft : processor.resultTx.length + left = MAX_BUFFERED_BATCHES)
    (hmore : left < processor.inFlight.length) :
    ∃ events full, Transition.run BatchSubmissionProcessor.step processor events = some full ∧
      full.pendingProposal ≠ none ∧
        ∀ receipt, ¬ ∃ next, full.complete (.ok receipt) = .ok next := by
  induction left generalizing processor with
  | zero =>
      obtain ⟨events, full, hrun, hpending, hresults, -⟩ := exists_pending hmore
      refine ⟨events, full, hrun, hpending, fun receipt hfits => ?_⟩
      have hroom := BatchSubmissionProcessor.sendResult_ok_iff.mp hfits
      dsimp only at hroom
      rw [hresults] at hroom
      omega
  | succ left ih =>
      obtain ⟨events, started, hrun, hpending, hresults, hbatches⟩ :=
        exists_pending (Nat.zero_lt_of_lt hmore)
      obtain ⟨pending, hsome⟩ := Option.ne_none_iff_exists'.mp hpending
      let done : BatchSubmissionProcessor :=
        { started with
          pendingProposal := none
          resultTx := started.resultTx ++ [.ok ⟨0, true⟩] }
      have hcomplete : started.step (.complete (.ok ⟨0, true⟩)) = some done := by
        refine BatchSubmissionProcessor.step_complete.mpr ⟨hpending, if_pos ?_⟩
        dsimp only
        rw [hresults]
        omega
      have hlength : done.resultTx.length + left = MAX_BUFFERED_BATCHES := by
        rw [List.length_append, List.length_singleton, hresults]
        omega
      have hrest : done.inFlight.length + 1 = started.inFlight.length := by
        unfold BatchSubmissionProcessor.inFlight
        rw [hsome]
        rfl
      obtain ⟨others, full, hothers, hfull⟩ := ih hlength (by rw [hbatches] at hrest; omega)
      exact ⟨events ++ .complete (.ok ⟨0, true⟩) :: others, full,
        Transition.run_append.mpr ⟨started, hrun, Transition.run_cons.mpr
          ⟨done, hcomplete, hothers⟩⟩, hfull⟩

end Sequencer

end Mk1
