import Mk1.Driver.Processor.PollPlaces

/-!
# What a failed proposal drops

When a proposal fails, the queue is cleared, because the batches in it build on
blocks that did not land. Batches whose submission is still in the channel build
on them as well, and are queued afterwards, when `poll` receives all commands
there. `failure_drops_earlier_iff` says that none of them is proposed in any
continuation exactly if no submission is in the channel without a command to clear
the queue behind it. (Another way out is a panic of the processor before.)
-/

namespace Mk1

namespace TracedProcessor

open BatchSubmissionProcessor (Event)

/-- Every event leaves only later batches to be proposed, if only such are waiting. -/
theorem since_step {traced next : TracedProcessor} {event : Event} {mark : Nat} {before : List Nat}
    (h : Tickets.Since mark before traced.tickets) (hstep : traced.step event = some next) :
    Tickets.Since mark before next.tickets := by
  rcases tickets_step hstep with heq | heq | heq | heq | ⟨-, heq⟩ | heq | heq | ⟨e, -, heq⟩
  all_goals rw [heq]
  · exact h
  · exact h.send
  · exact h.accept
  · exact h.refuse
  · exact h.start
  · exact h.finish
  · exact h.clear _
  · exact h.finish.clear _

/-- What a failed proposal leaves behind: no pending proposal, an empty queue, and the channel. -/
theorem complete_failed {reached failed : TracedProcessor} {e : BatchProposalError}
    (he : e.matchesNonceTooLow = false)
    (hfail : reached.step (.complete (.error e)) = some failed) :
    failed.processor.pendingProposal = none ∧ failed.processor.requestQueue = [] ∧
      failed.processor.requestRx = reached.processor.requestRx ∧
      failed.tickets.queue = [] := by
  obtain ⟨hprocessor, htickets, -⟩ := step_eq_some.mp hfail
  obtain ⟨-, hcomplete⟩ := BatchSubmissionProcessor.step_complete.mp hprocessor
  obtain ⟨hrequests, hpending, hqueue⟩ := onProposal_eq hcomplete
  have hfailed : ¬ e.matchesNonceTooLow = true := by simp [he]
  refine ⟨hpending, hqueue.trans (if_neg hfailed), hrequests, ?_⟩
  rw [htickets]
  show (if e.matchesNonceTooLow = true then _ else _ : Tickets DropCause).queue = []
  rw [if_neg hfailed]
  rfl

/-- What a command that is received does to the channel of tickets. -/
theorem channel_noteCmd (processor : BatchSubmissionProcessor) (tickets : Tickets DropCause)
    (cmd : BatchSubmissionCmd) :
    (noteCmd processor tickets cmd).channel = tickets.channel.drop (submitted cmd).toList.length ∧
      (noteCmd processor tickets cmd).sent = tickets.sent ∧
      (noteCmd processor tickets cmd).started = tickets.started := by
  cases cmd with
  | submit req =>
      unfold noteCmd
      dsimp only
      split
      · exact ⟨List.drop_one.symm, rfl, rfl⟩
      · unfold Tickets.accept
        split
        · next hchannel =>
            rw [hchannel]
            exact ⟨rfl, rfl, rfl⟩
        · next ticket rest hchannel =>
            rw [hchannel]
            exact ⟨rfl, rfl, rfl⟩
  | clearQueue => exact ⟨rfl, rfl, rfl⟩
  | getSuggestedMaxSize => exact ⟨rfl, rfl, rfl⟩

end TracedProcessor

/-! ## Commands that leave a batch in the queue -/

/-- There is a submission, and the commands behind it meet a condition. -/
def SubmissionBefore (condition : List BatchSubmissionCmd → Prop) (cmds : List BatchSubmissionCmd) :
    Prop :=
  ∃ before req rest, cmds = before ++ .submit req :: rest ∧ condition rest

/-- There is a submission without a command to clear the queue behind it. -/
def LeavesSubmission : List BatchSubmissionCmd → Prop := SubmissionBefore (.clearQueue ∉ ·)

/-- A size is asked for, and the queue is not cleared before. -/
def AsksSize (cmds : List BatchSubmissionCmd) : Prop :=
  ∃ between rest, cmds = between ++ .getSuggestedMaxSize :: rest ∧ .clearQueue ∉ between

/-- A size is asked for behind a submission, and the queue is not cleared in between. -/
def AsksSizeOfSubmission : List BatchSubmissionCmd → Prop := SubmissionBefore AsksSize

theorem submissionBefore_nil {condition : List BatchSubmissionCmd → Prop} :
    ¬ SubmissionBefore condition [] := by
  rintro ⟨before, req, rest, hsplit, -⟩
  cases before with
  | nil => cases hsplit
  | cons cmd before => cases hsplit

/-- The first submission is the first command or among the others. -/
theorem submissionBefore_cons {condition : List BatchSubmissionCmd → Prop}
    {cmd : BatchSubmissionCmd} {rest : List BatchSubmissionCmd} :
    SubmissionBefore condition (cmd :: rest) ↔
      ((∃ req, cmd = .submit req) ∧ condition rest) ∨ SubmissionBefore condition rest := by
  constructor
  · rintro ⟨before, req, behind, hsplit, hbehind⟩
    cases before with
    | nil =>
        cases hsplit
        exact .inl ⟨⟨req, rfl⟩, hbehind⟩
    | cons first before =>
        cases hsplit
        exact .inr ⟨before, req, behind, rfl, hbehind⟩
  · rintro (⟨⟨req, rfl⟩, hbehind⟩ | ⟨before, req, behind, rfl, hbehind⟩)
    · exact ⟨[], req, rest, rfl, hbehind⟩
    · exact ⟨cmd :: before, req, behind, rfl, hbehind⟩

theorem asksSize_nil : ¬ AsksSize [] := by
  rintro ⟨between, rest, hsplit, -⟩
  cases between with
  | nil => cases hsplit
  | cons cmd between => cases hsplit

/-- The size is asked for by the first command, or by a later one if the first is not to clear. -/
theorem asksSize_cons {cmd : BatchSubmissionCmd} {rest : List BatchSubmissionCmd} :
    AsksSize (cmd :: rest) ↔
      cmd = .getSuggestedMaxSize ∨ (cmd ≠ .clearQueue ∧ AsksSize rest) := by
  constructor
  · rintro ⟨between, behind, hsplit, hbetween⟩
    cases between with
    | nil =>
        cases hsplit
        exact .inl rfl
    | cons first between =>
        cases hsplit
        obtain ⟨hfirst, hbetween⟩ := not_or.mp (mt List.mem_cons.mpr hbetween)
        exact .inr ⟨Ne.symm hfirst, between, behind, rfl, hbetween⟩
  · rintro (rfl | ⟨hcmd, between, behind, rfl, hbetween⟩)
    · exact ⟨[], rest, rfl, List.not_mem_nil⟩
    · refine ⟨cmd :: between, behind, rfl, fun hmem => ?_⟩
      rcases List.mem_cons.mp hmem with heq | hmem
      · exact hcmd heq.symm
      · exact hbetween hmem

/-- Whether a batch is queued when some commands have been received. There is no answer if the
factor is zero and a size is asked for while a batch is queued. -/
def queuedAfter (factor : Nat) : Bool → List BatchSubmissionCmd → Option Bool
  | queued, [] => some queued
  | _, .submit _ :: rest => queuedAfter factor true rest
  | _, .clearQueue :: rest => queuedAfter factor false rest
  | queued, .getSuggestedMaxSize :: rest =>
      if queued = true ∧ factor = 0 then none else queuedAfter factor queued rest

/-- A batch is queued afterwards if a submission is left, or if one was queued before and the queue
is not cleared, unless a size was asked for in vain. -/
theorem queuedAfter_eq_true_iff {factor : Nat} {queued : Bool} {cmds : List BatchSubmissionCmd} :
    queuedAfter factor queued cmds = some true ↔
      (LeavesSubmission cmds ∨ queued = true ∧ .clearQueue ∉ cmds) ∧
        ¬ (factor = 0 ∧ (AsksSizeOfSubmission cmds ∨ queued = true ∧ AsksSize cmds)) := by
  unfold LeavesSubmission AsksSizeOfSubmission
  induction cmds generalizing queued with
  | nil => simp [queuedAfter, submissionBefore_nil, asksSize_nil]
  | cons cmd rest ih =>
      cases cmd with
      | submit req =>
          simp only [queuedAfter, ih, submissionBefore_cons, asksSize_cons, List.mem_cons]
          simp
          tauto
      | clearQueue =>
          simp only [queuedAfter, ih, submissionBefore_cons, asksSize_cons, List.mem_cons]
          simp
      | getSuggestedMaxSize =>
          by_cases hpanic : queued = true ∧ factor = 0
          · simp [queuedAfter, asksSize_cons, hpanic]
          · simp only [queuedAfter, if_neg hpanic, ih, submissionBefore_cons, asksSize_cons,
              List.mem_cons]
            cases queued with
            | true =>
                have hfactor : factor ≠ 0 := fun hzero => hpanic ⟨rfl, hzero⟩
                simp [hfactor]
            | false => simp

namespace BatchSubmissionProcessor

/-- Whether a batch is queued. -/
def queued (processor : BatchSubmissionProcessor) : Bool := !processor.requestQueue.isEmpty

variable {processor next : BatchSubmissionProcessor} {cmd : BatchSubmissionCmd}

theorem queued_eq_false : processor.queued = false ↔ processor.requestQueue = [] := by
  unfold queued
  simp

theorem queued_eq_true : processor.queued = true ↔ processor.requestQueue ≠ [] := by
  unfold queued
  simp

/-- The first command is handled as `queuedAfter` says. -/
theorem queuedAfter_onCmd (h : processor.onCmd cmd = .ok next) (rest : List BatchSubmissionCmd) :
    queuedAfter processor.daThrottlingFactor processor.queued (cmd :: rest) =
      queuedAfter processor.daThrottlingFactor next.queued rest := by
  have hqueue := (TracedProcessor.onCmd_eq h).2
  cases cmd with
  | submit req =>
      have hqueued : next.queued = true := by
        rw [queued_eq_true, hqueue]
        unfold TracedProcessor.queueAfterCmd
        dsimp only
        split
        · next hoverlap =>
            -- only a batch that is queued can overlap
            intro hempty
            simp [overlapsQueue, queueToRanges, hempty] at hoverlap
        · exact List.append_ne_nil_of_right_ne_nil _ (List.cons_ne_nil _ _)
      rw [hqueued]
      rfl
  | clearQueue =>
      have hqueued : next.queued = false := queued_eq_false.mpr hqueue
      rw [hqueued]
      rfl
  | getSuggestedMaxSize =>
      have hqueued : next.queued = processor.queued := by
        unfold queued
        rw [hqueue]
        rfl
      rw [hqueued]
      refine if_neg ?_
      rintro ⟨hsome, hfactor⟩
      obtain ⟨size, hsize, -⟩ := bind_eq_ok.mp h
      rw [calcMaxNextBlockSize_of_zero hfactor (queued_eq_true.mp hsome)] at hsize
      cases hsize

/-- A command for which `queuedAfter` has an answer is handled. -/
theorem exists_onCmd {rest : List BatchSubmissionCmd}
    (h : queuedAfter processor.daThrottlingFactor processor.queued (cmd :: rest) ≠ none) :
    ∃ next, processor.onCmd cmd = .ok next := by
  cases cmd with
  | submit req => exact ⟨_, rfl⟩
  | clearQueue => exact ⟨_, rfl⟩
  | getSuggestedMaxSize =>
      have hsize : ∃ size, processor.calcMaxNextBlockSize = .ok size := by
        by_cases hfactor : processor.daThrottlingFactor = 0
        · by_cases hqueue : processor.requestQueue = []
          · exact ⟨_, calcMaxNextBlockSize_of_nil hqueue⟩
          · exact absurd (if_pos ⟨queued_eq_true.mpr hqueue, hfactor⟩) h
        · exact ⟨_, calcMaxNextBlockSize_eq hfactor⟩
      obtain ⟨size, hsize⟩ := hsize
      exact ⟨_, bind_eq_ok.mpr ⟨size, hsize, rfl⟩⟩

end BatchSubmissionProcessor

namespace PolledProcessor

/-! ## Until the channel is empty -/

/-- A command is received in the loop, if `queuedAfter` has an answer for the channel. -/
theorem exists_receive {polled : PolledProcessor} {cmd : BatchSubmissionCmd}
    {rest : List BatchSubmissionCmd} (hplace : polled.place = .commands)
    (hrequests : polled.traced.processor.requestRx = cmd :: rest)
    (hanswer : queuedAfter polled.traced.processor.daThrottlingFactor
      polled.traced.processor.queued (cmd :: rest) ≠ none) :
    ∃ next, polled.step .receive = some next := by
  obtain ⟨processor, hcmd⟩ : ∃ processor,
      { polled.traced.processor with requestRx := rest }.onCmd cmd = .ok processor :=
    @BatchSubmissionProcessor.exists_onCmd
      { polled.traced.processor with requestRx := rest } cmd rest hanswer
  let noted : TracedProcessor :=
    ⟨processor, polled.traced.note .receive, polled.traced.noteRequest .receive⟩
  have hnoted : polled.traced.step .receive = some noted :=
    TracedProcessor.step_eq_some.mpr
      ⟨BatchSubmissionProcessor.step_receive.mpr ⟨cmd, rest, hrequests, hcmd⟩, rfl, rfl⟩
  exact ⟨⟨noted, .commands⟩, step_receive.mpr ⟨hplace, hnoted, rfl⟩⟩

/-- What receiving the first command changes. -/
structure Received (traced next : TracedProcessor) (cmd : BatchSubmissionCmd)
    (rest : List BatchSubmissionCmd) : Prop where
  requestRx : next.processor.requestRx = rest
  pending : next.processor.pendingProposal = traced.processor.pendingProposal
  factor : next.processor.daThrottlingFactor = traced.processor.daThrottlingFactor
  queued : ∀ cmds, queuedAfter traced.processor.daThrottlingFactor traced.processor.queued
    (cmd :: cmds) = queuedAfter next.processor.daThrottlingFactor next.processor.queued cmds
  channel : next.tickets.channel =
    traced.tickets.channel.drop (TracedProcessor.submitted cmd).toList.length
  sent : next.tickets.sent = traced.tickets.sent
  started : next.tickets.started = traced.tickets.started

theorem received_of_step {traced next : TracedProcessor} {cmd : BatchSubmissionCmd}
    {rest : List BatchSubmissionCmd} (hrequests : traced.processor.requestRx = cmd :: rest)
    (hstep : traced.step .receive = some next) : Received traced next cmd rest := by
  obtain ⟨hprocessor, htickets, -⟩ := TracedProcessor.step_eq_some.mp hstep
  obtain ⟨first, others, hsplit, hcmd⟩ := BatchSubmissionProcessor.step_receive.mp hprocessor
  obtain ⟨rfl, rfl⟩ := List.cons.inj (hrequests.symm.trans hsplit)
  rw [TracedProcessor.note_receive hrequests] at htickets
  have hfactor := (BatchSubmissionProcessor.suggestedSizes_step hprocessor).2.1
  obtain ⟨hchannel, hsent, hstarted⟩ :=
    TracedProcessor.channel_noteCmd traced.processor traced.tickets cmd
  exact
    { requestRx := (BatchSubmissionProcessor.channels_onCmd hcmd).1
      pending := (TracedProcessor.onCmd_eq hcmd).1
      factor := hfactor
      queued := fun cmds => hfactor ▸ BatchSubmissionProcessor.queuedAfter_onCmd hcmd cmds
      channel := htickets ▸ hchannel
      sent := htickets ▸ hsent
      started := htickets ▸ hstarted }

/-- The loop receives all commands, if `queuedAfter` has an answer for them. -/
theorem exists_run_receive {polled : PolledProcessor} {cmds : List BatchSubmissionCmd} {left : Bool}
    (hplace : polled.place = .commands) (hrequests : polled.traced.processor.requestRx = cmds)
    (hanswer : queuedAfter polled.traced.processor.daThrottlingFactor
      polled.traced.processor.queued cmds = some left) :
    ∃ next, Transition.run step polled (List.replicate cmds.length .receive) = some next ∧
      next.place = .commands ∧ next.traced.processor.requestRx = [] ∧
      next.traced.processor.queued = left ∧
      next.traced.processor.pendingProposal = polled.traced.processor.pendingProposal ∧
      next.traced.tickets.sent = polled.traced.tickets.sent ∧
      next.traced.tickets.started = polled.traced.tickets.started := by
  induction cmds generalizing polled with
  | nil => exact ⟨polled, rfl, hplace, hrequests, Option.some.inj hanswer, rfl, rfl, rfl⟩
  | cons cmd rest ih =>
      obtain ⟨middle, hmiddle⟩ := exists_receive hplace hrequests
        (by rw [hanswer]; exact Option.some_ne_none left)
      obtain ⟨-, htraced, hplace'⟩ := step_receive.mp hmiddle
      have hreceived := received_of_step hrequests htraced
      obtain ⟨next, hnext, hend, hempty, hleft, hpending, hsent, hstarted⟩ :=
        ih hplace' hreceived.requestRx ((hreceived.queued rest).symm.trans hanswer)
      refine ⟨next, ?_, hend, hempty, hleft, hpending.trans hreceived.pending,
        hsent.trans hreceived.sent, hstarted.trans hreceived.started⟩
      rw [List.length_cons, List.replicate_succ]
      exact Transition.run_cons.mpr ⟨middle, hmiddle, hnext⟩

/-- With a batch queued when the loop is over, the next iteration proposes one, if none is
pending. It was sent before. -/
theorem exists_run_start {polled : PolledProcessor} (haudited : polled.traced.Audited)
    (hplace : polled.place = .commands) (hempty : polled.traced.processor.requestRx = [])
    (hqueued : polled.traced.processor.queued = true)
    (hpending : polled.traced.processor.pendingProposal = none) :
    ∃ next ticket, Transition.run step polled [.drained, .pollProposal none, .popNext] = some next ∧
      next.traced.tickets.started = polled.traced.tickets.started ++ [ticket] ∧
      ticket < polled.traced.tickets.sent := by
  have hqueue := haudited.tracks.queue
  obtain ⟨first, rest, hfirst⟩ :=
    List.exists_cons_of_ne_nil (BatchSubmissionProcessor.queued_eq_true.mp hqueued)
  rw [hfirst] at hqueue
  obtain ⟨ticket, tickets, htickets, -⟩ := List.map_eq_cons_iff.mp hqueue
  have hlt : ticket < polled.traced.requests.length :=
    polled.traced.lt_length haudited.accounted haudited.tracks.sent
      (.inr (.inl (htickets ▸ List.mem_cons_self)))
  let noted : TracedProcessor := ⟨polled.traced.processor.startNext,
    polled.traced.tickets.start, polled.traced.requests⟩
  have hnoted : polled.traced.step .startNext = some noted :=
    TracedProcessor.step_eq_some.mpr
      ⟨BatchSubmissionProcessor.step_startNext.mpr ⟨hpending, rfl⟩, rfl, rfl⟩
  refine ⟨⟨noted, .commands⟩, ticket, ?_, ?_, haudited.tracks.sent ▸ hlt⟩
  · refine Transition.run_cons.mpr
      ⟨{ polled with place := .proposal }, step_drained.mpr ⟨⟨hplace, hempty⟩, rfl⟩, ?_⟩
    refine Transition.run_cons.mpr
      ⟨{ polled with place := .queue }, step_pollProposal.mpr ⟨rfl, ?_⟩, ?_⟩
    · unfold stepProposal
      dsimp only
      rw [hpending]
    · refine Transition.run_cons.mpr ⟨_, step_popNext.mpr ⟨rfl, ?_⟩, rfl⟩
      exact (stepQueue_of_none { polled with place := .queue } hpending).trans
        (goOn_eq_some.mpr ⟨hnoted, rfl⟩)
  · show polled.traced.tickets.start.started = _
    unfold Tickets.start
    rw [htickets]

/-- Since a failure, the loop that receives commands is not over. Some commands in the channel were
sent before, and will leave no batch in the queue; those behind them were sent afterwards. -/
structure Draining (mark : Nat) (before : List Nat) (polled : PolledProcessor) : Prop where
  place : polled.place ≠ .proposal
  queue : polled.place = .queue → polled.traced.processor.requestQueue = []
  pending : polled.traced.processor.pendingProposal = none
  sent : mark ≤ polled.traced.tickets.sent
  started : polled.traced.tickets.started = before
  left : ∃ cmds arrived earlier later,
    polled.traced.processor.requestRx = cmds ++ arrived ∧
    polled.traced.tickets.channel = earlier ++ later ∧
    earlier.length = (cmds.filterMap TracedProcessor.submitted).length ∧
    (∀ ticket ∈ later, mark ≤ ticket) ∧
    queuedAfter polled.traced.processor.daThrottlingFactor polled.traced.processor.queued cmds ≠
      some true

/-- No batch that was sent before is or will be proposed. -/
def Drops (mark : Nat) (before : List Nat) (polled : PolledProcessor) : Prop :=
  Tickets.Since mark before polled.traced.tickets ∨ Draining mark before polled

/-- With an empty queue and only later tickets in the channel, only such are waiting. -/
theorem since_of_channel {polled : PolledProcessor} {mark : Nat} {before : List Nat}
    (haudited : polled.traced.Audited) (hqueue : polled.traced.processor.requestQueue = [])
    (hsent : mark ≤ polled.traced.tickets.sent)
    (hstarted : polled.traced.tickets.started = before)
    (hchannel : ∀ ticket ∈ polled.traced.tickets.channel, mark ≤ ticket) :
    Tickets.Since mark before polled.traced.tickets := by
  have hempty : polled.traced.tickets.queue = [] := by
    have htracks := haudited.tracks.queue
    rw [hqueue] at htracks
    exact List.map_eq_nil_iff.mp htracks
  refine ⟨hsent, fun ticket hticket => hchannel ticket ?_, [], ?_, fun _ hticket => ?_⟩
  · rwa [hempty, List.append_nil] at hticket
  · rw [hstarted, List.append_nil]
  · cases hticket

/-- When the earlier commands have been received, only later tickets are waiting. -/
theorem since_of_received {polled : PolledProcessor} {mark : Nat} {before earlier later : List Nat}
    (h : Draining mark before polled) (haudited : polled.traced.Audited)
    (hchannel : polled.traced.tickets.channel = earlier ++ later) (hearlier : earlier.length = 0)
    (hlater : ∀ ticket ∈ later, mark ≤ ticket)
    (hqueued : some polled.traced.processor.queued ≠ some true) :
    Tickets.Since mark before polled.traced.tickets := by
  have hqueue := BatchSubmissionProcessor.queued_eq_false.mp
    (Bool.eq_false_of_not_eq_true fun htrue => hqueued (congrArg some htrue))
  refine since_of_channel haudited hqueue h.sent h.started ?_
  rw [hchannel, List.length_eq_zero_iff.mp hearlier]
  exact hlater

/-- Another command is sent behind those that are being received. -/
theorem Draining.send {polled next : PolledProcessor} {mark : Nat} {before : List Nat}
    {cmd : BatchSubmissionCmd} (h : Draining mark before polled)
    (hstep : polled.step (.send cmd) = some next) : Draining mark before next := by
  obtain ⟨htraced, hplace⟩ := goOn_eq_some.mp hstep
  obtain ⟨hprocessor, htickets, -⟩ := TracedProcessor.step_eq_some.mp htraced
  obtain ⟨-, hsent⟩ := BatchSubmissionProcessor.step_send.mp hprocessor
  obtain ⟨cmds, arrived, earlier, later, hrequests, hchannel, hearlier, hlater, hqueued⟩ := h.left
  have hnew : ∃ new, next.traced.tickets.channel = polled.traced.tickets.channel ++ new ∧
      (∀ ticket ∈ new, mark ≤ ticket) ∧ mark ≤ next.traced.tickets.sent ∧
      next.traced.tickets.started = polled.traced.tickets.started := by
    rw [htickets]
    cases cmd with
    | submit req =>
        refine ⟨[polled.traced.tickets.sent], rfl, fun ticket hticket => ?_,
          Nat.le_succ_of_le h.sent, rfl⟩
        rw [List.mem_singleton.mp hticket]
        exact h.sent
    | clearQueue => exact ⟨[], (List.append_nil _).symm, by simp, h.sent, rfl⟩
    | getSuggestedMaxSize => exact ⟨[], (List.append_nil _).symm, by simp, h.sent, rfl⟩
  obtain ⟨new, hnewChannel, hnewLater, hmark, hstarted⟩ := hnew
  refine
    { place := hplace ▸ h.place
      queue := fun hqueue => ?_
      pending := ?_
      sent := hmark
      started := hstarted.trans h.started
      left := ⟨cmds, arrived ++ [cmd], earlier, later ++ new, ?_, ?_, hearlier, ?_, ?_⟩ }
  · rw [← hsent]
    exact h.queue (hplace ▸ hqueue)
  · rw [← hsent]
    exact h.pending
  · rw [← hsent, ← List.append_assoc, ← hrequests]
  · rw [hnewChannel, hchannel, List.append_assoc]
  · exact fun ticket hticket =>
      (List.mem_append.mp hticket).elim (hlater ticket) (hnewLater ticket)
  · rw [← hsent]
    exact hqueued

/-- A command is received. -/
theorem Draining.receive {polled next : PolledProcessor} {mark : Nat} {before : List Nat}
    (h : Draining mark before polled) (haudited : polled.traced.Audited)
    (hstep : polled.step .receive = some next) : Drops mark before next := by
  obtain ⟨-, htraced, hplace⟩ := step_receive.mp hstep
  obtain ⟨cmds, arrived, earlier, later, hrequests, hchannel, hearlier, hlater, hqueued⟩ := h.left
  cases cmds with
  | nil =>
      exact .inl (TracedProcessor.since_step
        (since_of_received h haudited hchannel hearlier hlater hqueued) htraced)
  | cons cmd rest =>
      have hreceived := received_of_step hrequests htraced
      have hlength : (TracedProcessor.submitted cmd).toList.length ≤ earlier.length := by
        rw [hearlier]
        cases cmd with
        | submit req => exact Nat.succ_le_succ (Nat.zero_le _)
        | clearQueue => exact Nat.zero_le _
        | getSuggestedMaxSize => exact Nat.zero_le _
      have hrest : (earlier.drop (TracedProcessor.submitted cmd).toList.length).length =
          (rest.filterMap TracedProcessor.submitted).length := by
        rw [List.length_drop, hearlier]
        cases cmd with
        | submit req => exact Nat.succ_sub_one _
        | clearQueue => rfl
        | getSuggestedMaxSize => rfl
      exact .inr
        { place := by rw [hplace]; exact PollPlace.noConfusion
          queue := fun hqueue => by rw [hplace] at hqueue; cases hqueue
          pending := hreceived.pending.trans h.pending
          sent := hreceived.sent ▸ h.sent
          started := hreceived.started.trans h.started
          left := ⟨rest, arrived, _, later, hreceived.requestRx,
            by rw [hreceived.channel, hchannel, List.drop_append_of_le_length hlength], hrest,
            hlater, by rwa [← hreceived.queued]⟩ }

/-- Nothing starts from an empty queue. -/
theorem stepQueue_of_empty (polled : PolledProcessor) (haudited : polled.traced.Audited)
    (hpending : polled.traced.processor.pendingProposal = none)
    (hempty : polled.traced.processor.requestQueue = []) :
    polled.stepQueue = some { polled with place := .commands } := by
  rw [stepQueue_of_none polled hpending]
  refine goOn_eq_some.mpr ⟨TracedProcessor.step_eq_some.mpr ⟨?_, ?_, rfl⟩, rfl⟩
  · refine BatchSubmissionProcessor.step_startNext.mpr ⟨hpending, ?_⟩
    unfold BatchSubmissionProcessor.startNext
    rw [hempty]
  · have htracks := haudited.tracks.queue
    rw [hempty] at htracks
    show polled.traced.tickets = polled.traced.tickets.start
    unfold Tickets.start
    rw [List.map_eq_nil_iff.mp htracks]

/-- Every event keeps a batch that was sent before from being proposed. -/
theorem drops_step {polled next : PolledProcessor} {event : PollEvent} {mark : Nat}
    {before : List Nat} (haudited : polled.traced.Audited) (h : Drops mark before polled)
    (hstep : polled.step event = some next) : Drops mark before next := by
  obtain hsince | hdraining := h
  · refine .inl ?_
    obtain heq | ⟨e, he⟩ := erase_step hstep
    · rwa [heq]
    · exact TracedProcessor.since_step hsince he
  cases event with
  | send cmd => exact .inr (hdraining.send hstep)
  | readResult =>
      obtain ⟨htraced, hplace⟩ := goOn_eq_some.mp hstep
      obtain ⟨hprocessor, htickets, -⟩ := TracedProcessor.step_eq_some.mp htraced
      have hread := Option.some.inj hprocessor
      have hsame : next.traced.tickets = polled.traced.tickets := htickets
      exact .inr
        { place := hplace ▸ hdraining.place
          queue := fun hqueue => hread ▸ hdraining.queue (hplace ▸ hqueue)
          pending := hread ▸ hdraining.pending
          sent := hsame ▸ hdraining.sent
          started := hsame ▸ hdraining.started
          left := by rw [← hread, hsame]; exact hdraining.left }
  | pollProposal ready => exact absurd (step_pollProposal.mp hstep).1 hdraining.place
  | popNext =>
      obtain ⟨hplace, hqueue⟩ := step_popNext.mp hstep
      have hempty := hdraining.queue hplace
      rw [stepQueue_of_empty polled haudited hdraining.pending hempty] at hqueue
      cases hqueue
      exact .inr
        { place := PollPlace.noConfusion
          queue := fun _ => hempty
          pending := hdraining.pending
          sent := hdraining.sent
          started := hdraining.started
          left := hdraining.left }
  | receive => exact hdraining.receive haudited hstep
  | drained =>
      obtain ⟨⟨-, hempty⟩, rfl⟩ := step_drained.mp hstep
      obtain ⟨cmds, arrived, earlier, later, hrequests, hchannel, hearlier, hlater, hqueued⟩ :=
        hdraining.left
      obtain ⟨rfl, -⟩ := List.append_eq_nil_iff.mp (hrequests.symm.trans hempty)
      have hsince : Tickets.Since mark before polled.traced.tickets :=
        since_of_received hdraining haudited hchannel hearlier hlater hqueued
      exact .inl hsince

/-- Every run keeps a batch that was sent before from being proposed. -/
theorem drops_run {polled final : PolledProcessor} {events : List PollEvent} {mark : Nat}
    {before : List Nat} (haudited : polled.traced.Audited) (h : Drops mark before polled)
    (hrun : Transition.run step polled events = some final) :
    ∃ later, final.traced.tickets.started = before ++ later ∧ ∀ ticket ∈ later, mark ≤ ticket := by
  let inv : PolledProcessor → Prop := fun reached =>
    reached.traced.Audited ∧ Drops mark before reached
  have hstep : ∀ reached event next, inv reached → step reached event = some next → inv next := by
    intro reached event next hinv hnext
    refine ⟨?_, drops_step hinv.1 hinv.2 hnext⟩
    obtain heq | ⟨e, he⟩ := erase_step hnext
    · exact heq ▸ hinv.1
    · exact hinv.1.step he
  have hfinal : inv final := Transition.invariant_run_of_step hstep ⟨haudited, h⟩ hrun
  obtain hsince | hdraining := hfinal.2
  · exact hsince.started
  · exact ⟨[], hdraining.started.trans (List.append_nil _).symm, fun _ hticket => by cases hticket⟩

/-- After the pending proposal has failed with an error that is not taken for a success, no batch
submitted before is proposed in any continuation exactly if every submission in the channel has a
command to clear the queue behind it, or the processor panics before, as it divides by a factor of
zero for a size that is asked for behind a submission. -/
theorem failure_drops_earlier_iff {maxBlockSize daThrottlingFactor : Nat} {events : List PollEvent}
    {reached failed : PolledProcessor} {e : BatchProposalError}
    (hrun : Transition.run step (new maxBlockSize daThrottlingFactor) events = some reached)
    (hpending : reached.traced.processor.pendingProposal ≠ none)
    (he : e.matchesNonceTooLow = false)
    (hfail : reached.step (.pollProposal (some (.error e))) = some failed) :
    (∀ after final, Transition.run step failed after = some final →
        ∃ later, final.traced.tickets.started = failed.traced.tickets.started ++ later ∧
          ∀ ticket ∈ later, failed.traced.tickets.sent ≤ ticket) ↔
      ¬ LeavesSubmission reached.traced.processor.requestRx ∨
        daThrottlingFactor = 0 ∧
          AsksSizeOfSubmission reached.traced.processor.requestRx := by
  obtain ⟨-, hproposal⟩ := step_pollProposal.mp hfail
  rw [stepProposal_of_ready reached hpending] at hproposal
  obtain ⟨htraced, hplace⟩ := goOn_eq_some.mp hproposal
  obtain ⟨hidle, hempty, hrequests, -⟩ := TracedProcessor.complete_failed he htraced
  have haudited : failed.traced.Audited := (audited_run hrun).step htraced
  have hfactor : failed.traced.processor.daThrottlingFactor = daThrottlingFactor := by
    obtain ⟨erased, herased⟩ := run_erase hrun
    have hreached :=
      BatchSubmissionProcessor.daThrottlingFactor_run (TracedProcessor.run_erase herased)
    have hprocessor := (TracedProcessor.step_eq_some.mp htraced).1
    exact (BatchSubmissionProcessor.suggestedSizes_step hprocessor).2.1.trans hreached
  have hqueued : failed.traced.processor.queued = false :=
    BatchSubmissionProcessor.queued_eq_false.mpr hempty
  have hleft : queuedAfter failed.traced.processor.daThrottlingFactor
      failed.traced.processor.queued failed.traced.processor.requestRx ≠ some true ↔
        ¬ LeavesSubmission reached.traced.processor.requestRx ∨
          daThrottlingFactor = 0 ∧
            AsksSizeOfSubmission reached.traced.processor.requestRx := by
    rw [hfactor, hqueued, hrequests, Ne, queuedAfter_eq_true_iff]
    simp only [Bool.false_eq_true, false_and, or_false]
    tauto
  rw [← hleft]
  constructor
  · intro hlater hqueuedAfter
    -- `poll` goes on to its loop, receives everything there, and proposes in the next iteration
    let popped : PolledProcessor := { failed with place := .commands }
    have hpop : failed.step .popNext = some popped :=
      step_popNext.mpr ⟨hplace, stepQueue_of_empty failed haudited hidle hempty⟩
    obtain ⟨received, hreceived, hend, hnone, hbatch, hstill, hsent, hstarted⟩ :=
      exists_run_receive (show popped.place = .commands from rfl) rfl hqueuedAfter
    have hreceivedAudited : received.traced.Audited := audited_of_run haudited
      (Transition.run_cons.mpr ⟨popped, hpop, hreceived⟩)
    obtain ⟨final, ticket, hfinal, hproposed, hbound⟩ :=
      exists_run_start hreceivedAudited hend hnone hbatch (hstill.trans hidle)
    obtain ⟨later, happend, hall⟩ := hlater _ final
      (Transition.run_cons.mpr
        ⟨popped, hpop, Transition.run_append.mpr ⟨received, hreceived, hfinal⟩⟩)
    rw [hproposed, hstarted] at happend
    obtain rfl := List.append_cancel_left happend
    have hmark := hall ticket List.mem_cons_self
    rw [hsent] at hbound
    exact Nat.not_lt_of_le hmark hbound
  · intro hnone after final hafter
    refine drops_run haudited (.inr ?_) hafter
    have hlength := congrArg List.length haudited.tracks.channel
    rw [List.length_map, List.length_map] at hlength
    exact
      { place := by rw [hplace]; exact PollPlace.noConfusion
        queue := fun _ => hempty
        pending := hidle
        sent := le_refl _
        started := rfl
        left := ⟨failed.traced.processor.requestRx, [], failed.traced.tickets.channel, [],
          (List.append_nil _).symm, (List.append_nil _).symm, hlength,
          by simp, hnone⟩ }

/-- Two batches are sent, and `poll` comes back to the proposal of the first, with the command for
the second received or still in the channel. -/
def failsBefore (received : Bool) : List PollEvent :=
  [.send (.submit (BatchSubmissionProcessor.rangeRequest 1 5)), .pollProposal none, .popNext,
    .receive, .drained, .pollProposal none, .popNext] ++
    if received then
      [.send (.submit (BatchSubmissionProcessor.rangeRequest 6 2)), .receive, .drained]
    else [.drained, .send (.submit (BatchSubmissionProcessor.rangeRequest 6 2))]

/-- If the second batch is received before the first fails, it is dropped for good. -/
theorem failure_drops_received :
    ∃ reached failed, Transition.run step (new 1000 10) (failsBefore true) = some reached ∧
      reached.step (.pollProposal (some (.error .deadlineReached))) = some failed ∧
      failed.traced.tickets.started = [0] ∧
      failed.traced.tickets.dropped = [(1, .failedProposal .deadlineReached)] ∧
      ∀ after final, Transition.run step failed after = some final →
        ∃ later, final.traced.tickets.started = failed.traced.tickets.started ++ later ∧
          ∀ ticket ∈ later, failed.traced.tickets.sent ≤ ticket := by
  obtain ⟨reached, failed, hreached, hpending, hfailed, hstarted, hdropped, hchannel⟩ :
      ∃ reached failed, Transition.run step (new 1000 10) (failsBefore true) = some reached ∧
        reached.traced.processor.pendingProposal ≠ none ∧
        reached.step (.pollProposal (some (.error .deadlineReached))) = some failed ∧
        failed.traced.tickets.started = [0] ∧
        failed.traced.tickets.dropped = [(1, .failedProposal .deadlineReached)] ∧
        reached.traced.processor.requestRx = [] :=
    ⟨_, _, rfl, Option.some_ne_none _, rfl, rfl, rfl, rfl⟩
  refine ⟨reached, failed, hreached, hfailed, hstarted, hdropped, ?_⟩
  refine (failure_drops_earlier_iff hreached hpending rfl hfailed).mpr (.inl ?_)
  rw [hchannel]
  exact submissionBefore_nil

/-- If it is received afterwards, in the same iteration, it is proposed in the next one although it
builds on the first. -/
theorem failure_proposes_unreceived :
    ∃ reached failed final,
      Transition.run step (new 1000 10) (failsBefore false) = some reached ∧
      reached.traced.processor.pendingProposal =
        some ((BatchSubmissionProcessor.rangeRequest 1 5).batch, 50) ∧
      reached.step (.pollProposal (some (.error .deadlineReached))) = some failed ∧
      Transition.run step failed [.popNext, .receive, .drained, .pollProposal none, .popNext] =
        some final ∧
      failed.traced.tickets.sent = 2 ∧
      final.traced.tickets.started = failed.traced.tickets.started ++ [1] ∧
      final.traced.processor.pendingProposal =
        some ((BatchSubmissionProcessor.rangeRequest 6 2).batch, 50) :=
  ⟨_, _, _, rfl, rfl, rfl, rfl, rfl, rfl, rfl⟩

end PolledProcessor

end Mk1
