import Mk1.Driver.EventLoop.BuilderLock

/-!
# Handlers that wait in vain

A handler that waits for the builder blocks the event loop. Only the loop
consumes the responses of the builder, so a finalization that succeeds meanwhile
is never consumed, and its guard is never dropped. The wait ends only if the
finalization fails, or if a version of the builder state was still unseen.
-/

namespace Mk1

namespace Driver

/-- Whether the handler that runs is suspended in `wait_for_idle`. -/
def waitsForBuilder (driver : Driver) : Bool :=
  match driver.call with
  | some (.awaitIdle _ _) | some .syncAwaitIdle => true
  | _ => false

/-- A handler waits, it has seen the last version of the builder state, and nothing in the
background can send another one. -/
structure Halted (driver : Driver) : Prop where
  waits : driver.waitsForBuilder = true
  seen : driver.blockBuilder.state.channel.hasChanged = false
  nothingRuns : driver.blockBuilder.finalizations = []

variable {driver next : Driver} {event : Event}

/-- What is waited for depends on the call alone. -/
theorem waitsForBuilder_congr (h : next.call = driver.call) :
    next.waitsForBuilder = driver.waitsForBuilder := by
  unfold waitsForBuilder
  rw [h]

/-- A driver that waits has a call. -/
theorem exists_call_of_waits (h : driver.waitsForBuilder = true) :
    driver.call = some .syncAwaitIdle ∨
      ∃ newAnchor deadline, driver.call = some (.awaitIdle newAnchor deadline) := by
  unfold waitsForBuilder at h
  split at h
  · next newAnchor deadline hcall => exact .inr ⟨newAnchor, deadline, hcall⟩
  · next hcall => exact .inl hcall
  · cases h

/-- What can happen while a handler waits: it is `woken`, a block is `produced` or has `failed` in
the background, or the preconf router is `checked`. -/
inductive WhileWaiting (driver : Driver) : Event → Driver → Prop
  | woken {next : Driver} (answers : Answers)
      (hunseen : driver.blockBuilder.state.channel.hasChanged = true)
      (hends : next.waitsForBuilder = false) : WhileWaiting driver (.resume answers) next
  | produced {blockBuilder : L2BlockBuilder} (finalization : Finalization) (newBlock : Header)
      (hprogress :
        driver.blockBuilder.progress (.finalized finalization newBlock) = some blockBuilder) :
      WhileWaiting driver (.background (.builder (.finalized finalization newBlock)))
        { driver with
          blockBuilder := blockBuilder
          log := finalizedEntries (.finalized finalization newBlock) ++ driver.log }
  | failed {blockBuilder : L2BlockBuilder} (finalization : Finalization)
      (hprogress :
        driver.blockBuilder.progress (.finalizationFailed finalization) = some blockBuilder) :
      WhileWaiting driver (.background (.builder (.finalizationFailed finalization)))
        { driver with blockBuilder := blockBuilder }
  | checked (isSet : Bool) :
      WhileWaiting driver (.background (.preconfRouterChecked isSet))
        { driver with l1 := { driver.l1 with isPreconfRouterSet := isSet } }

/-- Submitting the batch ends a wait. -/
theorem call_submitAndReset (driver : Driver) (newAnchor : Header) (deadline : Nat) :
    (driver.submitAndReset newAnchor deadline).call = driver.call := by
  obtain heq | ⟨-, heq⟩ := driver.submitAndReset_cases newAnchor deadline
  · rw [heq]
  · rw [heq]

/-- The event loop does not run while a handler waits, and a wait only goes on if there is a
version of the builder state that has not been seen. -/
theorem whileWaiting_of_step (hwaits : driver.waitsForBuilder = true)
    (hnext : driver.step event = some next) : WhileWaiting driver event next := by
  cases event with
  | handle event =>
      obtain ⟨hcall, -, -⟩ := step_handle hnext
      simp [waitsForBuilder, hcall] at hwaits
  | resume answers =>
      obtain ⟨call, hcall, hperform⟩ | ⟨hcall, -⟩ := step_resume hnext
      · obtain hsync | ⟨newAnchor, deadline, hsubmit⟩ := exists_call_of_waits hwaits
        · obtain rfl := Option.some.inj (hcall.symm.trans hsync)
          obtain ⟨polled, hpoll, rfl⟩ := Option.map_eq_some_iff.mp hperform
          obtain ⟨state, hstate, -⟩ := Option.map_eq_some_iff.mp hpoll
          exact .woken answers (BuilderState.isFinalizing_pollChanged hstate).1 rfl
        · obtain rfl := Option.some.inj (hcall.symm.trans hsubmit)
          obtain ⟨polled, hpoll, rfl⟩ := Option.map_eq_some_iff.mp hperform
          obtain ⟨state, hstate, rfl⟩ := Option.map_eq_some_iff.mp hpoll
          refine .woken answers (BuilderState.isFinalizing_pollChanged hstate).1 ?_
          rw [waitsForBuilder, call_submitAndReset]
      · simp [waitsForBuilder, hcall] at hwaits
  | background event =>
      cases event with
      | builder event =>
          obtain ⟨blockBuilder, hprogress, hnext⟩ := Option.bind_eq_some_iff.mp hnext
          cases hnext
          cases event with
          | finalized finalization newBlock => exact .produced finalization newBlock hprogress
          | finalizationFailed finalization => exact .failed finalization hprogress
      | preconfRouterChecked isSet =>
          cases hnext
          exact .checked isSet

/-- Nothing but a check of the preconf router can happen to a halted driver, and it changes nothing
else. -/
theorem Halted.step (h : Halted driver) (hnext : driver.step event = some next) :
    Halted next ∧ ∃ isSet, event = .background (.preconfRouterChecked isSet) ∧
      next = { driver with l1 := { driver.l1 with isPreconfRouterSet := isSet } } := by
  cases whileWaiting_of_step h.waits hnext with
  | woken answers hunseen hends =>
      rw [h.seen] at hunseen
      cases hunseen
  | produced finalization newBlock hprogress =>
      obtain ⟨hmem, -⟩ := L2BlockBuilder.progress_finalized hprogress
      rw [h.nothingRuns] at hmem
      cases hmem
  | failed finalization hprogress =>
      obtain ⟨hmem, -⟩ := L2BlockBuilder.progress_finalizationFailed hprogress
      rw [h.nothingRuns] at hmem
      cases hmem
  | checked isSet => exact ⟨⟨h.waits, h.seen, h.nothingRuns⟩, isSet, rfl, rfl⟩

/-- A driver that has halted never goes on: its log, its batch and its status are final. -/
theorem Halted.run {events : List Event} (h : Halted driver)
    (hrun : Transition.run Driver.step driver events = some next) :
    Halted next ∧ (∀ event ∈ events, ∃ isSet, event = .background (.preconfRouterChecked isSet)) ∧
      ∃ isSet, next = { driver with l1 := { driver.l1 with isPreconfRouterSet := isSet } } := by
  induction events generalizing driver with
  | nil =>
      cases hrun
      exact ⟨h, by simp, _, rfl⟩
  | cons event rest ih =>
      obtain ⟨middle, hstep, hrest⟩ := Transition.run_cons.mp hrun
      obtain ⟨hmiddle, isSet, rfl, rfl⟩ := h.step hstep
      obtain ⟨hnext, hevents, isSet', hfinal⟩ := ih hmiddle hrest
      refine ⟨hnext, fun other hother => ?_, isSet', hfinal⟩
      rcases List.mem_cons.mp hother with rfl | hmem
      · exact ⟨isSet, rfl⟩
      · exact hevents other hmem

/-- A wait whose version is unseen is woken by the next poll. -/
theorem resume_of_unseen (hwaits : driver.waitsForBuilder = true)
    (hunseen : driver.blockBuilder.state.channel.hasChanged = true) (answers : Answers) :
    ∃ next, driver.step (.resume answers) = some next := by
  have hpoll : ∃ state, driver.blockBuilder.state.pollChanged = some state := by
    cases hchanged : driver.blockBuilder.state.channel.changed with
    | none =>
        rw [WatchChannel.changed_eq_none.mp hchanged] at hunseen
        cases hunseen
    | some channel => exact ⟨⟨channel⟩, by rw [BuilderState.pollChanged, hchanged]; rfl⟩
  obtain ⟨state, hstate⟩ := hpoll
  obtain hcall | ⟨newAnchor, deadline, hcall⟩ := exists_call_of_waits hwaits
  · simp [step, resume, perform, pollIdle, hcall, hstate]
  · simp [step, resume, perform, pollIdle, hcall, hstate]

/-- A wait whose version is unseen ends with the next poll. -/
theorem ends_of_unseen (driver : Driver) (hwaits : driver.waitsForBuilder = true)
    (hunseen : driver.blockBuilder.state.channel.hasChanged = true) (answers : Answers) :
    ∃ next, driver.step (.resume answers) = some next ∧ next.waitsForBuilder = false := by
  obtain ⟨next, hnext⟩ := resume_of_unseen hwaits hunseen answers
  cases whileWaiting_of_step hwaits hnext with
  | woken _ _ hends => exact ⟨next, hnext, hends⟩

/-- A finalization that runs can fail, which sends the idle state. -/
theorem exists_failed {finalization : Finalization}
    (hmem : finalization ∈ driver.blockBuilder.finalizations) :
    ∃ failed, driver.step (.background (.builder (.finalizationFailed finalization))) =
        some failed ∧ failed.call = driver.call ∧
      failed.blockBuilder.state = driver.blockBuilder.state.release := by
  simp [step, progress, L2BlockBuilder.progress, hmem, finalizedEntries]

/-- A wait can end exactly if a version of the builder state is unseen or a finalization still
runs, which may fail. -/
theorem wait_ends_iff (hwaits : driver.waitsForBuilder = true) :
    (∃ events next, Transition.run step driver events = some next ∧
        next.waitsForBuilder = false) ↔
      driver.blockBuilder.state.channel.hasChanged = true ∨
        driver.blockBuilder.finalizations ≠ [] := by
  constructor
  · rintro ⟨events, next, hrun, hends⟩
    by_contra hneither
    obtain ⟨hseen, hnone⟩ := not_or.mp hneither
    have hhalted : Halted driver :=
      ⟨hwaits, Bool.eq_false_iff.mpr hseen, not_not.mp hnone⟩
    rw [(hhalted.run hrun).1.waits] at hends
    cases hends
  · rintro (hunseen | hruns)
    · obtain ⟨next, hnext, hends⟩ := driver.ends_of_unseen hwaits hunseen laterAnswers
      exact ⟨[_], next, Transition.run_cons.mpr ⟨next, hnext, rfl⟩, hends⟩
    · -- the first of the finalizations fails, and the idle state that it sends wakes the wait
      obtain ⟨finalization, hmem⟩ := List.exists_mem_of_ne_nil _ hruns
      obtain ⟨failed, hfail, hcall, hstate⟩ := exists_failed hmem
      have hunseen : failed.blockBuilder.state.channel.hasChanged = true := by
        rw [hstate]
        exact WatchChannel.hasChanged_send _ _
      obtain ⟨next, hnext, hends⟩ := failed.ends_of_unseen
        ((waitsForBuilder_congr hcall).trans hwaits) hunseen laterAnswers
      exact ⟨[_, _], next, Transition.run_cons.mpr
        ⟨failed, hfail, Transition.run_cons.mpr ⟨next, hnext, rfl⟩⟩, hends⟩

/-- A wait that is suspended and has seen the last version only ends because one of the
finalizations that run fails. -/
theorem failed_of_wait_ends {events : List Event} (hwaits : driver.waitsForBuilder = true)
    (hseen : driver.blockBuilder.state.channel.hasChanged = false)
    (hrun : Transition.run step driver events = some next)
    (hends : next.waitsForBuilder = false) :
    ∃ finalization ∈ driver.blockBuilder.finalizations,
      .background (.builder (.finalizationFailed finalization)) ∈ events := by
  induction events generalizing driver with
  | nil =>
      cases hrun
      rw [hwaits] at hends
      cases hends
  | cons event rest ih =>
      obtain ⟨middle, hstep, hrest⟩ := Transition.run_cons.mp hrun
      cases whileWaiting_of_step hwaits hstep with
      | woken answers hunseen hended =>
          rw [hseen] at hunseen
          cases hunseen
      | produced finalization newBlock hprogress =>
          obtain ⟨-, hstate, hfinalizations, -⟩ := L2BlockBuilder.progress_finalized hprogress
          obtain ⟨other, hother, hfailed⟩ :=
            ih (by exact hwaits) (by rw [hstate]; exact hseen) hrest
          rw [hfinalizations] at hother
          exact ⟨other, List.mem_of_mem_erase hother, List.mem_cons_of_mem _ hfailed⟩
      | failed finalization hprogress =>
          obtain ⟨hmem, -⟩ := L2BlockBuilder.progress_finalizationFailed hprogress
          exact ⟨finalization, hmem, List.mem_cons_self⟩
      | checked isSet =>
          obtain ⟨other, hother, hfailed⟩ := ih (by exact hwaits) (by exact hseen) hrest
          exact ⟨other, hother, List.mem_cons_of_mem _ hfailed⟩

/-! ## Runs from the start -/

/-- Only a call that is not to wait, or a wait for a version that has not come yet, is begun. -/
def BeginsSeen (driver : Driver) : Prop :=
  driver.waitsForBuilder = true → driver.blockBuilder.state.channel.hasChanged = false

/-- A call that does not wait for the builder begins no wait. -/
theorem beginsSeen_of_call (h : ∀ newAnchor deadline,
    driver.call ≠ some (.awaitIdle newAnchor deadline) ∧ driver.call ≠ some .syncAwaitIdle) :
    driver.BeginsSeen := by
  intro hwaits
  obtain hcall | ⟨newAnchor, deadline, hcall⟩ := exists_call_of_waits hwaits
  · exact absurd hcall (h (l1Header 0) 0).2
  · exact absurd hcall (h newAnchor deadline).1

/-- Nothing waits if no handler runs. -/
theorem beginsSeen_of_none (h : driver.call = none) : driver.BeginsSeen :=
  beginsSeen_of_call fun _ _ => by simp [h]

/-- A submission is suspended only if the last version has been seen. -/
theorem beginsSeen_submitLocalOutstandingBatch (hcall : driver.call = none) (deadline : Nat) :
    (driver.submitLocalOutstandingBatch deadline).BeginsSeen := by
  unfold submitLocalOutstandingBatch
  obtain ⟨-, hwait⟩ | ⟨-, -, state, hwait, -⟩ | ⟨-, hseen, hwait⟩ :=
    driver.blockBuilder.state.waitForIdle_cases
  · rw [hwait]
    exact beginsSeen_of_none ((call_submitAndReset _ _ _).trans hcall)
  · rw [hwait]
    exact beginsSeen_of_none ((call_submitAndReset _ _ _).trans hcall)
  · rw [hwait]
    exact fun _ => hseen

/-- A sync is suspended only if the last version has been seen. -/
theorem beginsSeen_startSync (driver : Driver) (reads : LookaheadReads) :
    (driver.startSync reads).BeginsSeen := by
  obtain ⟨lookahead, status, heq⟩ := driver.syncLookahead_eq driver.l1.headSlot reads
  unfold startSync
  rw [heq]
  dsimp only
  obtain ⟨-, hwait⟩ | ⟨-, -, state, hwait, -⟩ | ⟨-, hseen, hwait⟩ :=
    driver.blockBuilder.state.waitForIdle_cases
  · rw [hwait]
    exact beginsSeen_of_call fun _ _ => ⟨by simp [await], by simp [await]⟩
  · rw [hwait]
    exact beginsSeen_of_call fun _ _ => ⟨by simp [await], by simp [await]⟩
  · rw [hwait]
    exact fun _ => hseen

/-- Adopting a plan ends the handler. -/
theorem call_adoptPlan (driver : Driver) (plan : SyncPlan) :
    (driver.adoptPlan plan).call = driver.call := by
  obtain ⟨entries, outstandingBatch, heq, -⟩ := driver.adoptPlan_eq plan
  rw [heq]

/-- Going on with the blocks of a plan waits for nothing. -/
theorem beginsSeen_finalizeNext (hcall : driver.call = none) (plan : SyncPlan)
    (blocks : List (Header × PreconfirmedBlock)) :
    (driver.finalizeNext plan blocks).BeginsSeen := by
  obtain ⟨-, heq⟩ | ⟨anchor, block, rest, -, heq⟩ := driver.finalizeNext_cases plan blocks
  · rw [heq]
    exact beginsSeen_of_none ((driver.call_adoptPlan plan).trans hcall)
  · rw [heq]
    exact beginsSeen_of_call fun _ _ => ⟨by simp [await], by simp [await]⟩

/-- An event of the event loop begins a wait only for a version that has not come yet. -/
theorem beginsSeen_handle {event : LoopEvent} (hcall : driver.call = none)
    (hnext : driver.handle event = some next) : next.BeginsSeen := by
  cases event with
  | l1SlotTick timestamp currentSlot =>
      cases hnext
      unfold onL1SlotTick
      dsimp only
      split
      · exact beginsSeen_submitLocalOutstandingBatch (by exact hcall) _
      · exact beginsSeen_of_none hcall
  | l2SlotTick timestamp reads =>
      cases hnext
      obtain heq | ⟨payload, -, -, -, -, heq⟩ := driver.onL2SlotTick_cases timestamp reads
      · rw [heq]
        exact beginsSeen_of_none hcall
      · rw [heq]
        exact beginsSeen_of_none hcall
  | taikoPreconfEvent currentEpoch reads =>
      cases hnext
      obtain ⟨lookahead, status, heq⟩ := syncLookahead_eq
        { driver with lookahead := driver.lookahead.updateEndOfSequencingMark currentEpoch }
        driver.l1.headSlot reads
      unfold onTaikoPreconfEvent
      rw [heq]
      exact beginsSeen_of_none hcall
  | blockProduced reads =>
      obtain ⟨⟨⟨finalization, response⟩, rest⟩, -, hnext⟩ := Option.bind_eq_some_iff.mp hnext
      cases hnext
      obtain ⟨entries, outstandingBatch, heq, -⟩ := addBlocks_eq
        { driver with blockBuilder := rest.release } response.anchor reads.estimates
        (gapBlocks { driver with blockBuilder := rest.release } response.preconfirmedBlock reads ++
          [response.preconfirmedBlock])
      unfold onProducedBlock
      rw [heq]
      exact beginsSeen_of_none hcall
  | l1Block l1Header reads =>
      cases hnext
      obtain ⟨epoch, heq⟩ := driver.onL1Block_eq l1Header reads
      rw [heq]
      exact beginsSeen_of_none ((driver.call_updateL1Info l1Header reads).trans hcall)
  | l2Block l2Block reads =>
      cases hnext
      obtain ⟨l1, heq, -⟩ := driver.onL2Block_eq l2Block reads
      obtain ⟨-, hreorg⟩ | ⟨-, l2, hreorg⟩ :=
        (driver.record (.l2Block l2Block)).onL2Reorg_cases l2Block reads.headL1Origin
      · rw [heq, hreorg]
        exact beginsSeen_of_none hcall
      · rw [heq, hreorg]
        exact beginsSeen_of_none hcall
  | operatorChanged =>
      cases hnext
      exact beginsSeen_of_call fun _ _ => ⟨by simp [onOperatorChanged, await],
        by simp [onOperatorChanged, await]⟩
  | batchProposalErr e =>
      cases hnext
      unfold onBatchProposalErr
      split
      · exact beginsSeen_of_none hcall
      · exact beginsSeen_of_call fun _ _ => ⟨by simp [await], by simp [await]⟩

/-- A call that goes on begins a wait only for a version that has not come yet. -/
theorem beginsSeen_perform {answers : Answers} {call : Call} (hcall : driver.call = none)
    (hnext : driver.perform answers call = some next) : next.BeginsSeen := by
  cases call with
  | startupSync =>
      cases hnext
      obtain heq | ⟨l1Header, heq | heq⟩ := driver.startupSync_cases answers.l1Tip answers.l1Info
      all_goals
        rw [heq]
        exact beginsSeen_of_call fun _ _ => ⟨by simp [await], by simp [await]⟩
  | awaitIdle newAnchor deadline =>
      obtain ⟨polled, hpoll, rfl⟩ := Option.map_eq_some_iff.mp hnext
      obtain ⟨state, -, rfl⟩ := pollIdle_eq hpoll
      exact beginsSeen_of_none ((call_submitAndReset _ _ _).trans hcall)
  | syncLookahead =>
      cases hnext
      exact driver.beginsSeen_startSync answers.lookahead
  | syncAwaitIdle =>
      obtain ⟨polled, -, rfl⟩ := Option.map_eq_some_iff.mp hnext
      exact beginsSeen_of_call fun _ _ => ⟨by simp [await], by simp [await]⟩
  | syncBatches =>
      cases hnext
      unfold syncBatches proposePlan
      split
      · split
        · exact beginsSeen_finalizeNext hcall _ _
        · exact beginsSeen_of_none ((driver.call_adoptPlan _).trans hcall)
      · exact beginsSeen_of_call fun _ _ => ⟨by simp [await], by simp [await]⟩
  | finalizeBatches plan anchor block rest =>
      cases hnext
      obtain ⟨-, heq⟩ | ⟨response, -, heq⟩ :=
        driver.finalizeBatches_cases plan anchor block rest answers.finalize
      · rw [heq]
        exact beginsSeen_of_none ((driver.call_adoptPlan plan).trans hcall)
      · rw [heq]
        exact beginsSeen_finalizeNext (by exact hcall) plan rest

/-- A part of an L1 tick begins a wait only for a version that has not come yet. -/
theorem beginsSeen_performPart (hcall : driver.call = none) (answers : Answers) (part : TickPart) :
    (driver.performPart answers part).BeginsSeen := by
  cases part with
  | enterSlot slot =>
      unfold performPart enterSlot
      dsimp only
      split
      · exact beginsSeen_of_call fun _ _ => ⟨by simp [await], by simp [await]⟩
      · obtain ⟨status, heq⟩ := driver.updateStatus_eq
          (driver.lookahead.driverStatus answers.lookahead.currentTimestamp slot)
        rw [heq]
        exact beginsSeen_of_none hcall
  | submitInHandover =>
      unfold performPart submitInHandover
      dsimp only
      split
      · exact beginsSeen_submitLocalOutstandingBatch hcall _
      · exact beginsSeen_of_none hcall
  | updateOutstandingBatchAnchor =>
      unfold performPart
      obtain heq | ⟨-, -, heq⟩ := driver.updateOutstandingBatchAnchorIfNeeded_cases
      · rw [heq]
        exact beginsSeen_of_none hcall
      · rw [heq]
        exact beginsSeen_of_none hcall

/-- While a handler waits, the last version has been seen, unless nothing is in progress any more,
and at most one finalization is in progress. -/
structure WaitsForOne (driver : Driver) : Prop where
  lock : driver.blockBuilder.LockCovers
  seen : driver.waitsForBuilder = true →
    driver.blockBuilder.state.channel.hasChanged = false ∨ driver.blockBuilder.unconsumed = []

/-- A step that drops no response of a sync while a finalization is in progress keeps this. -/
theorem WaitsForOne.step (h : WaitsForOne driver) (halone : driver.finalizesAlone event = true)
    (hnext : driver.step event = some next) : WaitsForOne next := by
  refine ⟨(lockCovers_step_iff h.lock hnext).mpr halone, fun hstill => ?_⟩
  cases event with
  | handle event =>
      obtain ⟨hcall, -, hhandle⟩ := step_handle hnext
      exact .inl (beginsSeen_handle hcall hhandle hstill)
  | resume answers =>
      obtain ⟨call, -, hperform⟩ | ⟨hcall, part, rest, -, rfl⟩ := step_resume hnext
      · exact .inl (beginsSeen_perform (by rfl) hperform hstill)
      · exact .inl (beginsSeen_performPart (by exact hcall) answers part hstill)
  | background event =>
      have hwaits : driver.waitsForBuilder = true := by
        rw [← hstill]
        refine (waitsForBuilder_congr ?_).symm
        cases event with
        | builder event =>
            obtain ⟨blockBuilder, -, hnext⟩ := Option.bind_eq_some_iff.mp hnext
            cases hnext
            rfl
        | preconfRouterChecked isSet =>
            cases hnext
            rfl
      cases whileWaiting_of_step hwaits hnext with
      | produced finalization newBlock hprogress =>
          obtain ⟨hmem, hstate, -, -⟩ := L2BlockBuilder.progress_finalized hprogress
          obtain hseen | hnone := h.seen hwaits
          · refine .inl ?_
            show _ = false
            rw [hstate]
            exact hseen
          · have hin : finalization ∈ driver.blockBuilder.unconsumed :=
              List.mem_append_left _ hmem
            rw [hnone] at hin
            cases hin
      | failed finalization hprogress =>
          -- the finalization that has failed was the only one
          have hlength :=
            (L2BlockBuilder.unconsumed_finalizationFailed hprogress).length_eq.symm.trans_le
              h.lock.single
          refine .inr (List.length_eq_zero_iff.mp ?_)
          exact Nat.le_zero.mp (Nat.le_of_succ_le_succ hlength)
      | checked isSet => exact h.seen hwaits

/-- In a run from the start of the driver in which no sync drops a response while a finalization is
in progress, a finalization that succeeds while a handler waits for the builder halts the driver:
the event loop never handles an event again, and nothing but the check of the preconf router
changes. -/
theorem halts_once_finalized {cfg : RuntimeConfig} {l1 : L1State} {l2 : L2State}
    {events : List Event} {finalization : Finalization} {newBlock : Header} {halted : Driver}
    (hrun : Transition.run step (new cfg l1 l2) events = some driver)
    (halone : Transition.StepsMeet step (fun driver event => driver.finalizesAlone event)
      (new cfg l1 l2) events)
    (hwaits : driver.waitsForBuilder = true)
    (hfinalized : driver.step (.background (.builder (.finalized finalization newBlock))) =
      some halted) :
    ∀ later final, Transition.run step halted later = some final →
      (∀ event ∈ later, ∃ isSet, event = .background (.preconfRouterChecked isSet)) ∧
        ∃ isSet, final = { halted with l1 := { halted.l1 with isPreconfRouterSet := isSet } } := by
  have hinitial : (new cfg l1 l2).blockBuilder.LockCovers :=
    ⟨Nat.zero_le 1, fun hne => absurd rfl hne⟩
  have hinv : WaitsForOne driver :=
    Transition.invariant_run (fun _ _ _ hinv halone hstep => hinv.step halone hstep)
      ⟨hinitial, fun hwaits => by cases hwaits⟩ halone hrun
  have hhalted : Halted halted := by
    cases whileWaiting_of_step hwaits hfinalized with
    | produced _ _ hprogress =>
        obtain ⟨hmem, hstate, hfinalizations, -⟩ := L2BlockBuilder.progress_finalized hprogress
        have hin : finalization ∈ driver.blockBuilder.unconsumed := List.mem_append_left _ hmem
        have hlength : driver.blockBuilder.finalizations.length ≤ 1 :=
          (List.length_append ▸ Nat.le_add_right _ _ :
            _ ≤ driver.blockBuilder.unconsumed.length).trans hinv.lock.single
        refine ⟨hwaits, ?_, ?_⟩
        · obtain hseen | hnone := hinv.seen hwaits
          · show _ = false
            rw [hstate]
            exact hseen
          · rw [hnone] at hin
            cases hin
        · show _ = []
          rw [hfinalizations, ← List.length_eq_zero_iff, List.length_erase_of_mem hmem]
          omega
  intro later final hlater
  exact (hhalted.run hlater).2

/-- A sync is begun twice while the block of the first L2 tick is being finalized, because the
chain could not be read: the first wait returns at once, the second one is suspended. -/
def waitAfterTrigger : List Event :=
  triggerAfterStartup ++ [.handle .operatorChanged, .resume laterAnswers,
    .resume { laterAnswers with sync := { laterAnswers.sync with l2Head := none } },
    .resume laterAnswers]

/-- The driver waits for the finalization of its first block, and halts when it succeeds. -/
theorem halts_after_trigger :
    ∃ driver finalization halted,
      Transition.run step (startAt 38412 1) waitAfterTrigger = some driver ∧
      driver.waitsForBuilder = true ∧
      driver.step (.background (.builder (.finalized finalization ownHead.header))) = some halted ∧
      ∀ later final, Transition.run step halted later = some final →
        (∀ event ∈ later, ∃ isSet, event = .background (.preconfRouterChecked isSet)) ∧
          ∃ isSet,
            final = { halted with l1 := { halted.l1 with isPreconfRouterSet := isSet } } := by
  obtain ⟨driver, hrun, hwaits, hruns⟩ : ∃ driver,
      Transition.run step (startAt 38412 1) waitAfterTrigger = some driver ∧
        driver.waitsForBuilder = true ∧ driver.blockBuilder.finalizations.isEmpty = false :=
    Transition.exists_run (by decide +kernel)
  obtain ⟨finalization, hmem⟩ :=
    List.exists_mem_of_ne_nil driver.blockBuilder.finalizations (by simpa using hruns)
  obtain ⟨halted, hfinalized⟩ : ∃ halted, driver.step
      (.background (.builder (.finalized finalization ownHead.header))) = some halted := by
    simp [step, progress, L2BlockBuilder.progress, hmem]
  exact ⟨driver, finalization, halted, hrun, hwaits, hfinalized,
    halts_once_finalized hrun (by decide +kernel) hwaits hfinalized⟩

/-- The wait could still end if the finalization failed. -/
theorem wait_after_trigger_ends :
    ∃ driver, Transition.run step (startAt 38412 1) waitAfterTrigger = some driver ∧
      driver.waitsForBuilder = true ∧
      ((∃ events next, Transition.run step driver events = some next ∧
          next.waitsForBuilder = false) ↔
        driver.blockBuilder.state.channel.hasChanged = true ∨
          driver.blockBuilder.finalizations ≠ []) := by
  obtain ⟨driver, hrun, hwaits⟩ : ∃ driver,
      Transition.run step (startAt 38412 1) waitAfterTrigger = some driver ∧
        driver.waitsForBuilder = true :=
    Transition.exists_run (by decide +kernel)
  exact ⟨driver, hrun, hwaits, wait_ends_iff hwaits⟩

end Driver

end Mk1
