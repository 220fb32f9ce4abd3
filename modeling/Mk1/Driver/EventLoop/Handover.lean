import Mk1.Driver.EventLoop.SequencingWindow

/-!
# The wait at a handover

In the last slots of an epoch the operator of the next one builds already. It waits
for the operator before it to say that it has ended, or for some L2 slots, whichever
comes first. The wait is only looked at when the status is calculated, so it has to be
carried from there to the blocks that are built with this status.
-/

namespace Mk1

namespace Lookahead

/-- A sync keeps the mark of the end of sequencing. -/
theorem endOfSequencingMark_sync (lookahead : Lookahead) (headSlot : Nat)
    (currentOperator nextOperator : Option Address) :
    (lookahead.sync headSlot currentOperator nextOperator).endOfSequencingMark =
      lookahead.endOfSequencingMark := by
  unfold Lookahead.sync
  split
  · rfl
  · split
    · rfl
    · rfl

/-- A slot of the inclusion window is in an epoch of the operator. -/
theorem OwnsEpochs.of_inInclusionWindow {schedule : Nat → Address} {lookahead : Lookahead}
    (h : lookahead.OwnsEpochs schedule) {slot : Nat}
    (hslot : lookahead.inInclusionWindow slot = true) :
    schedule (toEpoch slot) = lookahead.cfg.operator := by
  have hcontains := Window.contains_iff h.inclusion
    (by rw [h.inclusionOffset]; exact Nat.zero_le _) slot
  rw [h.inclusionOffset] at hcontains
  exact h.owned _ (hcontains.mp hslot)

/-- A driver that can sequence outside of its inclusion window is past the handover buffer. -/
theorem isPastHandoverBuffer_of_canSequence {lookahead : Lookahead} {now headSlot : Nat}
    (hsequence : (lookahead.driverStatus now headSlot).canSequence = true)
    (hother : lookahead.inInclusionWindow headSlot = false) :
    lookahead.isPastHandoverBuffer now = true := by
  have hwindow := inSequencingWindow_of_canSequence hsequence
  unfold driverStatus at hsequence
  rw [hwindow, hother] at hsequence
  cases hpast : lookahead.isPastHandoverBuffer now with
  | true => rfl
  | false =>
      rw [hpast] at hsequence
      cases hsequence

/-- The wait is over if the end of sequencing has been marked, or if the skipped slots have passed
since the handover window began. -/
theorem isPastHandoverBuffer_cases {lookahead : Lookahead} {now : Nat}
    (h : lookahead.isPastHandoverBuffer now = true)
    (hslot : lookahead.cfg.timestampToL1Slot now % EPOCH_SLOTS ≠ 0) :
    lookahead.endOfSequencingMark = toEpoch (lookahead.cfg.timestampToL1Slot now) ∨
      lookahead.cfg.handoverSkipSlots * lookahead.cfg.l2BlockTime ≤
        now - lookahead.cfg.slotToTimestamp
          (toSlot (toEpoch (lookahead.cfg.timestampToL1Slot now) + 1) -
            lookahead.cfg.handoverWindowSlots) := by
  unfold isPastHandoverBuffer at h
  dsimp only at h
  split at h
  · next hmark => exact .inl hmark
  · refine .inr ?_
    have hnext : nextMultipleOf (lookahead.cfg.timestampToL1Slot now) EPOCH_SLOTS =
        toSlot (toEpoch (lookahead.cfg.timestampToL1Slot now) + 1) := by
      generalize lookahead.cfg.timestampToL1Slot now = slot at hslot
      unfold nextMultipleOf toSlot toEpoch EPOCH_SLOTS at *
      omega
    rw [hnext] at h
    exact of_decide_eq_true h

end Lookahead

namespace Driver

variable {driver next : Driver}

/-- Only an event of the taiko-driver changes the mark. -/
theorem endOfSequencingMark_step {event : Event} (hnext : driver.step event = some next) :
    next.lookahead.endOfSequencingMark = driver.lookahead.endOfSequencingMark ∨
      ∃ reads, event =
        .handle (.taikoPreconfEvent next.lookahead.endOfSequencingMark reads) := by
  cases step_windows hnext with
  | same hsame hcall => exact .inl (by rw [hsame.lookahead])
  | synced slot reads hsync hreads hslot hclock =>
      refine .inl ?_
      rw [hsync.lookahead, Lookahead.endOfSequencingMark_sync]
  | marked currentEpoch reads =>
      refine .inr ⟨reads, ?_⟩
      rw [(driver.syncsAt_onTaikoPreconfEvent currentEpoch reads).lookahead,
        Lookahead.endOfSequencingMark_sync]
      rfl
  | moved timestamp currentSlot hsame => exact .inl (by rw [hsame.lookahead])
  | triggered timestamp reads payload hcall hparts hsequence htimestamp => exact .inl rfl
  | entered answers slot rest hcall hparts =>
      obtain heq | ⟨status, heq, -⟩ := enterSlot_windows { driver with tickParts := rest } slot
        answers.lookahead.currentTimestamp
      · rw [heq]
        exact .inl rfl
      · rw [heq]
        exact .inl rfl
  | part answers part rest hcall hparts hother hsame => exact .inl (by rw [hsame.lookahead])

/-- The mark of a run is that of its start or comes from an event of the taiko-driver. -/
theorem endOfSequencingMark_of_run {final : Driver} {events : List Event}
    (hrun : Transition.run step driver events = some final) :
    final.lookahead.endOfSequencingMark = driver.lookahead.endOfSequencingMark ∨
      ∃ reads, .handle (.taikoPreconfEvent final.lookahead.endOfSequencingMark reads) ∈
        events := by
  induction events generalizing driver with
  | nil =>
      cases hrun
      exact .inl rfl
  | cons event rest ih =>
      obtain ⟨next, hnext, hrest⟩ := Transition.run_cons.mp hrun
      obtain hsame | ⟨reads, hmem⟩ := ih hrest
      · rw [hsame]
        exact (endOfSequencingMark_step hnext).imp_right fun ⟨reads, hevent⟩ =>
          ⟨reads, by rw [hevent]; exact List.mem_cons_self⟩
      · exact .inr ⟨reads, List.mem_cons_of_mem _ hmem⟩

/-- In every run from the start of the driver in which the operators are read from the schedule, L1
blocks arrive in their slot and the clock is read in the head slot, a block that is triggered in an
epoch of another operator is triggered in the handover window at its end, and only after the end of
sequencing was announced for this epoch or the skipped slots have passed. -/
theorem handover_waits {schedule : Nat → Address} {cfg : RuntimeConfig} {l1 : L1State}
    {l2 : L2State} {events : List Event} {event : Event} {finalization : Finalization}
    (hsmall : cfg.handoverWindowSlots < EPOCH_SLOTS)
    (hreads : Transition.StepsMeet step
      (fun driver event => driver.readsSchedule schedule event = true) (new cfg l1 l2) events)
    (hslots : Transition.StepsMeet step (fun driver event => driver.l1BlockInSlot event = true)
      (new cfg l1 l2) events)
    (hclock : Transition.StepsMeet step
      (fun driver event => driver.readsClockInSlot event = true) (new cfg l1 l2) events)
    (hrun : Transition.run step (new cfg l1 l2) events = some driver)
    (hnext : driver.step event = some next)
    (htriggered : next.log = .triggered finalization :: driver.log)
    (hother : schedule (toEpoch driver.l1.headSlot) ≠ cfg.operator) :
    toSlot (toEpoch driver.l1.headSlot + 1) ≤ driver.l1.headSlot + cfg.handoverWindowSlots ∧
      ((∃ reads, .handle (.taikoPreconfEvent (toEpoch driver.l1.headSlot) reads) ∈ events) ∨
        toEpoch driver.l1.headSlot = 0 ∨
        ∃ now, cfg.timestampToL1Slot now = driver.l1.headSlot ∧
          cfg.handoverSkipSlots * cfg.l2BlockTime ≤ now - cfg.slotToTimestamp
            (toSlot (toEpoch driver.l1.headSlot + 1) - cfg.handoverWindowSlots)) := by
  have hinv : ∀ (state : Driver) (event : Event) (next : Driver),
      state.OwnsWindows schedule ∧ state.KeepsStatus True →
      (state.readsSchedule schedule event = true ∧ state.l1BlockInSlot event = true) ∧
        state.readsClockInSlot event = true →
      state.step event = some next → next.OwnsWindows schedule ∧ next.KeepsStatus True :=
    fun state event next h hmeet hstep =>
      ⟨h.1.step hmeet.1.1 hstep, h.2.step h.1 hmeet.1.2 (fun _ => hmeet.2) hstep⟩
  obtain ⟨howns, hkeeps⟩ := Transition.invariant_run hinv
    ⟨ownsWindows_new schedule cfg l1 l2, keepsStatus_new cfg l1 l2⟩
    ((hreads.and hslots).and hclock) hrun
  obtain rfl : driver.cfg = cfg := cfg_of_run hrun
  obtain hsame | ⟨-, -, -, -, hcall, hparts, hsequence, -, -⟩ := triggeredBlocks_step hnext
  · rw [htriggered] at hsame
    exact absurd hsame (List.cons_ne_self finalization _)
  have howned := howns.of_canSequence hkeeps hsmall.le hcall hparts hsequence
  have hwindow : toSlot (toEpoch driver.l1.headSlot + 1) ≤
      driver.l1.headSlot + driver.cfg.handoverWindowSlots := by
    -- otherwise the epoch of the window would be that of the head slot
    by_contra hbefore
    refine hother (Eq.trans (congrArg schedule ?_) howned)
    unfold toSlot toEpoch EPOCH_SLOTS at *
    omega
  have hslot : driver.l1.headSlot % EPOCH_SLOTS ≠ 0 := by
    unfold toSlot toEpoch EPOCH_SLOTS at *
    omega
  refine ⟨hwindow, ?_⟩
  obtain hinactive | ⟨now, hnow, hstatus⟩ := hkeeps.statusCurrent hcall (by simp [hparts])
  · rw [hinactive] at hsequence
    cases hsequence
  · have hnow := hnow trivial
    rw [hstatus] at hsequence
    have hinclusion : driver.lookahead.inInclusionWindow driver.l1.headSlot = false := by
      refine Bool.eq_false_iff.mpr fun hin => hother ?_
      rw [howns.owns.of_inInclusionWindow hin, howns.cfg]
    have hpast := Lookahead.isPastHandoverBuffer_of_canSequence hsequence hinclusion
    obtain hmark | hskipped := Lookahead.isPastHandoverBuffer_cases hpast
      (by rw [howns.cfg, hnow]; exact hslot)
    · rw [howns.cfg, hnow] at hmark
      obtain hstart | ⟨reads, hmem⟩ := endOfSequencingMark_of_run hrun
      · exact .inr (.inl (hmark.symm.trans hstart))
      · rw [hmark] at hmem
        exact .inl ⟨reads, hmem⟩
    · rw [howns.cfg, hnow] at hskipped
      exact .inr (.inr ⟨now, hnow, hskipped⟩)

/-- A schedule that gives epoch 101 to operator 1 and every other epoch to operator 2. -/
def epoch101Schedule (epoch : Nat) : Address := if epoch = 101 then 1 else 2

/-- The block of operator 2 that operator 1 takes over from. -/
def headOfOther : Block := l2BlockOn 48 1 38400 2

/-- The start of operator 1 in slot 3228, at the beginning of the handover window of epoch 100, and
the event of the end of sequencing. -/
def announcedIn100 : List Event :=
  startup (answersWith 38736 104 2 1 48 headOfOther) ++
    [.handle (.taikoPreconfEvent 100 (answersWith 38737 104 2 1 48 headOfOther).lookahead)]

/-- A block is built in the handover window, one second after its beginning, because the end of
sequencing was announced. -/
theorem handover_waits_for_announcement :
    ∃ driver next finalization,
      Transition.run step (startAt 38736 1) announcedIn100 = some driver ∧
      driver.step (.handle (.l2SlotTick 38738 (tickReads headOfOther.header))) = some next ∧
      next.log = .triggered finalization :: driver.log ∧
      toSlot (toEpoch driver.l1.headSlot + 1) ≤ driver.l1.headSlot + 4 := by
  obtain ⟨driver, hrun, hstep⟩ : ∃ driver,
      Transition.run step (startAt 38736 1) announcedIn100 = some driver ∧
        ((driver.step (.handle (.l2SlotTick 38738 (tickReads headOfOther.header)))).any fun next =>
          (triggeredBlocks next.log).any (fun finalization =>
            next.log = .triggered finalization :: driver.log) &&
            epoch101Schedule (toEpoch driver.l1.headSlot) ≠ 1) = true :=
    Transition.exists_run (by decide +kernel)
  obtain ⟨next, hnext, hchecked⟩ := (Option.any_eq_true _ _).mp hstep
  obtain ⟨hlog, hother⟩ := Bool.and_eq_true_iff.mp hchecked
  obtain ⟨finalization, -, hlog⟩ := List.any_eq_true.mp hlog
  exact ⟨driver, next, finalization, hrun, hnext, of_decide_eq_true hlog,
    (handover_waits (by decide) (by decide +kernel) (by decide +kernel) (by decide +kernel) hrun
      hnext (of_decide_eq_true hlog) (of_decide_eq_true hother)).1⟩

end Driver

end Mk1
