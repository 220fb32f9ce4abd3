import Mk1.Driver.EventLoop.SequencingWindow
import Mk1.Driver.SlotClock.Announced

/-!
# The event loop with its slot clock

The loop of `Driver::start` polls the slot clock before anything else, so it handles a
tick that has become due before any other event. If no slot ends while a tick is being
taken, the timestamp of every block lies in the head slot in which it is triggered. So
two nodes with different operators build no blocks in the same slot.
-/

namespace Mk1

open SkippingInterval (Api due)

namespace Driver

/-- The event of a tick. -/
def LoopEvent.ofTick (currentSlot : Nat) (reads : L2TickReads) : SlotTick → LoopEvent
  | .l1 timestamp => .l1SlotTick timestamp currentSlot
  | .l2 timestamp => .l2SlotTick timestamp reads

/-- Whether an event is a tick. -/
def LoopEvent.isTick : LoopEvent → Bool
  | .l1SlotTick _ _ => true
  | .l2SlotTick _ _ => true
  | _ => false

/-- Whether the event loop handles an event. -/
def Event.isHandled : Event → Bool
  | .handle _ => true
  | _ => false

end Driver

open Driver (LoopEvent Answers BackgroundEvent)

/-- A driver with the clock of its event loop, and the instant after its last poll. -/
structure ClockedDriver (I : Type) where
  driver : Driver
  clock : SlotClock I
  now : Nat

/-- A step of the event loop, of the handler that runs, or in the background. In an iteration of the
event loop the clock is polled first; if it yields no tick, another event may have arrived. -/
inductive ClockedEvent where
  | iterate (reads : ClockReads) (currentSlot : Nat) (tickReads : L2TickReads)
      (other : Option LoopEvent)
  | resume (answers : Answers)
  | background (event : BackgroundEvent)

namespace ClockedDriver

variable {I : Type}

/-- The event of the driver in a step: a tick, if the clock yields one. -/
def driverEvent (api : Api I) (state : ClockedDriver I) : ClockedEvent → Option Driver.Event
  | .iterate reads currentSlot tickReads other =>
      match (state.clock.pollNext api reads).1 with
      | some tick => some (.handle (.ofTick currentSlot tickReads tick))
      | none => other.map .handle
  | .resume answers => some (.resume answers)
  | .background event => some (.background event)

/-- The clock after a step. The event loop polls it while no handler runs, and time goes on. -/
def pollClock (api : Api I) (state : ClockedDriver I) :
    ClockedEvent → Option (SlotClock I × Nat)
  | .iterate reads _ _ other =>
      if state.driver.isListening ∧ state.now ≤ reads.l1Poll ∧ reads.Ordered ∧
          other.all (!·.isTick) then
        some ((state.clock.pollNext api reads).2, reads.l1Timestamp)
      else none
  | .resume _ => some (state.clock, state.now)
  | .background _ => some (state.clock, state.now)

/-- One step. If there is no event, the event loop waits. -/
def step (api : Api I) (state : ClockedDriver I) (event : ClockedEvent) :
    Option (ClockedDriver I) := do
  let (clock, now) ← state.pollClock api event
  match state.driverEvent api event with
  | some event => (state.driver.step event).map fun driver => ⟨driver, clock, now⟩
  | none => some ⟨state.driver, clock, now⟩

/-- A driver whose event loop begins, with the clock of its configuration. -/
def start (api : Api I) (driver : Driver) (now instant : Nat) : ClockedDriver I :=
  ⟨driver, driver.cfg.slotClock api now instant, instant⟩

/-- The operators that a step reads are those of the schedule. -/
def readsSchedule (schedule : Nat → Address) (api : Api I) (state : ClockedDriver I)
    (event : ClockedEvent) : Bool :=
  (state.driverEvent api event).all (state.driver.readsSchedule schedule)

/-- An L1 block that is handled after the clock has begun to tick is one of the head slot. -/
def l1BlockInSlot (now instant : Nat) (api : Api I) (state : ClockedDriver I) :
    ClockedEvent → Bool
  | .iterate reads currentSlot tickReads other =>
      reads.l1Poll < state.driver.cfg.slotClockStart now instant ||
        (state.driverEvent api (.iterate reads currentSlot tickReads other)).all
          state.driver.l1BlockInSlot
  | _ => true

/-- The timestamp of a tick is read before the slot ends for which the last L1 tick was due. -/
def readsInTime (now instant : Nat) (api : Api I) (state : ClockedDriver I) :
    ClockedEvent → Bool
  | .iterate reads _ _ _ => state.driver.cfg.stampedInTime api now instant state.clock reads
  | _ => true

end ClockedDriver

/-! ## The driver between ticks -/

namespace Driver

/-- A timestamp lies in a slot that stands for an epoch of the operator. -/
def OwnsTimestamp (schedule : Nat → Address) (cfg : RuntimeConfig) (timestamp : Nat) : Prop :=
  schedule (toEpoch (cfg.timestampToL1Slot timestamp + cfg.handoverWindowSlots)) = cfg.operator

/-- The windows are the operator's, and so are the timestamps of all blocks. Once the clock has
announced a slot, it is the head slot, and the status is up to date. -/
structure BuildsIn (schedule : Nat → Address) (cfg : RuntimeConfig) (announced : Option Nat)
    (driver : Driver) : Prop where
  config : driver.cfg = cfg
  owns : driver.OwnsWindows schedule
  ticked : announced ≠ none → driver.KeepsStatus False ∧ announced = some driver.l1.headSlot
  blocks : ∀ finalization ∈ triggeredBlocks driver.log,
    OwnsTimestamp schedule cfg finalization.payload.timestamp

variable {schedule : Nat → Address} {cfg : RuntimeConfig} {announced : Option Nat}
  {driver next : Driver}

/-- A step that is no tick. -/
theorem BuildsIn.other (h : driver.BuildsIn schedule cfg announced) {event : Event}
    (hevent : ∀ event', event = .handle event' → event'.isTick = false)
    (hreads : driver.readsSchedule schedule event = true)
    (hslot : announced ≠ none → driver.l1BlockInSlot event = true)
    (hnext : driver.step event = some next) : next.BuildsIn schedule cfg announced := by
  obtain ⟨hcfg, hhead⟩ := headSlot_step hnext
  refine ⟨hcfg.trans h.config, h.owns.step hreads hnext, fun hannounced => ?_, ?_⟩
  · obtain ⟨hkeeps, hsame⟩ := h.ticked hannounced
    refine ⟨hkeeps.step h.owns (hslot hannounced) False.elim hnext, ?_⟩
    obtain hhead | ⟨timestamp, currentSlot, rfl⟩ := hhead
    · rw [hhead, hsame]
    · cases hevent _ rfl
  · obtain hsame | ⟨timestamp, reads, -, rfl, -⟩ := triggeredBlocks_step hnext
    · rw [hsame]
      exact h.blocks
    · cases hevent _ rfl

/-- An L1 tick moves the driver to its slot. -/
theorem BuildsIn.l1SlotTick (h : driver.BuildsIn schedule cfg announced)
    {timestamp currentSlot : Nat}
    (hnext : driver.step (.handle (.l1SlotTick timestamp currentSlot)) = some next) :
    next.BuildsIn schedule cfg (some (cfg.timestampToL1Slot timestamp)) := by
  have howns : next.OwnsWindows schedule := h.owns.step rfl hnext
  obtain ⟨-, -, hnext⟩ := step_handle hnext
  cases hnext
  have hsame := driver.sameWindows_onL1SlotTick timestamp currentSlot
  refine ⟨hsame.cfg.trans h.config, howns, fun _ => ⟨driver.keepsStatus_onL1SlotTick _ _, ?_⟩, ?_⟩
  · rw [hsame.headSlot, h.config]
  · rw [hsame.triggered]
    exact h.blocks

/-- An L2 tick in the head slot triggers a block with a timestamp of the operator. -/
theorem BuildsIn.l2SlotTick {timestamp : Nat}
    (h : driver.BuildsIn schedule cfg (some (cfg.timestampToL1Slot timestamp)))
    (hsmall : cfg.handoverWindowSlots ≤ EPOCH_SLOTS) {reads : L2TickReads}
    (hnext : driver.step (.handle (.l2SlotTick timestamp reads)) = some next) :
    next.BuildsIn schedule cfg (some (cfg.timestampToL1Slot timestamp)) := by
  obtain ⟨hkeeps, hhead⟩ := h.ticked (Option.some_ne_none _)
  have howns : next.OwnsWindows schedule := h.owns.step rfl hnext
  have hkept : next.KeepsStatus False := hkeeps.step h.owns rfl False.elim hnext
  obtain ⟨hcfg, hsame | ⟨_, _, htick⟩⟩ := headSlot_step hnext
  · refine ⟨hcfg.trans h.config, howns, fun _ => ⟨hkept, by rw [hsame, ← hhead]⟩, ?_⟩
    obtain hsame | ⟨_, _, payload, hevent, hcall, hparts, hsequence, htimestamp, rfl⟩ :=
      triggeredBlocks_step hnext
    · rw [hsame]
      exact h.blocks
    · cases hevent
      have howned := h.owns.of_canSequence hkeeps (by rwa [h.config]) hcall hparts hsequence
      intro finalization hmem
      rcases List.mem_cons.mp hmem with rfl | hold
      · unfold OwnsTimestamp
        rw [htimestamp, Option.some.inj hhead]
        rwa [h.config] at howned
      · exact h.blocks finalization hold
  · cases htick

end Driver

/-! ## The invariant -/

namespace ClockedDriver

variable {I : Type} {api : Api I} {schedule : Nat → Address} {cfg : RuntimeConfig}
  {now instant : Nat} {polls : List ClockReads} {state next : ClockedDriver I}

/-- The driver is in the slot that its clock has announced. -/
structure Timed (api : Api I) (schedule : Nat → Address) (cfg : RuntimeConfig) (now instant : Nat)
    (polls : List ClockReads) (state : ClockedDriver I) : Prop where
  clock : RuntimeConfig.ClockAt api cfg now instant polls state.now state.clock
  driver : state.driver.BuildsIn schedule cfg (cfg.announcedSlot now instant polls)

section Step

variable (hskips : api.Skips (1000 ≤ ·)) (hblock : 0 < cfg.l1BlockTime)
  (hl2Block : 0 < cfg.l2BlockTime) (hsmall : cfg.handoverWindowSlots ≤ EPOCH_SLOTS)
  (hnow : now ≤ instant)

include hblock in
/-- An iteration without a tick, in which another event may be handled. -/
theorem Timed.other (h : Timed api schedule cfg now instant polls state) {reads : ClockReads}
    {currentSlot : Nat} {tickReads : L2TickReads} {other : Option LoopEvent}
    (htick : (state.clock.pollNext api reads).1 = none) (hlast : state.now ≤ reads.l1Poll)
    (hother : other.all (!·.isTick) = true)
    (hreads : state.readsSchedule schedule api (.iterate reads currentSlot tickReads other) = true)
    (hslot : state.l1BlockInSlot now instant api (.iterate reads currentSlot tickReads other) =
      true) {event : LoopEvent} (hevent : other = some event) {driver : Driver}
    (hstep : state.driver.step (.handle event) = some driver) :
    driver.BuildsIn schedule cfg (cfg.announcedSlot now instant polls) := by
  subst hevent
  have hnoTick : event.isTick = false := by simpa using hother
  simp only [readsSchedule, driverEvent, htick, Option.map_some, Option.all_some] at hreads
  simp only [l1BlockInSlot, driverEvent, htick, Option.map_some, Option.all_some,
    h.driver.config] at hslot
  refine h.driver.other ?_ hreads (fun hannounced => ?_) hstep
  · rintro _ ⟨⟩
    exact hnoTick
  · -- the clock has started, so the block has to be one of the head slot
    have hstart := (h.clock.start_le hblock hannounced).trans hlast
    simpa [Nat.not_lt.mpr hstart] using hslot

include hskips hblock hl2Block hsmall hnow in
/-- An iteration of the event loop. -/
theorem Timed.iterate (h : Timed api schedule cfg now instant polls state) {reads : ClockReads}
    {currentSlot : Nat} {tickReads : L2TickReads} {other : Option LoopEvent}
    (hreads : state.readsSchedule schedule api (.iterate reads currentSlot tickReads other) = true)
    (hslot : state.l1BlockInSlot now instant api (.iterate reads currentSlot tickReads other) =
      true)
    (htime : state.readsInTime now instant api (.iterate reads currentSlot tickReads other) = true)
    (hnext : state.step api (.iterate reads currentSlot tickReads other) = some next) :
    ∃ polls', Timed api schedule cfg now instant polls' next := by
  obtain ⟨⟨clock, later⟩, hclock, hnext⟩ := Option.bind_eq_some_iff.mp hnext
  obtain ⟨⟨-, hlast, hordered, hother⟩, hclock⟩ := Option.ite_none_right_eq_some.mp hclock
  cases hclock
  simp only [readsInTime, h.driver.config] at htime
  obtain ⟨polls', hclock, hticks⟩ :=
    h.clock.pollNext hskips hblock hl2Block hnow hlast hordered htime
  refine ⟨polls', ?_⟩
  obtain ⟨timestamp, htick, hannounced⟩ | ⟨hannounced, hticks⟩ := hticks
  · simp only [driverEvent, htick] at hnext
    obtain ⟨driver, hstep, rfl⟩ := Option.map_eq_some_iff.mp hnext
    exact ⟨hclock, by rw [hannounced]; exact h.driver.l1SlotTick hstep⟩
  · cases htick : (state.clock.pollNext api reads).1 with
    | some tick =>
        obtain ⟨timestamp, rfl, hslot⟩ := hticks tick htick
        have hdriver := h.driver
        rw [hslot] at hdriver
        simp only [driverEvent, htick] at hnext
        obtain ⟨driver, hstep, rfl⟩ := Option.map_eq_some_iff.mp hnext
        exact ⟨hclock, by rw [hannounced, hslot]; exact hdriver.l2SlotTick hsmall hstep⟩
    | none =>
        simp only [driverEvent, htick] at hnext
        cases hevent : other with
        | none =>
            rw [hevent] at hnext
            cases hnext
            exact ⟨hclock, by rw [hannounced]; exact h.driver⟩
        | some event =>
            rw [hevent] at hnext
            obtain ⟨driver, hstep, rfl⟩ := Option.map_eq_some_iff.mp hnext
            refine ⟨hclock, ?_⟩
            rw [hannounced]
            exact h.other hblock htick hlast hother hreads hslot hevent hstep

include hskips hblock hl2Block hsmall hnow in
/-- Every step keeps the driver in the slot that its clock has announced. -/
theorem Timed.step (h : Timed api schedule cfg now instant polls state) {event : ClockedEvent}
    (hreads : state.readsSchedule schedule api event = true)
    (hslot : state.l1BlockInSlot now instant api event = true)
    (htime : state.readsInTime now instant api event = true)
    (hnext : state.step api event = some next) :
    ∃ polls', Timed api schedule cfg now instant polls' next := by
  cases event with
  | iterate reads currentSlot tickReads other =>
      exact h.iterate hskips hblock hl2Block hsmall hnow hreads hslot htime hnext
  | resume answers =>
      obtain ⟨driver, hstep, rfl⟩ := Option.map_eq_some_iff.mp hnext
      have hreads : state.driver.readsSchedule schedule (.resume answers) = true := hreads
      exact ⟨polls, h.clock, h.driver.other (by simp) hreads (fun _ => rfl) hstep⟩
  | background event =>
      obtain ⟨driver, hstep, rfl⟩ := Option.map_eq_some_iff.mp hnext
      have hreads : state.driver.readsSchedule schedule (.background event) = true := hreads
      exact ⟨polls, h.clock, h.driver.other (by simp) hreads (fun _ => rfl) hstep⟩

end Step

end ClockedDriver

/-! ## Two nodes -/

/-- A run of a node: the startup of its driver, and then its event loop with a clock that is made at
`now`. The operators are read from the schedule, L1 blocks arrive in their slot, and no slot ends
while a tick is being taken. -/
structure NodeRun {I : Type} (api : Api I) (schedule : Nat → Address) (cfg : RuntimeConfig)
    (final : ClockedDriver I) where
  l1 : L1State
  l2 : L2State
  startup : List Driver.Event
  started : Driver
  now : Nat
  instant : Nat
  events : List ClockedEvent
  startup_quiet : ∀ event ∈ startup, event.isHandled = false
  startup_reads : Transition.StepsMeet Driver.step
    (fun driver event => driver.readsSchedule schedule event = true) (.new cfg l1 l2) startup
  startup_run : Transition.run Driver.step (.new cfg l1 l2) startup = some started
  now_le : now ≤ instant
  reads : Transition.StepsMeet (ClockedDriver.step api)
    (fun state event => state.readsSchedule schedule api event = true)
    (.start api started now instant) events
  inSlot : Transition.StepsMeet (ClockedDriver.step api)
    (fun state event => state.l1BlockInSlot now instant api event = true)
    (.start api started now instant) events
  inTime : Transition.StepsMeet (ClockedDriver.step api)
    (fun state event => state.readsInTime now instant api event = true)
    (.start api started now instant) events
  run : Transition.run (ClockedDriver.step api) (.start api started now instant) events =
    some final

section Nodes

variable {I : Type} {api : Api I} {schedule : Nat → Address} {cfg : RuntimeConfig}
  {final : ClockedDriver I}

/-- The startup triggers no block. -/
theorem NodeRun.triggeredBlocks_started (node : NodeRun api schedule cfg final) :
    Driver.triggeredBlocks node.started.log = [] := by
  have hstep : ∀ (state : Driver) (event : Driver.Event) (next : Driver),
      Driver.triggeredBlocks state.log = [] → event.isHandled = false →
      state.step event = some next → Driver.triggeredBlocks next.log = [] := by
    intro state event next hnone hquiet hnext
    obtain hsame | ⟨_, _, _, rfl, -⟩ := Driver.triggeredBlocks_step hnext
    · exact hsame.trans hnone
    · cases hquiet
  have hfinal := Transition.invariant_run_of_forall hstep rfl node.startup_quiet node.startup_run
  exact hfinal

/-- The event loop begins before the first tick. -/
theorem NodeRun.timed_start (node : NodeRun api schedule cfg final) :
    ClockedDriver.Timed api schedule cfg node.now node.instant []
      (.start api node.started node.now node.instant) := by
  have hcfg : node.started.cfg = cfg := Driver.cfg_of_run node.startup_run
  refine ⟨?_, hcfg, Driver.ownsWindows_of_run node.startup_reads node.startup_run, ?_, ?_⟩
  · unfold ClockedDriver.start
    rw [hcfg]
    exact RuntimeConfig.clockAt_slotClock api cfg node.now node.instant node.instant
  · exact fun hannounced => absurd rfl hannounced
  · intro finalization hmem
    rw [show Driver.triggeredBlocks (ClockedDriver.start api node.started node.now
      node.instant).driver.log = [] from node.triggeredBlocks_started] at hmem
    cases hmem

/-- Every block of a node has a timestamp of its operator. -/
theorem NodeRun.ownsTimestamps (node : NodeRun api schedule cfg final)
    (hskips : api.Skips (1000 ≤ ·)) (hblock : 0 < cfg.l1BlockTime) (hl2Block : 0 < cfg.l2BlockTime)
    (hsmall : cfg.handoverWindowSlots ≤ EPOCH_SLOTS) {finalization : Finalization}
    (hmem : finalization ∈ Driver.triggeredBlocks final.driver.log) :
    Driver.OwnsTimestamp schedule cfg finalization.payload.timestamp := by
  have hstep : ∀ (state : ClockedDriver I) (event : ClockedEvent) (next : ClockedDriver I),
      (∃ polls, ClockedDriver.Timed api schedule cfg node.now node.instant polls state) →
      (state.readsSchedule schedule api event = true ∧
        state.l1BlockInSlot node.now node.instant api event = true) ∧
        state.readsInTime node.now node.instant api event = true →
      state.step api event = some next →
      ∃ polls, ClockedDriver.Timed api schedule cfg node.now node.instant polls next :=
    fun state event next ⟨polls, h⟩ ⟨⟨hreads, hslot⟩, htime⟩ hnext =>
      h.step hskips hblock hl2Block hsmall node.now_le hreads hslot htime hnext
  obtain ⟨polls, h⟩ := Transition.invariant_run hstep ⟨[], node.timed_start⟩
    ((node.reads.and node.inSlot).and node.inTime) node.run
  exact h.driver.blocks finalization hmem

/-- Two nodes with different operators, which read the operators from one schedule, never trigger
blocks in the same L1 slot, whatever happens in what order: the slots of their timestamps, moved by
the handover window, lie in different epochs. -/
theorem nodes_build_in_different_slots {cfg' : RuntimeConfig} {final' : ClockedDriver I}
    (first : NodeRun api schedule cfg final) (second : NodeRun api schedule cfg' final')
    (hskips : api.Skips (1000 ≤ ·)) (hoperators : cfg.operator ≠ cfg'.operator)
    (hgenesis : cfg'.l1GenesisTimestamp = cfg.l1GenesisTimestamp)
    (hblock : cfg'.l1BlockTime = cfg.l1BlockTime) (hpos : 0 < cfg.l1BlockTime)
    (hl2Block : 0 < cfg.l2BlockTime) (hl2Block' : 0 < cfg'.l2BlockTime)
    (hhandover : cfg'.handoverWindowSlots = cfg.handoverWindowSlots)
    (hsmall : cfg.handoverWindowSlots ≤ EPOCH_SLOTS) {finalization finalization' : Finalization}
    (hbuilt : .triggered finalization ∈ final.driver.log)
    (hbuilt' : .triggered finalization' ∈ final'.driver.log) :
    toEpoch (cfg.timestampToL1Slot finalization.payload.timestamp + cfg.handoverWindowSlots) ≠
      toEpoch (cfg.timestampToL1Slot finalization'.payload.timestamp +
        cfg.handoverWindowSlots) := by
  have howned := first.ownsTimestamps hskips hpos hl2Block hsmall
    (Driver.mem_triggeredBlocks.mpr hbuilt)
  have howned' := second.ownsTimestamps hskips (by rwa [hblock]) hl2Block' (by rwa [hhandover])
    (Driver.mem_triggeredBlocks.mpr hbuilt')
  unfold Driver.OwnsTimestamp RuntimeConfig.timestampToL1Slot at howned howned'
  rw [hgenesis, hblock, hhandover] at howned'
  intro hsame
  unfold RuntimeConfig.timestampToL1Slot at hsame
  rw [hsame] at howned
  exact hoperators (howned.symm.trans howned')

end Nodes

/-! ## A small instance -/

open SkippingInterval (skipping)

/-- One iteration of the event loop at an instant. -/
def pollAt (instant : Nat) (parent : Header) : ClockedEvent :=
  .iterate ⟨instant, instant, instant, instant⟩ (instant / 12000) (Driver.tickReads parent) none

/-- The L1 tick and the L2 tick at the beginning of a slot of epoch 100. -/
def slotIn100 (timestamp : Nat) (softBlock : Block) : List ClockedEvent :=
  let answers := Driver.answersWith timestamp 104 1 2 48 softBlock
  [pollAt (timestamp * 1000 + 501) softBlock.header, .resume answers, .resume answers,
    .resume answers, pollAt (timestamp * 1000 + 900) softBlock.header]

/-- The finalization of a block after this one. -/
def finalizationAfter (timestamp : Nat) (softBlock : Block) : Finalization :=
  { Driver.finalizationOn48 with
    payload :=
      { Driver.finalizationOn48.payload with parent := softBlock.header, timestamp := timestamp } }

/-- The driver of operator 1 after its startup in slot 3201. -/
def started1 : Driver :=
  (Transition.run Driver.step (Driver.startAt 38412 1) Driver.startupIn100).get (by decide +kernel)

/-- Operator 1 at slot 3202. -/
def final1 : ClockedDriver (Nat × Nat) :=
  (Transition.run (ClockedDriver.step skipping) (.start skipping started1 38412500 38412500)
    (slotIn100 38424 Driver.headOn48)).get (by decide +kernel)

/-- Operator 1 builds in slot 3202. -/
def node1 : NodeRun skipping Driver.epoch100Schedule (defaultConfig 1) final1 where
  l1 := (Driver.startAt 38412 1).l1
  l2 := (Driver.startAt 38412 1).l2
  startup := Driver.startupIn100
  started := started1
  now := 38412500
  instant := 38412500
  events := slotIn100 38424 Driver.headOn48
  startup_quiet := by decide
  startup_reads := by decide +kernel
  startup_run := (Option.some_get _).symm
  now_le := Nat.le_refl _
  reads := by decide +kernel
  inSlot := by decide +kernel
  inTime := by decide +kernel
  run := (Option.some_get _).symm

/-- A block of operator 2 on anchor 48. -/
def headOf2 : Block := Driver.l2BlockOn 48 1 38400 2

/-- A driver of operator 2 that starts in slot 3229. -/
def start2 : Driver :=
  .new (defaultConfig 2) { (Driver.startAt 38748 1).l1 with headSlot := 3229 } ⟨1, 0⟩

/-- The startup of operator 2. -/
def startup2 : List Driver.Event := Driver.startup (Driver.answersWith 38748 104 1 2 48 headOf2)

/-- The driver of operator 2 after its startup. -/
def started2 : Driver := (Transition.run Driver.step start2 startup2).get (by decide +kernel)

/-- Operator 2 at slot 3230. -/
def final2 : ClockedDriver (Nat × Nat) :=
  (Transition.run (ClockedDriver.step skipping) (.start skipping started2 38748500 38748500)
    (slotIn100 38760 headOf2)).get (by decide +kernel)

/-- Operator 2 builds in slot 3230, in the handover window of epoch 101. -/
def node2 : NodeRun skipping Driver.epoch100Schedule (defaultConfig 2) final2 where
  l1 := start2.l1
  l2 := start2.l2
  startup := startup2
  started := started2
  now := 38748500
  instant := 38748500
  events := slotIn100 38760 headOf2
  startup_quiet := by decide
  startup_reads := by decide +kernel
  startup_run := (Option.some_get _).symm
  now_le := Nat.le_refl _
  reads := by decide +kernel
  inSlot := by decide +kernel
  inTime := by decide +kernel
  run := (Option.some_get _).symm

/-- The operators of epochs 100 and 101 build in different slots. -/
theorem nodes_build_in_different_slots_100 :
    ∃ finalization finalization', .triggered finalization ∈ final1.driver.log ∧
      .triggered finalization' ∈ final2.driver.log ∧
      toEpoch ((defaultConfig 1).timestampToL1Slot finalization.payload.timestamp + 4) ≠
        toEpoch ((defaultConfig 1).timestampToL1Slot finalization'.payload.timestamp + 4) := by
  have hskips := SkippingInterval.skips_skipping.mono fun period (hperiod : 1000 ≤ period) =>
    Nat.lt_of_lt_of_le (by decide : 0 < 1000) hperiod
  have hbuilt : .triggered (finalizationAfter 38424 Driver.headOn48) ∈ final1.driver.log := by
    decide +kernel
  have hbuilt' : .triggered (finalizationAfter 38760 headOf2) ∈ final2.driver.log := by
    decide +kernel
  exact ⟨_, _, hbuilt, hbuilt', nodes_build_in_different_slots node1 node2 hskips (by decide) rfl
    rfl (by decide) (by decide) (by decide) rfl (by decide) hbuilt hbuilt'⟩

end Mk1
