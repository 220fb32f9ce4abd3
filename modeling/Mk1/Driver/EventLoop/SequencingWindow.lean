import Mk1.Driver.EventLoop.AnchorConsistency
import Mk1.Driver.Lookahead.Ownership

/-!
# Building in the own epochs only

The status of the driver is kept apart from the windows that it is calculated from.
An L1 tick moves the head slot before it updates the status, and a sync of the L1
information uses the slot of the L1 block. But no L2 tick is handled in between, so
if L1 blocks arrive in their slot, the driver builds only while its head slot is in its
sequencing window: in the epochs that the schedule gives to its operator.
-/

namespace Mk1

namespace Driver

/-! ## What changes the windows and the status -/

/-- The blocks whose finalization was triggered, the newest first. -/
def triggeredBlocks (log : List LogEntry) : List Finalization :=
  log.filterMap fun
    | .triggered finalization => some finalization
    | _ => none

/-- A step that changes neither the windows nor the status, and triggers no block. -/
structure SameWindows (driver next : Driver) : Prop where
  cfg : next.cfg = driver.cfg
  headSlot : next.l1.headSlot = driver.l1.headSlot
  lookahead : next.lookahead = driver.lookahead
  status : next.status = driver.status
  tickParts : next.tickParts = driver.tickParts
  triggered : triggeredBlocks next.log = triggeredBlocks driver.log

/-- A step that syncs the windows at a slot and updates the status, if the preconf router is set. -/
structure SyncsAt (slot : Nat) (reads : LookaheadReads) (driver next : Driver) : Prop where
  cfg : next.cfg = driver.cfg
  headSlot : next.l1.headSlot = driver.l1.headSlot
  lookahead : next.lookahead =
    driver.lookahead.sync slot reads.currentOperator reads.nextOperator
  status : next.status = .inactive ∨
    next.status = next.lookahead.driverStatus reads.currentTimestamp slot
  tickParts : next.tickParts = driver.tickParts
  triggered : triggeredBlocks next.log = triggeredBlocks driver.log

variable {driver middle next : Driver}

theorem SameWindows.refl (driver : Driver) : SameWindows driver driver :=
  ⟨rfl, rfl, rfl, rfl, rfl, rfl⟩

theorem SameWindows.trans (h : SameWindows driver middle) (h' : SameWindows middle next) :
    SameWindows driver next :=
  ⟨h'.cfg.trans h.cfg, h'.headSlot.trans h.headSlot, h'.lookahead.trans h.lookahead,
    h'.status.trans h.status, h'.tickParts.trans h.tickParts, h'.triggered.trans h.triggered⟩

/-- Nothing else changes the windows after a sync. -/
theorem SyncsAt.trans {slot : Nat} {reads : LookaheadReads} (h : SyncsAt slot reads driver middle)
    (h' : SameWindows middle next) : SyncsAt slot reads driver next where
  cfg := h'.cfg.trans h.cfg
  headSlot := h'.headSlot.trans h.headSlot
  lookahead := h'.lookahead.trans h.lookahead
  status := by
    rw [h'.status, h'.lookahead]
    exact h.status
  tickParts := h'.tickParts.trans h.tickParts
  triggered := h'.triggered.trans h.triggered

/-- A sync after a step that changes nothing. -/
theorem SameWindows.syncsAt {slot : Nat} {reads : LookaheadReads} (h : SameWindows driver middle)
    (h' : SyncsAt slot reads middle next) : SyncsAt slot reads driver next where
  cfg := h'.cfg.trans h.cfg
  headSlot := h'.headSlot.trans h.headSlot
  lookahead := by rw [h'.lookahead, h.lookahead]
  status := h'.status
  tickParts := h'.tickParts.trans h.tickParts
  triggered := h'.triggered.trans h.triggered

/-- Entries that trigger no block. -/
theorem triggeredBlocks_append {entries log : List LogEntry}
    (h : ∀ finalization, .triggered finalization ∉ entries) :
    triggeredBlocks (entries ++ log) = triggeredBlocks log := by
  have hentries : triggeredBlocks entries = [] := by
    refine List.filterMap_eq_nil_iff.mpr fun entry hentry => ?_
    cases entry with
    | triggered finalization => exact absurd hentry (h finalization)
    | _ => rfl
  unfold triggeredBlocks at hentries ⊢
  rw [List.filterMap_append, hentries, List.nil_append]

/-- The blocks whose finalization was triggered are those of the log. -/
theorem mem_triggeredBlocks {log : List LogEntry} {finalization : Finalization} :
    finalization ∈ triggeredBlocks log ↔ .triggered finalization ∈ log := by
  unfold triggeredBlocks
  rw [List.mem_filterMap]
  constructor
  · rintro ⟨entry, hentry, heq⟩
    cases entry with
    | triggered other =>
        cases heq
        exact hentry
    | _ => cases heq
  · exact fun hentry => ⟨.triggered finalization, hentry, rfl⟩

/-- The status is inactive or that of the lookahead. -/
theorem status_updateStatus (driver : Driver) (newStatus : DriverStatus) :
    (driver.updateStatus newStatus).status = .inactive ∨
      (driver.updateStatus newStatus).status = newStatus := by
  unfold updateStatus
  split
  · exact .inr rfl
  · exact .inl rfl

/-- Syncing the lookahead at a slot. -/
theorem syncsAt_syncLookahead (driver : Driver) (slot : Nat) (reads : LookaheadReads) :
    SyncsAt slot reads driver (driver.syncLookahead slot reads) := by
  have hstatus := status_updateStatus
    { driver with
      lookahead := driver.lookahead.sync slot reads.currentOperator reads.nextOperator }
    ((driver.lookahead.sync slot reads.currentOperator reads.nextOperator).driverStatus
      reads.currentTimestamp slot)
  unfold syncLookahead
  dsimp only
  obtain ⟨status, heq⟩ := updateStatus_eq
    { driver with
      lookahead := driver.lookahead.sync slot reads.currentOperator reads.nextOperator }
    ((driver.lookahead.sync slot reads.currentOperator reads.nextOperator).driverStatus
      reads.currentTimestamp slot)
  rw [heq] at hstatus ⊢
  exact ⟨rfl, rfl, rfl, hstatus, rfl, rfl⟩

/-- Submitting the outstanding batch. -/
theorem sameWindows_submitAndReset (driver : Driver) (newAnchor : Header) (deadline : Nat) :
    SameWindows driver (driver.submitAndReset newAnchor deadline) := by
  obtain heq | ⟨-, heq⟩ := driver.submitAndReset_cases newAnchor deadline
  · rw [heq]
    exact ⟨rfl, rfl, rfl, rfl, rfl, rfl⟩
  · rw [heq]
    exact ⟨rfl, rfl, rfl, rfl, rfl, rfl⟩

/-- Submitting the local batch, at once or after a wait. -/
theorem sameWindows_submitLocalOutstandingBatch (driver : Driver) (deadline : Nat) :
    SameWindows driver (driver.submitLocalOutstandingBatch deadline) := by
  obtain ⟨state, -, heq⟩ | heq := driver.submitLocalOutstandingBatch_cases deadline
  · rw [heq]
    refine SameWindows.trans ?_ (sameWindows_submitAndReset _ driver.l1.anchor deadline)
    exact ⟨rfl, rfl, rfl, rfl, rfl, rfl⟩
  · rw [heq]
    exact ⟨rfl, rfl, rfl, rfl, rfl, rfl⟩

/-- Adopting a plan. -/
theorem sameWindows_adoptPlan (driver : Driver) (plan : SyncPlan) :
    SameWindows driver (driver.adoptPlan plan) := by
  obtain ⟨entries, outstandingBatch, heq, -, hentries⟩ := driver.adoptPlan_eq plan
  rw [heq]
  refine ⟨rfl, rfl, rfl, rfl, rfl, triggeredBlocks_append fun finalization hmem => ?_⟩
  obtain ⟨-, batch, -, hentry⟩ := hentries _ hmem
  cases hentry

/-- Going on with the blocks of a plan. -/
theorem sameWindows_finalizeNext (driver : Driver) (plan : SyncPlan)
    (blocks : List (Header × PreconfirmedBlock)) :
    SameWindows driver (driver.finalizeNext plan blocks) := by
  obtain ⟨-, heq⟩ | ⟨anchor, block, rest, -, heq⟩ := driver.finalizeNext_cases plan blocks
  · rw [heq]
    exact driver.sameWindows_adoptPlan plan
  · rw [heq]
    exact ⟨rfl, rfl, rfl, rfl, rfl, rfl⟩

/-- A sync of the batches. -/
theorem sameWindows_syncBatches (driver : Driver) (reads : SyncReads) :
    SameWindows driver (driver.syncBatches reads) := by
  unfold syncBatches
  split
  · next plan _ =>
      unfold proposePlan
      split
      · exact driver.sameWindows_finalizeNext plan _
      · exact driver.sameWindows_adoptPlan plan
  · exact ⟨rfl, rfl, rfl, rfl, rfl, rfl⟩

/-- Finalizing a block of a plan again triggers none. -/
theorem sameWindows_finalizeBatches (driver : Driver) (plan : SyncPlan) (anchor : Header)
    (block : PreconfirmedBlock) (rest : List (Header × PreconfirmedBlock))
    (reads : FinalizeReads) :
    SameWindows driver (driver.finalizeBatches plan anchor block rest reads) := by
  obtain ⟨-, heq⟩ | ⟨response, -, heq⟩ :=
    driver.finalizeBatches_cases plan anchor block rest reads
  · rw [heq]
    exact driver.sameWindows_adoptPlan plan
  · rw [heq]
    refine SameWindows.trans ?_ (sameWindows_finalizeNext _ plan rest)
    exact ⟨rfl, rfl, rfl, rfl, rfl, rfl⟩

/-- A block that is produced. -/
theorem sameWindows_blockProduced {reads : ProducedReads}
    (hnext : driver.blockProduced reads = some next) : SameWindows driver next := by
  obtain ⟨⟨⟨finalization, response⟩, rest⟩, -, hnext⟩ := Option.bind_eq_some_iff.mp hnext
  cases hnext
  unfold onProducedBlock
  obtain ⟨entries, outstandingBatch, heq, -, hentries⟩ := addBlocks_eq
    { driver with blockBuilder := rest.release } response.anchor reads.estimates _
  rw [heq]
  refine ⟨rfl, rfl, rfl, rfl, rfl, triggeredBlocks_append fun finalization hmem => ?_⟩
  obtain ⟨-, fullBatch, hentry, -⟩ := hentries _ hmem
  cases hentry

/-- An L2 block that is added to the chain. -/
theorem sameWindows_onL2Block (driver : Driver) (l2Block : Block) (reads : L2BlockReads) :
    SameWindows driver (driver.onL2Block l2Block reads) := by
  obtain ⟨l1, heq, hl1⟩ := driver.onL2Block_eq l2Block reads
  have hheadSlot : l1.headSlot = driver.l1.headSlot := by
    obtain ⟨rfl, -⟩ | ⟨anchor, -, -, rfl⟩ := hl1
    · rfl
    · obtain ⟨newAnchor, -, hupdate⟩ | ⟨-, hupdate⟩ :=
        driver.l1.updateAnchor_cases reads.el anchor
      · rw [hupdate]
      · rw [hupdate]
  obtain ⟨-, hreorg⟩ | ⟨-, l2, hreorg⟩ :=
    (driver.record (.l2Block l2Block)).onL2Reorg_cases l2Block reads.headL1Origin
  · rw [heq, hreorg]
    exact ⟨rfl, hheadSlot, rfl, rfl, rfl, rfl⟩
  · rw [heq, hreorg]
    exact ⟨rfl, hheadSlot, rfl, rfl, rfl, rfl⟩

/-- A sync of the L1 state keeps the head slot. -/
theorem headSlot_sync (cfg : RuntimeConfig) (l1 : L1State) (el : L1Client) (l1Header : Header) :
    (l1.sync cfg el l1Header).1.headSlot = l1.headSlot := by
  unfold L1State.sync
  dsimp only
  split
  · obtain ⟨newAnchor, -, hupdate⟩ | ⟨-, hupdate⟩ := L1State.updateAnchor_cases
      { l1 with tip := l1Header } el (l1Header.number - cfg.anchorBlockLag)
    · rw [hupdate]
    · rw [hupdate]
  · rfl

/-- New information about the L1 syncs the windows at the slot of the L1 block, unless an error
comes first. -/
theorem updateL1Info_windows (driver : Driver) (l1Header : Header) (reads : L1InfoReads) :
    (SameWindows driver (driver.updateL1Info l1Header reads).1 ∧
        (driver.updateL1Info l1Header reads).2 = none) ∨
      (SyncsAt (driver.cfg.timestampToL1Slot l1Header.timestamp) reads.lookahead driver
          (driver.updateL1Info l1Header reads).1 ∧
        (driver.updateL1Info l1Header reads).2 =
          some (driver.cfg.timestampToL1Slot l1Header.timestamp)) := by
  have hheadSlot := headSlot_sync driver.cfg driver.l1 reads.el l1Header
  unfold updateL1Info
  cases hsync : driver.l1.sync driver.cfg reads.el l1Header with
  | mk l1 synced =>
      rw [hsync] at hheadSlot
      cases synced with
      | false => exact .inl ⟨⟨rfl, hheadSlot, rfl, rfl, rfl, rfl⟩, rfl⟩
      | true =>
          cases reads.headL1Origin with
          | none => exact .inl ⟨⟨rfl, hheadSlot, rfl, rfl, rfl, rfl⟩, rfl⟩
          | some origin =>
              refine .inr ⟨?_, rfl⟩
              dsimp only [updateHeadL1Origin]
              refine SameWindows.syncsAt ?_ (syncsAt_syncLookahead _ _ reads.lookahead)
              obtain heq | ⟨-, -, heq⟩ :=
                updateOutstandingBatchAnchorIfNeeded_cases { driver with
                  l1 := l1
                  l2 := { driver.l2 with headL1Origin := origin }
                  outstandingBatch := driver.outstandingBatch.retainBlocksAfter origin }
              · rw [heq]
                exact ⟨rfl, hheadSlot, rfl, rfl, rfl, rfl⟩
              · rw [heq]
                exact ⟨rfl, hheadSlot, rfl, rfl, rfl, rfl⟩

/-- Taking up a call changes nothing else. -/
theorem sameWindows_call (driver : Driver) (call : Option Call) :
    SameWindows driver { driver with call := call } :=
  ⟨rfl, rfl, rfl, rfl, rfl, rfl⟩

/-- A sync begins with the windows. -/
theorem syncsAt_startSync (driver : Driver) (reads : LookaheadReads) :
    SyncsAt driver.l1.headSlot reads driver (driver.startSync reads) := by
  have hsync := driver.syncsAt_syncLookahead driver.l1.headSlot reads
  unfold startSync
  dsimp only
  split
  · exact hsync.trans ⟨rfl, rfl, rfl, rfl, rfl, rfl⟩
  · exact hsync.trans ⟨rfl, rfl, rfl, rfl, rfl, rfl⟩

/-- An event of the taiko-driver is followed by a sync of the windows. -/
theorem syncsAt_onTaikoPreconfEvent (driver : Driver) (currentEpoch : Nat)
    (reads : LookaheadReads) :
    SyncsAt driver.l1.headSlot reads
      { driver with lookahead := driver.lookahead.updateEndOfSequencingMark currentEpoch }
      (driver.onTaikoPreconfEvent currentEpoch reads) :=
  syncsAt_syncLookahead _ driver.l1.headSlot reads

/-- What happens in the background changes no windows. -/
theorem sameWindows_progress {event : BackgroundEvent}
    (hnext : driver.progress event = some next) :
    SameWindows driver next ∧ next.call = driver.call := by
  cases event with
  | preconfRouterChecked isSet =>
      cases hnext
      exact ⟨⟨rfl, rfl, rfl, rfl, rfl, rfl⟩, rfl⟩
  | builder event =>
      obtain ⟨blockBuilder, -, hnext⟩ := Option.bind_eq_some_iff.mp hnext
      cases hnext
      cases event with
      | finalized finalization newBlock => exact ⟨⟨rfl, rfl, rfl, rfl, rfl, rfl⟩, rfl⟩
      | finalizationFailed finalization => exact ⟨⟨rfl, rfl, rfl, rfl, rfl, rfl⟩, rfl⟩

/-! ## The steps -/

/-- The operators that a step reads are those of the schedule. -/
def readsSchedule (schedule : Nat → Address) (driver : Driver) : Event → Bool
  | .handle (.taikoPreconfEvent _ reads) =>
      ReadsFollow schedule driver.l1.headSlot reads.currentOperator reads.nextOperator
  | .handle (.l1Block l1Header reads) =>
      ReadsFollow schedule (driver.cfg.timestampToL1Slot l1Header.timestamp)
        reads.lookahead.currentOperator reads.lookahead.nextOperator
  | .resume answers =>
      match driver.call with
      | some .startupSync =>
          answers.l1Tip.all fun l1Header =>
            ReadsFollow schedule (driver.cfg.timestampToL1Slot l1Header.timestamp)
              answers.l1Info.lookahead.currentOperator answers.l1Info.lookahead.nextOperator
      | some .syncLookahead =>
          ReadsFollow schedule driver.l1.headSlot answers.lookahead.currentOperator
            answers.lookahead.nextOperator
      | _ => true
  | _ => true

/-- An L1 block that the event loop handles is one of the head slot. -/
def l1BlockInSlot (driver : Driver) : Event → Bool
  | .handle (.l1Block l1Header _) =>
      driver.cfg.timestampToL1Slot l1Header.timestamp = driver.l1.headSlot
  | _ => true

/-- The clock that a step reads to calculate the status is in the head slot. -/
def readsClockInSlot (driver : Driver) : Event → Bool
  | .handle (.taikoPreconfEvent _ reads) =>
      driver.cfg.timestampToL1Slot reads.currentTimestamp = driver.l1.headSlot
  | .handle (.l1Block _ reads) =>
      driver.cfg.timestampToL1Slot reads.lookahead.currentTimestamp = driver.l1.headSlot
  | .resume answers =>
      match driver.call, driver.tickParts with
      | some .syncLookahead, _ | none, .enterSlot _ :: _ =>
          driver.cfg.timestampToL1Slot answers.lookahead.currentTimestamp = driver.l1.headSlot
      | _, _ => true
  | _ => true

/-- What a step can do to the windows and the status. A sync has read the operators of its slot,
which is that of the head unless it comes from an L1 block or another sync follows. An L1 tick has
`moved` the head slot, its first part has `entered` the slot, and the others change nothing. -/
inductive WindowStep (driver : Driver) : Event → Driver → Prop
  | same {event : Event} {next : Driver} (hsame : SameWindows driver next)
      (hcall : driver.call = some .syncLookahead → next.call = some .syncLookahead) :
      WindowStep driver event next
  | synced {event : Event} {next : Driver} (slot : Nat) (reads : LookaheadReads)
      (hsync : SyncsAt slot reads driver next)
      (hreads : ∀ schedule, driver.readsSchedule schedule event = true →
        ReadsFollow schedule slot reads.currentOperator reads.nextOperator)
      (hslot : driver.l1BlockInSlot event = true →
        slot = driver.l1.headSlot ∨ next.call = some .syncLookahead)
      (hclock : driver.readsClockInSlot event = true →
        driver.cfg.timestampToL1Slot reads.currentTimestamp = driver.l1.headSlot ∨
          next.call = some .syncLookahead) :
      WindowStep driver event next
  | marked (currentEpoch : Nat) (reads : LookaheadReads) :
      WindowStep driver (.handle (.taikoPreconfEvent currentEpoch reads))
        (driver.onTaikoPreconfEvent currentEpoch reads)
  | moved {next : Driver} (timestamp currentSlot : Nat)
      (hsame : SameWindows { driver with
        l1 := { driver.l1 with headSlot := driver.cfg.timestampToL1Slot timestamp }
        tickParts := [.enterSlot (driver.cfg.timestampToL1Slot timestamp), .submitInHandover,
          .updateOutstandingBatchAnchor] } next) :
      WindowStep driver (.handle (.l1SlotTick timestamp currentSlot)) next
  | triggered (timestamp : Nat) (reads : L2TickReads) (payload : BlockPayload)
      (hcall : driver.call = none) (hparts : driver.tickParts = [])
      (hsequence : driver.status.canSequence = true) (htimestamp : payload.timestamp = timestamp) :
      WindowStep driver (.handle (.l2SlotTick timestamp reads))
        (driver.triggerFinalizeBlock reads.estimate payload)
  | entered (answers : Answers) (slot : Nat) (rest : List TickPart) (hcall : driver.call = none)
      (hparts : driver.tickParts = .enterSlot slot :: rest) :
      WindowStep driver (.resume answers)
        ({ driver with tickParts := rest }.enterSlot slot answers.lookahead.currentTimestamp)
  | part {next : Driver} (answers : Answers) (part : TickPart) (rest : List TickPart)
      (hcall : driver.call = none) (hparts : driver.tickParts = part :: rest)
      (hother : ∀ slot, part ≠ .enterSlot slot)
      (hsame : SameWindows { driver with tickParts := rest } next) :
      WindowStep driver (.resume answers) next

/-- An L1 tick moves the head slot, and submits the local batch if it reaches its age limit. -/
theorem sameWindows_onL1SlotTick (driver : Driver) (timestamp currentSlot : Nat) :
    SameWindows { driver with
      l1 := { driver.l1 with headSlot := driver.cfg.timestampToL1Slot timestamp }
      tickParts := [.enterSlot (driver.cfg.timestampToL1Slot timestamp), .submitInHandover,
        .updateOutstandingBatchAnchor] } (driver.onL1SlotTick timestamp currentSlot) := by
  unfold onL1SlotTick
  dsimp only
  split
  · exact sameWindows_submitLocalOutstandingBatch _ _
  · exact .refl _

/-- The other parts of an L1 tick change no windows. -/
theorem sameWindows_performPart (driver : Driver) (answers : Answers) {part : TickPart}
    (hother : ∀ slot, part ≠ .enterSlot slot) :
    SameWindows driver (driver.performPart answers part) := by
  cases part with
  | enterSlot slot => exact absurd rfl (hother slot)
  | submitInHandover =>
      unfold performPart
      obtain heq | ⟨-, heq⟩ := driver.submitInHandover_cases
      · rw [heq]
        exact .refl driver
      · rw [heq]
        exact driver.sameWindows_submitLocalOutstandingBatch _
  | updateOutstandingBatchAnchor =>
      unfold performPart
      obtain heq | ⟨-, -, heq⟩ := driver.updateOutstandingBatchAnchorIfNeeded_cases
      · rw [heq]
        exact .refl driver
      · rw [heq]
        exact ⟨rfl, rfl, rfl, rfl, rfl, rfl⟩

/-- An event of the event loop, which is handled when no handler runs. -/
theorem handle_windows {event : LoopEvent} (hcall : driver.call = none)
    (hparts : driver.tickParts = []) (hnext : driver.handle event = some next) :
    WindowStep driver (.handle event) next := by
  have hidle : driver.call ≠ some .syncLookahead := by simp [hcall]
  cases event with
  | l1SlotTick timestamp currentSlot =>
      cases hnext
      exact .moved timestamp currentSlot (driver.sameWindows_onL1SlotTick timestamp currentSlot)
  | l2SlotTick timestamp reads =>
      cases hnext
      obtain heq | ⟨payload, hsequence, -, -, htimestamp, heq⟩ :=
        driver.onL2SlotTick_cases timestamp reads
      · rw [heq]
        exact .same (.refl driver) id
      · rw [heq]
        exact .triggered timestamp reads payload hcall hparts hsequence htimestamp
  | taikoPreconfEvent currentEpoch reads =>
      cases hnext
      exact .marked currentEpoch reads
  | blockProduced reads =>
      exact .same (sameWindows_blockProduced hnext) fun hsync => absurd hsync hidle
  | l1Block l1Header reads =>
      cases hnext
      obtain ⟨epoch, heq⟩ := driver.onL1Block_eq l1Header reads
      have hepoch : SameWindows (driver.updateL1Info l1Header reads).1
          (driver.onL1Block l1Header reads) := by
        rw [heq]
        exact ⟨rfl, rfl, rfl, rfl, rfl, rfl⟩
      obtain ⟨hsame, -⟩ | ⟨hsync, -⟩ := driver.updateL1Info_windows l1Header reads
      · exact .same (hsame.trans hepoch) fun hsync => absurd hsync hidle
      · exact .synced _ _ (hsync.trans hepoch) (fun schedule hreads => of_decide_eq_true hreads)
          (fun hslot => .inl (of_decide_eq_true hslot))
          fun hclock => .inl (of_decide_eq_true hclock)
  | l2Block l2Block reads =>
      cases hnext
      exact .same (driver.sameWindows_onL2Block l2Block reads) fun hsync => absurd hsync hidle
  | operatorChanged =>
      cases hnext
      exact .same (driver.sameWindows_call _) fun hsync => absurd hsync hidle
  | batchProposalErr e =>
      cases hnext
      unfold Driver.onBatchProposalErr
      split
      · exact .same (.refl driver) id
      · exact .same (driver.sameWindows_call _) fun hsync => absurd hsync hidle

/-- The startup sync starts another sync after the L1 information. -/
theorem startupSync_windows {answers : Answers} (hcall : driver.call = some .startupSync) :
    WindowStep driver (.resume answers)
      ({ driver with call := none }.startupSync answers.l1Tip answers.l1Info) := by
  have hother : driver.call ≠ some .syncLookahead := by simp [hcall]
  have hcalled := driver.sameWindows_call none
  cases htip : answers.l1Tip with
  | none => exact .same (driver.sameWindows_call _) fun hsync => absurd hsync hother
  | some l1Header =>
      have hwindows := updateL1Info_windows { driver with call := none } l1Header answers.l1Info
      unfold Driver.startupSync
      dsimp only
      cases hupdate : { driver with call := none }.updateL1Info l1Header answers.l1Info with
      | mk updated slot =>
          rw [hupdate] at hwindows
          obtain ⟨hsame, hslot⟩ | ⟨hsync, hslot⟩ := hwindows
          · dsimp only at hsame hslot
            subst hslot
            exact .same ((hcalled.trans hsame).trans (updated.sameWindows_call _))
              fun hsync => absurd hsync hother
          · dsimp only at hsync hslot
            subst hslot
            refine .synced _ _ ((hcalled.syncsAt hsync).trans (updated.sameWindows_call _))
              (fun schedule hreads => ?_) (fun _ => .inr rfl) fun _ => .inr rfl
            simp only [readsSchedule, hcall, htip, Option.all_some, decide_eq_true_eq] at hreads
            exact hreads

/-- The calls of a handler. -/
theorem perform_windows {call : Call} {answers : Answers} (hcall : driver.call = some call)
    (hnext : { driver with call := none }.perform answers call = some next) :
    WindowStep driver (.resume answers) next := by
  have hcalled := driver.sameWindows_call none
  cases call with
  | startupSync =>
      cases hnext
      exact startupSync_windows hcall
  | awaitIdle newAnchor deadline =>
      obtain ⟨polled, hpoll, rfl⟩ := Option.map_eq_some_iff.mp hnext
      obtain ⟨state, -, rfl⟩ := pollIdle_eq hpoll
      refine .same (SameWindows.trans ?_ (sameWindows_submitAndReset _ newAnchor deadline))
        (by simp [hcall])
      exact ⟨rfl, rfl, rfl, rfl, rfl, rfl⟩
  | syncLookahead =>
      cases hnext
      refine .synced _ _ (hcalled.syncsAt (syncsAt_startSync _ answers.lookahead))
        (fun schedule hreads => ?_) (fun _ => .inl rfl) fun hclock => ?_
      · simp only [readsSchedule, hcall, decide_eq_true_eq] at hreads
        exact hreads
      · simp only [readsClockInSlot, hcall, decide_eq_true_eq] at hclock
        exact .inl hclock
  | syncAwaitIdle =>
      obtain ⟨polled, hpoll, rfl⟩ := Option.map_eq_some_iff.mp hnext
      obtain ⟨state, -, rfl⟩ := pollIdle_eq hpoll
      exact .same ⟨rfl, rfl, rfl, rfl, rfl, rfl⟩ (by simp [hcall])
  | syncBatches =>
      cases hnext
      exact .same (hcalled.trans (sameWindows_syncBatches _ answers.sync)) (by simp [hcall])
  | finalizeBatches plan anchor block rest =>
      cases hnext
      exact .same (hcalled.trans
        (sameWindows_finalizeBatches _ plan anchor block rest answers.finalize)) (by simp [hcall])

/-- Entering a slot can begin a sync or changes the status. -/
theorem enterSlot_windows (driver : Driver) (slot currentTimestamp : Nat) :
    driver.enterSlot slot currentTimestamp = driver.await .syncLookahead ∨
      ∃ status, driver.enterSlot slot currentTimestamp = { driver with status := status } ∧
        (status = .inactive ∨ status = driver.lookahead.driverStatus currentTimestamp slot) := by
  have hstatus := driver.status_updateStatus (driver.lookahead.driverStatus currentTimestamp slot)
  obtain ⟨status, heq⟩ :=
    driver.updateStatus_eq (driver.lookahead.driverStatus currentTimestamp slot)
  unfold enterSlot
  split
  · exact .inl rfl
  · rw [heq] at hstatus ⊢
    exact .inr ⟨status, rfl, hstatus⟩

/-- Every step does one of these things. -/
theorem step_windows {event : Event} (hnext : driver.step event = some next) :
    WindowStep driver event next := by
  cases event with
  | handle event =>
      obtain ⟨hcall, hparts, hnext⟩ := step_handle hnext
      exact handle_windows hcall hparts hnext
  | resume answers =>
      obtain ⟨call, hcall, hnext⟩ | ⟨hcall, part, rest, hparts, hnext⟩ := step_resume hnext
      · exact perform_windows hcall hnext
      · rw [hnext]
        cases part with
        | enterSlot slot => exact .entered answers slot rest hcall hparts
        | submitInHandover =>
            exact .part answers .submitInHandover rest hcall hparts (by simp)
              (sameWindows_performPart _ answers (by simp))
        | updateOutstandingBatchAnchor =>
            exact .part answers .updateOutstandingBatchAnchor rest hcall hparts (by simp)
              (sameWindows_performPart _ answers (by simp))
  | background event =>
      obtain ⟨hsame, hcall⟩ := sameWindows_progress hnext
      exact .same hsame fun hsync => hcall.trans hsync

/-- The configuration stays the same, and only an L1 tick moves the head slot. -/
theorem headSlot_step {event : Event} (hnext : driver.step event = some next) :
    next.cfg = driver.cfg ∧
      (next.l1.headSlot = driver.l1.headSlot ∨
        ∃ timestamp currentSlot, event = .handle (.l1SlotTick timestamp currentSlot)) := by
  cases step_windows hnext with
  | same hsame hcall => exact ⟨hsame.cfg, .inl hsame.headSlot⟩
  | synced slot reads hsync hreads hslot hclock => exact ⟨hsync.cfg, .inl hsync.headSlot⟩
  | marked currentEpoch reads =>
      have hsync := driver.syncsAt_onTaikoPreconfEvent currentEpoch reads
      exact ⟨hsync.cfg, .inl hsync.headSlot⟩
  | moved timestamp currentSlot hsame => exact ⟨hsame.cfg, .inr ⟨_, _, rfl⟩⟩
  | triggered timestamp reads payload hcall hparts hsequence htimestamp => exact ⟨rfl, .inl rfl⟩
  | entered answers slot rest hcall hparts =>
      obtain heq | ⟨status, heq, -⟩ := enterSlot_windows { driver with tickParts := rest } slot
        answers.lookahead.currentTimestamp
      · rw [heq]
        exact ⟨rfl, .inl rfl⟩
      · rw [heq]
        exact ⟨rfl, .inl rfl⟩
  | part answers part rest hcall hparts hother hsame => exact ⟨hsame.cfg, .inl hsame.headSlot⟩

/-- Only an L2 tick of a driver that can sequence triggers a block, and only while no handler
runs. -/
theorem triggeredBlocks_step {event : Event} (hnext : driver.step event = some next) :
    triggeredBlocks next.log = triggeredBlocks driver.log ∨
      ∃ timestamp reads payload, event = .handle (.l2SlotTick timestamp reads) ∧
        driver.call = none ∧ driver.tickParts = [] ∧ driver.status.canSequence = true ∧
        payload.timestamp = timestamp ∧
        next = driver.triggerFinalizeBlock reads.estimate payload := by
  cases step_windows hnext with
  | same hsame hcall => exact .inl hsame.triggered
  | synced slot reads hsync hreads hslot hclock => exact .inl hsync.triggered
  | marked currentEpoch reads =>
      exact .inl (driver.syncsAt_onTaikoPreconfEvent currentEpoch reads).triggered
  | moved timestamp currentSlot hsame => exact .inl hsame.triggered
  | triggered timestamp reads payload hcall hparts hsequence htimestamp =>
      exact .inr ⟨timestamp, reads, payload, rfl, hcall, hparts, hsequence, htimestamp, rfl⟩
  | entered answers slot rest hcall hparts =>
      obtain heq | ⟨status, heq, -⟩ := enterSlot_windows { driver with tickParts := rest } slot
        answers.lookahead.currentTimestamp
      · rw [heq]
        exact .inl rfl
      · rw [heq]
        exact .inl rfl
  | part answers part rest hcall hparts hother hsame => exact .inl hsame.triggered

/-! ## The invariants -/

/-- The epochs of the windows are the operator's, and an L1 tick enters the head slot. -/
structure OwnsWindows (schedule : Nat → Address) (driver : Driver) : Prop where
  cfg : driver.lookahead.cfg = driver.cfg
  owns : driver.lookahead.OwnsEpochs schedule
  parts : ∀ slot, .enterSlot slot ∈ driver.tickParts → slot = driver.l1.headSlot

/-- The status is inactive or that of the head slot at some time, which is a time `inSlot` if
needed. -/
def StatusCurrent (driver : Driver) (inSlot : Prop) : Prop :=
  driver.status = .inactive ∨
    ∃ now, (inSlot → driver.cfg.timestampToL1Slot now = driver.l1.headSlot) ∧
      driver.status = driver.lookahead.driverStatus now driver.l1.headSlot

/-- The status is up to date, unless the handler that runs has still to update it. -/
def KeepsStatus (driver : Driver) (inSlot : Prop) : Prop :=
  driver.StatusCurrent inSlot ∨ (∃ slot rest, driver.tickParts = .enterSlot slot :: rest) ∨
    driver.call = some .syncLookahead

variable {schedule : Nat → Address} {inSlot : Prop}

/-- A driver starts without windows. -/
theorem ownsWindows_new (schedule : Nat → Address) (cfg : RuntimeConfig) (l1 : L1State)
    (l2 : L2State) : (new cfg l1 l2).OwnsWindows schedule :=
  ⟨rfl, Lookahead.ownsEpochs_new schedule cfg, by simp [new]⟩

/-- A driver starts inactive. -/
theorem keepsStatus_new (cfg : RuntimeConfig) (l1 : L1State) (l2 : L2State) :
    (new cfg l1 l2).KeepsStatus inSlot :=
  .inl (.inl rfl)

/-- The windows stay the operator's in a step that changes nothing. -/
theorem OwnsWindows.same (h : driver.OwnsWindows schedule) (hsame : SameWindows driver next) :
    next.OwnsWindows schedule where
  cfg := by rw [hsame.lookahead, hsame.cfg, h.cfg]
  owns := by
    rw [hsame.lookahead]
    exact h.owns
  parts := by
    rw [hsame.tickParts, hsame.headSlot]
    exact h.parts

/-- The windows stay the operator's in a sync with operators of the schedule. -/
theorem OwnsWindows.synced (h : driver.OwnsWindows schedule) {slot : Nat} {reads : LookaheadReads}
    (hsync : SyncsAt slot reads driver next)
    (hreads : ReadsFollow schedule slot reads.currentOperator reads.nextOperator) :
    next.OwnsWindows schedule where
  cfg := by rw [hsync.lookahead, hsync.cfg, Lookahead.cfg_sync, h.cfg]
  owns := by
    rw [hsync.lookahead]
    exact h.owns.sync hreads
  parts := by
    rw [hsync.tickParts, hsync.headSlot]
    exact h.parts

/-- Every step leaves the windows the operator's, if it reads the operators of the schedule. -/
theorem OwnsWindows.step (h : driver.OwnsWindows schedule) {event : Event}
    (hreads : driver.readsSchedule schedule event = true)
    (hnext : driver.step event = some next) : next.OwnsWindows schedule := by
  -- the rest of an L1 tick
  have hrest : ∀ part rest, driver.tickParts = part :: rest →
      { driver with tickParts := rest }.OwnsWindows schedule := fun part rest hparts =>
    ⟨h.cfg, h.owns, fun slot hslot =>
      h.parts slot (by rw [hparts]; exact List.mem_cons_of_mem _ hslot)⟩
  cases step_windows hnext with
  | same hsame hcall => exact h.same hsame
  | synced slot reads hsync hfollow hslot hclock => exact h.synced hsync (hfollow schedule hreads)
  | marked currentEpoch reads =>
      refine OwnsWindows.synced ?_ (driver.syncsAt_onTaikoPreconfEvent currentEpoch reads)
        (of_decide_eq_true hreads)
      exact ⟨h.cfg, h.owns.updateEndOfSequencingMark currentEpoch, h.parts⟩
  | moved timestamp currentSlot hsame =>
      refine OwnsWindows.same ?_ hsame
      exact ⟨h.cfg, h.owns, by simp⟩
  | triggered timestamp reads payload hcall hparts hsequence htimestamp =>
      exact ⟨h.cfg, h.owns, h.parts⟩
  | entered answers slot rest hcall hparts =>
      have hrest := hrest _ rest hparts
      obtain heq | ⟨status, heq, -⟩ := enterSlot_windows { driver with tickParts := rest } slot
        answers.lookahead.currentTimestamp
      · rw [heq]
        exact ⟨hrest.cfg, hrest.owns, hrest.parts⟩
      · rw [heq]
        exact ⟨hrest.cfg, hrest.owns, hrest.parts⟩
  | part answers part rest hcall hparts hother hsame => exact (hrest part rest hparts).same hsame

/-- A status that is up to date stays so. -/
theorem StatusCurrent.same (h : driver.StatusCurrent inSlot) (hsame : SameWindows driver next) :
    next.StatusCurrent inSlot := by
  unfold StatusCurrent
  rw [hsame.status, hsame.lookahead, hsame.headSlot, hsame.cfg]
  exact h

/-- After a sync at the head slot the status is up to date. -/
theorem SyncsAt.statusCurrent {slot : Nat} {reads : LookaheadReads}
    (h : SyncsAt slot reads driver next) (hslot : slot = driver.l1.headSlot)
    (hclock : inSlot →
      driver.cfg.timestampToL1Slot reads.currentTimestamp = driver.l1.headSlot) :
    next.StatusCurrent inSlot := by
  subst hslot
  unfold StatusCurrent
  rw [h.headSlot, h.cfg]
  exact h.status.imp_right fun heq => ⟨reads.currentTimestamp, hclock, heq⟩

/-- The status is up to date unless the handler that runs is the one that updates it. -/
theorem KeepsStatus.statusCurrent (h : driver.KeepsStatus inSlot) (hcall : driver.call = none)
    (hparts : ∀ slot rest, driver.tickParts ≠ .enterSlot slot :: rest) :
    driver.StatusCurrent inSlot := by
  obtain hcurrent | ⟨slot, rest, heq⟩ | heq := h
  · exact hcurrent
  · exact absurd heq (hparts slot rest)
  · rw [hcall] at heq
    cases heq

/-- An L1 tick leaves it to its first part to update the status. -/
theorem keepsStatus_onL1SlotTick (driver : Driver) (timestamp currentSlot : Nat) :
    (driver.onL1SlotTick timestamp currentSlot).KeepsStatus inSlot :=
  .inr (.inl ⟨_, _, (driver.sameWindows_onL1SlotTick timestamp currentSlot).tickParts⟩)

/-- Every step keeps the status up to date, if L1 blocks arrive in their slot and the clock is read
in the head slot if needed. -/
theorem KeepsStatus.step (h : driver.KeepsStatus inSlot) (howns : driver.OwnsWindows schedule)
    {event : Event} (hslot : driver.l1BlockInSlot event = true)
    (hclock : inSlot → driver.readsClockInSlot event = true)
    (hnext : driver.step event = some next) : next.KeepsStatus inSlot := by
  cases step_windows hnext with
  | same hsame hcall =>
      obtain hcurrent | hparts | hsync := h
      · exact .inl (hcurrent.same hsame)
      · exact .inr (.inl (by rw [hsame.tickParts]; exact hparts))
      · exact .inr (.inr (hcall hsync))
  | synced slot reads hsync hreads hhead hread =>
      rcases hhead hslot with hhead | hagain
      · by_cases hagain : next.call = some .syncLookahead
        · exact .inr (.inr hagain)
        · exact .inl (hsync.statusCurrent hhead fun hin =>
            (hread (hclock hin)).resolve_right hagain)
      · exact .inr (.inr hagain)
  | marked currentEpoch reads =>
      exact .inl ((driver.syncsAt_onTaikoPreconfEvent currentEpoch reads).statusCurrent rfl
        fun hin => of_decide_eq_true (hclock hin))
  | moved timestamp currentSlot hsame => exact .inr (.inl ⟨_, _, hsame.tickParts⟩)
  | triggered timestamp reads payload hcall hparts hsequence htimestamp => exact h
  | entered answers slot rest hcall hparts =>
      obtain rfl : slot = driver.l1.headSlot := howns.parts slot (by simp [hparts])
      obtain heq | ⟨status, heq, hstatus⟩ := enterSlot_windows { driver with tickParts := rest }
        driver.l1.headSlot answers.lookahead.currentTimestamp
      · rw [heq]
        exact .inr (.inr rfl)
      · rw [heq]
        refine .inl (hstatus.imp_right fun hstatus =>
          ⟨answers.lookahead.currentTimestamp, fun hin => ?_, hstatus⟩)
        have hread := hclock hin
        simpa only [readsClockInSlot, hcall, hparts, decide_eq_true_eq] using hread
  | part answers part rest hcall hparts hother hsame =>
      have hcurrent : { driver with tickParts := rest }.StatusCurrent inSlot := by
        refine h.statusCurrent hcall fun slot rest' heq => ?_
        rw [hparts] at heq
        cases heq
        exact hother slot rfl
      exact .inl (hcurrent.same hsame)

/-- While the status is up to date, a driver that can sequence and runs no handler has its head slot
in an epoch of the operator. -/
theorem OwnsWindows.of_canSequence (h : driver.OwnsWindows schedule)
    (hkeeps : driver.KeepsStatus inSlot)
    (hsmall : driver.cfg.handoverWindowSlots ≤ EPOCH_SLOTS) (hcall : driver.call = none)
    (hparts : driver.tickParts = []) (hsequence : driver.status.canSequence = true) :
    schedule (toEpoch (driver.l1.headSlot + driver.cfg.handoverWindowSlots)) =
      driver.cfg.operator := by
  obtain hinactive | ⟨now, -, hstatus⟩ := hkeeps.statusCurrent hcall (by simp [hparts])
  · rw [hinactive] at hsequence
    cases hsequence
  · rw [hstatus] at hsequence
    have howned := h.owns.of_inSequencingWindow (by rwa [h.cfg])
      (Lookahead.inSequencingWindow_of_canSequence hsequence)
    rwa [h.cfg] at howned

/-- The configuration stays the same in every run. -/
theorem cfg_of_run {start : Driver} {events : List Event}
    (hrun : Transition.run step start events = some driver) : driver.cfg = start.cfg := by
  have hstep : ∀ (state : Driver) (event : Event) (next : Driver), state.cfg = start.cfg →
      step state event = some next → next.cfg = start.cfg :=
    fun state event next hcfg hnext => (headSlot_step hnext).1.trans hcfg
  have hfinal := Transition.invariant_run_of_step hstep rfl hrun
  exact hfinal

/-- The windows are the operator's in every run in which the operators are read from the
schedule. -/
theorem ownsWindows_of_run {cfg : RuntimeConfig} {l1 : L1State} {l2 : L2State} {events : List Event}
    (hreads : Transition.StepsMeet step
      (fun driver event => driver.readsSchedule schedule event = true) (new cfg l1 l2) events)
    (hrun : Transition.run step (new cfg l1 l2) events = some driver) :
    driver.OwnsWindows schedule :=
  Transition.invariant_run (fun _ _ _ hinv hmeet hstep => hinv.step hmeet hstep)
    (ownsWindows_new schedule cfg l1 l2) hreads hrun

/-- In every run from the start of the driver in which the operators are read from the schedule and
L1 blocks arrive in their slot, the head slot in which a block is triggered stands for an epoch
that the schedule gives to the operator. -/
theorem builds_in_own_epochs {cfg : RuntimeConfig} {l1 : L1State} {l2 : L2State}
    {events : List Event} {event : Event} {finalization : Finalization}
    (hsmall : cfg.handoverWindowSlots ≤ EPOCH_SLOTS)
    (hreads : Transition.StepsMeet step
      (fun driver event => driver.readsSchedule schedule event = true) (new cfg l1 l2) events)
    (hslots : Transition.StepsMeet step (fun driver event => driver.l1BlockInSlot event = true)
      (new cfg l1 l2) events)
    (hrun : Transition.run step (new cfg l1 l2) events = some driver)
    (hnext : driver.step event = some next)
    (htriggered : next.log = .triggered finalization :: driver.log) :
    schedule (toEpoch (driver.l1.headSlot + cfg.handoverWindowSlots)) = cfg.operator := by
  have hinv : ∀ (state : Driver) (event : Event) (next : Driver),
      state.OwnsWindows schedule ∧ state.KeepsStatus False →
      state.readsSchedule schedule event = true ∧ state.l1BlockInSlot event = true →
      state.step event = some next → next.OwnsWindows schedule ∧ next.KeepsStatus False :=
    fun state event next h hmeet hstep =>
      ⟨h.1.step hmeet.1 hstep, h.2.step h.1 hmeet.2 False.elim hstep⟩
  obtain ⟨howns, hkeeps⟩ := Transition.invariant_run hinv
    ⟨ownsWindows_new schedule cfg l1 l2, keepsStatus_new cfg l1 l2⟩ (hreads.and hslots) hrun
  obtain rfl : driver.cfg = cfg := cfg_of_run hrun
  obtain hsame | ⟨-, -, -, -, hcall, hparts, hsequence, -, -⟩ := triggeredBlocks_step hnext
  · rw [htriggered] at hsame
    exact absurd hsame (List.cons_ne_self finalization _)
  · exact howns.of_canSequence hkeeps hsmall hcall hparts hsequence

/-- A schedule that gives epoch 100 to operator 1 and every other epoch to operator 2. -/
def epoch100Schedule (epoch : Nat) : Address := if epoch = 100 then 1 else 2

/-- The start of operator 1 in slot 3201, which is in epoch 100. -/
def startupIn100 : List Event := startup (answersWith 38412 104 1 2 48 headOn48)

/-- The L2 tick of slot 3201 triggers block 2 in epoch 100, which is the operator's. -/
theorem builds_in_own_epochs_block2 :
    ∃ driver next, Transition.run step (startAt 38412 1) startupIn100 = some driver ∧
      driver.step (.handle (.l2SlotTick 38414 (tickReads headOn48.header))) = some next ∧
      next.log = .triggered finalizationOn48 :: driver.log ∧
      epoch100Schedule (toEpoch (driver.l1.headSlot + 4)) = 1 := by
  obtain ⟨driver, hrun, hstep⟩ : ∃ driver,
      Transition.run step (startAt 38412 1) startupIn100 = some driver ∧
        ((driver.step (.handle (.l2SlotTick 38414 (tickReads headOn48.header)))).any fun next =>
          next.log = .triggered finalizationOn48 :: driver.log) = true :=
    Transition.exists_run (by decide +kernel)
  obtain ⟨next, hnext, hlog⟩ := (Option.any_eq_true _ _).mp hstep
  exact ⟨driver, next, hrun, hnext, of_decide_eq_true hlog,
    builds_in_own_epochs (by decide) (by decide +kernel) (by decide +kernel) hrun hnext
      (of_decide_eq_true hlog)⟩

/-- The L1 tick of slot 3228, in which the sequencing window has ended, and then the L1 block of
the slot before. -/
def lateL1Block : List Event :=
  let answers := answersWith 38738 104 1 2 48 headOn48
  [.handle (.l1SlotTick 38736 3228), .resume answers, .resume answers, .resume answers,
    .handle (.l1Block { l1Header 105 with timestamp := 38724 } answers.l1Info)]

/-- An L1 block that arrives after its slot brings the status of its slot back, so that a block is
built in an epoch of the other operator. -/
theorem late_l1Block_builds_in_other_epoch :
    ∃ driver next finalization,
      Transition.run step (startAt 38412 1) (startupIn100 ++ lateL1Block) = some driver ∧
      driver.step (.handle (.l2SlotTick 38738 (tickReads headOn48.header))) = some next ∧
      next.log = .triggered finalization :: driver.log ∧
      epoch100Schedule (toEpoch (driver.l1.headSlot + 4)) ≠ 1 := by
  obtain ⟨driver, hrun, hstep⟩ : ∃ driver,
      Transition.run step (startAt 38412 1) (startupIn100 ++ lateL1Block) = some driver ∧
        ((driver.step (.handle (.l2SlotTick 38738 (tickReads headOn48.header)))).any fun next =>
          (triggeredBlocks next.log).any (fun finalization =>
            next.log = .triggered finalization :: driver.log) &&
            epoch100Schedule (toEpoch (driver.l1.headSlot + 4)) ≠ 1) = true :=
    Transition.exists_run (by decide +kernel)
  obtain ⟨next, hnext, hchecked⟩ := (Option.any_eq_true _ _).mp hstep
  obtain ⟨hlog, hother⟩ := Bool.and_eq_true_iff.mp hchecked
  obtain ⟨finalization, -, hlog⟩ := List.any_eq_true.mp hlog
  exact ⟨driver, next, finalization, hrun, hnext, of_decide_eq_true hlog,
    of_decide_eq_true hother⟩

end Driver

end Mk1
