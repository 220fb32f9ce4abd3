import Mk1.Driver.Handlers
import Mk1.Library.Transition

/-!
# The event loop

The driver as a step function. The event loop handles an event whenever no
handler runs, a handler that runs goes on when the answers that it waits for
arrive, and the block builder and the check of the preconf router go on in the
background at any time. A handler that waits for the builder in vain never goes
on.
-/

namespace Mk1

namespace Driver

/-- What the event loop can receive. -/
inductive LoopEvent where
  | l1SlotTick (timestamp currentSlot : Nat)
  | l2SlotTick (timestamp : Nat) (reads : L2TickReads)
  | taikoPreconfEvent (currentEpoch : Nat) (reads : LookaheadReads)
  | blockProduced (reads : ProducedReads)
  | l1Block (l1Header : Header) (reads : L1InfoReads)
  | l2Block (l2Block : Block) (reads : L2BlockReads)
  | operatorChanged
  | batchProposalErr (e : BatchProposalError)

/-- The answers that the rest of a handler reads. -/
structure Answers where
  l1Tip : Option Header
  l1Info : L1InfoReads
  lookahead : LookaheadReads
  sync : SyncReads
  finalize : FinalizeReads

/-- What can happen in the background. The check of the preconf router is started by the sync of
the L1 state. -/
inductive BackgroundEvent where
  | builder (event : BuilderEvent)
  | preconfRouterChecked (isSet : Bool)

/-- A step: in the event loop, in the handler that runs, or in the background. -/
inductive Event where
  | handle (event : LoopEvent)
  | resume (answers : Answers)
  | background (event : BackgroundEvent)

/-- What a background event of the builder adds to the log. -/
def finalizedEntries : BuilderEvent → List LogEntry
  | .finalized finalization newBlock =>
      let response := finalizeBlock finalization.anchorBlock finalization.payload newBlock
      [.finalized response.preconfirmedBlock response.anchor]
  | .finalizationFailed _ => []

/-- A background event. -/
def progress (driver : Driver) : BackgroundEvent → Option Driver
  | .builder event => do
      let blockBuilder ← driver.blockBuilder.progress event
      pure { driver with
        blockBuilder := blockBuilder
        log := finalizedEntries event ++ driver.log }
  | .preconfRouterChecked isSet =>
      some { driver with l1 := { driver.l1 with isPreconfRouterSet := isSet } }

/-- An event of the event loop. Only a response that has been sent can be received. -/
def handle (driver : Driver) : LoopEvent → Option Driver
  | .l1SlotTick timestamp currentSlot => some (driver.onL1SlotTick timestamp currentSlot)
  | .l2SlotTick timestamp reads => some (driver.onL2SlotTick timestamp reads)
  | .taikoPreconfEvent currentEpoch reads => some (driver.onTaikoPreconfEvent currentEpoch reads)
  | .blockProduced reads => driver.blockProduced reads
  | .l1Block l1Header reads => some (driver.onL1Block l1Header reads)
  | .l2Block l2Block reads => some (driver.onL2Block l2Block reads)
  | .operatorChanged => some driver.onOperatorChanged
  | .batchProposalErr e => some (driver.onBatchProposalErr e)

/-- Poll the wait for the builder again. -/
def pollIdle (driver : Driver) : Option Driver :=
  driver.blockBuilder.state.pollChanged.map fun state =>
    { driver with blockBuilder := { driver.blockBuilder with state := state } }

/-- The first part of an iteration of the loop of `sync_and_propose`, up to the wait. -/
def startSync (driver : Driver) (reads : LookaheadReads) : Driver :=
  let driver := driver.syncLookahead driver.l1.headSlot reads
  match driver.blockBuilder.state.waitForIdle with
  | some state =>
      { driver with blockBuilder := { driver.blockBuilder with state := state } }.await .syncBatches
  | none => driver.await .syncAwaitIdle

/-- The second part of an iteration, which starts the loop again after an error. -/
def syncBatches (driver : Driver) (reads : SyncReads) : Driver :=
  match Syncer.sync driver.cfg driver.status reads with
  | some plan => driver.proposePlan plan
  | none => driver.await .syncLookahead

/-- Go on with a call, unless it has to wait. -/
def perform (driver : Driver) (answers : Answers) : Call → Option Driver
  | .startupSync => some (driver.startupSync answers.l1Tip answers.l1Info)
  | .awaitIdle newAnchor deadline =>
      driver.pollIdle.map fun driver => driver.submitAndReset newAnchor deadline
  | .syncLookahead => some (driver.startSync answers.lookahead)
  | .syncAwaitIdle => driver.pollIdle.map fun driver => driver.await .syncBatches
  | .syncBatches => some (driver.syncBatches answers.sync)
  | .finalizeBatches plan anchor block rest =>
      some (driver.finalizeBatches plan anchor block rest answers.finalize)

/-- Go on with a part of `on_l1_slot_tick`. -/
def performPart (driver : Driver) (answers : Answers) : TickPart → Driver
  | .enterSlot slot => driver.enterSlot slot answers.lookahead.currentTimestamp
  | .submitInHandover => driver.submitInHandover
  | .updateOutstandingBatchAnchor => driver.updateOutstandingBatchAnchorIfNeeded

/-- Go on with the handler that runs. -/
def resume (driver : Driver) (answers : Answers) : Option Driver :=
  match driver.call, driver.tickParts with
  | some call, _ => { driver with call := none }.perform answers call
  | none, part :: rest => some ({ driver with tickParts := rest }.performPart answers part)
  | none, [] => none

/-- Whether no handler runs. -/
def isListening (driver : Driver) : Bool := driver.call.isNone && driver.tickParts.isEmpty

/-- One step. The event loop waits until the handler that runs has returned. -/
def step (driver : Driver) : Event → Option Driver
  | .handle event => if driver.isListening then driver.handle event else none
  | .resume answers => driver.resume answers
  | .background event => driver.progress event

/-! ## What the calls change -/

/-- The event loop only handles an event if no handler runs. -/
theorem step_handle {driver next : Driver} {event : LoopEvent}
    (h : driver.step (.handle event) = some next) :
    driver.call = none ∧ driver.tickParts = [] ∧ driver.handle event = some next := by
  simp only [step] at h
  split at h
  · next hlistening =>
      unfold isListening at hlistening
      obtain ⟨hcall, hparts⟩ := Bool.and_eq_true_iff.mp hlistening
      exact ⟨Option.isNone_iff_eq_none.mp hcall, List.isEmpty_iff.mp hparts, h⟩
  · cases h

/-- A handler that runs goes on with its call, or with the next part of an L1 tick. -/
theorem step_resume {driver next : Driver} {answers : Answers}
    (h : driver.step (.resume answers) = some next) :
    (∃ call, driver.call = some call ∧
      { driver with call := none }.perform answers call = some next) ∨
      (driver.call = none ∧ ∃ part rest, driver.tickParts = part :: rest ∧
        next = { driver with tickParts := rest }.performPart answers part) := by
  simp only [step, resume] at h
  split at h
  · next call hcall => exact .inl ⟨call, hcall, h⟩
  · next part rest hcall hparts => exact .inr ⟨hcall, part, rest, hparts, (Option.some.inj h).symm⟩
  · cases h

/-- A wait that is woken changes nothing but what the receiver has seen. -/
theorem pollIdle_eq {driver polled : Driver} (h : driver.pollIdle = some polled) :
    ∃ state, state.isFinalizing = driver.blockBuilder.state.isFinalizing ∧
      polled = { driver with blockBuilder := { driver.blockBuilder with state := state } } := by
  obtain ⟨state, hpoll, rfl⟩ := Option.map_eq_some_iff.mp h
  exact ⟨state, (BuilderState.isFinalizing_pollChanged hpoll).2, rfl⟩

/-- The builder is the same, up to what the receiver has seen of its state. -/
def SameLock (builder next : L2BlockBuilder) : Prop :=
  ∃ state, state.isFinalizing = builder.state.isFinalizing ∧ next = { builder with state := state }

theorem SameLock.refl (builder : L2BlockBuilder) : SameLock builder builder :=
  ⟨builder.state, rfl, rfl⟩

/-- The same builder works on the same finalizations. -/
theorem SameLock.finalizations {builder next : L2BlockBuilder} (h : SameLock builder next) :
    next.finalizations = builder.finalizations := by
  obtain ⟨state, -, rfl⟩ := h
  rfl

/-- A step that leaves the anchors, the builder, the outstanding batch and the log alone. It can
begin a sync or go on with one. -/
structure Quiet (driver next : Driver) : Prop where
  cfg : next.cfg = driver.cfg
  anchor : next.l1.anchor = driver.l1.anchor
  builder : SameLock driver.blockBuilder next.blockBuilder
  outstandingBatch : next.outstandingBatch = driver.outstandingBatch
  log : next.log = driver.log
  call : next.call = driver.call ∨ next.call = some .startupSync ∨
    next.call = some .syncLookahead ∨ next.call = some .syncAwaitIdle ∨
    next.call = some .syncBatches

variable {driver next : Driver}

theorem Quiet.refl (driver : Driver) : Quiet driver driver :=
  ⟨rfl, rfl, .refl _, rfl, rfl, .inl rfl⟩

/-- A quiet step does not begin to wait for a submission. -/
theorem Quiet.call_ne_awaitIdle (h : Quiet driver next) (hcall : driver.call = none)
    (newAnchor : Header) (deadline : Nat) :
    next.call ≠ some (.awaitIdle newAnchor deadline) := by
  obtain heq | heq | heq | heq | heq := h.call
  · simp [heq, hcall]
  · simp [heq]
  · simp [heq]
  · simp [heq]
  · simp [heq]

/-- An L1 tick only moves the head slot, unless it finds the outstanding batch at its age limit. -/
theorem onL1SlotTick_cases (driver : Driver) (timestamp currentSlot : Nat) :
    Quiet driver (driver.onL1SlotTick timestamp currentSlot) ∨
      (driver.reachesAgeLimit timestamp = true ∧ ∃ headSlot tickParts deadline,
        driver.onL1SlotTick timestamp currentSlot =
          { driver with
            l1 := { driver.l1 with headSlot := headSlot }
            tickParts := tickParts }.submitLocalOutstandingBatch deadline) := by
  unfold onL1SlotTick
  dsimp only
  split
  · next hlimit => exact .inr ⟨decide_eq_true hlimit, _, _, _, rfl⟩
  · exact .inl ⟨rfl, rfl, .refl _, rfl, rfl, .inl rfl⟩

/-- An event of the taiko-driver can only change the lookahead and the status. -/
theorem quiet_onTaikoPreconfEvent (driver : Driver) (currentEpoch : Nat) (reads : LookaheadReads) :
    Quiet driver (driver.onTaikoPreconfEvent currentEpoch reads) := by
  obtain ⟨lookahead, status, heq⟩ := syncLookahead_eq
    { driver with lookahead := driver.lookahead.updateEndOfSequencingMark currentEpoch }
    driver.l1.headSlot reads
  unfold onTaikoPreconfEvent
  rw [heq]
  exact ⟨rfl, rfl, .refl _, rfl, rfl, .inl rfl⟩

/-- A change of the operators begins a sync. -/
theorem quiet_onOperatorChanged (driver : Driver) : Quiet driver driver.onOperatorChanged :=
  ⟨rfl, rfl, .refl _, rfl, rfl, .inr (.inr (.inl rfl))⟩

/-- An error of a proposal can begin a sync. -/
theorem quiet_onBatchProposalErr (driver : Driver) (e : BatchProposalError) :
    Quiet driver (driver.onBatchProposalErr e) := by
  unfold onBatchProposalErr
  split
  · exact .refl driver
  · exact driver.quiet_onOperatorChanged

/-- An L1 block can start an epoch after its information has been taken over. -/
theorem quiet_onL1Block (driver : Driver) (l1Header : Header) (reads : L1InfoReads) :
    Quiet (driver.updateL1Info l1Header reads).1 (driver.onL1Block l1Header reads) := by
  obtain ⟨epoch, heq⟩ := driver.onL1Block_eq l1Header reads
  rw [heq]
  exact ⟨rfl, rfl, .refl _, rfl, rfl, .inl rfl⟩

/-- The startup sync takes over the information about the L1, if it can be read. -/
theorem quiet_startupSync (driver : Driver) (l1Tip : Option Header) (reads : L1InfoReads) :
    Quiet driver (driver.startupSync l1Tip reads) ∨
      ∃ l1Header, Quiet (driver.updateL1Info l1Header reads).1
        (driver.startupSync l1Tip reads) := by
  obtain heq | ⟨l1Header, heq⟩ := driver.startupSync_cases l1Tip reads
  · rw [heq]
    exact .inl ⟨rfl, rfl, .refl _, rfl, rfl, .inr (.inl rfl)⟩
  · refine .inr ⟨l1Header, ?_⟩
    obtain heq | heq := heq
    · rw [heq]
      exact ⟨rfl, rfl, .refl _, rfl, rfl, .inr (.inl rfl)⟩
    · rw [heq]
      exact ⟨rfl, rfl, .refl _, rfl, rfl, .inr (.inr (.inl rfl))⟩

/-- A sync begins with the lookahead, and goes on whatever the builder does or waits for it. -/
theorem quiet_startSync (driver : Driver) (reads : LookaheadReads) :
    Quiet driver (driver.startSync reads) := by
  obtain ⟨lookahead, status, heq⟩ := driver.syncLookahead_eq driver.l1.headSlot reads
  unfold startSync
  rw [heq]
  dsimp only
  cases hwait : driver.blockBuilder.state.waitForIdle with
  | none => exact ⟨rfl, rfl, .refl _, rfl, rfl, .inr (.inr (.inr (.inl rfl)))⟩
  | some state =>
      have hsame := driver.blockBuilder.state.isFinalizing_waitForIdle hwait
      exact ⟨rfl, rfl, ⟨state, hsame, rfl⟩, rfl, rfl, .inr (.inr (.inr (.inr rfl)))⟩

/-- A wait of a sync that is woken goes on with the batches. -/
theorem quiet_syncAwaitIdle {polled : Driver} (h : driver.pollIdle = some polled) :
    Quiet driver (polled.await .syncBatches) := by
  obtain ⟨state, hsame, rfl⟩ := pollIdle_eq h
  exact ⟨rfl, rfl, ⟨state, hsame, rfl⟩, rfl, rfl, .inr (.inr (.inr (.inr rfl)))⟩

/-- Entering a slot can begin a sync or changes the status. -/
theorem quiet_enterSlot (driver : Driver) (slot currentTimestamp : Nat) :
    Quiet driver (driver.enterSlot slot currentTimestamp) := by
  unfold enterSlot
  split
  · exact driver.quiet_onOperatorChanged
  · obtain ⟨status, heq⟩ :=
      driver.updateStatus_eq (driver.lookahead.driverStatus currentTimestamp slot)
    rw [heq]
    exact ⟨rfl, rfl, .refl _, rfl, rfl, .inl rfl⟩

/-- The local batch is submitted if the driver can only include. -/
theorem submitInHandover_cases (driver : Driver) :
    driver.submitInHandover = driver ∨
      (driver.status = .inclusionOnly ∧ driver.submitInHandover =
        driver.submitLocalOutstandingBatch driver.lookahead.inclusionWindowEnd) := by
  unfold submitInHandover
  split
  · next hstatus => exact .inr ⟨hstatus, rfl⟩
  · exact .inl rfl

/-- A sync starts again, adopts a plan, or begins to finalize the blocks of a plan. -/
theorem syncBatches_cases (driver : Driver) (reads : SyncReads) :
    Quiet driver (driver.syncBatches reads) ∨
      ∃ plan, Syncer.sync driver.cfg driver.status reads = some plan ∧
        driver.syncBatches reads = driver.proposePlan plan := by
  unfold syncBatches
  split
  · next plan hplan => exact .inr ⟨plan, hplan, rfl⟩
  · exact .inl driver.quiet_onOperatorChanged

/-- What going on with a call can do. `quiet` is a sync that begins, goes on or waits again,
`l1Info` a startup sync that has read the information about the L1, `submitted` the end of a wait
for the builder. A sync has `adopted` its plan or has `begun` to finalize its blocks. A block of a
plan has `failed` or is `finalized` again. -/
inductive Performed (driver : Driver) (answers : Answers) : Call → Driver → Prop
  | quiet {call : Call} {next : Driver}
      (hother : ∀ plan anchor block rest, call ≠ .finalizeBatches plan anchor block rest)
      (hquiet : Quiet driver next) : Performed driver answers call next
  | l1Info {next : Driver} (l1Header : Header)
      (hquiet : Quiet (driver.updateL1Info l1Header answers.l1Info).1 next) :
      Performed driver answers .startupSync next
  | submitted (newAnchor : Header) (deadline : Nat) (state : BuilderState)
      (hsame : state.isFinalizing = driver.blockBuilder.state.isFinalizing) :
      Performed driver answers (.awaitIdle newAnchor deadline)
        ({ driver with
          blockBuilder := { driver.blockBuilder with state := state } }.submitAndReset
            newAnchor deadline)
  | adopted (plan : SyncPlan) : Performed driver answers .syncBatches (driver.adoptPlan plan)
  | begun (plan : SyncPlan) (anchor : Header) (block : PreconfirmedBlock)
      (rest : List (Header × PreconfirmedBlock)) :
      Performed driver answers .syncBatches
        (driver.await (.finalizeBatches plan anchor block rest))
  | failed (plan : SyncPlan) (anchor : Header) (block : PreconfirmedBlock)
      (rest : List (Header × PreconfirmedBlock))
      (herror : finalizeAgain driver.cfg plan anchor block answers.finalize = none) :
      Performed driver answers (.finalizeBatches plan anchor block rest) (driver.adoptPlan plan)
  | finalized (plan : SyncPlan) (anchor : Header) (block : PreconfirmedBlock)
      (rest : List (Header × PreconfirmedBlock)) (newBlock : Header)
      (hagain : finalizeAgain driver.cfg plan anchor block answers.finalize =
        some ⟨.new newBlock block.txList, anchor⟩) :
      Performed driver answers (.finalizeBatches plan anchor block rest)
        ({ driver with
          blockBuilder := driver.blockBuilder.release
          log := .finalized (.new newBlock block.txList) anchor :: driver.log }.finalizeNext
            plan rest)

/-- A call that goes on does one of these things. -/
theorem perform_cases {answers : Answers} {call : Call}
    (hnext : driver.perform answers call = some next) : Performed driver answers call next := by
  cases call with
  | startupSync =>
      cases hnext
      obtain hquiet | ⟨l1Header, hquiet⟩ :=
        driver.quiet_startupSync answers.l1Tip answers.l1Info
      · exact .quiet (by simp) hquiet
      · exact .l1Info l1Header hquiet
  | awaitIdle newAnchor deadline =>
      obtain ⟨polled, hpoll, rfl⟩ := Option.map_eq_some_iff.mp hnext
      obtain ⟨state, hsame, rfl⟩ := pollIdle_eq hpoll
      exact .submitted newAnchor deadline state hsame
  | syncLookahead =>
      cases hnext
      exact .quiet (by simp) (driver.quiet_startSync answers.lookahead)
  | syncAwaitIdle =>
      obtain ⟨polled, hpoll, rfl⟩ := Option.map_eq_some_iff.mp hnext
      exact .quiet (by simp) (quiet_syncAwaitIdle hpoll)
  | syncBatches =>
      cases hnext
      obtain hquiet | ⟨plan, -, heq⟩ := driver.syncBatches_cases answers.sync
      · exact .quiet (by simp) hquiet
      · rw [heq]
        obtain hadopt | ⟨-, -, anchor, block, rest, -, hawait⟩ := driver.proposePlan_cases plan
        · rw [hadopt]
          exact .adopted plan
        · rw [hawait]
          exact .begun plan anchor block rest
  | finalizeBatches plan anchor block rest =>
      cases hnext
      obtain ⟨herror, heq⟩ | ⟨response, hresponse, heq⟩ :=
        driver.finalizeBatches_cases plan anchor block rest answers.finalize
      · rw [heq]
        exact .failed plan anchor block rest herror
      · obtain ⟨newBlock, -, rfl⟩ := finalizeAgain_eq hresponse
        rw [heq]
        exact .finalized plan anchor block rest newBlock hresponse

/-! ## A small instance -/

/-- A driver of operator 1 that starts at L1 block 104, at this time and with this L2 head. -/
def startAt (timestamp headBlock : Nat) : Driver :=
  .new (defaultConfig 1)
    { tip := l1Header 104, anchor := l1Header 100, epoch := 3, headSlot := timestamp / 12,
      isPreconfRouterSet := true }
    ⟨headBlock, 0⟩

/-- An L2 block without transactions of users, on this anchor. -/
def l2BlockOn (anchorId number timestamp : Nat) (beneficiary : Address) : Block :=
  { header :=
      { number := number, timestamp := timestamp, hash := 0, beneficiary := beneficiary,
        baseFeePerGas := some 7 }
    transactions :=
      [{ signer := TAIKO_GOLDEN_TOUCH_ACCOUNT, inner := ⟨[]⟩, anchorV3BlockId := some anchorId }] }

/-- Answers at this time and L1 block, with the operators of the current and the next epoch and one
L2 block that is not safe. -/
def answersWith (timestamp l1Number : Nat) (currentOperator nextOperator : Address)
    (anchorId : Nat) (softBlock : Block) : Answers :=
  let lookahead := ⟨some currentOperator, some nextOperator, timestamp⟩
  let el := fun number => some (l1Header number)
  { l1Tip := some { l1Header l1Number with timestamp := timestamp }
    l1Info := ⟨el, some 0, lookahead⟩
    lookahead := lookahead
    sync :=
      { l2Head := some 1, l2HeadL1Origin := some 0, l1Head := some l1Number, l1Header := el
        download := [.block (some softBlock), .anchor 0 (some (l1Header anchorId))]
        highestUnsafe := some softBlock, l1HeadId := some l1Number, currentTimestamp := timestamp
        newEstimates := fun _ size => size, reanchorEstimates := fun _ size => size }
    finalize :=
      { l2El := el, build := ⟨some 7, fun _ _ => []⟩
        newBlock := some { softBlock.header with beneficiary := currentOperator } } }

/-- The startup of the driver with these answers. -/
def startup (answers : Answers) : List Event :=
  [.resume answers, .resume answers, .resume answers]

/-- What an L2 tick reads when the head of the chain is the parent and one transaction waits. -/
def tickReads (parent : Header) : L2TickReads :=
  { parent := some parent, highestUnsafeBlock := some parent.number, suggestedMaxSize := 0
    build := ⟨some 7, fun _ _ => [⟨[1]⟩]⟩, estimate := fun size => size }

end Driver

end Mk1
