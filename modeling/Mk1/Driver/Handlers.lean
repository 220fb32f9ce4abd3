import Mk1.Driver.BlockBuilder
import Mk1.Driver.Errors
import Mk1.Driver.Processor
import Mk1.Driver.State
import Mk1.Driver.Syncer

/-!
# The handlers of the driver

The driver of `driver.rs` with the handlers of its event loop. The answers of
the clients, the clock and the size estimates are arguments. A handler runs up
to its next call that may have to wait; the call and what is left of the handler
are kept in the driver, so that the block builder can go on in the background
meanwhile. The log keeps what the driver has sent and finalized, the newest
entry first; no handler reads it.
-/

namespace Mk1

/-- A call that may have to wait, with what it has still to do. -/
inductive Call where
  | startupSync
  | awaitIdle (newAnchor : Header) (deadline : Nat)
  | syncLookahead
  | syncAwaitIdle
  | syncBatches
  | finalizeBatches (plan : SyncPlan) (anchor : Header) (block : PreconfirmedBlock)
      (rest : List (Header × PreconfirmedBlock))
  deriving DecidableEq, Repr

/-- The parts of `on_l1_slot_tick` after the check of the age limit. -/
inductive TickPart where
  | enterSlot (slot : Nat)
  | submitInHandover
  | updateOutstandingBatchAnchor
  deriving DecidableEq, Repr

/-- An entry of the log. A submission is kept with the status in which it was made, and with the
reasons of the sync that made it. -/
inductive LogEntry where
  | submitted (req : BatchSubmissionRequest) (status : DriverStatus)
      (reorgReasons : List ReorgReason)
  | queueCleared
  | triggered (finalization : Finalization)
  | finalized (block : PreconfirmedBlock) (anchor : Header)
  | l2Block (block : Block)
  deriving DecidableEq, Repr

/-- The driver, with the call and the parts that are left of the handler that runs, and the
log. -/
structure Driver where
  cfg : RuntimeConfig
  l1 : L1State
  l2 : L2State
  status : DriverStatus
  blockBuilder : L2BlockBuilder
  lookahead : Lookahead
  outstandingBatch : Batch
  call : Option Call
  tickParts : List TickPart
  log : List LogEntry

/-- What `Lookahead::sync` reads: the operators and the clock. -/
structure LookaheadReads where
  currentOperator : Option Address
  nextOperator : Option Address
  currentTimestamp : Nat

/-- What `update_l1_info` reads: the headers and the head L1 origin, where `none` is an error, and
the lookahead. -/
structure L1InfoReads where
  el : L1Client
  headL1Origin : Option Nat
  lookahead : LookaheadReads

/-- What `on_l2_slot_tick` reads: the L2 head, the highest unsafe block and the suggested size, the
payload, and the size estimate. -/
structure L2TickReads where
  parent : Option Header
  highestUnsafeBlock : Option Nat
  suggestedMaxSize : Nat
  build : BuildReads
  estimate : CompressionEstimate

/-- What `on_produced_block` reads: the missing blocks and the size estimates. -/
structure ProducedReads where
  download : List DownloadEvent
  estimates : Estimates

/-- What `on_l2_block` reads: the head L1 origin and the headers. -/
structure L2BlockReads where
  headL1Origin : Option Nat
  el : L1Client

/-- What the finalization of one block of a sync reads: the headers of the L2 client, the payload,
and the header that the preconf client returns, where `none` is an error. -/
structure FinalizeReads where
  l2El : Nat → Option Header
  build : BuildReads
  newBlock : Option Header

namespace Driver

/-- `Driver::new`, from the chain states. The startup sync comes first. -/
def new (cfg : RuntimeConfig) (l1 : L1State) (l2 : L2State) : Driver :=
  { cfg := cfg
    l1 := l1
    l2 := l2
    status := .inactive
    blockBuilder := .new
    lookahead := .new cfg
    outstandingBatch := .new l1.anchor cfg.batchSettings
    call := some .startupSync
    tickParts := []
    log := [] }

/-- Go on with a call. -/
def await (driver : Driver) (call : Call) : Driver := { driver with call := some call }

/-- Add an entry to the log. -/
def record (driver : Driver) (entry : LogEntry) : Driver :=
  { driver with log := entry :: driver.log }

/-! ## Status, anchors and submissions -/

/-- Update the status of the driver. -/
def updateStatus (driver : Driver) (newStatus : DriverStatus) : Driver :=
  if driver.l1.isPreconfRouterSet then { driver with status := newStatus }
  else { driver with status := .inactive }

/-- `Lookahead::sync`, and the update of the status that follows every call of it. -/
def syncLookahead (driver : Driver) (slot : Nat) (reads : LookaheadReads) : Driver :=
  let lookahead := driver.lookahead.sync slot reads.currentOperator reads.nextOperator
  { driver with lookahead := lookahead }.updateStatus
    (lookahead.driverStatus reads.currentTimestamp slot)

/-- Update the head L1 origin. The flag says whether it could be read. -/
def updateHeadL1Origin (driver : Driver) (headL1Origin : Option Nat) : Driver × Bool :=
  match headL1Origin with
  | some protocolValue =>
      ({ driver with l2 := { driver.l2 with headL1Origin := protocolValue } }, true)
  | none => (driver, false)

/-- Update the anchor of the outstanding batch, unless it has blocks or a block is being
finalized. -/
def updateOutstandingBatchAnchorIfNeeded (driver : Driver) : Driver :=
  if driver.outstandingBatch.isEmpty then
    if driver.blockBuilder.state.isFinalizing.isSome then driver
    else { driver with outstandingBatch := driver.outstandingBatch.changeAnchor driver.l1.anchor }
  else driver

/-- `L1BatchSubmitter::trigger_batch_submission`: an empty batch is not sent. -/
def triggerBatchSubmission (driver : Driver) (req : BatchSubmissionRequest)
    (reorgReasons : List ReorgReason) : Driver :=
  if req.batch.isEmpty then driver
  else driver.record (.submitted req driver.status reorgReasons)

/-- Submit the outstanding batch and reset it, once the wait for the builder is over. -/
def submitAndReset (driver : Driver) (newAnchor : Header) (deadline : Nat) : Driver :=
  let (batch, outstandingBatch) := driver.outstandingBatch.takeAndReset newAnchor
  { driver with outstandingBatch := outstandingBatch }.triggerBatchSubmission ⟨batch, deadline⟩ []

/-- Submit the outstanding batch, which waits if a block is being finalized. -/
def submitLocalOutstandingBatch (driver : Driver) (deadline : Nat) : Driver :=
  let newAnchor := driver.l1.anchor
  match driver.blockBuilder.state.waitForIdle with
  | some state =>
      { driver with blockBuilder := { driver.blockBuilder with state := state } }.submitAndReset
        newAnchor deadline
  | none => driver.await (.awaitIdle newAnchor deadline)

/-! ## Syncing and proposing -/

/-- The batches of a plan but the last one, if it is ours, are submitted when the driver can
propose, and that one becomes the outstanding batch. -/
def adoptPlan (driver : Driver) (plan : SyncPlan) : Driver :=
  let (popped, batches) := plan.batches.popWithCoinbase driver.cfg.operator
  let outstandingBatch := popped.getD (.new driver.l1.anchor driver.cfg.batchSettings)
  let deadline := driver.lookahead.inclusionWindowEnd
  let driver :=
    if driver.status.canPropose then
      batches.batches.foldl (fun driver batch =>
        driver.triggerBatchSubmission ⟨batch, deadline⟩ plan.reorgReasons) driver
    else driver
  { driver with outstandingBatch := outstandingBatch }

/-- Go on with the blocks of a plan that are still to finalize, or adopt the plan. -/
def finalizeNext (driver : Driver) (plan : SyncPlan) (blocks : List (Header × PreconfirmedBlock)) :
    Driver :=
  match blocks with
  | [] => driver.adoptPlan plan
  | (anchor, block) :: rest => driver.await (.finalizeBatches plan anchor block rest)

/-- The blocks of a plan in the order in which `finalize_all_blocks_from_batches` finalizes them,
each with the anchor of its batch. -/
def blocksToFinalize (plan : SyncPlan) : List (Header × PreconfirmedBlock) :=
  plan.batches.batches.flatMap fun batch =>
    batch.blocks.map fun block => (batch.anchorBlock, block)

/-- What `sync_and_propose` does with a plan: its blocks are finalized first if posting them causes
a reorg and the driver can propose. -/
def proposePlan (driver : Driver) (plan : SyncPlan) : Driver :=
  if driver.status.canPropose && !plan.reorgReasons.isEmpty then
    driver.finalizeNext plan (blocksToFinalize plan)
  else driver.adoptPlan plan

/-- The request of `finalize_all_blocks_from_batches` for one block, where `none` is an error. -/
def finalizeRequest (plan : SyncPlan) (block : PreconfirmedBlock) (parent : Header) :
    Option BuildPayloadRequest :=
  let req : BuildPayloadRequest :=
    { BuildPayloadRequest.new block.timestamp parent with
      transactionList := some block.txList, forceEmpty := true }
  if onlyReanchoring plan.reorgReasons then do
    let baseFee ← plan.basefeeMap.lookup block.number
    pure { req with baseFee := some baseFee }
  else pure req

/-- The response for one block that `finalize_all_blocks_from_batches` finalizes again, where `none`
is an error. With `with_force_empty` there always is a payload. -/
def finalizeAgain (cfg : RuntimeConfig) (plan : SyncPlan) (anchor : Header)
    (block : PreconfirmedBlock) (reads : FinalizeReads) : Option BlockBuilderResponse := do
  let parent ← reads.l2El (block.number - 1)
  let req ← finalizeRequest plan block parent
  let payload ← (buildPayload cfg reads.build req).join
  let newBlock ← reads.newBlock
  pure (finalizeBlock anchor payload newBlock)

/-- Finalize one block of a plan again. The response is dropped at once, which releases the
builder; an error ends the finalizations. -/
def finalizeBatches (driver : Driver) (plan : SyncPlan) (anchor : Header)
    (block : PreconfirmedBlock) (rest : List (Header × PreconfirmedBlock))
    (reads : FinalizeReads) : Driver :=
  match finalizeAgain driver.cfg plan anchor block reads with
  | some response =>
      ({ driver with blockBuilder := driver.blockBuilder.release }.record
        (.finalized response.preconfirmedBlock response.anchor)).finalizeNext plan rest
  | none => driver.adoptPlan plan

/-! ## The handlers -/

/-- `update_l1_info`: the slot of the header, unless the chain could not be read. -/
def updateL1Info (driver : Driver) (l1Header : Header) (reads : L1InfoReads) :
    Driver × Option Nat :=
  let slot := driver.cfg.timestampToL1Slot l1Header.timestamp
  let (l1, synced) := driver.l1.sync driver.cfg reads.el l1Header
  let driver := { driver with l1 := l1 }
  if !synced then (driver, none)
  else
    let (driver, updated) := driver.updateHeadL1Origin reads.headL1Origin
    if !updated then (driver, none)
    else
      let driver := { driver with
        outstandingBatch := driver.outstandingBatch.retainBlocksAfter driver.l2.headL1Origin }
      let driver := driver.updateOutstandingBatchAnchorIfNeeded
      (driver.syncLookahead slot reads.lookahead, some slot)

/-- `startup_sync`, which starts again after an error. -/
def startupSync (driver : Driver) (l1Tip : Option Header) (reads : L1InfoReads) : Driver :=
  match l1Tip with
  | none => driver.await .startupSync
  | some l1Tip =>
      match driver.updateL1Info l1Tip reads with
      | (driver, some _) => driver.await .syncLookahead
      | (driver, none) => driver.await .startupSync

/-- Handle a new L1 slot tick. -/
def onL1SlotTick (driver : Driver) (timestamp currentSlot : Nat) : Driver :=
  let slot := driver.cfg.timestampToL1Slot timestamp
  let nextBlockTs := timestamp + driver.cfg.l1BlockTime
  let nextBlockNum := driver.l1.tip.number + 1
  let slotsLeft := driver.outstandingBatch.computeAgeLimit nextBlockTs nextBlockNum
  let driver := { driver with
    l1 := { driver.l1 with headSlot := slot }
    tickParts := [.enterSlot slot, .submitInHandover, .updateOutstandingBatchAnchor] }
  if slotsLeft ≤ driver.cfg.anchorMaxHeightBuffer then
    driver.submitLocalOutstandingBatch (currentSlot + slotsLeft)
  else driver

/-- The part of `on_l1_slot_tick` after the check of the age limit. -/
def enterSlot (driver : Driver) (slot currentTimestamp : Nat) : Driver :=
  if slot % EPOCH_SLOTS = 0 && driver.lookahead.isNewInclusionWindow slot then
    driver.await .syncLookahead
  else driver.updateStatus (driver.lookahead.driverStatus currentTimestamp slot)

/-- The submission in the handover window at the end of `on_l1_slot_tick`. -/
def submitInHandover (driver : Driver) : Driver :=
  if driver.status = .inclusionOnly then
    driver.submitLocalOutstandingBatch driver.lookahead.inclusionWindowEnd
  else driver

/-- The anchor for a new block: that of the outstanding batch if the block fits. -/
def anchorForBlock (driver : Driver) (estimate : CompressionEstimate) (txList : List TxEnvelope) :
    Header :=
  match driver.outstandingBatch.doesntFit estimate txList with
  | some _ => driver.l1.anchor
  | none => driver.outstandingBatch.anchorBlock

/-- Start to finalize a payload in the background. -/
def triggerFinalizeBlock (driver : Driver) (estimate : CompressionEstimate)
    (payload : BlockPayload) : Driver :=
  let finalization : Finalization :=
    { anchorBlock := driver.anchorForBlock estimate payload.txListWithoutAnchorTx
      payload := payload
      fits := (driver.outstandingBatch.doesntFit estimate payload.txListWithoutAnchorTx).isNone }
  { driver with blockBuilder := driver.blockBuilder.triggerFinalizeBlock finalization }.record
    (.triggered finalization)

/-- The request for the payload of a new block. -/
def payloadRequest (driver : Driver) (timestamp : Nat) (parent : Header) (reads : L2TickReads) :
    BuildPayloadRequest :=
  { BuildPayloadRequest.new timestamp parent with
    forceEmpty := driver.l2.headBlock = 0 ||
      driver.outstandingBatch.shouldBuildEmptyBlock timestamp
    isLast := driver.lookahead.isLastBlockInSequencingWindow timestamp
    maxSize := some reads.suggestedMaxSize }

/-- Handle a new L2 slot tick. The builder state is only read at the beginning, so what happens in
the background meanwhile could as well happen before or after. -/
def onL2SlotTick (driver : Driver) (timestamp : Nat) (reads : L2TickReads) : Driver :=
  if !driver.status.canSequence then driver
  else if driver.blockBuilder.state.isFinalizing.isSome then driver
  else
    match reads.parent, reads.highestUnsafeBlock with
    | some parent, some highestUnsafeBlock =>
        let l2Tip := max highestUnsafeBlock driver.l2.headL1Origin
        if parent.number < l2Tip then driver
        else
          match buildPayload driver.cfg reads.build
            (driver.payloadRequest timestamp parent reads) with
          | some (some payload) => driver.triggerFinalizeBlock reads.estimate payload
          | some none | none => driver
    | _, _ => driver

/-- Handle an event from the taiko-driver websocket server. -/
def onTaikoPreconfEvent (driver : Driver) (currentEpoch : Nat) (reads : LookaheadReads) : Driver :=
  { driver with lookahead := driver.lookahead.updateEndOfSequencingMark currentEpoch }.syncLookahead
    driver.l1.headSlot reads

/-- One block added in `on_produced_block`. A full batch is submitted if the driver can propose. -/
def addBlock (driver : Driver) (anchor : Header) (estimate : CompressionEstimate)
    (block : PreconfirmedBlock) : Driver :=
  match driver.outstandingBatch.addBlockAndResetIfFull estimate block anchor with
  | (.added _, batch) => { driver with outstandingBatch := batch }
  | (.full _ fullBatch, batch) =>
      let driver := { driver with outstandingBatch := batch }
      if driver.status.canPropose then
        driver.triggerBatchSubmission ⟨fullBatch, driver.lookahead.inclusionWindowEnd⟩ []
      else driver

/-- The loop of `on_produced_block`. -/
def addBlocks (driver : Driver) (anchor : Header) (estimates : Estimates) :
    List PreconfirmedBlock → Driver
  | [] => driver
  | block :: rest =>
      (driver.addBlock anchor (estimates 0) block).addBlocks anchor estimates.tail rest

/-- The blocks missing between the outstanding batch and a new block, none after an error. -/
def gapBlocks (driver : Driver) (newBlock : PreconfirmedBlock) (reads : ProducedReads) :
    List PreconfirmedBlock :=
  let expected := saturatingAdd driver.outstandingBatch.blocksRange.stop 1
  let gap : RangeInclusive := ⟨expected, newBlock.number - 1⟩
  if driver.outstandingBatch.isEmpty || gap.isEmpty then []
  else
    match download reads.download gap with
    | some gappedBlocks => gappedBlocks.intoPreconfirmed
    | none => []

/-- Handle a new block produced by the block builder. -/
def onProducedBlock (driver : Driver) (newBlock : PreconfirmedBlock) (anchor : Header)
    (reads : ProducedReads) : Driver :=
  driver.addBlocks anchor reads.estimates (driver.gapBlocks newBlock reads ++ [newBlock])

/-- Take the next response of the block builder, which releases the builder, and handle it. -/
def blockProduced (driver : Driver) (reads : ProducedReads) : Option Driver := do
  let ((_, response), blockBuilder) ← driver.blockBuilder.nextProduced
  pure ({ driver with blockBuilder := blockBuilder.release }.onProducedBlock
    response.preconfirmedBlock response.anchor reads)

/-- Handle a new L1 block. -/
def onL1Block (driver : Driver) (l1Header : Header) (reads : L1InfoReads) : Driver :=
  match driver.updateL1Info l1Header reads with
  | (driver, some slot) =>
      if driver.l1.isNewEpoch slot then
        { driver with l1 := { driver.l1 with epoch := toEpoch slot } }
      else driver
  | (driver, none) => driver

/-- What `on_l2_block` does when the new head is below the last one. -/
def onL2Reorg (driver : Driver) (l2Block : Block) (headL1Origin : Option Nat) : Driver :=
  if l2Block.header.number < driver.l2.headBlock then
    let driver := driver.record .queueCleared
    let driver := { driver with
      outstandingBatch := driver.outstandingBatch.retainBlocksBefore l2Block.header.number }
    (driver.updateHeadL1Origin headL1Origin).1
  else driver

/-- Handle a new L2 block that has been added to the L2 EL chain. -/
def onL2Block (driver : Driver) (l2Block : Block) (reads : L2BlockReads) : Driver :=
  let driver := (driver.record (.l2Block l2Block)).onL2Reorg l2Block reads.headL1Origin
  let driver := { driver with l2 := { driver.l2 with headBlock := l2Block.header.number } }
  if l2Block.header.beneficiary = driver.cfg.operator then driver
  else
    match l2Block.anchorBlockId with
    | none => driver
    | some anchor =>
        if driver.l1.anchor.number < anchor then
          { driver with l1 := (driver.l1.updateAnchor reads.el anchor).1 }
        else driver

/-- Handle a change in the operator whitelist. -/
def onOperatorChanged (driver : Driver) : Driver := driver.await .syncLookahead

/-- Handle an error of a batch submission. -/
def onBatchProposalErr (driver : Driver) (e : BatchProposalError) : Driver :=
  if e.matchesNotPreconfer then driver else driver.await .syncLookahead

/-! ## What the handlers change -/

/-- Whether an L1 tick finds the outstanding batch at its age limit. -/
def reachesAgeLimit (driver : Driver) (timestamp : Nat) : Bool :=
  driver.outstandingBatch.computeAgeLimit (timestamp + driver.cfg.l1BlockTime)
    (driver.l1.tip.number + 1) ≤ driver.cfg.anchorMaxHeightBuffer

variable {driver : Driver}

/-- Updating the status changes nothing else. -/
theorem updateStatus_eq (driver : Driver) (newStatus : DriverStatus) :
    ∃ status, driver.updateStatus newStatus = { driver with status := status } := by
  unfold updateStatus
  split
  · exact ⟨newStatus, rfl⟩
  · exact ⟨.inactive, rfl⟩

/-- Syncing the lookahead changes the lookahead and the status. -/
theorem syncLookahead_eq (driver : Driver) (slot : Nat) (reads : LookaheadReads) :
    ∃ lookahead status, driver.syncLookahead slot reads =
      { driver with lookahead := lookahead, status := status } := by
  unfold syncLookahead
  obtain ⟨status, hstatus⟩ := updateStatus_eq { driver with
    lookahead := driver.lookahead.sync slot reads.currentOperator reads.nextOperator } _
  exact ⟨_, status, hstatus⟩

/-- Updating the head L1 origin changes nothing but the L2 state. -/
theorem updateHeadL1Origin_eq (driver : Driver) (headL1Origin : Option Nat) :
    ∃ l2, (driver.updateHeadL1Origin headL1Origin).1 = { driver with l2 := l2 } := by
  cases headL1Origin with
  | none => exact ⟨driver.l2, rfl⟩
  | some protocolValue => exact ⟨_, rfl⟩

/-- The anchor of the outstanding batch is only changed if the batch is empty and the builder is
idle. -/
theorem updateOutstandingBatchAnchorIfNeeded_cases (driver : Driver) :
    driver.updateOutstandingBatchAnchorIfNeeded = driver ∨
      (driver.outstandingBatch.isEmpty ∧ driver.blockBuilder.state.isFinalizing = none ∧
        driver.updateOutstandingBatchAnchorIfNeeded =
          { driver with
            outstandingBatch := driver.outstandingBatch.changeAnchor driver.l1.anchor }) := by
  unfold updateOutstandingBatchAnchorIfNeeded
  split
  · next hempty =>
      split
      · exact .inl rfl
      · next hidle => exact .inr ⟨hempty, by simpa using hidle, rfl⟩
  · exact .inl rfl

/-- A submission of a batch that is not empty is recorded with the status. -/
theorem triggerBatchSubmission_cases (driver : Driver) (req : BatchSubmissionRequest)
    (reorgReasons : List ReorgReason) :
    (req.batch.isEmpty ∧ driver.triggerBatchSubmission req reorgReasons = driver) ∨
      (req.batch.isEmpty = false ∧ driver.triggerBatchSubmission req reorgReasons =
        driver.record (.submitted req driver.status reorgReasons)) := by
  unfold triggerBatchSubmission
  split
  · next hempty => exact .inl ⟨hempty, rfl⟩
  · next hblocks => exact .inr ⟨by simpa using hblocks, rfl⟩

/-- Submitting the outstanding batch resets it, and records it if it has blocks. -/
theorem submitAndReset_cases (driver : Driver) (newAnchor : Header) (deadline : Nat) :
    let emptied := (driver.outstandingBatch.takeAndReset newAnchor).2
    driver.submitAndReset newAnchor deadline = { driver with outstandingBatch := emptied } ∨
      (driver.outstandingBatch.isEmpty = false ∧ driver.submitAndReset newAnchor deadline =
        { driver with
          outstandingBatch := emptied
          log := .submitted ⟨driver.outstandingBatch, deadline⟩ driver.status [] ::
            driver.log }) := by
  obtain ⟨-, heq⟩ | ⟨hblocks, heq⟩ := triggerBatchSubmission_cases
    { driver with outstandingBatch := (driver.outstandingBatch.takeAndReset newAnchor).2 }
    ⟨driver.outstandingBatch, deadline⟩ []
  · exact .inl heq
  · exact .inr ⟨hblocks, heq⟩

/-- The local batch is submitted at once, whatever the builder does, or once the builder has woken
the wait. -/
theorem submitLocalOutstandingBatch_cases (driver : Driver) (deadline : Nat) :
    (∃ state, state.isFinalizing = driver.blockBuilder.state.isFinalizing ∧
      driver.submitLocalOutstandingBatch deadline =
        { driver with blockBuilder := { driver.blockBuilder with state := state } }.submitAndReset
          driver.l1.anchor deadline) ∨
      driver.submitLocalOutstandingBatch deadline =
        driver.await (.awaitIdle driver.l1.anchor deadline) := by
  unfold submitLocalOutstandingBatch
  obtain ⟨-, hwait⟩ | ⟨-, -, state, hwait, hsame⟩ | ⟨-, -, hwait⟩ :=
    driver.blockBuilder.state.waitForIdle_cases
  · rw [hwait]
    exact .inl ⟨_, rfl, rfl⟩
  · rw [hwait]
    exact .inl ⟨state, hsame, rfl⟩
  · rw [hwait]
    exact .inr rfl

/-- Submitting a list of batches adds entries for them to the log. -/
theorem foldl_triggerBatchSubmission (driver : Driver) (deadline : Nat)
    (reorgReasons : List ReorgReason) (batches : List Batch) :
    ∃ entries, batches.foldl (fun driver batch =>
        driver.triggerBatchSubmission ⟨batch, deadline⟩ reorgReasons) driver =
          { driver with log := entries ++ driver.log } ∧
      ∀ entry ∈ entries, ∃ batch ∈ batches,
        entry = .submitted ⟨batch, deadline⟩ driver.status reorgReasons := by
  induction batches generalizing driver with
  | nil => exact ⟨[], rfl, by simp⟩
  | cons batch rest ih =>
      rw [List.foldl_cons]
      obtain ⟨-, heq⟩ | ⟨-, heq⟩ :=
        driver.triggerBatchSubmission_cases ⟨batch, deadline⟩ reorgReasons
      · rw [heq]
        obtain ⟨entries, hfold, hentries⟩ := ih driver
        refine ⟨entries, hfold, fun entry hentry => ?_⟩
        obtain ⟨other, hother, rfl⟩ := hentries entry hentry
        exact ⟨other, List.mem_cons_of_mem _ hother, rfl⟩
      · rw [heq]
        obtain ⟨entries, hfold, hentries⟩ :=
          ih (driver.record (.submitted ⟨batch, deadline⟩ driver.status reorgReasons))
        refine ⟨entries ++ [.submitted ⟨batch, deadline⟩ driver.status reorgReasons], ?_, ?_⟩
        · rw [hfold]
          simp [record]
        · intro entry hentry
          rcases List.mem_append.mp hentry with hrest | hlast
          · obtain ⟨other, hother, rfl⟩ := hentries entry hrest
            exact ⟨other, List.mem_cons_of_mem _ hother, rfl⟩
          · exact ⟨batch, List.mem_cons_self, List.mem_singleton.mp hlast⟩

/-- The batches that are left after popping the outstanding one come from the list, and so does the
popped one. -/
theorem popWithCoinbase_mem (ordered : OrderedBatches) (coinbase : Address) :
    (∀ popped ∈ (ordered.popWithCoinbase coinbase).1, popped ∈ ordered.batches) ∧
      ∀ batch ∈ (ordered.popWithCoinbase coinbase).2.batches, batch ∈ ordered.batches := by
  unfold OrderedBatches.popWithCoinbase
  split
  · exact ⟨by simp, fun batch hbatch => hbatch⟩
  · next last hlast =>
      split
      · exact ⟨by simp, fun batch hbatch => hbatch⟩
      · refine ⟨fun popped hpopped => ?_, fun batch hbatch => List.mem_of_mem_dropLast hbatch⟩
        obtain rfl := Option.mem_some_iff.mp hpopped
        exact List.mem_of_getLast? hlast

/-- Adopting a plan submits some of its batches, if the driver can propose, and replaces the
outstanding batch by one of them or by an empty one. -/
theorem adoptPlan_eq (driver : Driver) (plan : SyncPlan) :
    ∃ entries outstandingBatch, driver.adoptPlan plan =
        { driver with outstandingBatch := outstandingBatch, log := entries ++ driver.log } ∧
      (outstandingBatch ∈ plan.batches.batches ∨
        outstandingBatch = .new driver.l1.anchor driver.cfg.batchSettings) ∧
      ∀ entry ∈ entries, driver.status.canPropose = true ∧ ∃ batch ∈ plan.batches.batches,
        entry = .submitted ⟨batch, driver.lookahead.inclusionWindowEnd⟩ driver.status
          plan.reorgReasons := by
  obtain ⟨hpopped, hrest⟩ := popWithCoinbase_mem plan.batches driver.cfg.operator
  have houtstanding : ∀ popped : Option Batch, (∀ batch ∈ popped, batch ∈ plan.batches.batches) →
      popped.getD (.new driver.l1.anchor driver.cfg.batchSettings) ∈ plan.batches.batches ∨
        popped.getD (.new driver.l1.anchor driver.cfg.batchSettings) =
          .new driver.l1.anchor driver.cfg.batchSettings := by
    intro popped hmem
    cases popped with
    | none => exact .inr rfl
    | some batch => exact .inl (hmem batch rfl)
  unfold adoptPlan
  cases hpropose : driver.status.canPropose with
  | false => exact ⟨[], _, rfl, houtstanding _ hpopped, by simp⟩
  | true =>
      obtain ⟨entries, hfold, hentries⟩ := driver.foldl_triggerBatchSubmission
        driver.lookahead.inclusionWindowEnd plan.reorgReasons
        (plan.batches.popWithCoinbase driver.cfg.operator).2.batches
      refine ⟨entries, _, ?_, houtstanding _ hpopped, ?_⟩
      · simp only [if_true, hfold]
      · intro entry hentry
        obtain ⟨batch, hbatch, rfl⟩ := hentries entry hentry
        exact ⟨rfl, batch, hrest batch hbatch, rfl⟩

/-- Going on with a plan adopts it or goes on with one of its blocks. -/
theorem proposePlan_cases (driver : Driver) (plan : SyncPlan) :
    driver.proposePlan plan = driver.adoptPlan plan ∨
      (driver.status.canPropose = true ∧ plan.reorgReasons ≠ [] ∧
        ∃ anchor block rest, blocksToFinalize plan = (anchor, block) :: rest ∧
          driver.proposePlan plan = driver.await (.finalizeBatches plan anchor block rest)) := by
  unfold proposePlan
  split
  · next h =>
      obtain ⟨hpropose, hreasons⟩ := Bool.and_eq_true_iff.mp h
      unfold finalizeNext
      split
      · exact .inl rfl
      · next anchor block rest hblocks =>
          exact .inr ⟨hpropose, by simpa using hreasons, anchor, block, rest, hblocks, rfl⟩
  · exact .inl rfl

/-- Going on with the blocks of a plan adopts it or waits for the next block. -/
theorem finalizeNext_cases (driver : Driver) (plan : SyncPlan)
    (blocks : List (Header × PreconfirmedBlock)) :
    (blocks = [] ∧ driver.finalizeNext plan blocks = driver.adoptPlan plan) ∨
      ∃ anchor block rest, blocks = (anchor, block) :: rest ∧
        driver.finalizeNext plan blocks =
          driver.await (.finalizeBatches plan anchor block rest) := by
  unfold finalizeNext
  split
  · exact .inl ⟨rfl, rfl⟩
  · next anchor block rest => exact .inr ⟨anchor, block, rest, rfl, rfl⟩

/-- The payload that an L2 tick builds, if it builds one. -/
def tickPayload (driver : Driver) (timestamp : Nat) (reads : L2TickReads) :
    Option BlockPayload := do
  let parent ← reads.parent
  (buildPayload driver.cfg reads.build (driver.payloadRequest timestamp parent reads)).join

/-- Everything that an L2 tick can do: nothing, or trigger the finalization of a payload on the
parent that was read, if the driver can sequence and the builder is idle. -/
theorem onL2SlotTick_cases (driver : Driver) (timestamp : Nat) (reads : L2TickReads) :
    driver.onL2SlotTick timestamp reads = driver ∨
      ∃ payload, driver.status.canSequence = true ∧
        driver.blockBuilder.state.isFinalizing = none ∧
        driver.tickPayload timestamp reads = some payload ∧ payload.timestamp = timestamp ∧
        driver.onL2SlotTick timestamp reads =
          driver.triggerFinalizeBlock reads.estimate payload := by
  unfold onL2SlotTick
  split
  · exact .inl rfl
  next hsequence =>
  split
  · exact .inl rfl
  next hidle =>
  split
  · next parent highestUnsafeBlock hparent hhighest =>
      dsimp only
      split
      · exact .inl rfl
      split
      · next payload hpayload =>
          obtain ⟨-, htimestamp, -⟩ := buildPayload_request hpayload
          refine .inr ⟨payload, by simpa using hsequence, by simpa using hidle, ?_, ?_, rfl⟩
          · simp [tickPayload, hparent, hpayload]
          · exact htimestamp
      · exact .inl rfl
      · exact .inl rfl
  · exact .inl rfl

/-- Adding a block changes the outstanding batch, and submits it if it was full and the driver can
propose. -/
theorem addBlock_cases (driver : Driver) (anchor : Header) (estimate : CompressionEstimate)
    (block : PreconfirmedBlock) :
    let added := driver.outstandingBatch.addBlockAndResetIfFull estimate block anchor
    driver.addBlock anchor estimate block = { driver with outstandingBatch := added.2 } ∨
      (driver.status.canPropose = true ∧ ∃ reason fullBatch, added.1 = .full reason fullBatch ∧
        driver.addBlock anchor estimate block =
          { driver with
            outstandingBatch := added.2
            log := .submitted ⟨fullBatch, driver.lookahead.inclusionWindowEnd⟩ driver.status [] ::
              driver.log }) := by
  dsimp only
  unfold addBlock
  split
  · next batch heq =>
      rw [heq]
      exact .inl rfl
  · next reason fullBatch batch heq =>
      rw [heq]
      dsimp only
      split
      · next hpropose =>
          obtain ⟨-, htrigger⟩ | ⟨-, htrigger⟩ :=
            { driver with outstandingBatch := batch }.triggerBatchSubmission_cases
              ⟨fullBatch, driver.lookahead.inclusionWindowEnd⟩ []
          · exact .inl htrigger
          · exact .inr ⟨hpropose, reason, fullBatch, rfl, htrigger⟩
      · exact .inl rfl

/-- The blocks of a batch after adding a block are the new one and those below it, and a batch that
was full has the blocks below it. -/
theorem mem_addBlockAndResetIfFull (estimate : CompressionEstimate) (batch : Batch)
    (block : PreconfirmedBlock) (anchor : Header) :
    (∀ other ∈ (batch.addBlockAndResetIfFull estimate block anchor).2.blocks,
      other ∈ batch.blocks ∨ other = block) ∧
      ∀ reason fullBatch,
        (batch.addBlockAndResetIfFull estimate block anchor).1 = .full reason fullBatch →
          ∀ other ∈ fullBatch.blocks, other ∈ batch.blocks ∧ other.number < block.number := by
  have hretained : ∀ other ∈ (batch.retainBlocksBefore block.number).blocks,
      other ∈ batch.blocks ∧ other.number < block.number := by
    intro other hother
    obtain ⟨hmem, hlt⟩ := List.mem_filter.mp hother
    exact ⟨hmem, of_decide_eq_true hlt⟩
  unfold Batch.addBlockAndResetIfFull
  dsimp only
  split
  · refine ⟨fun other hother => ?_, by simp⟩
    rcases List.mem_append.mp hother with hold | hnew
    · exact .inl (hretained other hold).1
    · exact .inr (List.mem_singleton.mp hnew)
  · refine ⟨fun other hother => .inr (List.mem_singleton.mp hother), ?_⟩
    intro reason fullBatch hfull
    cases hfull
    exact hretained

/-- Adding blocks changes the outstanding batch, and submits batches that were full if the driver
can propose. A batch that is submitted has blocks that were there or are added, below one that is
added. -/
theorem addBlocks_eq (driver : Driver) (anchor : Header) (estimates : Estimates)
    (blocks : List PreconfirmedBlock) :
    ∃ entries outstandingBatch, driver.addBlocks anchor estimates blocks =
        { driver with outstandingBatch := outstandingBatch, log := entries ++ driver.log } ∧
      (∀ other ∈ outstandingBatch.blocks,
        other ∈ driver.outstandingBatch.blocks ∨ other ∈ blocks) ∧
      ∀ entry ∈ entries, driver.status.canPropose = true ∧ ∃ fullBatch,
        entry = .submitted ⟨fullBatch, driver.lookahead.inclusionWindowEnd⟩ driver.status [] ∧
        ∀ other ∈ fullBatch.blocks,
          (other ∈ driver.outstandingBatch.blocks ∨ other ∈ blocks) ∧
            ∃ block ∈ blocks, other.number < block.number := by
  induction blocks generalizing driver estimates with
  | nil => exact ⟨[], driver.outstandingBatch, rfl, fun other hother => .inl hother, by simp⟩
  | cons block rest ih =>
      obtain ⟨hadded, hfull⟩ :=
        mem_addBlockAndResetIfFull (estimates 0) driver.outstandingBatch block anchor
      -- a block of the batch after the first addition was there or is the first block
      have hshift : ∀ other, other ∈ (driver.outstandingBatch.addBlockAndResetIfFull (estimates 0)
          block anchor).2.blocks ∨ other ∈ rest →
            other ∈ driver.outstandingBatch.blocks ∨ other ∈ block :: rest := by
        rintro other (hother | hother)
        · rcases hadded other hother with hold | rfl
          · exact .inl hold
          · exact .inr List.mem_cons_self
        · exact .inr (List.mem_cons_of_mem _ hother)
      have hbelow : ∀ number, (∃ added ∈ rest, number < added.number) →
          ∃ added ∈ block :: rest, number < added.number :=
        fun _ ⟨added, hmem, hlt⟩ => ⟨added, List.mem_cons_of_mem _ hmem, hlt⟩
      have hcases := driver.addBlock_cases anchor (estimates 0) block
      generalize driver.outstandingBatch.addBlockAndResetIfFull (estimates 0) block anchor = added
        at hfull hshift hcases
      unfold addBlocks
      obtain heq | ⟨hpropose, reason, fullBatch, hreason, heq⟩ := hcases
      · rw [heq]
        obtain ⟨entries, outstandingBatch, hrest, hblocks, hentries⟩ :=
          ih { driver with outstandingBatch := added.2 } estimates.tail
        refine ⟨entries, outstandingBatch, hrest, fun other hother => hshift other
          (hblocks other hother), fun entry hentry => ?_⟩
        obtain ⟨hpropose, fullBatch, rfl, hall⟩ := hentries entry hentry
        exact ⟨hpropose, fullBatch, rfl, fun other hother =>
          ⟨hshift other (hall other hother).1, hbelow _ (hall other hother).2⟩⟩
      · rw [heq]
        obtain ⟨entries, outstandingBatch, hrest, hblocks, hentries⟩ :=
          ih { driver with
            outstandingBatch := added.2
            log := .submitted ⟨fullBatch, driver.lookahead.inclusionWindowEnd⟩ driver.status [] ::
              driver.log } estimates.tail
        refine ⟨entries ++ [.submitted ⟨fullBatch, driver.lookahead.inclusionWindowEnd⟩
          driver.status []], outstandingBatch, ?_, fun other hother => hshift other
            (hblocks other hother), fun entry hentry => ?_⟩
        · rw [hrest]
          simp
        · rcases List.mem_append.mp hentry with hnew | hlast
          · obtain ⟨hpropose, fullBatch, rfl, hall⟩ := hentries entry hnew
            exact ⟨hpropose, fullBatch, rfl, fun other hother =>
              ⟨hshift other (hall other hother).1, hbelow _ (hall other hother).2⟩⟩
          · refine ⟨hpropose, fullBatch, List.mem_singleton.mp hlast, fun other hother => ?_⟩
            obtain ⟨hold, hlt⟩ := hfull reason fullBatch hreason other hother
            exact ⟨.inl hold, block, List.mem_cons_self, hlt⟩

/-- Blocks are only removed from the outstanding batch if the new head is below the last one. -/
theorem onL2Reorg_cases (driver : Driver) (l2Block : Block) (headL1Origin : Option Nat) :
    (driver.l2.headBlock ≤ l2Block.header.number ∧
      driver.onL2Reorg l2Block headL1Origin = driver) ∨
      (l2Block.header.number < driver.l2.headBlock ∧
        ∃ l2, driver.onL2Reorg l2Block headL1Origin =
          { driver with
            l2 := l2
            outstandingBatch := driver.outstandingBatch.retainBlocksBefore l2Block.header.number
            log := .queueCleared :: driver.log }) := by
  unfold onL2Reorg
  split
  · next hreorg =>
      obtain ⟨l2, hl2⟩ := updateHeadL1Origin_eq
        { driver.record .queueCleared with
          outstandingBatch := driver.outstandingBatch.retainBlocksBefore l2Block.header.number }
        headL1Origin
      exact .inr ⟨hreorg, l2, hl2⟩
  · next hnext => exact .inl ⟨Nat.le_of_not_lt hnext, rfl⟩

/-- The check for a reorg changes neither the configuration nor the L1 state. -/
theorem onL2Reorg_l1 (driver : Driver) (l2Block : Block) (headL1Origin : Option Nat) :
    (driver.onL2Reorg l2Block headL1Origin).l1 = driver.l1 ∧
      (driver.onL2Reorg l2Block headL1Origin).cfg = driver.cfg := by
  obtain ⟨-, heq⟩ | ⟨-, l2, heq⟩ := driver.onL2Reorg_cases l2Block headL1Origin
  · rw [heq]
    exact ⟨rfl, rfl⟩
  · rw [heq]
    exact ⟨rfl, rfl⟩

/-- After the check for a reorg, the new block becomes the head, and its anchor becomes the cached
one if somebody else built it and it is higher. -/
theorem onL2Block_eq (driver : Driver) (l2Block : Block) (reads : L2BlockReads) :
    ∃ l1, driver.onL2Block l2Block reads =
        { (driver.record (.l2Block l2Block)).onL2Reorg l2Block reads.headL1Origin with
          l1 := l1
          l2 := { ((driver.record (.l2Block l2Block)).onL2Reorg l2Block reads.headL1Origin).l2 with
            headBlock := l2Block.header.number } } ∧
      ((l1 = driver.l1 ∧ (l2Block.header.beneficiary = driver.cfg.operator ∨
          ∀ anchor ∈ l2Block.anchorBlockId, anchor ≤ driver.l1.anchor.number)) ∨
        ∃ anchor, l2Block.anchorBlockId = some anchor ∧ driver.l1.anchor.number < anchor ∧
          l1 = (driver.l1.updateAnchor reads.el anchor).1) := by
  obtain ⟨hl1, hcfg⟩ :=
    (driver.record (.l2Block l2Block)).onL2Reorg_l1 l2Block reads.headL1Origin
  change _ = driver.l1 at hl1
  change _ = driver.cfg at hcfg
  unfold onL2Block
  generalize (driver.record (.l2Block l2Block)).onL2Reorg l2Block reads.headL1Origin = reorged
    at hl1 hcfg ⊢
  dsimp only
  rw [hl1, hcfg]
  split
  · next hours => exact ⟨driver.l1, by rw [← hl1], .inl ⟨rfl, .inl hours⟩⟩
  · split
    · next hnone => exact ⟨driver.l1, by rw [← hl1], .inl ⟨rfl, .inr (by simp [hnone])⟩⟩
    · next anchor hanchor =>
        split
        · next hhigher => exact ⟨_, rfl, .inr ⟨anchor, hanchor, hhigher, rfl⟩⟩
        · next hlower =>
            refine ⟨driver.l1, by rw [← hl1], .inl ⟨rfl, .inr ?_⟩⟩
            intro other hother
            obtain rfl := Option.some.inj (hanchor.symm.trans hother)
            exact Nat.le_of_not_lt hlower

/-- The outstanding batch after new information about the L1: unchanged, without the safe blocks,
or, if it is empty then and the builder is idle, with the cached anchor. -/
def TrimmedOrAnchored (driver : Driver) (l1 : L1State) (outstandingBatch : Batch) : Prop :=
  outstandingBatch = driver.outstandingBatch ∨
    ∃ origin, outstandingBatch = driver.outstandingBatch.retainBlocksAfter origin ∨
      ((driver.outstandingBatch.retainBlocksAfter origin).isEmpty ∧
        driver.blockBuilder.state.isFinalizing = none ∧
        outstandingBatch =
          (driver.outstandingBatch.retainBlocksAfter origin).changeAnchor l1.anchor)

/-- New information about the L1 changes the chain states, the lookahead and the status, and trims
the outstanding batch. -/
theorem updateL1Info_eq (driver : Driver) (l1Header : Header) (reads : L1InfoReads) :
    ∃ l2 outstandingBatch lookahead status,
      (driver.updateL1Info l1Header reads).1 =
        { driver with
          l1 := (driver.l1.sync driver.cfg reads.el l1Header).1
          l2 := l2
          outstandingBatch := outstandingBatch
          lookahead := lookahead
          status := status } ∧
      driver.TrimmedOrAnchored (driver.l1.sync driver.cfg reads.el l1Header).1
        outstandingBatch := by
  unfold updateL1Info
  cases hsync : driver.l1.sync driver.cfg reads.el l1Header with
  | mk l1 synced =>
      cases synced with
      | false => exact ⟨_, _, _, _, rfl, .inl rfl⟩
      | true =>
          cases reads.headL1Origin with
          | none => exact ⟨_, _, _, _, rfl, .inl rfl⟩
          | some origin =>
              dsimp only [updateHeadL1Origin]
              obtain heq | ⟨hempty, hidle, heq⟩ :=
                updateOutstandingBatchAnchorIfNeeded_cases { driver with
                  l1 := l1
                  l2 := { driver.l2 with headL1Origin := origin }
                  outstandingBatch := driver.outstandingBatch.retainBlocksAfter origin }
              · rw [heq]
                obtain ⟨lookahead, status, hstatus⟩ := syncLookahead_eq _ _ reads.lookahead
                exact ⟨_, _, lookahead, status, hstatus, .inr ⟨origin, .inl rfl⟩⟩
              · rw [heq]
                obtain ⟨lookahead, status, hstatus⟩ := syncLookahead_eq _ _ reads.lookahead
                exact ⟨_, _, lookahead, status, hstatus,
                  .inr ⟨origin, .inr ⟨hempty, hidle, rfl⟩⟩⟩

/-- New information about the L1 leaves the builder, the pending call and the log alone. -/
theorem blockBuilder_updateL1Info (driver : Driver) (l1Header : Header) (reads : L1InfoReads) :
    (driver.updateL1Info l1Header reads).1.blockBuilder = driver.blockBuilder := by
  obtain ⟨l2, outstandingBatch, lookahead, status, heq, -⟩ := driver.updateL1Info_eq l1Header reads
  rw [heq]

theorem call_updateL1Info (driver : Driver) (l1Header : Header) (reads : L1InfoReads) :
    (driver.updateL1Info l1Header reads).1.call = driver.call := by
  obtain ⟨l2, outstandingBatch, lookahead, status, heq, -⟩ := driver.updateL1Info_eq l1Header reads
  rw [heq]

theorem log_updateL1Info (driver : Driver) (l1Header : Header) (reads : L1InfoReads) :
    (driver.updateL1Info l1Header reads).1.log = driver.log := by
  obtain ⟨l2, outstandingBatch, lookahead, status, heq, -⟩ := driver.updateL1Info_eq l1Header reads
  rw [heq]

/-- An L1 block can start an epoch after its information has been taken over. -/
theorem onL1Block_eq (driver : Driver) (l1Header : Header) (reads : L1InfoReads) :
    ∃ epoch, driver.onL1Block l1Header reads =
      { (driver.updateL1Info l1Header reads).1 with
        l1 := { (driver.updateL1Info l1Header reads).1.l1 with epoch := epoch } } := by
  unfold onL1Block
  cases driver.updateL1Info l1Header reads with
  | mk updated slot =>
      cases slot with
      | none => exact ⟨updated.l1.epoch, rfl⟩
      | some slot =>
          dsimp only
          split
          · exact ⟨toEpoch slot, rfl⟩
          · exact ⟨updated.l1.epoch, rfl⟩

/-- The startup sync starts again, or goes on with the sync of the batches. -/
theorem startupSync_cases (driver : Driver) (l1Tip : Option Header) (reads : L1InfoReads) :
    driver.startupSync l1Tip reads = driver.await .startupSync ∨
      ∃ l1Header, driver.startupSync l1Tip reads =
          (driver.updateL1Info l1Header reads).1.await .startupSync ∨
        driver.startupSync l1Tip reads =
          (driver.updateL1Info l1Header reads).1.await .syncLookahead := by
  unfold startupSync
  cases l1Tip with
  | none => exact .inl rfl
  | some l1Header =>
      refine .inr ⟨l1Header, ?_⟩
      dsimp only
      cases driver.updateL1Info l1Header reads with
      | mk updated slot =>
          cases slot with
          | none => exact .inl rfl
          | some slot => exact .inr rfl

/-- A block of a plan is requested again with its timestamp and transactions. -/
theorem finalizeRequest_eq {plan : SyncPlan} {block : PreconfirmedBlock} {parent : Header}
    {req : BuildPayloadRequest} (h : finalizeRequest plan block parent = some req) :
    req.parent = parent ∧ req.timestamp = block.timestamp ∧
      req.transactionList = some block.txList := by
  unfold finalizeRequest at h
  dsimp only at h
  split at h
  · obtain ⟨baseFee, -, h⟩ := Option.bind_eq_some_iff.mp h
    cases h
    exact ⟨rfl, rfl, rfl⟩
  · cases h
    exact ⟨rfl, rfl, rfl⟩

/-- A block of a plan is finalized again with its transactions and the anchor of its batch. -/
theorem finalizeAgain_eq {cfg : RuntimeConfig} {plan : SyncPlan} {anchor : Header}
    {block : PreconfirmedBlock} {reads : FinalizeReads} {response : BlockBuilderResponse}
    (h : finalizeAgain cfg plan anchor block reads = some response) :
    ∃ newBlock, reads.newBlock = some newBlock ∧
      response = ⟨.new newBlock block.txList, anchor⟩ := by
  unfold finalizeAgain at h
  obtain ⟨parent, -, h⟩ := Option.bind_eq_some_iff.mp h
  obtain ⟨req, hreq, h⟩ := Option.bind_eq_some_iff.mp h
  obtain ⟨payload, hpayload, h⟩ := Option.bind_eq_some_iff.mp h
  obtain ⟨newBlock, hnewBlock, h⟩ := Option.bind_eq_some_iff.mp h
  obtain ⟨-, -, hlist⟩ := finalizeRequest_eq hreq
  obtain ⟨-, -, htxList⟩ := buildPayload_request (Option.join_eq_some_iff.mp hpayload)
  refine ⟨newBlock, hnewBlock, ?_⟩
  cases h
  unfold finalizeBlock
  rw [htxList block.txList hlist]

/-- Finalizing a block of a plan again ends in an error, or records the response, releases the
builder and goes on. -/
theorem finalizeBatches_cases (driver : Driver) (plan : SyncPlan) (anchor : Header)
    (block : PreconfirmedBlock) (rest : List (Header × PreconfirmedBlock))
    (reads : FinalizeReads) :
    (finalizeAgain driver.cfg plan anchor block reads = none ∧
      driver.finalizeBatches plan anchor block rest reads = driver.adoptPlan plan) ∨
      ∃ response, finalizeAgain driver.cfg plan anchor block reads = some response ∧
        driver.finalizeBatches plan anchor block rest reads =
          { driver with
            blockBuilder := driver.blockBuilder.release
            log := .finalized response.preconfirmedBlock response.anchor ::
              driver.log }.finalizeNext plan rest := by
  unfold finalizeBatches
  split
  · next response hresponse => exact .inr ⟨response, hresponse, rfl⟩
  · next herror => exact .inl ⟨herror, rfl⟩

end Driver

end Mk1
