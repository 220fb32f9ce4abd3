import Mk1.Driver.EventLoop.Log
import Mk1.Driver.Processor.Ledger

/-!
# The commands of the driver

The driver submits batches to the processor, and has its queue cleared after a reorg.
How many commands a step sends can be counted before it: `commandCount` counts them
from what the step reads, in a sync from the list of batches that the syncer returns.
`sentCommands_step` says that the step sends as many.
-/

namespace Mk1

/-- The command that the driver has sent with an entry of its log. -/
def LogEntry.command : LogEntry → Option BatchSubmissionCmd
  | .submitted req _ _ => some (.submit req)
  | .queueCleared => some .clearQueue
  | _ => none

namespace Driver

/-- The commands that the driver has sent so far, but for its requests of the suggested size. -/
def sentCommands (driver : Driver) : List BatchSubmissionCmd :=
  driver.log.reverse.filterMap LogEntry.command

/-! ## Counting commands -/

/-- Whether the outstanding batch is submitted at once when it has to be. -/
def submitsAtOnce (driver : Driver) : Bool :=
  driver.blockBuilder.state.waitForIdle.isSome && !driver.outstandingBatch.isEmpty

/-- The batches of a plan that are submitted when it is adopted: those with blocks, but for the last
one if it is ours. -/
def plannedSubmissions (driver : Driver) (plan : SyncPlan) : List Batch :=
  if driver.status.canPropose then
    (plan.batches.popWithCoinbase driver.cfg.operator).2.batches.filter fun batch => !batch.isEmpty
  else []

/-- The plan that a call adopts when it goes on: that of the syncer unless its blocks have to be
finalized first, or the one whose last block is finalized or whose next one fails. -/
def adoptedPlan (driver : Driver) (answers : Answers) : Call → Option SyncPlan
  | .syncBatches =>
      (Syncer.sync driver.cfg driver.status answers.sync).filter fun plan =>
        !(driver.status.canPropose && !plan.reorgReasons.isEmpty) || (blocksToFinalize plan).isEmpty
  | .finalizeBatches plan anchor block rest =>
      if rest.isEmpty || (finalizeAgain driver.cfg plan anchor block answers.finalize).isNone then
        some plan
      else none
  | _ => none

/-- How many batches with blocks are full while these blocks are added. -/
def fullCount (anchor : Header) (estimates : Estimates) (batch : Batch) :
    List PreconfirmedBlock → Nat
  | [] => 0
  | block :: rest =>
      match batch.addBlockAndResetIfFull (estimates 0) block anchor with
      | (.added _, next) => fullCount anchor estimates.tail next rest
      | (.full _ fullBatch, next) =>
          fullCount anchor estimates.tail next rest + (!fullBatch.isEmpty).toNat

/-- How many batches the driver submits while it adds these blocks. -/
def addedSubmissions (driver : Driver) (anchor : Header) (estimates : Estimates)
    (blocks : List PreconfirmedBlock) : Nat :=
  if driver.status.canPropose then fullCount anchor estimates driver.outstandingBatch blocks
  else 0

/-- How many batches an event of the event loop submits. -/
def handleSubmissions (driver : Driver) : LoopEvent → Nat
  | .l1SlotTick timestamp _ => (driver.reachesAgeLimit timestamp && driver.submitsAtOnce).toNat
  | .blockProduced reads =>
      match driver.blockBuilder.nextProduced with
      | some ((_, response), _) =>
          driver.addedSubmissions response.anchor reads.estimates
            (driver.gapBlocks response.preconfirmedBlock reads ++ [response.preconfirmedBlock])
      | none => 0
  | _ => 0

/-- How many batches a call submits when it goes on. -/
def performSubmissions (driver : Driver) (answers : Answers) : Call → Nat
  | .awaitIdle _ _ => (!driver.outstandingBatch.isEmpty).toNat
  | call =>
      match driver.adoptedPlan answers call with
      | some plan => (driver.plannedSubmissions plan).length
      | none => 0

/-- How many batches a part of an L1 tick submits. -/
def partSubmissions (driver : Driver) : TickPart → Nat
  | .submitInHandover => (decide (driver.status = .inclusionOnly) && driver.submitsAtOnce).toNat
  | _ => 0

/-- How many batches a step submits. -/
def submissionCount (driver : Driver) : Event → Nat
  | .handle event => driver.handleSubmissions event
  | .resume answers =>
      match driver.call, driver.tickParts with
      | some call, _ => driver.performSubmissions answers call
      | none, part :: _ => driver.partSubmissions part
      | none, [] => 0
  | .background _ => 0

/-- Whether a step has the queue cleared. -/
def clearsQueue (driver : Driver) : Event → Bool
  | .handle (.l2Block l2Block _) => l2Block.header.number < driver.l2.headBlock
  | _ => false

/-- How many commands a step sends. -/
def commandCount (driver : Driver) (event : Event) : Nat :=
  driver.submissionCount event + (driver.clearsQueue event).toNat

/-! ## The parts of a step -/

/-- The log has entries for that many submissions, and for that many commands to clear the queue. -/
def Sends (driver next : Driver) (submissions clears : Nat) : Prop :=
  ∃ entries, next.log = entries ++ driver.log ∧
    (entries.filterMap LogEntry.command).length = submissions + clears ∧
    ((entries.filterMap LogEntry.command).filterMap TracedProcessor.submitted).length = submissions

variable {driver middle next : Driver}

theorem sends_of_eq (hlog : next.log = driver.log) : Sends driver next 0 0 :=
  ⟨[], hlog, rfl, rfl⟩

theorem Sends.trans {submissions clears submissions' clears' : Nat}
    (h : Sends driver middle submissions clears) (h' : Sends middle next submissions' clears') :
    Sends driver next (submissions + submissions') (clears + clears') := by
  obtain ⟨older, holder, hcount, hsubmitted⟩ := h
  obtain ⟨newer, hnewer, hcount', hsubmitted'⟩ := h'
  refine ⟨newer ++ older, ?_, ?_, ?_⟩
  · rw [hnewer, holder, List.append_assoc]
  · rw [List.filterMap_append, List.length_append, hcount, hcount']
    omega
  · rw [List.filterMap_append, List.filterMap_append, List.length_append, hsubmitted, hsubmitted',
      Nat.add_comm]

/-- A batch is submitted if it has blocks. -/
theorem sends_triggerBatchSubmission (driver : Driver) (req : BatchSubmissionRequest)
    (reorgReasons : List ReorgReason) :
    Sends driver (driver.triggerBatchSubmission req reorgReasons) (!req.batch.isEmpty).toNat 0 := by
  obtain ⟨hempty, heq⟩ | ⟨hblocks, heq⟩ := driver.triggerBatchSubmission_cases req reorgReasons
  · rw [heq, hempty]
    exact sends_of_eq rfl
  · rw [heq, hblocks]
    exact ⟨[_], rfl, rfl, rfl⟩

/-- A submission only adds to the log. -/
theorem triggerBatchSubmission_eq (driver : Driver) (req : BatchSubmissionRequest)
    (reorgReasons : List ReorgReason) :
    ∃ log, driver.triggerBatchSubmission req reorgReasons = { driver with log := log } := by
  obtain ⟨-, heq⟩ | ⟨-, heq⟩ := driver.triggerBatchSubmission_cases req reorgReasons
  · exact ⟨driver.log, heq⟩
  · exact ⟨_, heq⟩

/-- The outstanding batch is submitted if it has blocks. -/
theorem sends_submitAndReset (driver : Driver) (newAnchor : Header) (deadline : Nat) :
    Sends driver (driver.submitAndReset newAnchor deadline)
      (!driver.outstandingBatch.isEmpty).toNat 0 :=
  sends_triggerBatchSubmission
    { driver with outstandingBatch := (driver.outstandingBatch.takeAndReset newAnchor).2 }
    ⟨driver.outstandingBatch, deadline⟩ []

/-- The local batch is submitted at once, or the driver waits for the builder. -/
theorem sends_submitLocalOutstandingBatch (driver : Driver) (deadline : Nat) :
    Sends driver (driver.submitLocalOutstandingBatch deadline) driver.submitsAtOnce.toNat 0 := by
  unfold submitLocalOutstandingBatch submitsAtOnce
  cases hwait : driver.blockBuilder.state.waitForIdle with
  | none => exact sends_of_eq rfl
  | some state =>
      exact sends_submitAndReset
        { driver with blockBuilder := { driver.blockBuilder with state := state } }
        driver.l1.anchor deadline

/-- A list of batches is submitted but for those without blocks. -/
theorem sends_foldl (driver : Driver) (deadline : Nat) (reorgReasons : List ReorgReason)
    (batches : List Batch) :
    Sends driver (batches.foldl (fun driver batch =>
        driver.triggerBatchSubmission ⟨batch, deadline⟩ reorgReasons) driver)
      (batches.filter fun batch => !batch.isEmpty).length 0 := by
  induction batches generalizing driver with
  | nil => exact sends_of_eq rfl
  | cons batch rest ih =>
      have hsends := (driver.sends_triggerBatchSubmission ⟨batch, deadline⟩ reorgReasons).trans
        (ih (driver.triggerBatchSubmission ⟨batch, deadline⟩ reorgReasons))
      rw [List.foldl_cons, List.filter_cons]
      cases hempty : batch.isEmpty with
      | true =>
          simpa [hempty] using hsends
      | false =>
          simpa [hempty, Nat.add_comm] using hsends

/-- The batches of a plan that is adopted. -/
theorem sends_adoptPlan (driver : Driver) (plan : SyncPlan) :
    Sends driver (driver.adoptPlan plan) (driver.plannedSubmissions plan).length 0 := by
  unfold adoptPlan plannedSubmissions
  dsimp only
  cases hpropose : driver.status.canPropose with
  | false => exact sends_of_eq rfl
  | true =>
      have hsends := driver.sends_foldl driver.lookahead.inclusionWindowEnd plan.reorgReasons
        (plan.batches.popWithCoinbase driver.cfg.operator).2.batches
      exact hsends

/-- A plan whose blocks have to be finalized first is not adopted yet. -/
theorem sends_finalizeNext (driver : Driver) (plan : SyncPlan)
    (blocks : List (Header × PreconfirmedBlock)) :
    Sends driver (driver.finalizeNext plan blocks)
      (if blocks.isEmpty then (driver.plannedSubmissions plan).length else 0) 0 := by
  cases blocks with
  | nil => exact driver.sends_adoptPlan plan
  | cons block rest => exact sends_of_eq rfl

/-- A sync submits the batches of the plan that it adopts. -/
theorem sends_syncBatches (driver : Driver) (answers : Answers) :
    Sends driver (driver.syncBatches answers.sync)
      (driver.performSubmissions answers .syncBatches) 0 := by
  unfold syncBatches performSubmissions adoptedPlan
  dsimp only
  cases Syncer.sync driver.cfg driver.status answers.sync with
  | none => exact sends_of_eq rfl
  | some plan =>
      unfold proposePlan
      dsimp only
      cases hwaits : driver.status.canPropose && !plan.reorgReasons.isEmpty with
      | false =>
          rw [Option.filter_some, hwaits]
          exact driver.sends_adoptPlan plan
      | true =>
          have hsends := driver.sends_finalizeNext plan (blocksToFinalize plan)
          rw [Option.filter_some, hwaits]
          cases hempty : (blocksToFinalize plan).isEmpty with
          | true =>
              rw [hempty] at hsends
              exact hsends
          | false =>
              rw [hempty] at hsends
              exact hsends

/-- So does the end of the finalizations of a plan. -/
theorem sends_finalizeBatches (driver : Driver) (plan : SyncPlan) (anchor : Header)
    (block : PreconfirmedBlock) (rest : List (Header × PreconfirmedBlock)) (answers : Answers) :
    Sends driver (driver.finalizeBatches plan anchor block rest answers.finalize)
      (driver.performSubmissions answers (.finalizeBatches plan anchor block rest)) 0 := by
  unfold finalizeBatches performSubmissions adoptedPlan
  dsimp only
  cases hagain : finalizeAgain driver.cfg plan anchor block answers.finalize with
  | none =>
      rw [Option.isNone_none, Bool.or_true, if_pos rfl]
      exact driver.sends_adoptPlan plan
  | some response =>
      have hfinalized : Sends driver
          ({ driver with blockBuilder := driver.blockBuilder.release }.record
            (.finalized response.preconfirmedBlock response.anchor)) 0 0 :=
        ⟨[_], rfl, rfl, rfl⟩
      have hsends := hfinalized.trans (sends_finalizeNext _ plan rest)
      rw [Nat.zero_add] at hsends
      cases hempty : rest.isEmpty with
      | true =>
          rw [hempty] at hsends
          exact hsends
      | false =>
          rw [hempty] at hsends
          exact hsends

/-- Adding a block submits the batch that was full, if it has blocks and the driver can propose. -/
theorem sends_addBlock (driver : Driver) (anchor : Header) (estimate : CompressionEstimate)
    (block : PreconfirmedBlock) :
    let added := driver.outstandingBatch.addBlockAndResetIfFull estimate block anchor
    (driver.addBlock anchor estimate block).outstandingBatch = added.2 ∧
      (driver.addBlock anchor estimate block).status = driver.status ∧
      Sends driver (driver.addBlock anchor estimate block)
        (match added.1 with
          | .added _ => 0
          | .full _ fullBatch => (driver.status.canPropose && !fullBatch.isEmpty).toNat) 0 := by
  dsimp only
  unfold addBlock
  obtain ⟨result, batch⟩ :=
    driver.outstandingBatch.addBlockAndResetIfFull estimate block anchor
  cases result with
  | added size => exact ⟨rfl, rfl, sends_of_eq rfl⟩
  | full reason fullBatch =>
      dsimp only
      cases hpropose : driver.status.canPropose with
      | false => exact ⟨rfl, rfl, sends_of_eq rfl⟩
      | true =>
          have hsends := sends_triggerBatchSubmission { driver with outstandingBatch := batch }
            ⟨fullBatch, driver.lookahead.inclusionWindowEnd⟩ []
          obtain ⟨log, heq⟩ := triggerBatchSubmission_eq { driver with outstandingBatch := batch }
            ⟨fullBatch, driver.lookahead.inclusionWindowEnd⟩ []
          exact ⟨heq ▸ rfl, heq ▸ rfl, hsends⟩

/-- The first block that is added can find a full batch. -/
theorem fullCount_cons (anchor : Header) (estimates : Estimates) (batch : Batch)
    (block : PreconfirmedBlock) (rest : List PreconfirmedBlock) :
    fullCount anchor estimates batch (block :: rest) =
      (match (batch.addBlockAndResetIfFull (estimates 0) block anchor).1 with
        | .added _ => 0
        | .full _ fullBatch => (!fullBatch.isEmpty).toNat) +
      fullCount anchor estimates.tail
        (batch.addBlockAndResetIfFull (estimates 0) block anchor).2 rest := by
  rw [fullCount]
  obtain ⟨result, next⟩ := batch.addBlockAndResetIfFull (estimates 0) block anchor
  cases result with
  | added size => exact (Nat.zero_add _).symm
  | full reason fullBatch => exact Nat.add_comm _ _

/-- Adding blocks submits the batches that were full. -/
theorem sends_addBlocks (driver : Driver) (anchor : Header) (estimates : Estimates)
    (blocks : List PreconfirmedBlock) :
    Sends driver (driver.addBlocks anchor estimates blocks)
      (driver.addedSubmissions anchor estimates blocks) 0 := by
  induction blocks generalizing driver estimates with
  | nil =>
      unfold addedSubmissions fullCount
      split
      · exact sends_of_eq rfl
      · exact sends_of_eq rfl
  | cons block rest ih =>
      obtain ⟨hbatch, hstatus, hsends⟩ := driver.sends_addBlock anchor (estimates 0) block
      have hall := hsends.trans (ih (driver.addBlock anchor (estimates 0) block) estimates.tail)
      have hcount : driver.addedSubmissions anchor estimates (block :: rest) =
          (match (driver.outstandingBatch.addBlockAndResetIfFull (estimates 0) block anchor).1 with
            | .added _ => 0
            | .full _ fullBatch => (driver.status.canPropose && !fullBatch.isEmpty).toNat) +
          (driver.addBlock anchor (estimates 0) block).addedSubmissions anchor estimates.tail
            rest := by
        unfold addedSubmissions
        rw [fullCount_cons, hbatch, hstatus]
        cases driver.status.canPropose with
        | true => rfl
        | false =>
            cases (driver.outstandingBatch.addBlockAndResetIfFull (estimates 0) block anchor).1 with
            | added size => rfl
            | full reason fullBatch => rfl
      rw [hcount]
      exact hall

/-! ## The steps -/

/-- The events of the event loop. -/
theorem handle_sends {event : LoopEvent} (hnext : driver.handle event = some next) :
    Sends driver next (driver.submissionCount (.handle event))
      (driver.clearsQueue (.handle event)).toNat := by
  cases event with
  | l1SlotTick timestamp currentSlot =>
      cases hnext
      unfold submissionCount handleSubmissions onL1SlotTick reachesAgeLimit
      dsimp only
      split
      · next hlimit =>
          rw [decide_eq_true hlimit, Bool.true_and]
          exact sends_submitLocalOutstandingBatch
            { driver with
              l1 := { driver.l1 with headSlot := driver.cfg.timestampToL1Slot timestamp }
              tickParts := [.enterSlot _, .submitInHandover, .updateOutstandingBatchAnchor] } _
      · next hlimit =>
          rw [decide_eq_false hlimit, Bool.false_and]
          exact sends_of_eq rfl
  | l2SlotTick timestamp reads =>
      cases hnext
      obtain heq | ⟨payload, -, -, -, -, heq⟩ := driver.onL2SlotTick_cases timestamp reads
      · rw [heq]
        exact sends_of_eq rfl
      · rw [heq]
        exact ⟨[_], rfl, rfl, rfl⟩
  | taikoPreconfEvent currentEpoch reads =>
      cases hnext
      have hrecords := records_syncLookahead
        { driver with lookahead := driver.lookahead.updateEndOfSequencingMark currentEpoch }
        driver.l1.headSlot reads
      exact sends_of_eq hrecords.log
  | blockProduced reads =>
      obtain ⟨⟨⟨finalization, response⟩, rest⟩, hproduced, hnext⟩ :=
        Option.bind_eq_some_iff.mp hnext
      cases hnext
      unfold submissionCount handleSubmissions
      dsimp only
      rw [hproduced]
      exact sends_addBlocks { driver with blockBuilder := rest.release } response.anchor
        reads.estimates _
  | l1Block l1Header reads =>
      cases hnext
      obtain ⟨epoch, heq⟩ := driver.onL1Block_eq l1Header reads
      rw [heq]
      exact sends_of_eq (driver.records_updateL1Info l1Header reads).log
  | l2Block l2Block reads =>
      cases hnext
      obtain ⟨l1, heq, -⟩ := driver.onL2Block_eq l2Block reads
      obtain ⟨hahead, hreorg⟩ | ⟨hbelow, l2, hreorg⟩ :=
        (driver.record (.l2Block l2Block)).onL2Reorg_cases l2Block reads.headL1Origin
      · have hclears : driver.clearsQueue (.handle (.l2Block l2Block reads)) = false :=
          decide_eq_false (Nat.not_lt_of_le hahead)
        rw [heq, hreorg, hclears]
        exact ⟨[.l2Block l2Block], rfl, rfl, rfl⟩
      · have hclears : driver.clearsQueue (.handle (.l2Block l2Block reads)) = true :=
          decide_eq_true hbelow
        rw [heq, hreorg, hclears]
        exact ⟨[.queueCleared, .l2Block l2Block], rfl, rfl, rfl⟩
  | operatorChanged =>
      cases hnext
      exact sends_of_eq rfl
  | batchProposalErr e =>
      cases hnext
      unfold onBatchProposalErr
      split
      · exact sends_of_eq rfl
      · exact sends_of_eq rfl

/-- The calls of a handler. -/
theorem perform_sends {call : Call} {answers : Answers}
    (hnext : driver.perform answers call = some next) :
    Sends driver next (driver.performSubmissions answers call) 0 := by
  cases call with
  | startupSync =>
      cases hnext
      exact sends_of_eq (driver.records_startupSync answers.l1Tip answers.l1Info).log
  | awaitIdle newAnchor deadline =>
      obtain ⟨polled, hpoll, rfl⟩ := Option.map_eq_some_iff.mp hnext
      obtain ⟨state, -, rfl⟩ := pollIdle_eq hpoll
      exact sends_submitAndReset
        { driver with blockBuilder := { driver.blockBuilder with state := state } } newAnchor
        deadline
  | syncLookahead =>
      cases hnext
      exact sends_of_eq (driver.records_startSync answers.lookahead).log
  | syncAwaitIdle =>
      obtain ⟨polled, hpoll, rfl⟩ := Option.map_eq_some_iff.mp hnext
      obtain ⟨state, -, rfl⟩ := pollIdle_eq hpoll
      exact sends_of_eq rfl
  | syncBatches =>
      cases hnext
      exact driver.sends_syncBatches answers
  | finalizeBatches plan anchor block rest =>
      cases hnext
      exact driver.sends_finalizeBatches plan anchor block rest answers

/-- The parts of an L1 tick. -/
theorem performPart_sends (driver : Driver) (answers : Answers) (part : TickPart) :
    Sends driver (driver.performPart answers part) (driver.partSubmissions part) 0 := by
  cases part with
  | enterSlot slot => exact sends_of_eq (driver.records_enterSlot slot _).log
  | submitInHandover =>
      unfold performPart partSubmissions submitInHandover
      dsimp only
      split
      · next hstatus =>
          rw [decide_eq_true hstatus, Bool.true_and]
          exact driver.sends_submitLocalOutstandingBatch _
      · next hstatus =>
          rw [decide_eq_false hstatus, Bool.false_and]
          exact sends_of_eq rfl
  | updateOutstandingBatchAnchor =>
      unfold performPart
      obtain heq | ⟨-, -, heq⟩ := driver.updateOutstandingBatchAnchorIfNeeded_cases
      · rw [heq]
        exact sends_of_eq rfl
      · rw [heq]
        exact sends_of_eq rfl

/-- Every step sends as many commands as counted. -/
theorem step_sends {event : Event} (hnext : driver.step event = some next) :
    Sends driver next (driver.submissionCount event) (driver.clearsQueue event).toNat := by
  cases event with
  | handle event => exact handle_sends (step_handle hnext).2.2
  | resume answers =>
      unfold submissionCount
      obtain ⟨call, hcall, hnext⟩ | ⟨hcall, part, rest, hparts, hnext⟩ := step_resume hnext
      · have hsends := perform_sends hnext
        rw [hcall]
        exact hsends
      · rw [hcall, hparts, hnext]
        exact performPart_sends { driver with tickParts := rest } answers part
  | background event =>
      cases event with
      | builder event =>
          obtain ⟨blockBuilder, -, hnext⟩ := Option.bind_eq_some_iff.mp hnext
          cases hnext
          cases event with
          | finalized finalization newBlock => exact ⟨[_], rfl, rfl, rfl⟩
          | finalizationFailed finalization => exact sends_of_eq rfl
      | preconfRouterChecked isSet =>
          cases hnext
          exact sends_of_eq rfl

/-- A step sends that many commands, and submits that many batches with them. -/
theorem sentCommands_step {event : Event} (hnext : driver.step event = some next) :
    ∃ cmds, next.sentCommands = driver.sentCommands ++ cmds ∧
      cmds.length = driver.commandCount event ∧
      (cmds.filterMap TracedProcessor.submitted).length = driver.submissionCount event := by
  obtain ⟨entries, hlog, hcount, hsubmitted⟩ := step_sends hnext
  refine ⟨entries.reverse.filterMap LogEntry.command, ?_, ?_, ?_⟩
  · unfold sentCommands
    rw [hlog, List.reverse_append, List.filterMap_append]
  · rw [List.filterMap_reverse, List.length_reverse]
    exact hcount
  · rw [List.filterMap_reverse, List.filterMap_reverse, List.length_reverse]
    exact hsubmitted

end Driver

end Mk1
