import Mk1.Driver.EventLoop.SequencingWindow

/-!
# What a step adds to the log

A step of the driver never takes anything out of the log. It either changes the
status or adds entries, and every submission that it adds is recorded with the
status that the driver had before.
-/

namespace Mk1

namespace Driver

/-- A step that adds nothing to the log. While the preconf router is unset, it can only make the
driver inactive. -/
structure Records (driver next : Driver) : Prop where
  router : next.l1.isPreconfRouterSet = driver.l1.isPreconfRouterSet
  status : driver.l1.isPreconfRouterSet = false →
    next.status = driver.status ∨ next.status = .inactive
  log : next.log = driver.log

/-- A step that keeps the status and triggers no block. Its submissions are recorded with the
status. -/
structure Adds (driver next : Driver) : Prop where
  router : next.l1.isPreconfRouterSet = driver.l1.isPreconfRouterSet
  status : next.status = driver.status
  log : ∃ entries, next.log = entries ++ driver.log ∧
    (∀ finalization, .triggered finalization ∉ entries) ∧
    ∀ req status reorgReasons, .submitted req status reorgReasons ∈ entries →
      status = driver.status

variable {driver middle next : Driver}

/-- A step that changes nothing of this. -/
theorem adds_of_eq (hrouter : next.l1.isPreconfRouterSet = driver.l1.isPreconfRouterSet)
    (hstatus : next.status = driver.status) (hlog : next.log = driver.log) : Adds driver next :=
  ⟨hrouter, hstatus, [], hlog, by simp, by simp⟩

theorem Adds.refl (driver : Driver) : Adds driver driver := adds_of_eq rfl rfl rfl

theorem Adds.trans (h : Adds driver middle) (h' : Adds middle next) : Adds driver next := by
  obtain ⟨older, holder, htriggered, hsubmitted⟩ := h.log
  obtain ⟨newer, hnewer, htriggered', hsubmitted'⟩ := h'.log
  refine ⟨h'.router.trans h.router, h'.status.trans h.status, newer ++ older, ?_, ?_, ?_⟩
  · rw [hnewer, holder, List.append_assoc]
  · intro finalization hmem
    exact (List.mem_append.mp hmem).elim (htriggered' finalization) (htriggered finalization)
  · intro req status reorgReasons hmem
    rcases List.mem_append.mp hmem with hnew | hold
    · exact (hsubmitted' req status reorgReasons hnew).trans h.status
    · exact hsubmitted req status reorgReasons hold

/-- Nothing that changes nothing else adds to the log. -/
theorem Records.trans (h : Records driver middle)
    (hrouter : next.l1.isPreconfRouterSet = middle.l1.isPreconfRouterSet)
    (hstatus : next.status = middle.status) (hlog : next.log = middle.log) :
    Records driver next where
  router := hrouter.trans h.router
  status := by
    rw [hstatus]
    exact h.status
  log := hlog.trans h.log

/-- Updating the status makes the driver inactive while the router is unset. -/
theorem records_updateStatus (driver : Driver) (newStatus : DriverStatus) :
    Records driver (driver.updateStatus newStatus) := by
  unfold updateStatus
  split
  · next hset =>
      refine ⟨rfl, fun hunset => ?_, rfl⟩
      rw [hset] at hunset
      cases hunset
  · exact ⟨rfl, fun _ => .inr rfl, rfl⟩

/-- Syncing the lookahead updates the status. -/
theorem records_syncLookahead (driver : Driver) (slot : Nat) (reads : LookaheadReads) :
    Records driver (driver.syncLookahead slot reads) := by
  have hrecords := records_updateStatus
    { driver with
      lookahead := driver.lookahead.sync slot reads.currentOperator reads.nextOperator }
    ((driver.lookahead.sync slot reads.currentOperator reads.nextOperator).driverStatus
      reads.currentTimestamp slot)
  exact ⟨hrecords.router, hrecords.status, hrecords.log⟩

/-- Updating the anchor keeps the flag of the router. -/
theorem isPreconfRouterSet_updateAnchor (l1 : L1State) (el : L1Client) (new : Nat) :
    (l1.updateAnchor el new).1.isPreconfRouterSet = l1.isPreconfRouterSet := by
  obtain ⟨newAnchor, -, heq⟩ | ⟨-, heq⟩ := l1.updateAnchor_cases el new
  · rw [heq]
  · rw [heq]

/-- So does a sync of the L1 state. -/
theorem isPreconfRouterSet_sync (cfg : RuntimeConfig) (l1 : L1State) (el : L1Client)
    (l1Header : Header) :
    (l1.sync cfg el l1Header).1.isPreconfRouterSet = l1.isPreconfRouterSet := by
  unfold L1State.sync
  dsimp only
  split
  · exact isPreconfRouterSet_updateAnchor { l1 with tip := l1Header } el _
  · rfl

/-- New information about the L1 updates the status in the end, unless an error comes first. -/
theorem records_updateL1Info (driver : Driver) (l1Header : Header) (reads : L1InfoReads) :
    Records driver (driver.updateL1Info l1Header reads).1 := by
  have hrouter := isPreconfRouterSet_sync driver.cfg driver.l1 reads.el l1Header
  unfold updateL1Info
  cases hsync : driver.l1.sync driver.cfg reads.el l1Header with
  | mk l1 synced =>
      rw [hsync] at hrouter
      cases synced with
      | false => exact ⟨hrouter, fun _ => .inl rfl, rfl⟩
      | true =>
          cases reads.headL1Origin with
          | none => exact ⟨hrouter, fun _ => .inl rfl, rfl⟩
          | some origin =>
              have hrecords := records_syncLookahead
                { driver with
                  l1 := l1
                  l2 := { driver.l2 with headL1Origin := origin }
                  outstandingBatch := driver.outstandingBatch.retainBlocksAfter origin
                  }.updateOutstandingBatchAnchorIfNeeded
                (driver.cfg.timestampToL1Slot l1Header.timestamp) reads.lookahead
              have hsame : ∀ other : Driver,
                  other.updateOutstandingBatchAnchorIfNeeded.l1 = other.l1 ∧
                    other.updateOutstandingBatchAnchorIfNeeded.status = other.status ∧
                    other.updateOutstandingBatchAnchorIfNeeded.log = other.log := by
                intro other
                obtain heq | ⟨-, -, heq⟩ := other.updateOutstandingBatchAnchorIfNeeded_cases
                · rw [heq]
                  exact ⟨rfl, rfl, rfl⟩
                · rw [heq]
                  exact ⟨rfl, rfl, rfl⟩
              obtain ⟨hl1, hstatus, hlog⟩ := hsame
                { driver with
                  l1 := l1
                  l2 := { driver.l2 with headL1Origin := origin }
                  outstandingBatch := driver.outstandingBatch.retainBlocksAfter origin }
              refine ⟨?_, fun hunset => ?_, hrecords.log.trans hlog⟩
              · rw [← hrouter]
                exact hrecords.router.trans (congrArg L1State.isPreconfRouterSet hl1)
              · have hkept := hrecords.status (by rw [hl1]; exact hrouter.trans hunset)
                rw [hstatus] at hkept
                exact hkept

/-! ## The parts of a step -/

/-- Submitting the outstanding batch. -/
theorem adds_submitAndReset (driver : Driver) (newAnchor : Header) (deadline : Nat) :
    Adds driver (driver.submitAndReset newAnchor deadline) := by
  obtain heq | ⟨-, heq⟩ := driver.submitAndReset_cases newAnchor deadline
  · rw [heq]
    exact adds_of_eq rfl rfl rfl
  · rw [heq]
    refine ⟨rfl, rfl, [_], rfl, by simp, fun req status reorgReasons hmem => ?_⟩
    cases List.mem_singleton.mp hmem
    rfl

/-- Submitting the local batch, at once or after a wait. -/
theorem adds_submitLocalOutstandingBatch (driver : Driver) (deadline : Nat) :
    Adds driver (driver.submitLocalOutstandingBatch deadline) := by
  obtain ⟨state, -, heq⟩ | heq := driver.submitLocalOutstandingBatch_cases deadline
  · rw [heq]
    refine Adds.trans ?_ (adds_submitAndReset _ driver.l1.anchor deadline)
    exact adds_of_eq rfl rfl rfl
  · rw [heq]
    exact adds_of_eq rfl rfl rfl

/-- Adopting a plan. -/
theorem adds_adoptPlan (driver : Driver) (plan : SyncPlan) :
    Adds driver (driver.adoptPlan plan) := by
  obtain ⟨entries, outstandingBatch, heq, -, hentries⟩ := driver.adoptPlan_eq plan
  rw [heq]
  refine ⟨rfl, rfl, entries, rfl, fun finalization hmem => ?_, fun req status reasons hmem => ?_⟩
  · obtain ⟨-, batch, -, hentry⟩ := hentries _ hmem
    cases hentry
  · obtain ⟨-, batch, -, hentry⟩ := hentries _ hmem
    cases hentry
    rfl

/-- Going on with the blocks of a plan. -/
theorem adds_finalizeNext (driver : Driver) (plan : SyncPlan)
    (blocks : List (Header × PreconfirmedBlock)) :
    Adds driver (driver.finalizeNext plan blocks) := by
  obtain ⟨-, heq⟩ | ⟨anchor, block, rest, -, heq⟩ := driver.finalizeNext_cases plan blocks
  · rw [heq]
    exact driver.adds_adoptPlan plan
  · rw [heq]
    exact adds_of_eq rfl rfl rfl

/-- A sync of the batches. -/
theorem adds_syncBatches (driver : Driver) (reads : SyncReads) :
    Adds driver (driver.syncBatches reads) := by
  unfold syncBatches
  split
  · next plan _ =>
      unfold proposePlan
      split
      · exact driver.adds_finalizeNext plan _
      · exact driver.adds_adoptPlan plan
  · exact adds_of_eq rfl rfl rfl

/-- Finalizing a block of a plan again. -/
theorem adds_finalizeBatches (driver : Driver) (plan : SyncPlan) (anchor : Header)
    (block : PreconfirmedBlock) (rest : List (Header × PreconfirmedBlock))
    (reads : FinalizeReads) :
    Adds driver (driver.finalizeBatches plan anchor block rest reads) := by
  obtain ⟨-, heq⟩ | ⟨response, -, heq⟩ :=
    driver.finalizeBatches_cases plan anchor block rest reads
  · rw [heq]
    exact driver.adds_adoptPlan plan
  · rw [heq]
    refine Adds.trans ?_ (adds_finalizeNext _ plan rest)
    exact ⟨rfl, rfl, [_], rfl, by simp, by simp⟩

/-- A block that is produced. -/
theorem adds_blockProduced {reads : ProducedReads}
    (hnext : driver.blockProduced reads = some next) : Adds driver next := by
  obtain ⟨⟨⟨finalization, response⟩, rest⟩, -, hnext⟩ := Option.bind_eq_some_iff.mp hnext
  cases hnext
  unfold onProducedBlock
  obtain ⟨entries, outstandingBatch, heq, -, hentries⟩ := addBlocks_eq
    { driver with blockBuilder := rest.release } response.anchor reads.estimates _
  rw [heq]
  refine ⟨rfl, rfl, entries, rfl, fun finalization hmem => ?_, fun req status reasons hmem => ?_⟩
  · obtain ⟨-, fullBatch, hentry, -⟩ := hentries _ hmem
    cases hentry
  · obtain ⟨-, fullBatch, hentry, -⟩ := hentries _ hmem
    cases hentry
    rfl

/-- An L2 block that is added to the chain. -/
theorem adds_onL2Block (driver : Driver) (l2Block : Block) (reads : L2BlockReads) :
    Adds driver (driver.onL2Block l2Block reads) := by
  obtain ⟨l1, heq, hl1⟩ := driver.onL2Block_eq l2Block reads
  have hrouter : l1.isPreconfRouterSet = driver.l1.isPreconfRouterSet := by
    obtain ⟨rfl, -⟩ | ⟨anchor, -, -, rfl⟩ := hl1
    · rfl
    · exact isPreconfRouterSet_updateAnchor driver.l1 reads.el anchor
  obtain ⟨-, hreorg⟩ | ⟨-, l2, hreorg⟩ :=
    (driver.record (.l2Block l2Block)).onL2Reorg_cases l2Block reads.headL1Origin
  · rw [heq, hreorg]
    exact ⟨hrouter, rfl, [.l2Block l2Block], rfl, by simp, by simp⟩
  · rw [heq, hreorg]
    exact ⟨hrouter, rfl, [.queueCleared, .l2Block l2Block], rfl, by simp, by simp⟩

/-- A sync begins with the lookahead. -/
theorem records_startSync (driver : Driver) (reads : LookaheadReads) :
    Records driver (driver.startSync reads) := by
  have hrecords := driver.records_syncLookahead driver.l1.headSlot reads
  unfold startSync
  dsimp only
  split
  · exact hrecords.trans rfl rfl rfl
  · exact hrecords.trans rfl rfl rfl

/-- The startup sync takes over the information about the L1. -/
theorem records_startupSync (driver : Driver) (l1Tip : Option Header) (reads : L1InfoReads) :
    Records driver (driver.startupSync l1Tip reads) := by
  obtain heq | ⟨l1Header, heq⟩ := driver.startupSync_cases l1Tip reads
  · rw [heq]
    exact ⟨rfl, fun _ => .inl rfl, rfl⟩
  · have hrecords := driver.records_updateL1Info l1Header reads
    obtain heq | heq := heq
    · rw [heq]
      exact hrecords.trans rfl rfl rfl
    · rw [heq]
      exact hrecords.trans rfl rfl rfl

/-- Entering a slot begins a sync or updates the status. -/
theorem records_enterSlot (driver : Driver) (slot currentTimestamp : Nat) :
    Records driver (driver.enterSlot slot currentTimestamp) := by
  unfold enterSlot
  split
  · exact ⟨rfl, fun _ => .inl rfl, rfl⟩
  · exact driver.records_updateStatus _

/-! ## The steps -/

/-- What a step can do to the log: nothing, add entries, trigger a block if the driver can sequence.
The router is only checked in the background. -/
inductive LogStep (driver : Driver) : Event → Driver → Prop
  | recorded {event : Event} {next : Driver} (h : Records driver next) : LogStep driver event next
  | added {event : Event} {next : Driver} (h : Adds driver next) : LogStep driver event next
  | triggered {event : Event} (estimate : CompressionEstimate) (payload : BlockPayload)
      (hsequence : driver.status.canSequence = true) :
      LogStep driver event (driver.triggerFinalizeBlock estimate payload)
  | routerChecked (isSet : Bool) :
      LogStep driver (.background (.preconfRouterChecked isSet))
        { driver with l1 := { driver.l1 with isPreconfRouterSet := isSet } }

/-- The events of the event loop. -/
theorem handle_log {event : LoopEvent} (hnext : driver.handle event = some next) :
    LogStep driver (.handle event) next := by
  cases event with
  | l1SlotTick timestamp currentSlot =>
      cases hnext
      unfold onL1SlotTick
      dsimp only
      split
      · refine .added (Adds.trans ?_ (adds_submitLocalOutstandingBatch _ _))
        exact adds_of_eq rfl rfl rfl
      · exact .added (adds_of_eq rfl rfl rfl)
  | l2SlotTick timestamp reads =>
      cases hnext
      obtain heq | ⟨payload, hsequence, -, -, -, heq⟩ := driver.onL2SlotTick_cases timestamp reads
      · rw [heq]
        exact .added (.refl driver)
      · rw [heq]
        exact .triggered reads.estimate payload hsequence
  | taikoPreconfEvent currentEpoch reads =>
      cases hnext
      refine .recorded ?_
      have hrecords := records_syncLookahead
        { driver with lookahead := driver.lookahead.updateEndOfSequencingMark currentEpoch }
        driver.l1.headSlot reads
      exact ⟨hrecords.router, hrecords.status, hrecords.log⟩
  | blockProduced reads => exact .added (adds_blockProduced hnext)
  | l1Block l1Header reads =>
      cases hnext
      obtain ⟨epoch, heq⟩ := driver.onL1Block_eq l1Header reads
      refine .recorded ((driver.records_updateL1Info l1Header reads).trans ?_ ?_ ?_)
      all_goals rw [heq]
  | l2Block l2Block reads =>
      cases hnext
      exact .added (driver.adds_onL2Block l2Block reads)
  | operatorChanged =>
      cases hnext
      exact .added (adds_of_eq rfl rfl rfl)
  | batchProposalErr e =>
      cases hnext
      unfold Driver.onBatchProposalErr
      split
      · exact .added (.refl driver)
      · exact .added (adds_of_eq rfl rfl rfl)

/-- The calls of a handler. -/
theorem perform_log {call : Call} {answers : Answers}
    (hnext : driver.perform answers call = some next) :
    Records driver next ∨ Adds driver next := by
  cases call with
  | startupSync =>
      cases hnext
      exact .inl (driver.records_startupSync answers.l1Tip answers.l1Info)
  | awaitIdle newAnchor deadline =>
      obtain ⟨polled, hpoll, rfl⟩ := Option.map_eq_some_iff.mp hnext
      obtain ⟨state, -, rfl⟩ := pollIdle_eq hpoll
      refine .inr (Adds.trans ?_ (adds_submitAndReset _ newAnchor deadline))
      exact adds_of_eq rfl rfl rfl
  | syncLookahead =>
      cases hnext
      exact .inl (driver.records_startSync answers.lookahead)
  | syncAwaitIdle =>
      obtain ⟨polled, hpoll, rfl⟩ := Option.map_eq_some_iff.mp hnext
      obtain ⟨state, -, rfl⟩ := pollIdle_eq hpoll
      exact .inr (adds_of_eq rfl rfl rfl)
  | syncBatches =>
      cases hnext
      exact .inr (driver.adds_syncBatches answers.sync)
  | finalizeBatches plan anchor block rest =>
      cases hnext
      exact .inr (driver.adds_finalizeBatches plan anchor block rest answers.finalize)

/-- The parts of an L1 tick. -/
theorem performPart_log (driver : Driver) (answers : Answers) (part : TickPart) :
    Records driver (driver.performPart answers part) ∨
      Adds driver (driver.performPart answers part) := by
  cases part with
  | enterSlot slot => exact .inl (driver.records_enterSlot slot _)
  | submitInHandover =>
      unfold performPart
      obtain heq | ⟨-, heq⟩ := driver.submitInHandover_cases
      · rw [heq]
        exact .inr (.refl driver)
      · rw [heq]
        exact .inr (driver.adds_submitLocalOutstandingBatch _)
  | updateOutstandingBatchAnchor =>
      unfold performPart
      obtain heq | ⟨-, -, heq⟩ := driver.updateOutstandingBatchAnchorIfNeeded_cases
      · rw [heq]
        exact .inr (.refl driver)
      · rw [heq]
        exact .inr (adds_of_eq rfl rfl rfl)

/-- Every step does one of these things. -/
theorem step_log {event : Event} (hnext : driver.step event = some next) :
    LogStep driver event next := by
  cases event with
  | handle event => exact handle_log (step_handle hnext).2.2
  | resume answers =>
      obtain ⟨call, hcall, hnext⟩ | ⟨hcall, part, rest, hparts, hnext⟩ := step_resume hnext
      · obtain h | h := perform_log hnext
        · exact .recorded ⟨h.router, h.status, h.log⟩
        · exact .added ⟨h.router, h.status, h.log⟩
      · rw [hnext]
        obtain h | h := performPart_log { driver with tickParts := rest } answers part
        · exact .recorded ⟨h.router, h.status, h.log⟩
        · exact .added ⟨h.router, h.status, h.log⟩
  | background event =>
      cases event with
      | builder event =>
          obtain ⟨blockBuilder, -, hnext⟩ := Option.bind_eq_some_iff.mp hnext
          cases hnext
          refine .added ⟨rfl, rfl, finalizedEntries event, rfl, ?_, ?_⟩
          · cases event with
            | finalized finalization newBlock => simp [finalizedEntries]
            | finalizationFailed finalization => simp [finalizedEntries]
          · cases event with
            | finalized finalization newBlock => simp [finalizedEntries]
            | finalizationFailed finalization => simp [finalizedEntries]
      | preconfRouterChecked isSet =>
          cases hnext
          exact .routerChecked isSet

end Driver

end Mk1
