import Mk1.Driver.EventLoop

/-!
# When batches are submitted

Three of the four places that submit a batch check that the driver can propose:
the submission of a full batch, that of the batches of a sync, and that in the
handover window. The check of the age limit in `onL1SlotTick` does not.
`proposes_in_turn` says that this is the only way to submit a batch out of turn.
-/

namespace Mk1

namespace Driver

/-- Entries of which every submission was made while the driver could propose. -/
def EntriesInTurn (entries : List LogEntry) : Prop :=
  ∀ req status reorgReasons, .submitted req status reorgReasons ∈ entries →
    status.canPropose = true

/-- Every batch was submitted while the driver could propose. -/
def ProposesInTurn (driver : Driver) : Prop := EntriesInTurn driver.log

/-- An L1 tick that finds blocks at their age limit comes while the driver can propose. -/
def agesInTurn (driver : Driver) : Event → Bool
  | .handle (.l1SlotTick timestamp _) =>
      !driver.reachesAgeLimit timestamp || driver.outstandingBatch.isEmpty ||
        driver.status.canPropose
  | _ => true

/-- The submissions so far were in turn, and one that waits will be. -/
structure InTurn (driver : Driver) : Prop where
  entries : EntriesInTurn driver.log
  waiting : ∀ newAnchor deadline, driver.call = some (.awaitIdle newAnchor deadline) →
    driver.outstandingBatch.isEmpty = false → driver.status.canPropose = true

/-- More entries that are no submissions out of turn. -/
theorem EntriesInTurn.append {entries : List LogEntry} (h : EntriesInTurn entries)
    (newer : List LogEntry)
    (hnewer : ∀ req status reorgReasons, .submitted req status reorgReasons ∈ newer →
      status.canPropose = true) : EntriesInTurn (newer ++ entries) := by
  intro req status reorgReasons hmem
  rcases List.mem_append.mp hmem with hnew | hold
  · exact hnewer req status reorgReasons hnew
  · exact h req status reorgReasons hold

/-- A submission made while the driver can propose is in turn. -/
theorem EntriesInTurn.submitted {entries : List LogEntry} {req : BatchSubmissionRequest}
    {status : DriverStatus} {reorgReasons : List ReorgReason} (h : EntriesInTurn entries)
    (hpropose : status.canPropose = true) :
    EntriesInTurn (.submitted req status reorgReasons :: entries) := by
  refine h.append [_] fun other status' reasons hmem => ?_
  cases List.mem_singleton.mp hmem
  exact hpropose

variable {driver next : Driver}

/-- A driver that does not wait to submit is in turn if its log is. -/
theorem InTurn.of_entries (h : EntriesInTurn driver.log)
    (hcall : ∀ newAnchor deadline, driver.call ≠ some (.awaitIdle newAnchor deadline)) :
    driver.InTurn :=
  ⟨h, fun newAnchor deadline heq => absurd heq (hcall newAnchor deadline)⟩

/-- A quiet step of a handler that is not suspended is in turn. -/
theorem InTurn.quiet (h : EntriesInTurn driver.log) (hcall : driver.call = none)
    (hquiet : Quiet driver next) : next.InTurn := by
  have hentries : EntriesInTurn next.log := by rw [hquiet.log]; exact h
  exact .of_entries hentries (hquiet.call_ne_awaitIdle hcall)

/-- New information about the L1 submits nothing, and neither does a quiet step after it. -/
theorem InTurn.updateL1Info (h : EntriesInTurn driver.log) (hcall : driver.call = none)
    {l1Header : Header} {reads : L1InfoReads}
    (hquiet : Quiet (driver.updateL1Info l1Header reads).1 next) : next.InTurn := by
  refine .quiet ?_ ?_ hquiet
  · rw [log_updateL1Info]
    exact h
  · rw [call_updateL1Info]
    exact hcall

/-- Submitting the outstanding batch is in turn if it has no blocks or the driver can propose. -/
theorem InTurn.submitAndReset (h : EntriesInTurn driver.log) (hcall : driver.call = none)
    (hpropose : driver.outstandingBatch.isEmpty = false → driver.status.canPropose = true)
    (newAnchor : Header) (deadline : Nat) : (driver.submitAndReset newAnchor deadline).InTurn := by
  obtain heq | ⟨hblocks, heq⟩ := driver.submitAndReset_cases newAnchor deadline
  · rw [heq]
    exact .of_entries h (by simp [hcall])
  · rw [heq]
    exact .of_entries (h.submitted (hpropose hblocks)) (by simp [hcall])

/-- Submitting the local batch is in turn if it has no blocks or the driver can propose. -/
theorem InTurn.submitLocalOutstandingBatch (h : EntriesInTurn driver.log)
    (hcall : driver.call = none)
    (hpropose : driver.outstandingBatch.isEmpty = false → driver.status.canPropose = true)
    (deadline : Nat) : (driver.submitLocalOutstandingBatch deadline).InTurn := by
  obtain ⟨state, -, heq⟩ | heq := driver.submitLocalOutstandingBatch_cases deadline
  · rw [heq]
    refine .submitAndReset ?_ ?_ ?_ driver.l1.anchor deadline
    · exact h
    · exact hcall
    · exact hpropose
  · rw [heq]
    exact ⟨h, fun _ _ _ => hpropose⟩

/-- Adopting a plan submits in turn. -/
theorem InTurn.adoptPlan (h : EntriesInTurn driver.log) (hcall : driver.call = none)
    (plan : SyncPlan) : (driver.adoptPlan plan).InTurn := by
  obtain ⟨entries, outstandingBatch, heq, -, hentries⟩ := driver.adoptPlan_eq plan
  rw [heq]
  refine .of_entries (h.append entries fun req status reorgReasons hmem => ?_) (by simp [hcall])
  obtain ⟨hpropose, batch, -, hentry⟩ := hentries _ hmem
  cases hentry
  exact hpropose

/-- A block that is produced is added in turn. -/
theorem InTurn.blockProduced (h : EntriesInTurn driver.log) (hcall : driver.call = none)
    {reads : ProducedReads} (hnext : driver.blockProduced reads = some next) : next.InTurn := by
  obtain ⟨⟨⟨finalization, response⟩, blockBuilder⟩, -, hnext⟩ := Option.bind_eq_some_iff.mp hnext
  cases hnext
  unfold onProducedBlock
  obtain ⟨entries, outstandingBatch, heq, -, hentries⟩ := addBlocks_eq
    { driver with blockBuilder := blockBuilder.release } response.anchor reads.estimates _
  rw [heq]
  refine .of_entries (h.append entries fun req status reorgReasons hmem => ?_) (by simp [hcall])
  obtain ⟨hpropose, fullBatch, hentry, -⟩ := hentries _ hmem
  cases hentry
  exact hpropose

/-- The events of the event loop submit in turn, if an L1 tick that finds blocks at their age limit
does. -/
theorem InTurn.handle (h : EntriesInTurn driver.log) (hcall : driver.call = none)
    {event : LoopEvent} (hages : driver.agesInTurn (.handle event) = true)
    (hnext : driver.handle event = some next) : next.InTurn := by
  cases event with
  | l1SlotTick timestamp currentSlot =>
      cases hnext
      obtain hquiet | ⟨hlimit, headSlot, tickParts, deadline, heq⟩ :=
        driver.onL1SlotTick_cases timestamp currentSlot
      · exact .quiet h hcall hquiet
      · rw [heq]
        refine .submitLocalOutstandingBatch ?_ ?_ ?_ deadline
        · exact h
        · exact hcall
        · intro hblocks
          simpa [agesInTurn, hlimit, show driver.outstandingBatch.isEmpty = false from hblocks]
            using hages
  | l2SlotTick timestamp reads =>
      cases hnext
      obtain heq | ⟨payload, -, -, -, -, heq⟩ := driver.onL2SlotTick_cases timestamp reads
      · rw [heq]
        exact .of_entries h (by simp [hcall])
      · rw [heq]
        exact .of_entries (h.append [_] (by simp)) (by
          simp [triggerFinalizeBlock, record, hcall])
  | taikoPreconfEvent currentEpoch reads =>
      cases hnext
      exact .quiet h hcall (driver.quiet_onTaikoPreconfEvent currentEpoch reads)
  | blockProduced reads => exact .blockProduced h hcall hnext
  | l1Block l1Header reads =>
      cases hnext
      exact .updateL1Info h hcall (driver.quiet_onL1Block l1Header reads)
  | l2Block l2Block reads =>
      cases hnext
      obtain ⟨l1, heq, -⟩ := driver.onL2Block_eq l2Block reads
      obtain ⟨-, hreorg⟩ | ⟨-, l2, hreorg⟩ :=
        (driver.record (.l2Block l2Block)).onL2Reorg_cases l2Block reads.headL1Origin
      · rw [heq, hreorg]
        exact .of_entries (h.append [.l2Block l2Block] (by simp)) (by
          simp [record, hcall])
      · rw [heq, hreorg]
        exact .of_entries (h.append [.queueCleared, .l2Block l2Block] (by simp)) (by
          simp [record, hcall])
  | operatorChanged =>
      cases hnext
      exact .quiet h hcall driver.quiet_onOperatorChanged
  | batchProposalErr e =>
      cases hnext
      exact .quiet h hcall (driver.quiet_onBatchProposalErr e)

/-- The calls of a handler submit in turn. -/
theorem InTurn.perform (h : EntriesInTurn driver.log) (hcall : driver.call = none)
    {call : Call} {answers : Answers}
    (hwaiting : ∀ newAnchor deadline, call = .awaitIdle newAnchor deadline →
      driver.outstandingBatch.isEmpty = false → driver.status.canPropose = true)
    (hnext : driver.perform answers call = some next) : next.InTurn := by
  cases perform_cases hnext with
  | quiet hother hquiet => exact .quiet h hcall hquiet
  | l1Info l1Header hquiet => exact .updateL1Info h hcall hquiet
  | submitted newAnchor deadline state hsame =>
      refine .submitAndReset ?_ ?_ ?_ _ _
      · exact h
      · exact hcall
      · exact hwaiting newAnchor deadline rfl
  | adopted plan => exact .adoptPlan h hcall plan
  | begun plan anchor block rest => exact .of_entries h (by simp [await])
  | failed plan anchor block rest herror => exact .adoptPlan h hcall plan
  | finalized plan anchor block rest newBlock hagain =>
      have hlog : EntriesInTurn (.finalized (.new newBlock block.txList) anchor :: driver.log) :=
        h.append [_] (by simp)
      obtain ⟨-, hnext⟩ | ⟨anchor', block', rest', -, hnext⟩ :=
        finalizeNext_cases { driver with
          blockBuilder := driver.blockBuilder.release
          log := .finalized (.new newBlock block.txList) anchor :: driver.log } plan rest
      · rw [hnext]
        refine .adoptPlan ?_ ?_ plan
        · exact hlog
        · exact hcall
      · rw [hnext]
        exact .of_entries hlog (by simp [await])

/-- The parts of an L1 tick submit in turn. -/
theorem InTurn.performPart (h : EntriesInTurn driver.log) (hcall : driver.call = none)
    (answers : Answers) (part : TickPart) : (driver.performPart answers part).InTurn := by
  cases part with
  | enterSlot slot => exact .quiet h hcall (driver.quiet_enterSlot slot _)
  | submitInHandover =>
      unfold Driver.performPart
      obtain heq | ⟨hstatus, heq⟩ := driver.submitInHandover_cases
      · rw [heq]
        exact .of_entries h (by simp [hcall])
      · have hpropose : driver.status.canPropose = true := by rw [hstatus]; rfl
        rw [heq]
        exact .submitLocalOutstandingBatch h hcall (fun _ => hpropose) _
  | updateOutstandingBatchAnchor =>
      unfold Driver.performPart
      obtain heq | ⟨-, -, heq⟩ := driver.updateOutstandingBatchAnchorIfNeeded_cases
      · rw [heq]
        exact .of_entries h (by simp [hcall])
      · rw [heq]
        exact .of_entries h (by simp [hcall])

/-- What happens in the background submits nothing. -/
theorem InTurn.progress (h : driver.InTurn) {event : BackgroundEvent}
    (hnext : driver.progress event = some next) : next.InTurn := by
  cases event with
  | builder event =>
      obtain ⟨blockBuilder, -, hnext⟩ := Option.bind_eq_some_iff.mp hnext
      cases hnext
      refine ⟨h.entries.append _ ?_, h.waiting⟩
      cases event with
      | finalized finalization newBlock => simp [finalizedEntries]
      | finalizationFailed finalization => simp [finalizedEntries]
  | preconfRouterChecked isSet =>
      cases hnext
      exact ⟨h.entries, h.waiting⟩

/-- Every step submits in turn, if an L1 tick that finds blocks at their age limit does. -/
theorem InTurn.step (h : driver.InTurn) {event : Event} (hages : driver.agesInTurn event = true)
    (hnext : driver.step event = some next) : next.InTurn := by
  cases event with
  | handle event =>
      obtain ⟨hcall, -, hnext⟩ := step_handle hnext
      exact .handle h.entries hcall hages hnext
  | resume answers =>
      obtain ⟨call, hcall, hnext⟩ | ⟨hcall, part, rest, -, hnext⟩ := step_resume hnext
      · refine InTurn.perform ?_ ?_ ?_ hnext
        · exact h.entries
        · rfl
        · rintro newAnchor deadline rfl
          exact h.waiting newAnchor deadline hcall
      · rw [hnext]
        refine .performPart ?_ ?_ answers part
        · exact h.entries
        · exact hcall
  | background event => exact h.progress hnext

/-- In every run from the start of the driver whose L1 ticks find blocks at their age limit only
while the driver can propose, batches are only submitted while the driver can propose. -/
theorem proposes_in_turn {cfg : RuntimeConfig} {l1 : L1State} {l2 : L2State} {events : List Event}
    (hages : Transition.StepsMeet step (fun driver event => driver.agesInTurn event)
      (new cfg l1 l2) events)
    (hrun : Transition.run step (new cfg l1 l2) events = some driver) : driver.ProposesInTurn := by
  have hinitial : (new cfg l1 l2).InTurn :=
    .of_entries (by simp [EntriesInTurn, new]) (by simp [new])
  have hfinal : driver.InTurn := Transition.invariant_run
    (fun _ _ _ hinv hcondition hstep => hinv.step hcondition hstep) hinitial hages hrun
  exact hfinal.entries

/-- The batch of one block of the operator on anchor 46. -/
def ownBatch : Batch :=
  .fromBlocksUnchecked (l1Header 46) (defaultConfig 1).batchSettings
    [.fromBlock (l2BlockOn 46 1 38400 1)]

/-- The active driver adopts a block on anchor 46, and submits it when an L1 tick finds it at its
age limit. -/
theorem old_batch_submitted_in_turn :
    ∃ driver, Transition.run step (startAt 38412 1)
        (startup (answersWith 38412 104 1 1 46 (l2BlockOn 46 1 38400 1)) ++
          [.handle (.l1SlotTick 38412 3201)]) = some driver ∧
      driver.log = [.submitted ⟨ownBatch, 3206⟩ .active []] ∧
      ownBatch.isEmpty = false ∧ driver.ProposesInTurn := by
  obtain ⟨driver, hrun, hlog⟩ : ∃ driver, Transition.run step (startAt 38412 1)
      (startup (answersWith 38412 104 1 1 46 (l2BlockOn 46 1 38400 1)) ++
        [.handle (.l1SlotTick 38412 3201)]) = some driver ∧
      driver.log = [.submitted ⟨ownBatch, 3206⟩ .active []] :=
    Transition.exists_run (by decide +kernel)
  exact ⟨driver, hrun, hlog, rfl, proposes_in_turn (by decide +kernel) hrun⟩

/-- An L1 tick of slot 30, when the driver can only sequence. -/
def sequencingTick : Event := .handle (.l1SlotTick 360 30)

/-- The batch of one block on anchor 45. -/
def oldBatch : Batch :=
  .fromBlocksUnchecked (l1Header 45) (defaultConfig 1).batchSettings
    [.fromBlock (l2BlockOn 45 1 300 2)]

/-- The driver adopts a block on anchor 45 while it can only sequence, and submits it at the next L1
tick. -/
theorem old_batch_submitted_out_of_turn :
    ∃ driver, Transition.run step (startAt 348 1)
        (startup (answersWith 348 104 2 1 45 (l2BlockOn 45 1 300 2)) ++ [sequencingTick]) =
          some driver ∧
      driver.log = [.submitted ⟨oldBatch, 34⟩ .sequencingOnly []] ∧
      oldBatch.isEmpty = false ∧ ¬ driver.ProposesInTurn := by
  obtain ⟨driver, hrun, hlog⟩ : ∃ driver, Transition.run step (startAt 348 1)
      (startup (answersWith 348 104 2 1 45 (l2BlockOn 45 1 300 2)) ++ [sequencingTick]) =
        some driver ∧ driver.log = [.submitted ⟨oldBatch, 34⟩ .sequencingOnly []] :=
    Transition.exists_run (by decide +kernel)
  refine ⟨driver, hrun, hlog, rfl, fun hturn => ?_⟩
  have hpropose := hturn ⟨oldBatch, 34⟩ .sequencingOnly []
    (by rw [hlog]; exact List.mem_singleton_self _)
  cases hpropose

end Driver

end Mk1
