import Mk1.Driver.EventLoop

/-!
# Properties of all batches

The batches of a driver are its outstanding batch, those of a plan whose blocks
are finalized again, and those that were submitted. A property that does not get
lost when blocks are cut off the front or the end of a batch holds of all of
them, if it holds of what produced blocks and syncs bring in: `BatchesMeet.step`.
-/

namespace Mk1

/-- A property that holds of batches without blocks, and still holds after the blocks from some
number on, or those up to it, have been removed. -/
structure Batch.KeptByTrimming (P : Batch → Prop) : Prop where
  empty : ∀ batch : Batch, batch.blocks = [] → P batch
  before : ∀ (batch : Batch) (number : Nat), P batch → P (batch.retainBlocksBefore number)
  after : ∀ (batch smaller : Batch) (number : Nat), P batch →
    smaller.blocks = (batch.retainBlocksAfter number).blocks → P smaller

namespace Driver

/-- Every batch that can still be submitted has a property, and every one that was. -/
structure BatchesMeet (P : Batch → Prop) (driver : Driver) : Prop where
  outstanding : P driver.outstandingBatch
  plan : ∀ plan anchor block rest,
    driver.call = some (.finalizeBatches plan anchor block rest) →
      ∀ batch ∈ plan.batches.batches, P batch
  submitted : ∀ req status reorgReasons, .submitted req status reorgReasons ∈ driver.log →
    P req.batch

/-- What an event brings in has a property: the batches after a produced block was added, and those
of the plan of a sync. -/
structure BringsIn (P : Batch → Prop) (driver : Driver) (event : Event) : Prop where
  produced : ∀ reads next, event = .handle (.blockProduced reads) →
    driver.blockProduced reads = some next → next.BatchesMeet P
  synced : ∀ answers plan, event = .resume answers → driver.call = some .syncBatches →
    Syncer.sync driver.cfg driver.status answers.sync = some plan →
      ∀ batch ∈ plan.batches.batches, P batch

variable {P : Batch → Prop} {driver next : Driver}

/-- The only batch at first has no blocks. -/
theorem batchesMeet_new (hkept : Batch.KeptByTrimming P) (cfg : RuntimeConfig) (l1 : L1State)
    (l2 : L2State) : (new cfg l1 l2).BatchesMeet P where
  outstanding := hkept.empty _ rfl
  plan := by simp [new]
  submitted := by simp [new]

/-- A step that changes the outstanding batch and submits batches. -/
theorem BatchesMeet.change (h : driver.BatchesMeet P) (hbatch : P next.outstandingBatch)
    (hcall : ∀ plan anchor block rest, next.call = some (.finalizeBatches plan anchor block rest) →
      ∀ batch ∈ plan.batches.batches, P batch)
    (entries : List LogEntry) (hlog : next.log = entries ++ driver.log)
    (hentries : ∀ req status reorgReasons, .submitted req status reorgReasons ∈ entries →
      P req.batch) : next.BatchesMeet P where
  outstanding := hbatch
  plan := hcall
  submitted := by
    intro req status reorgReasons hmem
    rw [hlog] at hmem
    rcases List.mem_append.mp hmem with hnew | hold
    · exact hentries req status reorgReasons hnew
    · exact h.submitted req status reorgReasons hold

/-- A quiet step leaves the batches alone. -/
theorem BatchesMeet.quiet (h : driver.BatchesMeet P) (hquiet : Quiet driver next) :
    next.BatchesMeet P := by
  refine h.change ?_ ?_ [] hquiet.log (by simp)
  · rw [hquiet.outstandingBatch]
    exact h.outstanding
  · intro plan anchor block rest hcall
    obtain heq | heq | heq | heq | heq := hquiet.call
    · exact h.plan plan anchor block rest (heq ▸ hcall)
    · rw [heq] at hcall
      cases hcall
    · rw [heq] at hcall
      cases hcall
    · rw [heq] at hcall
      cases hcall
    · rw [heq] at hcall
      cases hcall

section Kept

variable (hkept : Batch.KeptByTrimming P)
include hkept

/-- New information about the L1 can only remove blocks from the outstanding batch. -/
theorem BatchesMeet.updateL1Info (h : driver.BatchesMeet P) (l1Header : Header)
    (reads : L1InfoReads) : (driver.updateL1Info l1Header reads).1.BatchesMeet P := by
  obtain ⟨l2, outstandingBatch, lookahead, status, heq, htrimmed⟩ :=
    driver.updateL1Info_eq l1Header reads
  rw [heq]
  refine h.change ?_ h.plan [] rfl (by simp)
  obtain rfl | ⟨origin, rfl | ⟨-, -, rfl⟩⟩ := htrimmed
  · exact h.outstanding
  · exact hkept.after _ _ origin h.outstanding rfl
  · exact hkept.after _ _ origin h.outstanding rfl

/-- The outstanding batch is submitted as it is, and what follows is empty. -/
theorem BatchesMeet.submitAndReset (h : driver.BatchesMeet P) (newAnchor : Header)
    (deadline : Nat) : (driver.submitAndReset newAnchor deadline).BatchesMeet P := by
  obtain heq | ⟨-, heq⟩ := driver.submitAndReset_cases newAnchor deadline
  · rw [heq]
    exact h.change (hkept.empty _ rfl) h.plan [] rfl (by simp)
  · rw [heq]
    refine h.change (hkept.empty _ rfl) h.plan [_] rfl ?_
    intro req status reorgReasons hmem
    cases List.mem_singleton.mp hmem
    exact h.outstanding

/-- The local batch is submitted at once or after a wait. -/
theorem BatchesMeet.submitLocalOutstandingBatch (h : driver.BatchesMeet P) (deadline : Nat) :
    (driver.submitLocalOutstandingBatch deadline).BatchesMeet P := by
  obtain ⟨state, -, heq⟩ | heq := driver.submitLocalOutstandingBatch_cases deadline
  · rw [heq]
    refine BatchesMeet.submitAndReset hkept ?_ driver.l1.anchor deadline
    exact h.change h.outstanding h.plan [] rfl (by simp)
  · rw [heq]
    exact h.change h.outstanding (by simp [await]) [] rfl (by simp)

/-- The batches of a plan are submitted, or one of them becomes the outstanding batch. -/
theorem BatchesMeet.adoptPlan (h : driver.BatchesMeet P) {plan : SyncPlan}
    (hplan : ∀ batch ∈ plan.batches.batches, P batch) :
    (driver.adoptPlan plan).BatchesMeet P := by
  obtain ⟨entries, outstandingBatch, heq, hbatch, hentries⟩ := driver.adoptPlan_eq plan
  rw [heq]
  refine h.change ?_ h.plan entries rfl ?_
  · obtain hmem | rfl := hbatch
    · exact hplan outstandingBatch hmem
    · exact hkept.empty _ rfl
  · intro req status reorgReasons hmem
    obtain ⟨-, batch, hbatch, hentry⟩ := hentries _ hmem
    cases hentry
    exact hplan batch hbatch

/-- A new head that is lower than the last one removes blocks from the outstanding batch. -/
theorem BatchesMeet.onL2Block (h : driver.BatchesMeet P) (l2Block : Block)
    (reads : L2BlockReads) : (driver.onL2Block l2Block reads).BatchesMeet P := by
  obtain ⟨l1, heq, -⟩ := driver.onL2Block_eq l2Block reads
  obtain ⟨-, hreorg⟩ | ⟨-, l2, hreorg⟩ :=
    (driver.record (.l2Block l2Block)).onL2Reorg_cases l2Block reads.headL1Origin
  · rw [heq, hreorg]
    exact h.change h.outstanding h.plan [.l2Block l2Block] rfl (by simp)
  · rw [heq, hreorg]
    refine h.change ?_ h.plan [.queueCleared, .l2Block l2Block] rfl (by simp)
    exact hkept.before _ l2Block.header.number h.outstanding

/-! ## The steps -/

/-- The events of the event loop. -/
theorem BatchesMeet.handle (h : driver.BatchesMeet P) {event : LoopEvent}
    (hbrings : driver.BringsIn P (.handle event)) (hnext : driver.handle event = some next) :
    next.BatchesMeet P := by
  cases event with
  | l1SlotTick timestamp currentSlot =>
      cases hnext
      obtain hquiet | ⟨-, headSlot, tickParts, deadline, heq⟩ :=
        driver.onL1SlotTick_cases timestamp currentSlot
      · exact h.quiet hquiet
      · rw [heq]
        refine BatchesMeet.submitLocalOutstandingBatch hkept ?_ deadline
        exact h.change h.outstanding h.plan [] rfl (by simp)
  | l2SlotTick timestamp reads =>
      cases hnext
      obtain heq | ⟨payload, -, -, -, -, heq⟩ := driver.onL2SlotTick_cases timestamp reads
      · rw [heq]
        exact h
      · rw [heq]
        exact h.change h.outstanding h.plan [.triggered _] rfl (by simp)
  | taikoPreconfEvent currentEpoch reads =>
      cases hnext
      exact h.quiet (driver.quiet_onTaikoPreconfEvent currentEpoch reads)
  | blockProduced reads => exact hbrings.produced reads next rfl hnext
  | l1Block l1Header reads =>
      cases hnext
      exact (h.updateL1Info hkept l1Header reads).quiet (driver.quiet_onL1Block l1Header reads)
  | l2Block l2Block reads =>
      cases hnext
      exact h.onL2Block hkept l2Block reads
  | operatorChanged =>
      cases hnext
      exact h.quiet driver.quiet_onOperatorChanged
  | batchProposalErr e =>
      cases hnext
      exact h.quiet (driver.quiet_onBatchProposalErr e)

/-- A sync adopts its plan or begins to finalize the blocks of it again. -/
theorem BatchesMeet.syncBatches (h : driver.BatchesMeet P) {reads : SyncReads}
    (hplan : ∀ plan, Syncer.sync driver.cfg driver.status reads = some plan →
      ∀ batch ∈ plan.batches.batches, P batch) : (driver.syncBatches reads).BatchesMeet P := by
  obtain hquiet | ⟨plan, hsync, heq⟩ := driver.syncBatches_cases reads
  · exact h.quiet hquiet
  · rw [heq]
    obtain hadopt | ⟨-, -, anchor, block, rest, -, hawait⟩ := driver.proposePlan_cases plan
    · rw [hadopt]
      exact h.adoptPlan hkept (hplan plan hsync)
    · rw [hawait]
      refine h.change h.outstanding ?_ [] rfl (by simp)
      rintro other anchor' block' rest' ⟨⟩
      exact hplan plan hsync

/-- The calls of a handler. A block of a plan is replaced by the one that is finalized again only on
the L2 chain, so the batches of the plan keep their blocks. -/
theorem BatchesMeet.perform (h : driver.BatchesMeet P) {call : Call} {answers : Answers}
    (hplan : ∀ plan anchor block rest, call = .finalizeBatches plan anchor block rest →
      ∀ batch ∈ plan.batches.batches, P batch)
    (hsynced : ∀ plan, call = .syncBatches →
      Syncer.sync driver.cfg driver.status answers.sync = some plan →
        ∀ batch ∈ plan.batches.batches, P batch)
    (hnext : driver.perform answers call = some next) : next.BatchesMeet P := by
  by_cases hsync : call = .syncBatches
  · subst hsync
    cases hnext
    exact h.syncBatches hkept fun plan => hsynced plan rfl
  cases perform_cases hnext with
  | quiet hother hquiet => exact h.quiet hquiet
  | l1Info l1Header hquiet => exact (h.updateL1Info hkept l1Header answers.l1Info).quiet hquiet
  | submitted newAnchor deadline state hsame =>
      refine BatchesMeet.submitAndReset hkept ?_ newAnchor deadline
      exact h.change h.outstanding h.plan [] rfl (by simp)
  | adopted plan => exact absurd rfl hsync
  | begun plan anchor block rest => exact absurd rfl hsync
  | failed plan anchor block rest herror =>
      exact h.adoptPlan hkept (hplan plan anchor block rest rfl)
  | finalized plan anchor block rest newBlock hagain =>
      have hbatches := hplan plan anchor block rest rfl
      have hfinalized : { driver with
          blockBuilder := driver.blockBuilder.release
          log := .finalized (.new newBlock block.txList) anchor :: driver.log }.BatchesMeet P :=
        h.change h.outstanding h.plan [.finalized _ _] rfl (by simp)
      obtain ⟨-, hnext⟩ | ⟨anchor', block', rest', -, hnext⟩ :=
        finalizeNext_cases { driver with
          blockBuilder := driver.blockBuilder.release
          log := .finalized (.new newBlock block.txList) anchor :: driver.log } plan rest
      · rw [hnext]
        exact hfinalized.adoptPlan hkept hbatches
      · rw [hnext]
        refine hfinalized.change hfinalized.outstanding ?_ [] rfl (by simp)
        rintro other _ _ _ ⟨⟩
        exact hbatches

/-- The parts of an L1 tick. -/
theorem BatchesMeet.performPart (h : driver.BatchesMeet P) (answers : Answers)
    (part : TickPart) : (driver.performPart answers part).BatchesMeet P := by
  cases part with
  | enterSlot slot => exact h.quiet (driver.quiet_enterSlot slot _)
  | submitInHandover =>
      unfold Driver.performPart
      obtain heq | ⟨-, heq⟩ := driver.submitInHandover_cases
      · rw [heq]
        exact h
      · rw [heq]
        exact h.submitLocalOutstandingBatch hkept _
  | updateOutstandingBatchAnchor =>
      unfold Driver.performPart
      obtain heq | ⟨hempty, -, heq⟩ := driver.updateOutstandingBatchAnchorIfNeeded_cases
      · rw [heq]
        exact h
      · rw [heq]
        exact h.change (hkept.empty _ (List.isEmpty_iff.mp hempty)) h.plan [] rfl (by simp)

/-- Every step keeps the property, if what its event brings in has it. -/
theorem BatchesMeet.step (h : driver.BatchesMeet P) {event : Event}
    (hbrings : driver.BringsIn P event) (hnext : driver.step event = some next) :
    next.BatchesMeet P := by
  cases event with
  | handle event =>
      obtain ⟨-, -, hnext⟩ := step_handle hnext
      exact h.handle hkept hbrings hnext
  | resume answers =>
      obtain ⟨call, hcall, hnext⟩ | ⟨-, part, rest, -, hnext⟩ := step_resume hnext
      · refine BatchesMeet.perform hkept ?_ ?_ ?_ hnext
        · exact h.change h.outstanding (by simp) [] rfl (by simp)
        · rintro plan anchor block rest rfl
          exact h.plan plan anchor block rest hcall
        · rintro plan rfl
          exact hbrings.synced answers plan rfl hcall
      · have hrest : { driver with tickParts := rest }.BatchesMeet P :=
          h.change h.outstanding h.plan [] rfl (by simp)
        rw [hnext]
        exact hrest.performPart hkept answers part
  | background event =>
      cases event with
      | preconfRouterChecked isSet =>
          cases hnext
          exact h.change h.outstanding h.plan [] rfl (by simp)
      | builder event =>
          obtain ⟨blockBuilder, -, hnext⟩ := Option.bind_eq_some_iff.mp hnext
          cases hnext
          refine h.change h.outstanding h.plan (finalizedEntries event) rfl ?_
          cases event with
          | finalizationFailed finalization => simp [finalizedEntries]
          | finalized finalization newBlock => simp [finalizedEntries]

end Kept

end Driver

end Mk1
