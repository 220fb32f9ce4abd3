import Mk1.Driver.EventLoop

/-!
# The lock of the block builder

While a finalization is in progress, from its trigger until it has failed or its
response has been consumed, the builder state should say so, because this is
what keeps the L2 tick from building a second block on the same parent. The
responses of a sync release the builder when they are dropped, whatever runs in
the background. `lock_covers_iff` says that this is the only way to lose the
lock.
-/

namespace Mk1

namespace L2BlockBuilder

/-- At most one finalization is in progress, and the builder state shows it. -/
structure LockCovers (builder : L2BlockBuilder) : Prop where
  single : builder.unconsumed.length ≤ 1
  covered : builder.unconsumed ≠ [] → builder.state.isFinalizing.isSome

variable {builder : L2BlockBuilder}

/-- What the receiver has seen of the state does not matter. -/
theorem LockCovers.setState (h : builder.LockCovers) {state : BuilderState}
    (hsame : state.isFinalizing = builder.state.isFinalizing) :
    { builder with state := state }.LockCovers :=
  ⟨h.single, fun hne => by rw [hsame]; exact h.covered hne⟩

/-- An idle builder has nothing in progress. -/
theorem LockCovers.unconsumed_of_idle (h : builder.LockCovers)
    (hidle : builder.state.isFinalizing = none) : builder.unconsumed = [] := by
  by_contra hne
  have hbusy := h.covered hne
  rw [hidle] at hbusy
  cases hbusy

/-- An idle builder can start a finalization. -/
theorem LockCovers.triggerFinalizeBlock (h : builder.LockCovers)
    (hidle : builder.state.isFinalizing = none) (finalization : Finalization) :
    (builder.triggerFinalizeBlock finalization).LockCovers := by
  obtain ⟨hfinalizations, hproduced⟩ := List.append_eq_nil_iff.mp (h.unconsumed_of_idle hidle)
  constructor
  · show ((builder.finalizations ++ [finalization]) ++
      builder.blocksProduced.map Prod.fst).length ≤ 1
    rw [hfinalizations, hproduced]
    exact Nat.le_refl 1
  · exact fun _ => rfl

/-- Consuming the only response releases the builder. -/
theorem LockCovers.consume (h : builder.LockCovers) {produced : Finalization × BlockBuilderResponse}
    {rest : L2BlockBuilder} (hnext : builder.nextProduced = some (produced, rest)) :
    rest.release.unconsumed = [] ∧ rest.release.LockCovers := by
  obtain ⟨hproduced, hfinalizations, -⟩ := nextProduced_eq hnext
  have hempty : rest.release.unconsumed = [] := by
    have hlength := h.single
    unfold unconsumed at hlength
    rw [hproduced, ← hfinalizations] at hlength
    rw [← List.length_eq_zero_iff]
    show (rest.finalizations ++ rest.blocksProduced.map Prod.fst).length = 0
    simp only [List.length_append, List.map_cons, List.length_cons] at hlength ⊢
    omega
  refine ⟨hempty, ?_, fun hne => absurd hempty hne⟩
  rw [hempty]
  exact Nat.zero_le 1

/-- What happens in the background keeps the lock: a block that arrives is still to be consumed,
and a finalization that fails is the only one. -/
theorem LockCovers.progress (h : builder.LockCovers) {event : BuilderEvent}
    {next : L2BlockBuilder} (hnext : builder.progress event = some next) : next.LockCovers := by
  cases event with
  | finalized finalization newBlock =>
      obtain ⟨-, hstate, -, -⟩ := progress_finalized hnext
      have hperm := unconsumed_finalized hnext
      refine ⟨hperm.length_eq.trans_le h.single, fun hne => ?_⟩
      rw [hstate]
      exact h.covered fun hnil => hne (List.perm_nil.mp (hnil ▸ hperm))
  | finalizationFailed finalization =>
      have hlength := (unconsumed_finalizationFailed hnext).length_eq.symm.trans_le h.single
      have hempty : next.unconsumed = [] :=
        List.length_eq_zero_iff.mp (Nat.le_zero.mp (Nat.le_of_succ_le_succ hlength))
      exact ⟨by simp [hempty], fun hne => absurd hempty hne⟩

end L2BlockBuilder

namespace Driver

/-- A sync that finalizes a block again drops its response only when nothing else is being
finalized. -/
def finalizesAlone (driver : Driver) : Event → Bool
  | .resume answers =>
      match driver.call with
      | some (.finalizeBatches plan anchor block _) =>
          (finalizeAgain driver.cfg plan anchor block answers.finalize).isNone ||
            driver.blockBuilder.unconsumed.isEmpty
      | _ => true
  | _ => true

variable {driver next : Driver}

/-- Adopting a plan leaves the builder alone. -/
theorem blockBuilder_adoptPlan (driver : Driver) (plan : SyncPlan) :
    (driver.adoptPlan plan).blockBuilder = driver.blockBuilder := by
  obtain ⟨entries, outstandingBatch, heq, -⟩ := driver.adoptPlan_eq plan
  rw [heq]

/-- Submitting the local batch only waits for the builder. -/
theorem sameLock_submitLocalOutstandingBatch (driver : Driver) (deadline : Nat)
    {builder : L2BlockBuilder} (hbuilder : driver.blockBuilder = builder) :
    SameLock builder (driver.submitLocalOutstandingBatch deadline).blockBuilder := by
  subst hbuilder
  obtain ⟨state, hsame, heq⟩ | heq := driver.submitLocalOutstandingBatch_cases deadline
  · rw [heq]
    refine ⟨state, hsame, ?_⟩
    obtain hreset | ⟨-, hreset⟩ := submitAndReset_cases
      { driver with blockBuilder := { driver.blockBuilder with state := state } }
      driver.l1.anchor deadline
    · rw [hreset]
    · rw [hreset]
  · rw [heq]
    exact .refl _

/-- Of the events of the event loop, an L2 tick can start a finalization when the builder is idle,
and the loop can consume a response. -/
theorem handle_blockBuilder {event : LoopEvent} (hnext : driver.handle event = some next) :
    SameLock driver.blockBuilder next.blockBuilder ∨
      (∃ finalization, driver.blockBuilder.state.isFinalizing = none ∧
        next.blockBuilder = driver.blockBuilder.triggerFinalizeBlock finalization) ∨
      ∃ produced rest, driver.blockBuilder.nextProduced = some (produced, rest) ∧
        next.blockBuilder = rest.release := by
  cases event with
  | l1SlotTick timestamp currentSlot =>
      cases hnext
      obtain hquiet | ⟨-, headSlot, tickParts, deadline, heq⟩ :=
        driver.onL1SlotTick_cases timestamp currentSlot
      · exact .inl hquiet.builder
      · rw [heq]
        exact .inl (sameLock_submitLocalOutstandingBatch _ _ rfl)
  | l2SlotTick timestamp reads =>
      cases hnext
      obtain heq | ⟨payload, -, hidle, -, -, heq⟩ := driver.onL2SlotTick_cases timestamp reads
      · rw [heq]
        exact .inl (.refl _)
      · rw [heq]
        exact .inr (.inl ⟨_, hidle, rfl⟩)
  | taikoPreconfEvent currentEpoch reads =>
      cases hnext
      exact .inl (driver.quiet_onTaikoPreconfEvent currentEpoch reads).builder
  | blockProduced reads =>
      obtain ⟨⟨⟨finalization, response⟩, rest⟩, hproduced, hnext⟩ :=
        Option.bind_eq_some_iff.mp hnext
      cases hnext
      obtain ⟨entries, outstandingBatch, heq, -⟩ := addBlocks_eq
        { driver with blockBuilder := rest.release } response.anchor reads.estimates
        (gapBlocks { driver with blockBuilder := rest.release } response.preconfirmedBlock reads ++
          [response.preconfirmedBlock])
      unfold onProducedBlock
      rw [heq]
      exact .inr (.inr ⟨_, rest, hproduced, rfl⟩)
  | l1Block l1Header reads =>
      cases hnext
      have hbuilder := (driver.quiet_onL1Block l1Header reads).builder
      rw [blockBuilder_updateL1Info] at hbuilder
      exact .inl hbuilder
  | l2Block l2Block reads =>
      cases hnext
      obtain ⟨l1, heq, -⟩ := driver.onL2Block_eq l2Block reads
      obtain ⟨-, hreorg⟩ | ⟨-, l2, hreorg⟩ :=
        (driver.record (.l2Block l2Block)).onL2Reorg_cases l2Block reads.headL1Origin
      · rw [heq, hreorg]
        exact .inl (.refl _)
      · rw [heq, hreorg]
        exact .inl (.refl _)
  | operatorChanged =>
      cases hnext
      exact .inl driver.quiet_onOperatorChanged.builder
  | batchProposalErr e =>
      cases hnext
      exact .inl (driver.quiet_onBatchProposalErr e).builder

/-- Of the calls of a handler, only the finalization of a block of a plan touches more of the
builder than what has been seen of its state: it releases the builder. -/
theorem perform_blockBuilder {answers : Answers} {call : Call}
    (hnext : driver.perform answers call = some next) :
    (SameLock driver.blockBuilder next.blockBuilder ∧
      ∀ plan anchor block rest, call = .finalizeBatches plan anchor block rest →
        finalizeAgain driver.cfg plan anchor block answers.finalize = none) ∨
      (next.blockBuilder = driver.blockBuilder.release ∧
        ∃ plan anchor block rest, call = .finalizeBatches plan anchor block rest ∧
          (finalizeAgain driver.cfg plan anchor block answers.finalize).isSome) := by
  cases perform_cases hnext with
  | quiet hother hquiet =>
      exact .inl ⟨hquiet.builder, fun plan anchor block rest hcall =>
        absurd hcall (hother plan anchor block rest)⟩
  | l1Info l1Header hquiet =>
      have hbuilder := hquiet.builder
      rw [blockBuilder_updateL1Info] at hbuilder
      exact .inl ⟨hbuilder, by simp⟩
  | submitted newAnchor deadline state hsame =>
      refine .inl ⟨⟨state, hsame, ?_⟩, by simp⟩
      obtain hreset | ⟨-, hreset⟩ := submitAndReset_cases
        { driver with blockBuilder := { driver.blockBuilder with state := state } }
        newAnchor deadline
      · rw [hreset]
      · rw [hreset]
  | adopted plan =>
      rw [blockBuilder_adoptPlan]
      exact .inl ⟨.refl _, by simp⟩
  | begun plan anchor block rest => exact .inl ⟨.refl _, by simp⟩
  | failed plan anchor block rest herror =>
      rw [blockBuilder_adoptPlan]
      refine .inl ⟨.refl _, fun _ _ _ _ hcall => ?_⟩
      cases hcall
      exact herror
  | finalized plan anchor block rest newBlock hagain =>
      refine .inr ⟨?_, plan, anchor, block, rest, rfl, by simp [hagain]⟩
      obtain ⟨-, hnext⟩ | ⟨anchor', block', rest', -, hnext⟩ :=
        finalizeNext_cases { driver with
          blockBuilder := driver.blockBuilder.release
          log := .finalized (.new newBlock block.txList) anchor :: driver.log } plan rest
      · rw [hnext, blockBuilder_adoptPlan]
      · rw [hnext]
        rfl

/-- The parts of an L1 tick only wait for the builder. -/
theorem performPart_blockBuilder (driver : Driver) (answers : Answers) (part : TickPart) :
    SameLock driver.blockBuilder (driver.performPart answers part).blockBuilder := by
  cases part with
  | enterSlot slot => exact (driver.quiet_enterSlot slot _).builder
  | submitInHandover =>
      unfold performPart
      obtain heq | ⟨-, heq⟩ := driver.submitInHandover_cases
      · rw [heq]
        exact .refl _
      · rw [heq]
        exact sameLock_submitLocalOutstandingBatch _ _ rfl
  | updateOutstandingBatchAnchor =>
      unfold performPart
      obtain heq | ⟨-, -, heq⟩ := driver.updateOutstandingBatchAnchorIfNeeded_cases
      · rw [heq]
        exact .refl _
      · rw [heq]
        exact .refl _

/-- The builder stays locked when only what has been seen of its state changes. -/
theorem SameLock.lockCovers {builder next : L2BlockBuilder} (h : SameLock builder next)
    (hlock : builder.LockCovers) : next.LockCovers := by
  obtain ⟨state, hsame, rfl⟩ := h
  exact hlock.setState hsame

/-- A step keeps the lock exactly if it drops no response of a sync while a finalization is in
progress. -/
theorem lockCovers_step_iff (hlock : driver.blockBuilder.LockCovers) {event : Event}
    (hnext : driver.step event = some next) :
    next.blockBuilder.LockCovers ↔ driver.finalizesAlone event = true := by
  cases event with
  | handle event =>
      refine iff_of_true ?_ rfl
      obtain ⟨-, -, hnext⟩ := step_handle hnext
      obtain hsame | ⟨finalization, hidle, heq⟩ | ⟨produced, rest, hproduced, heq⟩ :=
        handle_blockBuilder hnext
      · exact hsame.lockCovers hlock
      · rw [heq]
        exact hlock.triggerFinalizeBlock hidle finalization
      · rw [heq]
        exact (hlock.consume hproduced).2
  | resume answers =>
      obtain ⟨call, hcall, hnext⟩ | ⟨hcall, part, rest, -, rfl⟩ := step_resume hnext
      · obtain ⟨hsame, herror⟩ | ⟨heq, plan, anchor, block, rest, rfl, hagain⟩ :=
          perform_blockBuilder hnext
        · refine iff_of_true (hsame.lockCovers hlock) ?_
          simp only [finalizesAlone, hcall]
          split
          · next plan anchor block rest hfinalize =>
              have hagain : finalizeAgain driver.cfg plan anchor block answers.finalize = none :=
                herror plan anchor block rest (Option.some.inj hfinalize)
              rw [hagain]
              rfl
          · rfl
        · obtain ⟨response, hresponse⟩ := Option.isSome_iff_exists.mp hagain
          change finalizeAgain driver.cfg plan anchor block answers.finalize = _ at hresponse
          have halone : driver.finalizesAlone (.resume answers) =
              driver.blockBuilder.unconsumed.isEmpty := by simp [finalizesAlone, hcall, hresponse]
          rw [heq, halone]
          -- the release is right only if nothing else is being finalized or waits to be consumed
          constructor
          · intro hcovers
            exact List.isEmpty_iff.mpr (hcovers.unconsumed_of_idle rfl)
          · intro hnone
            have hempty := List.isEmpty_iff.mp hnone
            refine ⟨?_, fun hne => absurd hempty hne⟩
            show driver.blockBuilder.unconsumed.length ≤ 1
            rw [hempty]
            exact Nat.zero_le 1
      · refine iff_of_true ?_ (by simp [finalizesAlone, hcall])
        exact (performPart_blockBuilder _ answers part).lockCovers hlock
  | background event =>
      refine iff_of_true ?_ rfl
      cases event with
      | builder event =>
          obtain ⟨blockBuilder, hprogress, hnext⟩ := Option.bind_eq_some_iff.mp hnext
          cases hnext
          exact hlock.progress hprogress
      | preconfRouterChecked isSet =>
          cases hnext
          exact hlock

/-- In a run from the start of the driver, every finalization keeps the builder locked until it has
failed or its response has been consumed, exactly if no sync drops a response while one is in
progress. -/
theorem lock_covers_iff {cfg : RuntimeConfig} {l1 : L1State} {l2 : L2State} {events : List Event}
    (hrun : Transition.run step (new cfg l1 l2) events = some driver) :
    (∀ before after reached, events = before ++ after →
        Transition.run step (new cfg l1 l2) before = some reached →
          reached.blockBuilder.LockCovers) ↔
      Transition.StepsMeet step (fun driver event => driver.finalizesAlone event)
        (new cfg l1 l2) events := by
  have hinitial : (new cfg l1 l2).blockBuilder.LockCovers :=
    ⟨Nat.zero_le 1, fun hne => absurd rfl hne⟩
  exact Transition.property_iff_stepsMeet_of_step
    (fun _ _ _ hlock hstep => lockCovers_step_iff hlock hstep) hinitial hrun

/-- A block of the operator on anchor 47, the head of the L2 chain. -/
def ownHead : Block := l2BlockOn 47 1 38400 1

/-- A start in an epoch of the operator, and an L2 tick that triggers a finalization. -/
def triggerAfterStartup : List Event :=
  startup (answersWith 38412 104 1 1 47 ownHead) ++
    [.handle (.l2SlotTick 38414 (tickReads ownHead.header))]

/-- Answers of a sync at L1 block 110, when anchor 47 has expired. -/
def laterAnswers : Answers := answersWith 38416 110 1 1 47 ownHead

/-- After the first trigger the builder is locked. -/
theorem locked_after_trigger :
    ∃ driver, Transition.run step (startAt 38412 1) triggerAfterStartup = some driver ∧
      driver.blockBuilder.unconsumed.length = 1 ∧
      ∀ before after reached, triggerAfterStartup = before ++ after →
        Transition.run step (startAt 38412 1) before = some reached →
          reached.blockBuilder.LockCovers := by
  obtain ⟨driver, hrun, hlength⟩ : ∃ driver,
      Transition.run step (startAt 38412 1) triggerAfterStartup = some driver ∧
        driver.blockBuilder.unconsumed.length = 1 :=
    Transition.exists_run (by decide +kernel)
  exact ⟨driver, hrun, hlength, (lock_covers_iff hrun).mpr (by decide +kernel)⟩

/-- A sync finds the builder finalizing, does not wait, finalizes the head again on a new anchor and
releases the builder, so that the next L2 tick triggers a second block on the same parent. -/
theorem second_block_while_finalizing :
    ∃ driver, Transition.run step (startAt 38412 1)
        (triggerAfterStartup ++ [.handle .operatorChanged, .resume laterAnswers,
          .resume laterAnswers, .resume laterAnswers]) = some driver ∧
      (driver.blockBuilder.state.isFinalizing, driver.blockBuilder.unconsumed.length) = (none, 1) ∧
      ¬ driver.blockBuilder.LockCovers ∧
      (driver.onL2SlotTick 38416 (tickReads ownHead.header)).blockBuilder.unconsumed.length =
        2 := by
  obtain ⟨driver, hrun, hidle, hone, htwo⟩ : ∃ driver, Transition.run step (startAt 38412 1)
        (triggerAfterStartup ++ [.handle .operatorChanged, .resume laterAnswers,
          .resume laterAnswers, .resume laterAnswers]) = some driver ∧
      driver.blockBuilder.state.isFinalizing = none ∧ driver.blockBuilder.unconsumed.length = 1 ∧
      (driver.onL2SlotTick 38416 (tickReads ownHead.header)).blockBuilder.unconsumed.length = 2 :=
    Transition.exists_run (by decide +kernel)
  refine ⟨driver, hrun, Prod.ext hidle hone, fun hlock => ?_, htwo⟩
  rw [hlock.unconsumed_of_idle hidle] at hone
  cases hone

end Driver

end Mk1
