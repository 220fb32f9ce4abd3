import Mk1.Driver.EventLoop

/-!
# The order of anchors

The anchor of a new block must not be below that of its parent. The driver
caches two anchors: `l1.anchor`, which every handler only raises and which
`onL2Block` raises to the anchor of each block of somebody else, and that of the
outstanding batch, which a block that fits is built on and which nothing raises
when a parent with a higher anchor arrives. Nothing raises `l1.anchor` to the
anchor of a block of the operator either, which a sync may have adopted.
`anchors_ascend` says that the anchors of new blocks are in order otherwise.
-/

namespace Mk1

/-- A finalization was triggered on an anchor not below that of the parent. `anchorOf` is the anchor
id of the L2 block with a header. -/
def LogEntry.ascends (anchorOf : Header → Option Nat) : LogEntry → Bool
  | .triggered finalization =>
      (anchorOf finalization.payload.parent).all (· ≤ finalization.anchorBlock.number)
  | _ => true

/-- Whether an entry is a handled block or a triggered finalization. -/
def LogEntry.hasAnchor : LogEntry → Bool
  | .l2Block _ => true
  | .triggered _ => true
  | _ => false

namespace Driver

/-- Every finalization was triggered on an anchor not below that of the parent. -/
def AnchorsAscend (anchorOf : Header → Option Nat) (log : List LogEntry) : Prop :=
  ∀ entry ∈ log, entry.ascends anchorOf = true

/-- The order of the anchors in a log can be decided. -/
instance (anchorOf : Header → Option Nat) (log : List LogEntry) :
    Decidable (AnchorsAscend anchorOf log) :=
  inferInstanceAs (Decidable (∀ entry ∈ log, _))

/-- The anchors on which finalizations were triggered, newest first. -/
def triggeredAnchorIds (log : List LogEntry) : List Nat :=
  log.filterMap fun
    | .triggered finalization => some finalization.anchorBlock.number
    | _ => none

/-- Whether `onL2Block` has handled the block with this header. -/
def hasHandled (driver : Driver) (header : Header) : Bool :=
  driver.log.any fun
    | .l2Block block => block.header = header
    | _ => false

/-- Whether an L2 tick asks for a payload: the driver can sequence, the builder is idle, and the
parent that was read is not below the tip of the chain. -/
def asksForPayload (driver : Driver) (reads : L2TickReads) : Bool :=
  driver.status.canSequence && driver.blockBuilder.state.isFinalizing.isNone &&
    reads.parent.any fun parent =>
      reads.highestUnsafeBlock.any fun highestUnsafeBlock =>
        max highestUnsafeBlock driver.l2.headL1Origin ≤ parent.number

/-- The branches that go wrong are not taken. When a new block fits the outstanding batch, the
anchor of the batch is not below that of the parent; when it does not and `onL2Block` never saw the
parent, the cached anchor is not below that of the parent. A block of the operator that `onL2Block`
skips is not on a higher anchor than the cached one. -/
def anchorsInOrder (anchorOf : Header → Option Nat) (driver : Driver) : Event → Bool
  | .handle (.l2SlotTick timestamp reads) =>
      !driver.asksForPayload reads || (driver.tickPayload timestamp reads).all fun payload =>
        match driver.outstandingBatch.doesntFit reads.estimate payload.txListWithoutAnchorTx with
        | none => (anchorOf payload.parent).all (· ≤ driver.outstandingBatch.anchorId)
        | some _ => driver.hasHandled payload.parent ||
            (anchorOf payload.parent).all (· ≤ driver.l1.anchor.number)
  | .handle (.l2Block l2Block _) =>
      l2Block.header.beneficiary != driver.cfg.operator ||
        l2Block.anchorBlockId.all (· ≤ driver.l1.anchor.number)
  | _ => true

/-- The L1 client returns the headers that it is asked for, and the one of the anchor of every L2
block. -/
def HonestHeaders (anchorOf : Header → Option Nat) : Event → Prop
  | .handle (.l1Block _ reads) => reads.el.Honest
  | .handle (.l2Block l2Block reads) => reads.el.Honest ∧
      anchorOf l2Block.header = l2Block.anchorBlockId ∧
      ∀ anchorId ∈ l2Block.anchorBlockId, (reads.el anchorId).isSome
  | .resume answers => answers.l1Info.el.Honest
  | _ => True

/-- The anchors of the handled blocks are not above the cached one, and those of new blocks are in
order. -/
structure AnchorsKnown (anchorOf : Header → Option Nat) (driver : Driver) : Prop where
  handled : ∀ block, .l2Block block ∈ driver.log →
    ∀ anchorId ∈ anchorOf block.header, anchorId ≤ driver.l1.anchor.number
  ascend : AnchorsAscend anchorOf driver.log

/-- Entries of submissions, cleared queues and finalized blocks. -/
def NoAnchors (entries : List LogEntry) : Prop :=
  ∀ entry ∈ entries, entry.hasAnchor = false

variable {anchorOf : Header → Option Nat} {driver next : Driver}

/-- Only triggered finalizations can be out of order. -/
theorem ascends_of_hasAnchor {entry : LogEntry} (h : entry.hasAnchor = false) :
    entry.ascends anchorOf = true := by
  cases entry with
  | submitted req status reorgReasons => rfl
  | queueCleared => rfl
  | finalized block anchor => rfl
  | triggered finalization => cases h
  | l2Block block => cases h

/-- A step that does not lower the cached anchor, handles no block and triggers nothing keeps the
order. -/
theorem AnchorsKnown.mono (h : driver.AnchorsKnown anchorOf)
    (hl1 : driver.l1.anchor.number ≤ next.l1.anchor.number)
    (entries : List LogEntry) (hentries : NoAnchors entries)
    (hlog : next.log = entries ++ driver.log) : next.AnchorsKnown anchorOf := by
  constructor
  · intro block hblock anchorId hid
    rw [hlog] at hblock
    rcases List.mem_append.mp hblock with hnew | hold
    · cases hentries _ hnew
    · exact (h.handled block hold anchorId hid).trans hl1
  · intro entry hentry
    rw [hlog] at hentry
    rcases List.mem_append.mp hentry with hnew | hold
    · exact ascends_of_hasAnchor (hentries entry hnew)
    · exact h.ascend entry hold

/-- The anchor of a handled parent is not above the cached one. -/
theorem AnchorsKnown.of_hasHandled (h : driver.AnchorsKnown anchorOf) {parent : Header}
    (hparent : driver.hasHandled parent = true) :
    (anchorOf parent).all (· ≤ driver.l1.anchor.number) = true := by
  obtain ⟨entry, hentry, hheader⟩ := List.any_eq_true.mp hparent
  cases entry with
  | l2Block block =>
      rw [← of_decide_eq_true hheader, Option.all_eq_true_iff_get]
      intro hsome
      exact decide_eq_true (h.handled block hentry _ (Option.get_mem hsome))
  | submitted req status reorgReasons => cases hheader
  | queueCleared => cases hheader
  | triggered finalization => cases hheader
  | finalized block anchor => cases hheader

/-- An L2 tick triggers a payload only if it asks for one. -/
theorem onL2SlotTick_asks (driver : Driver) (timestamp : Nat) (reads : L2TickReads) :
    driver.onL2SlotTick timestamp reads = driver ∨
      ∃ payload, driver.asksForPayload reads = true ∧
        driver.tickPayload timestamp reads = some payload ∧
        driver.onL2SlotTick timestamp reads =
          driver.triggerFinalizeBlock reads.estimate payload := by
  obtain heq | ⟨payload, hsequence, hidle, hpayload, -, heq⟩ :=
    driver.onL2SlotTick_cases timestamp reads
  · exact .inl heq
  · cases hasks : driver.asksForPayload reads with
    | true => exact .inr ⟨payload, rfl, hpayload, heq⟩
    | false =>
        -- the parent is missing or below the tip, so that the tick returns before
        refine .inl ?_
        unfold asksForPayload at hasks
        unfold onL2SlotTick
        rw [hsequence, hidle] at hasks ⊢
        cases hparent : reads.parent with
        | none => rfl
        | some parent =>
            cases hhighest : reads.highestUnsafeBlock with
            | none => rfl
            | some highestUnsafeBlock =>
                rw [hparent, hhighest] at hasks
                have hbelow : parent.number < max highestUnsafeBlock driver.l2.headL1Origin :=
                  Nat.not_le.mp (of_decide_eq_false hasks)
                simp only [Bool.not_true, Option.isSome_none, if_pos hbelow]
                rfl

/-- An L2 tick starts on an anchor that is not below that of the parent. -/
theorem AnchorsKnown.onL2SlotTick (h : driver.AnchorsKnown anchorOf) {timestamp : Nat}
    {reads : L2TickReads}
    (horder : driver.anchorsInOrder anchorOf (.handle (.l2SlotTick timestamp reads)) = true) :
    (driver.onL2SlotTick timestamp reads).AnchorsKnown anchorOf := by
  obtain heq | ⟨payload, hasks, hpayload, heq⟩ := driver.onL2SlotTick_asks timestamp reads
  · rw [heq]
    exact h
  · rw [heq]
    have hanchor : (anchorOf payload.parent).all
        (· ≤ (driver.anchorForBlock reads.estimate payload.txListWithoutAnchorTx).number) =
          true := by
      simp only [anchorsInOrder, hasks, hpayload, Bool.not_true, Bool.false_or,
        Option.all_some] at horder
      unfold anchorForBlock
      cases hfit : driver.outstandingBatch.doesntFit reads.estimate
          payload.txListWithoutAnchorTx with
      | none =>
          rw [hfit] at horder
          exact horder
      | some reason =>
          rw [hfit] at horder
          exact (Bool.or_eq_true_iff.mp horder).elim h.of_hasHandled id
    constructor
    · intro block hblock
      rcases List.mem_cons.mp hblock with heq' | hold
      · cases heq'
      · exact h.handled block hold
    · intro entry hentry
      rcases List.mem_cons.mp hentry with rfl | hold
      · exact hanchor
      · exact h.ascend entry hold

/-- A handled block whose anchor is not above the cached one keeps the order. -/
theorem AnchorsKnown.record_l2Block (h : driver.AnchorsKnown anchorOf) {block : Block}
    (hblock : ∀ anchorId ∈ anchorOf block.header, anchorId ≤ driver.l1.anchor.number) :
    (driver.record (.l2Block block)).AnchorsKnown anchorOf := by
  constructor
  · intro other hother
    rcases List.mem_cons.mp hother with heq | hold
    · cases heq
      exact hblock
    · exact h.handled other hold
  · intro entry hentry
    rcases List.mem_cons.mp hentry with rfl | hold
    · rfl
    · exact h.ascend entry hold

/-- Handling an L2 block raises the cached anchor to that of the block, unless the block is the
operator's. -/
theorem AnchorsKnown.onL2Block (h : driver.AnchorsKnown anchorOf) {l2Block : Block}
    {reads : L2BlockReads}
    (horder : driver.anchorsInOrder anchorOf (.handle (.l2Block l2Block reads)) = true)
    (hheaders : HonestHeaders anchorOf (.handle (.l2Block l2Block reads))) :
    (driver.onL2Block l2Block reads).AnchorsKnown anchorOf := by
  obtain ⟨hhonest, hanchorOf, hfetched⟩ := hheaders
  obtain ⟨l1, heq, hl1⟩ := driver.onL2Block_eq l2Block reads
  -- the cached anchor is not below the old one, nor below that of the block
  have hanchor : driver.l1.anchor.number ≤ l1.anchor.number ∧
      ∀ anchorId ∈ anchorOf l2Block.header, anchorId ≤ l1.anchor.number := by
    rw [hanchorOf]
    obtain ⟨rfl, hblock | hblock⟩ | ⟨anchor, hid, hhigher, rfl⟩ := hl1
    · refine ⟨Nat.le_refl _, fun anchorId hid => ?_⟩
      simp only [anchorsInOrder, hblock, bne_self_eq_false, Bool.false_or] at horder
      rw [Option.mem_def.mp hid, Option.all_some] at horder
      exact of_decide_eq_true horder
    · exact ⟨Nat.le_refl _, hblock⟩
    · refine ⟨L1State.anchor_le_updateAnchor _ hhonest hhigher, fun anchorId hid' => ?_⟩
      obtain rfl := Option.some.inj (hid.symm.trans hid')
      obtain ⟨newAnchor, hfetch, hupdate⟩ | ⟨hnone, -⟩ :=
        driver.l1.updateAnchor_cases reads.el anchor
      · rw [hupdate]
        exact (hhonest anchor newAnchor hfetch).ge
      · have hsome := hfetched anchor hid
        rw [hnone] at hsome
        cases hsome
  have hraised : { driver with l1 := l1 }.AnchorsKnown anchorOf :=
    h.mono hanchor.1 [] (by simp [NoAnchors]) rfl
  have hrecorded := hraised.record_l2Block hanchor.2
  obtain ⟨-, hreorg⟩ | ⟨-, l2, hreorg⟩ :=
    (driver.record (.l2Block l2Block)).onL2Reorg_cases l2Block reads.headL1Origin
  · rw [heq, hreorg]
    exact hrecorded.mono (Nat.le_refl _) [] (by simp [NoAnchors]) rfl
  · rw [heq, hreorg]
    exact hrecorded.mono (Nat.le_refl _) [.queueCleared] (by simp [NoAnchors, LogEntry.hasAnchor])
      rfl

/-- Changes that submit nothing keep the order if the cached anchor is not lowered. -/
theorem AnchorsKnown.same_log (h : driver.AnchorsKnown anchorOf)
    (hl1 : driver.l1.anchor.number ≤ next.l1.anchor.number)
    (hlog : next.log = driver.log) : next.AnchorsKnown anchorOf :=
  h.mono hl1 [] (by simp [NoAnchors]) hlog

/-- A quiet step keeps the order. -/
theorem AnchorsKnown.quiet (h : driver.AnchorsKnown anchorOf) (hquiet : Quiet driver next) :
    next.AnchorsKnown anchorOf := by
  have hl1 : driver.l1.anchor.number ≤ next.l1.anchor.number := by rw [hquiet.anchor]
  exact h.same_log hl1 hquiet.log

/-- Submitting the local batch keeps the order. -/
theorem AnchorsKnown.submitAndReset (h : driver.AnchorsKnown anchorOf) (newAnchor : Header)
    (deadline : Nat) : (driver.submitAndReset newAnchor deadline).AnchorsKnown anchorOf := by
  obtain heq | ⟨-, heq⟩ := driver.submitAndReset_cases newAnchor deadline
  · rw [heq]
    exact h.same_log (Nat.le_refl _) rfl
  · rw [heq]
    exact h.mono (Nat.le_refl _) [_] (by simp [NoAnchors, LogEntry.hasAnchor]) rfl

/-- Submitting the local batch, or waiting for the builder, keeps the order. -/
theorem AnchorsKnown.submitLocalOutstandingBatch (h : driver.AnchorsKnown anchorOf)
    (deadline : Nat) : (driver.submitLocalOutstandingBatch deadline).AnchorsKnown anchorOf := by
  obtain ⟨state, -, heq⟩ | heq := driver.submitLocalOutstandingBatch_cases deadline
  · rw [heq]
    refine AnchorsKnown.submitAndReset ?_ _ _
    exact h.same_log (Nat.le_refl _) rfl
  · rw [heq]
    exact h.same_log (Nat.le_refl _) rfl

/-- Adopting a plan keeps the order. -/
theorem AnchorsKnown.adoptPlan (h : driver.AnchorsKnown anchorOf) (plan : SyncPlan) :
    (driver.adoptPlan plan).AnchorsKnown anchorOf := by
  obtain ⟨entries, outstandingBatch, heq, -, hentries⟩ := driver.adoptPlan_eq plan
  rw [heq]
  refine h.mono (Nat.le_refl _) entries (fun entry hentry => ?_) rfl
  obtain ⟨-, batch, -, rfl⟩ := hentries entry hentry
  rfl

/-- New information about the L1 can only raise the cached anchor. -/
theorem AnchorsKnown.updateL1Info (h : driver.AnchorsKnown anchorOf) (l1Header : Header)
    {reads : L1InfoReads} (hhonest : reads.el.Honest) :
    (driver.updateL1Info l1Header reads).1.AnchorsKnown anchorOf := by
  obtain ⟨l2, outstandingBatch, lookahead, status, heq, -⟩ := driver.updateL1Info_eq l1Header reads
  rw [heq]
  exact h.same_log (L1State.anchor_le_sync driver.cfg driver.l1 hhonest l1Header) rfl

/-- A block that is produced keeps the order. -/
theorem AnchorsKnown.blockProduced (h : driver.AnchorsKnown anchorOf) {reads : ProducedReads}
    (hnext : driver.blockProduced reads = some next) : next.AnchorsKnown anchorOf := by
  obtain ⟨⟨⟨finalization, response⟩, rest⟩, hproduced, hnext⟩ := Option.bind_eq_some_iff.mp hnext
  cases hnext
  obtain ⟨entries, outstandingBatch, heq, -, hentries⟩ := addBlocks_eq
    { driver with blockBuilder := rest.release } response.anchor reads.estimates
    (gapBlocks { driver with blockBuilder := rest.release } response.preconfirmedBlock reads ++
      [response.preconfirmedBlock])
  unfold onProducedBlock
  rw [heq]
  refine h.mono (Nat.le_refl _) entries (fun entry hentry => ?_) rfl
  obtain ⟨-, fullBatch, rfl, -⟩ := hentries entry hentry
  rfl

/-- The events of the event loop keep the order. -/
theorem AnchorsKnown.handle (h : driver.AnchorsKnown anchorOf) {event : LoopEvent}
    (horder : driver.anchorsInOrder anchorOf (.handle event) = true)
    (hheaders : HonestHeaders anchorOf (.handle event)) (hnext : driver.handle event = some next) :
    next.AnchorsKnown anchorOf := by
  cases event with
  | l1SlotTick timestamp currentSlot =>
      cases hnext
      obtain hquiet | ⟨-, headSlot, tickParts, deadline, heq⟩ :=
        driver.onL1SlotTick_cases timestamp currentSlot
      · exact h.quiet hquiet
      · rw [heq]
        refine AnchorsKnown.submitLocalOutstandingBatch ?_ deadline
        exact h.same_log (Nat.le_refl _) rfl
  | l2SlotTick timestamp reads =>
      cases hnext
      exact h.onL2SlotTick horder
  | taikoPreconfEvent currentEpoch reads =>
      cases hnext
      exact h.quiet (driver.quiet_onTaikoPreconfEvent currentEpoch reads)
  | blockProduced reads => exact h.blockProduced hnext
  | l1Block l1Header reads =>
      cases hnext
      exact (h.updateL1Info l1Header hheaders).quiet (driver.quiet_onL1Block l1Header reads)
  | l2Block l2Block reads =>
      cases hnext
      exact h.onL2Block horder hheaders
  | operatorChanged =>
      cases hnext
      exact h.quiet driver.quiet_onOperatorChanged
  | batchProposalErr e =>
      cases hnext
      exact h.quiet (driver.quiet_onBatchProposalErr e)

/-- The calls of a handler keep the order. -/
theorem AnchorsKnown.perform (h : driver.AnchorsKnown anchorOf) {call : Call} {answers : Answers}
    (hhonest : answers.l1Info.el.Honest) (hnext : driver.perform answers call = some next) :
    next.AnchorsKnown anchorOf := by
  cases perform_cases hnext with
  | quiet hother hquiet => exact h.quiet hquiet
  | l1Info l1Header hquiet => exact (h.updateL1Info l1Header hhonest).quiet hquiet
  | submitted newAnchor deadline state hsame =>
      refine AnchorsKnown.submitAndReset ?_ _ _
      exact h.same_log (Nat.le_refl _) rfl
  | adopted plan => exact h.adoptPlan plan
  | begun plan anchor block rest => exact h.same_log (Nat.le_refl _) rfl
  | failed plan anchor block rest herror => exact h.adoptPlan plan
  | finalized plan anchor block rest newBlock hagain =>
      have hreleased : { driver with
          blockBuilder := driver.blockBuilder.release
          log := .finalized (.new newBlock block.txList) anchor :: driver.log }.AnchorsKnown
            anchorOf :=
        h.mono (Nat.le_refl _) [_] (by simp [NoAnchors, LogEntry.hasAnchor]) rfl
      obtain ⟨-, hnext⟩ | ⟨anchor', block', rest', -, hnext⟩ :=
        finalizeNext_cases { driver with
          blockBuilder := driver.blockBuilder.release
          log := .finalized (.new newBlock block.txList) anchor :: driver.log } plan rest
      · rw [hnext]
        exact hreleased.adoptPlan plan
      · rw [hnext]
        exact hreleased.same_log (Nat.le_refl _) rfl

/-- The parts of an L1 tick keep the order. -/
theorem AnchorsKnown.performPart (h : driver.AnchorsKnown anchorOf) (answers : Answers)
    (part : TickPart) : (driver.performPart answers part).AnchorsKnown anchorOf := by
  cases part with
  | enterSlot slot => exact h.quiet (driver.quiet_enterSlot slot _)
  | submitInHandover =>
      unfold Driver.performPart
      obtain heq | ⟨-, heq⟩ := driver.submitInHandover_cases
      · rw [heq]
        exact h
      · rw [heq]
        exact h.submitLocalOutstandingBatch _
  | updateOutstandingBatchAnchor =>
      unfold Driver.performPart
      obtain heq | ⟨-, -, heq⟩ := driver.updateOutstandingBatchAnchorIfNeeded_cases
      · rw [heq]
        exact h
      · rw [heq]
        exact h.same_log (Nat.le_refl _) rfl

/-- What happens in the background keeps the order. -/
theorem AnchorsKnown.progress (h : driver.AnchorsKnown anchorOf) {event : BackgroundEvent}
    (hnext : driver.progress event = some next) : next.AnchorsKnown anchorOf := by
  cases event with
  | preconfRouterChecked isSet =>
      cases hnext
      exact h.same_log (Nat.le_refl _) rfl
  | builder event =>
      obtain ⟨blockBuilder, hprogress, hnext⟩ := Option.bind_eq_some_iff.mp hnext
      cases hnext
      refine h.mono (Nat.le_refl _) (finalizedEntries event) (fun entry hentry => ?_) rfl
      cases event with
      | finalized finalization newBlock =>
          obtain rfl := List.mem_singleton.mp hentry
          rfl
      | finalizationFailed finalization => cases hentry

/-- Every step in order keeps the order. -/
theorem AnchorsKnown.step (h : driver.AnchorsKnown anchorOf) {event : Event}
    (horder : driver.anchorsInOrder anchorOf event = true)
    (hheaders : HonestHeaders anchorOf event) (hnext : driver.step event = some next) :
    next.AnchorsKnown anchorOf := by
  cases event with
  | handle event =>
      obtain ⟨-, -, hnext⟩ := step_handle hnext
      exact h.handle horder hheaders hnext
  | resume answers =>
      obtain ⟨call, -, hnext⟩ | ⟨-, part, rest, -, rfl⟩ := step_resume hnext
      · refine AnchorsKnown.perform ?_ hheaders hnext
        exact h.same_log (Nat.le_refl _) rfl
      · refine AnchorsKnown.performPart ?_ answers part
        exact h.same_log (Nat.le_refl _) rfl
  | background event => exact h.progress hnext

/-- In every run from the start of the driver in which the branches that go wrong are not taken, no
block is triggered on an anchor below that of its parent, whoever built the parent. -/
theorem anchors_ascend {cfg : RuntimeConfig} {l1 : L1State} {l2 : L2State} {events : List Event}
    (horder : Transition.StepsMeet step (fun driver event => driver.anchorsInOrder anchorOf event)
      (new cfg l1 l2) events)
    (hheaders : ∀ event ∈ events, HonestHeaders anchorOf event)
    (hrun : Transition.run step (new cfg l1 l2) events = some driver) :
    AnchorsAscend anchorOf driver.log := by
  have hinitial : (new cfg l1 l2).AnchorsKnown anchorOf := by
    constructor
    · intro block hblock
      cases hblock
    · intro entry hentry
      cases hentry
  have hfinal : driver.AnchorsKnown anchorOf := Transition.invariant_run
    (fun _ _ _ hinv hmeet hstep => hinv.step hmeet.1 hmeet.2 hstep) hinitial
    (horder.and (Transition.stepsMeet_of_forall fun event hevent _ => hheaders event hevent)) hrun
  exact hfinal.ascend

/-- Block 1 of the operator on this anchor. -/
def ownBlock (anchorId : Nat) : Block := l2BlockOn anchorId 1 38400 1

/-- Somebody else's block 2 on this anchor. -/
def foreignBlock (anchorId : Nat) : Block := l2BlockOn anchorId 2 38414 2

/-- The driver adopts block 1 of the operator, `onL2Block` handles it and the blocks of others, and
an L2 tick builds a block of this size on the last one. -/
def buildOn (anchorId : Nat) (others : List Block) (size : Nat) : List Event :=
  startup (answersWith 38412 104 1 1 anchorId (ownBlock anchorId)) ++
    (ownBlock anchorId :: others).map (fun block =>
      .handle (.l2Block block ⟨some 0, fun number => some (l1Header number)⟩)) ++
    [.handle (.l2SlotTick 38416
      { tickReads (others.getLastD (ownBlock anchorId)).header with estimate := fun _ => size })]

/-- The anchor id of the one of these blocks with a header. -/
def anchorAmong (blocks : List Block) (header : Header) : Option Nat :=
  (blocks.find? fun block => block.header = header).bind Block.anchorBlockId

/-- The headers in these runs are honest. -/
theorem honestHeaders_buildOn {anchorId size : Nat} {others : List Block}
    (hheaders : ∀ block ∈ ownBlock anchorId :: others,
      anchorOf block.header = block.anchorBlockId) :
    ∀ event ∈ buildOn anchorId others size, HonestHeaders anchorOf event := by
  have hhonest : L1Client.Honest fun number => some (l1Header number) := by
    intro number header hheader
    cases hheader
    rfl
  intro event hevent
  rcases List.mem_append.mp hevent with hevent | htick
  · rcases List.mem_append.mp hevent with hstart | hblock
    · simp only [startup, List.mem_cons, List.not_mem_nil, or_false, or_self] at hstart
      rw [hstart]
      exact hhonest
    · obtain ⟨block, hmem, rfl⟩ := List.mem_map.mp hblock
      exact ⟨hhonest, hheaders block hmem, fun _ _ => rfl⟩
  · rw [List.mem_singleton.mp htick]
    trivial

/-- A block that does not fit is triggered on anchor 102 of its parent, which somebody else
built. -/
theorem ascends_on_foreign_anchor :
    ∃ driver, Transition.run step (startAt 38412 1) (buildOn 100 [foreignBlock 102] 1000000) =
        some driver ∧
      triggeredAnchorIds driver.log = [102] ∧
      AnchorsAscend (anchorAmong [ownBlock 100, foreignBlock 102]) driver.log := by
  obtain ⟨driver, hrun, htriggered⟩ : ∃ driver,
      Transition.run step (startAt 38412 1) (buildOn 100 [foreignBlock 102] 1000000) =
          some driver ∧
        triggeredAnchorIds driver.log = [102] :=
    Transition.exists_run (by decide +kernel)
  exact ⟨driver, hrun, htriggered, anchors_ascend (by decide +kernel)
    (honestHeaders_buildOn (by decide)) hrun⟩

/-- The cached anchor is raised to 102 for a parent of somebody else, but the next block fits and is
triggered on anchor 100 of the outstanding batch. -/
theorem descends_below_foreign_parent :
    ∃ driver, Transition.run step (startAt 38412 1) (buildOn 100 [foreignBlock 102] 1) =
        some driver ∧
      (∀ event ∈ buildOn 100 [foreignBlock 102] 1,
        HonestHeaders (anchorAmong [ownBlock 100, foreignBlock 102]) event) ∧
      driver.l1.anchor.number = 102 ∧ triggeredAnchorIds driver.log = [100] ∧
      driver.hasHandled (foreignBlock 102).header = true ∧
      ¬ AnchorsAscend (anchorAmong [ownBlock 100, foreignBlock 102]) driver.log := by
  obtain ⟨driver, hrun, hdescends⟩ : ∃ driver,
      Transition.run step (startAt 38412 1) (buildOn 100 [foreignBlock 102] 1) = some driver ∧
        driver.l1.anchor.number = 102 ∧ triggeredAnchorIds driver.log = [100] ∧
        driver.hasHandled (foreignBlock 102).header = true ∧
        ¬ AnchorsAscend (anchorAmong [ownBlock 100, foreignBlock 102]) driver.log :=
    Transition.exists_run (by decide +kernel)
  exact ⟨driver, hrun, honestHeaders_buildOn (by decide), hdescends⟩

/-- The driver adopts a block of the operator on anchor 102, but the cached anchor stays 100, and
the next block does not fit and is triggered on it. -/
theorem descends_below_own_parent :
    ∃ driver, Transition.run step (startAt 38412 1) (buildOn 102 [] 1000000) = some driver ∧
      driver.l1.anchor.number = 100 ∧ triggeredAnchorIds driver.log = [100] ∧
      driver.hasHandled (ownBlock 102).header = true ∧
      ¬ AnchorsAscend (anchorAmong [ownBlock 102]) driver.log :=
  Transition.exists_run (by decide +kernel)

end Driver

end Mk1
