import Mk1.Driver.EventLoop.AnchorConsistency
import Mk1.Driver.EventLoop.Batches
import Mk1.Driver.SoftBlocks.Accounting

/-!
# Where submitted blocks come from

The driver never proposes a block that it has made up. Whatever the clients
answer and however the steps interleave, every block of a batch that is
submitted has the number, the transactions and the coinbase of a block that an
event of the run delivered: one that the builder got for a payload, or one that
was downloaded for a sync or for the blocks missing before a new one.
-/

namespace Mk1

/-- The blocks that an answer to a download delivers. -/
def DownloadEvent.delivered : DownloadEvent → List Block
  | .block (some l2Block) => [l2Block]
  | .block none | .anchor _ _ => []

namespace BlockDownloadTask

/-- All blocks of the task come from a source, those that are anchored and those that wait. -/
structure ComesFrom (source : Block → Prop) (task : BlockDownloadTask) : Prop where
  anchored : ∀ anchored ∈ task.out, source anchored.block
  waiting : ∀ number, ∀ block ∈ task.anchorCache.waitingFor number, source block

variable {source : Block → Prop} {task : BlockDownloadTask}

/-- There are no blocks at first. -/
theorem comesFrom_new (range : RangeInclusive) : (new range).ComesFrom source where
  anchored := by simp [new]
  waiting := by simp [new, AnchorCache.waitingFor]

/-- The blocks that wait under an updated number, and under all others. -/
theorem mem_waitingFor_update {cache : AnchorCache} {number other : Nat} {state : AnchorState}
    {block : Block} (h : block ∈ AnchorCache.waitingFor
      (Function.update cache number (some state)) other) :
    (∃ blocks, state = .pending blocks ∧ block ∈ blocks) ∨ block ∈ cache.waitingFor other := by
  unfold AnchorCache.waitingFor at h ⊢
  by_cases heq : other = number
  · rw [heq, Function.update_self] at h
    cases state with
    | pending blocks => exact .inl ⟨blocks, rfl, h⟩
    | available anchor => cases h
  · rw [Function.update_of_ne heq] at h
    exact .inr h

/-- A header that arrives anchors blocks that have waited. -/
theorem ComesFrom.onAnchor (h : task.ComesFrom source) (anchor : Header) :
    (task.onAnchor anchor).ComesFrom source := by
  unfold BlockDownloadTask.onAnchor
  obtain ⟨blocks, hpending, hinsert⟩ | hinsert := insertAnchor_cases task.anchorCache anchor
  · simp only [hinsert]
    constructor
    · intro anchored hanchored
      rcases List.mem_append.mp hanchored with hold | hnew
      · exact h.anchored anchored hold
      · obtain ⟨block, hblock, rfl⟩ := List.mem_map.mp hnew
        refine h.waiting anchor.number block ?_
        unfold AnchorCache.waitingFor
        rw [hpending]
        exact hblock
    · intro number block hblock
      obtain ⟨blocks, hstate, -⟩ | hold := mem_waitingFor_update hblock
      · cases hstate
      · exact h.waiting number block hold
  · simp only [hinsert]
    exact ⟨by simpa using h.anchored, h.waiting⟩

/-- A block of the source is anchored or waits. -/
theorem ComesFrom.onBlock (h : task.ComesFrom source) {block : Block} (hblock : source block)
    (anchorId : Nat) : (task.onBlock block anchorId).ComesFrom source := by
  -- a block that waits stands behind those that wait already
  have hpending : (∀ anchor, task.anchorCache anchorId ≠ some (.available anchor)) →
      ∀ number, ∀ other ∈ (task.anchorCache.insertPending anchorId block).waitingFor number,
        source other := by
    intro hnone number other hother
    rw [AnchorCache.insertPending_eq block hnone] at hother
    obtain ⟨blocks, hstate, hmem⟩ | hold := mem_waitingFor_update hother
    · cases hstate
      rcases List.mem_append.mp hmem with hold | hnew
      · exact h.waiting anchorId other hold
      · rw [List.mem_singleton.mp hnew]
        exact hblock
    · exact h.waiting number other hold
  unfold BlockDownloadTask.onBlock
  split
  · refine ⟨fun anchored hanchored => ?_, h.waiting⟩
    rcases List.mem_append.mp hanchored with hold | hnew
    · exact h.anchored anchored hold
    · rw [List.mem_singleton.mp hnew]
      exact hblock
  · next hstate => exact ⟨h.anchored, hpending (by simp [hstate])⟩
  · next hstate => exact ⟨h.anchored, hpending (by simp [hstate])⟩

/-- A poll whose blocks come from a source. -/
def PollFrom (source : Block → Prop) : DownloadPoll → Prop
  | .pending task => task.ComesFrom source
  | .ready result => ∀ blocks, result = some blocks → ∀ anchored ∈ blocks, source anchored.block

/-- The check at the end of the loop returns the anchored blocks. -/
theorem ComesFrom.checkCount (h : task.ComesFrom source) : PollFrom source task.checkCount := by
  unfold BlockDownloadTask.checkCount
  split
  · rintro blocks ⟨⟩
    exact h.anchored
  · exact h

/-- An answer whose blocks come from the source. -/
theorem ComesFrom.progress (h : task.ComesFrom source) {event : DownloadEvent}
    (hevent : ∀ block ∈ event.delivered, source block) :
    PollFrom source (task.progress event) := by
  cases event with
  | anchor index result =>
      unfold BlockDownloadTask.progress
      dsimp only
      split
      · exact h
      · rintro blocks ⟨⟩
      · next anchor _ =>
          have hrequested : { task with
              anchorFuts := task.anchorFuts.eraseIdx index }.ComesFrom source :=
            ⟨h.anchored, h.waiting⟩
          exact (hrequested.onAnchor anchor).checkCount
  | block result =>
      unfold BlockDownloadTask.progress
      dsimp only
      split
      · exact h
      · rintro blocks ⟨⟩
      · next rest block _ =>
          split
          · rintro blocks ⟨⟩
            exact h.anchored
          · next anchorId _ =>
              have hrequested : { task with blockFuts := rest }.ComesFrom source :=
                ⟨h.anchored, h.waiting⟩
              exact (hrequested.onBlock (hevent block (by simp [DownloadEvent.delivered]))
                anchorId).checkCount

/-- All blocks that are returned come from the source, if those of the answers do. -/
theorem ComesFrom.await (h : task.ComesFrom source) {events : List DownloadEvent}
    (hevents : ∀ event ∈ events, ∀ block ∈ event.delivered, source block)
    {blocks : List AnchoredBlock} (hawait : task.await events = some blocks) :
    ∀ anchored ∈ blocks, source anchored.block := by
  induction events generalizing task with
  | nil => cases hawait
  | cons event rest ih =>
      have hfrom := h.progress (hevents event List.mem_cons_self)
      unfold BlockDownloadTask.await at hawait
      cases hpoll : task.progress event with
      | ready result =>
          rw [hpoll] at hawait hfrom
          exact hfrom blocks hawait
      | pending next =>
          rw [hpoll] at hawait hfrom
          exact ih hfrom (fun other hother => hevents other (List.mem_cons_of_mem _ hother)) hawait

end BlockDownloadTask

/-- A block that is downloaded is one of the blocks that arrived. -/
theorem delivered_of_download {events : List DownloadEvent} {range : RangeInclusive}
    {soft : ContiguousAnchoredBlocks} (h : download events range = some soft)
    {anchored : AnchoredBlock} (hanchored : anchored ∈ soft.blocks) :
    anchored.block ∈ events.flatMap DownloadEvent.delivered := by
  obtain ⟨out, hrun, hsoft⟩ := download_eq_some.mp h
  have hmem := ContiguousAnchoredBlocks.mem_new hsoft anchored hanchored
  have hnew : (BlockDownloadTask.new range).ComesFrom
      fun block => block ∈ events.flatMap DownloadEvent.delivered :=
    BlockDownloadTask.comesFrom_new range
  have hcheck := hnew.checkCount
  unfold BlockDownloadTask.run at hrun
  cases hpoll : (BlockDownloadTask.new range).checkCount with
  | ready result =>
      rw [hpoll] at hrun hcheck
      exact hcheck out hrun anchored hmem
  | pending next =>
      rw [hpoll] at hrun hcheck
      exact BlockDownloadTask.ComesFrom.await hcheck (fun event hevent block hblock =>
        List.mem_flatMap.mpr ⟨event, hevent, hblock⟩) hrun anchored hmem

/-! ## The blocks of a plan -/

/-- The contents of the blocks that the answers to a download deliver. -/
def deliveredContents (events : List DownloadEvent) : List (Nat × List TxEnvelope × Address) :=
  (events.flatMap DownloadEvent.delivered).map fun block =>
    (PreconfirmedBlock.fromBlock block).content

/-- All blocks of a batch have contents of a source. -/
def Batch.ComesFrom (source : Nat × List TxEnvelope × Address → Prop) (batch : Batch) : Prop :=
  ∀ block ∈ batch.blocks, source block.content

/-- All blocks of a plan have contents of a source. -/
def SyncPlan.ComesFrom (source : Nat × List TxEnvelope × Address → Prop) (plan : SyncPlan) :
    Prop :=
  ∀ batch ∈ plan.batches.batches, batch.ComesFrom source

variable {source : Nat × List TxEnvelope × Address → Prop}

/-- A batch with fewer blocks comes from the same source. -/
theorem Batch.ComesFrom.mono {batch smaller : Batch} (h : batch.ComesFrom source)
    (hblocks : ∀ block ∈ smaller.blocks, block ∈ batch.blocks) : smaller.ComesFrom source :=
  fun block hblock => h block (hblocks block hblock)

/-- A batch without blocks comes from anywhere. -/
theorem Batch.comesFrom_of_empty {batch : Batch} (h : batch.blocks = []) :
    batch.ComesFrom source := by
  intro block hblock
  rw [h] at hblock
  cases hblock

/-- The downloaded blocks of a sync have contents that were delivered. -/
theorem content_of_soft {events : List DownloadEvent} {range : RangeInclusive}
    {soft : ContiguousAnchoredBlocks} (h : download events range = some soft)
    (hevents : ∀ content ∈ deliveredContents events, source content)
    {block : PreconfirmedBlock} (hblock : block ∈ soft.intoPreconfirmed) :
    source block.content := by
  obtain ⟨anchored, hanchored, rfl⟩ := List.mem_map.mp hblock
  exact hevents _ (List.mem_map_of_mem (delivered_of_download h hanchored))

/-- The pipeline keeps the contents of the soft blocks. -/
theorem content_of_createBatchMap {input : PipelineInput} {soft : ContiguousAnchoredBlocks}
    {map : BatchMap .retimestamped} (h : Mk1.createBatchMap input soft = .ok map) {batch : Batch}
    (hbatch : batch ∈ map.intoVec.batches) {block : PreconfirmedBlock}
    (hblock : block ∈ batch.blocks) :
    ∃ other ∈ soft.intoPreconfirmed, other.content = block.content := by
  obtain ⟨initial, anchored, -, hgrouped, hanchored, hmap, -⟩ := createBatchMap_cases input soft
  obtain rfl : anchored.retimestamp input.minTs input.maxTs = map :=
    Except.ok.inj (hmap.symm.trans h)
  have hperm := (reanchored_blocks hgrouped hanchored).1.map PreconfirmedBlock.content
  have hcontent : block.content ∈ (blocksOf (anchored.retimestamp input.minTs
      input.maxTs).intoVec.batches).map PreconfirmedBlock.content :=
    List.mem_map_of_mem (mem_blocksOf.mpr ⟨batch, hbatch, hblock⟩)
  rw [BatchMap.content_retimestamp, hperm.mem_iff] at hcontent
  exact List.mem_map.mp hcontent

/-- The blocks of a plan have contents that were delivered to the sync. -/
theorem Syncer.comesFrom_sync {cfg : RuntimeConfig} {status : DriverStatus} {reads : SyncReads}
    {plan : SyncPlan} (h : Syncer.sync cfg status reads = some plan)
    (hevents : ∀ content ∈ deliveredContents reads.download, source content) :
    plan.ComesFrom source := by
  intro batch hbatch
  obtain ⟨l1Anchor, rfl⟩ | ⟨soft, hsoft, hcases⟩ := Syncer.sync_cases h
  · obtain rfl := List.mem_singleton.mp hbatch
    exact Batch.comesFrom_of_empty rfl
  · obtain ⟨l2Head, -, hdownload⟩ := Option.bind_eq_some_iff.mp hsoft
    obtain ⟨l2HeadL1Origin, -, hdownload⟩ := Option.bind_eq_some_iff.mp hdownload
    obtain ⟨l1Anchor, hbatches, -⟩ | ⟨-, l1Anchor, hcreate⟩ := hcases
    · rw [hbatches] at hbatch
      obtain rfl := List.mem_singleton.mp hbatch
      intro block hblock
      obtain ⟨anchored, hmem, rfl⟩ := List.mem_map.mp hblock
      have hin := (List.mem_filter.mp (List.mem_of_mem_drop hmem)).1
      exact content_of_soft hdownload hevents (List.mem_map_of_mem hin)
    · obtain ⟨-, -, -, -, ⟨hbatches, -⟩ | ⟨input, map, hmap, -, hbatches, -⟩⟩ :=
        Syncer.createBatches_cases hcreate
      · rw [hbatches] at hbatch
        cases hbatch
      · rw [hbatches] at hbatch
        intro block hblock
        obtain ⟨other, hother, hsame⟩ := content_of_createBatchMap hmap hbatch hblock
        rw [← hsame]
        exact content_of_soft hdownload hevents hother

namespace Driver

/-- The contents of the blocks that an event delivers: the block that the builder gets for its
payload, and the blocks of the downloads. -/
def Event.delivered : Event → List (Nat × List TxEnvelope × Address)
  | .background (.builder (.finalized finalization newBlock)) =>
      [(finalizeBlock finalization.anchorBlock finalization.payload
        newBlock).preconfirmedBlock.content]
  | .handle (.blockProduced reads) => deliveredContents reads.download
  | .resume answers => deliveredContents answers.sync.download
  | _ => []

/-! ## The invariant -/

/-- Everything that can still be submitted, and everything that was, has contents of a source: the
outstanding batch, the responses of the builder, and the plan whose blocks are finalized again. -/
structure ComesFrom (source : Nat × List TxEnvelope × Address → Prop) (driver : Driver) :
    Prop where
  outstanding : driver.outstandingBatch.ComesFrom source
  produced : ∀ finalization response,
    (finalization, response) ∈ driver.blockBuilder.blocksProduced →
      source response.preconfirmedBlock.content
  plan : ∀ plan anchor block rest,
    driver.call = some (.finalizeBatches plan anchor block rest) → plan.ComesFrom source
  submitted : ∀ req status reorgReasons, .submitted req status reorgReasons ∈ driver.log →
    req.batch.ComesFrom source

variable {source : Nat × List TxEnvelope × Address → Prop} {driver next : Driver}

/-- Nothing waits to be submitted at first. -/
theorem comesFrom_new (cfg : RuntimeConfig) (l1 : L1State) (l2 : L2State) :
    (new cfg l1 l2).ComesFrom source where
  outstanding := Batch.comesFrom_of_empty rfl
  produced := by simp [new, L2BlockBuilder.new]
  plan := by simp [new]
  submitted := by simp [new]

/-- The batches come from the source. -/
theorem ComesFrom.batches (h : driver.ComesFrom source) :
    driver.BatchesMeet (Batch.ComesFrom source) := ⟨h.outstanding, h.plan, h.submitted⟩

/-- Trimming a batch adds no blocks. -/
theorem comesFrom_keptByTrimming : Batch.KeptByTrimming (Batch.ComesFrom source) where
  empty _ h := Batch.comesFrom_of_empty h
  before _ _ h := h.mono fun _ hblock => (List.mem_filter.mp hblock).1
  after batch smaller number h hblocks := by
    refine h.mono fun block hblock => ?_
    rw [hblocks] at hblock
    exact (List.mem_filter.mp hblock).1

/-- Blocks of the source are added to the outstanding batch, and full batches are submitted. -/
theorem BatchesMeet.addBlocks (h : driver.BatchesMeet (Batch.ComesFrom source)) (anchor : Header)
    (estimates : Estimates) {blocks : List PreconfirmedBlock}
    (hblocks : ∀ block ∈ blocks, source block.content) :
    (driver.addBlocks anchor estimates blocks).BatchesMeet (Batch.ComesFrom source) := by
  have hmem : ∀ block, block ∈ driver.outstandingBatch.blocks ∨ block ∈ blocks →
      source block.content := fun block hblock =>
    hblock.elim (h.outstanding block) (hblocks block)
  obtain ⟨entries, outstandingBatch, heq, hbatch, hentries⟩ :=
    driver.addBlocks_eq anchor estimates blocks
  rw [heq]
  refine h.change (fun block hblock => hmem block (hbatch block hblock)) h.plan entries rfl ?_
  intro req status reorgReasons hentry
  obtain ⟨-, fullBatch, heq, hfull⟩ := hentries _ hentry
  cases heq
  exact fun block hblock => hmem block (hfull block hblock).1

/-! ## The steps -/

/-- A block that was produced is added after the missing blocks that were downloaded. -/
theorem ComesFrom.blockProduced (h : driver.ComesFrom source) {reads : ProducedReads}
    (hevent : ∀ content ∈ deliveredContents reads.download, source content)
    (hnext : driver.blockProduced reads = some next) :
    next.BatchesMeet (Batch.ComesFrom source) := by
  obtain ⟨⟨⟨finalization, response⟩, rest⟩, hproduced, hnext⟩ := Option.bind_eq_some_iff.mp hnext
  cases hnext
  obtain ⟨hlist, -, -⟩ := L2BlockBuilder.nextProduced_eq hproduced
  have hreleased : { driver with blockBuilder := rest.release }.BatchesMeet
      (Batch.ComesFrom source) := h.batches.change h.outstanding h.plan [] rfl (by simp)
  refine hreleased.addBlocks response.anchor reads.estimates fun block hblock => ?_
  rcases List.mem_append.mp hblock with hgap | hnew
  · unfold gapBlocks at hgap
    dsimp only at hgap
    split at hgap
    · cases hgap
    · split at hgap
      · next soft hsoft => exact content_of_soft hsoft hevent hgap
      · cases hgap
  · rw [List.mem_singleton.mp hnew]
    exact h.produced finalization response (by rw [hlist]; exact List.mem_cons_self)

/-- What events bring in comes from the source, if they deliver blocks of the source. -/
theorem ComesFrom.bringsIn (h : driver.ComesFrom source) {event : Event}
    (hevent : ∀ content ∈ event.delivered, source content) :
    driver.BringsIn (Batch.ComesFrom source) event where
  produced := by
    rintro reads next rfl hnext
    exact h.blockProduced hevent hnext
  synced := by
    rintro answers plan rfl - hsync
    exact Syncer.comesFrom_sync hsync hevent

/-- The builder has the same responses, whatever has been seen of its state. -/
theorem SameLock.blocksProduced {builder other : L2BlockBuilder} (h : SameLock builder other) :
    other.blocksProduced = builder.blocksProduced := by
  obtain ⟨state, -, rfl⟩ := h
  rfl

/-- A response of the builder was there before a step, or the step has delivered its block. -/
theorem mem_blocksProduced_step {event : Event} (hnext : driver.step event = some next)
    {finalization : Finalization} {response : BlockBuilderResponse}
    (hmem : (finalization, response) ∈ next.blockBuilder.blocksProduced) :
    (finalization, response) ∈ driver.blockBuilder.blocksProduced ∨
      response.preconfirmedBlock.content ∈ event.delivered := by
  cases event with
  | handle event =>
      obtain ⟨-, -, hnext⟩ := step_handle hnext
      obtain hsame | ⟨other, -, hbuilder⟩ | ⟨produced, rest, hproduced, hbuilder⟩ :=
        handle_blockBuilder hnext
      · exact .inl (hsame.blocksProduced ▸ hmem)
      · rw [hbuilder] at hmem
        exact .inl hmem
      · obtain ⟨hlist, -, -⟩ := L2BlockBuilder.nextProduced_eq hproduced
        rw [hbuilder] at hmem
        rw [hlist]
        exact .inl (List.mem_cons_of_mem _ hmem)
  | resume answers =>
      obtain ⟨call, -, hnext⟩ | ⟨-, part, rest, -, hnext⟩ := step_resume hnext
      · obtain ⟨hsame, -⟩ | ⟨hbuilder, -⟩ := perform_blockBuilder hnext
        · exact .inl (hsame.blocksProduced ▸ hmem)
        · rw [hbuilder] at hmem
          exact .inl hmem
      · have hsame := performPart_blockBuilder { driver with tickParts := rest } answers part
        rw [hnext] at hmem
        exact .inl (hsame.blocksProduced ▸ hmem)
  | background event =>
      cases event with
      | preconfRouterChecked isSet =>
          cases hnext
          exact .inl hmem
      | builder event =>
          obtain ⟨blockBuilder, hbuilder, hnext⟩ := Option.bind_eq_some_iff.mp hnext
          cases hnext
          cases event with
          | finalizationFailed failed =>
              obtain ⟨-, -, -, hproduced⟩ := L2BlockBuilder.progress_finalizationFailed hbuilder
              exact .inl (hproduced ▸ hmem)
          | finalized finalized newBlock =>
              obtain ⟨-, -, -, hproduced⟩ := L2BlockBuilder.progress_finalized hbuilder
              dsimp only at hmem
              rw [hproduced] at hmem
              rcases List.mem_append.mp hmem with hold | hnew
              · exact .inl hold
              · cases List.mem_singleton.mp hnew
                exact .inr List.mem_cons_self

/-- Every step keeps to the source, if its event delivers blocks of the source. -/
theorem ComesFrom.step (h : driver.ComesFrom source) {event : Event}
    (hevent : ∀ content ∈ event.delivered, source content)
    (hnext : driver.step event = some next) : next.ComesFrom source := by
  have hbatches := h.batches.step comesFrom_keptByTrimming (h.bringsIn hevent) hnext
  refine ⟨hbatches.outstanding, fun finalization response hmem => ?_, hbatches.plan,
    hbatches.submitted⟩
  obtain hold | hnew := mem_blocksProduced_step hnext hmem
  · exact h.produced finalization response hold
  · exact hevent _ hnew

/-- Everything comes from the events of a run. -/
theorem comesFrom_of_run {cfg : RuntimeConfig} {l1 : L1State} {l2 : L2State} {events : List Event}
    (hrun : Transition.run step (new cfg l1 l2) events = some driver) :
    driver.ComesFrom fun content => ∃ event ∈ events, content ∈ event.delivered :=
  Transition.invariant_run_of_forall
    (fun _ _ _ hinv hevent hstep => ComesFrom.step hinv hevent hstep) (comesFrom_new cfg l1 l2)
    (fun event hevent _ hcontent => ⟨event, hevent, hcontent⟩) hrun

/-- In every run from the start of the driver, every block of every batch that is submitted has the
number, the transactions and the coinbase of a block that an event of the run delivered. -/
theorem submits_delivered_blocks {cfg : RuntimeConfig} {l1 : L1State} {l2 : L2State}
    {events : List Event} (hrun : Transition.run step (new cfg l1 l2) events = some driver)
    {req : BatchSubmissionRequest} {status : DriverStatus} {reorgReasons : List ReorgReason}
    (hsubmitted : .submitted req status reorgReasons ∈ driver.log)
    {block : PreconfirmedBlock} (hblock : block ∈ req.batch.blocks) :
    ∃ event ∈ events, block.content ∈ event.delivered :=
  (comesFrom_of_run hrun).submitted req status reorgReasons hsubmitted block hblock

/-- The batch of blocks 1 and 2. -/
def batchOn48 : Batch :=
  .fromBlocksUnchecked (l1Header 48) (defaultConfig 1).batchSettings
    [.fromBlock headOn48, block2]

/-- Block 2 is built, added to block 1, and submitted with it at the next L1 tick. -/
theorem batchOn48_submitted : ∃ driver,
    Transition.run step (startAt 38412 1) (triggerOn48 ++ finishBlock2 ++ nextL1Slot) =
      some driver ∧ .submitted ⟨batchOn48, 3208⟩ .active [] ∈ driver.log :=
  Transition.exists_run (by decide +kernel)

/-- Block 2 of the submitted batch was delivered when it was finalized. -/
theorem submits_delivered_blocks_block2 :
    ∃ driver req status reorgReasons,
      Transition.run step (startAt 38412 1) (triggerOn48 ++ finishBlock2 ++ nextL1Slot) =
        some driver ∧
      .submitted req status reorgReasons ∈ driver.log ∧ block2 ∈ req.batch.blocks ∧
      ∃ event ∈ triggerOn48 ++ finishBlock2 ++ nextL1Slot, block2.content ∈ event.delivered := by
  obtain ⟨driver, hrun, hsubmitted⟩ := batchOn48_submitted
  have hblock : block2 ∈ batchOn48.blocks := by decide
  exact ⟨driver, _, _, _, hrun, hsubmitted, hblock,
    submits_delivered_blocks hrun hsubmitted hblock⟩

end Driver

end Mk1
