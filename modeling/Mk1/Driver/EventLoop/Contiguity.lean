import Mk1.Driver.EventLoop.Batches
import Mk1.Driver.EventLoop.OutstandingBatch
import Mk1.Driver.EventLoop.Provenance
import Mk1.Primitives.BatchMap.Contiguity

/-!
# The block numbers of submitted batches

A proposal does not say which numbers its blocks have: they are counted on from
the last block that was proposed. So a batch must hold consecutive blocks.
`submits_consecutive_blocks` says that every batch that is submitted in a run
does, wherever it comes from, if the gaps in front of produced blocks are filled
and the anchors of soft blocks never decrease.
-/

namespace Mk1

/-- A batch of consecutive blocks, whose numbers are `u64`s. -/
structure Batch.Numbered (batch : Batch) : Prop where
  consecutive : Consecutive PreconfirmedBlock.number batch.blocks
  bounded : ∀ block ∈ batch.blocks, block.number ≤ u64Max

/-- Soft blocks whose anchors never decrease, and whose numbers are `u64`s. -/
structure ContiguousAnchoredBlocks.Numbered (soft : ContiguousAnchoredBlocks) : Prop where
  anchors : soft.AnchorsAscend
  bounded : ∀ anchored ∈ soft.blocks, anchored.number ≤ u64Max

instance (soft : ContiguousAnchoredBlocks) : Decidable soft.AnchorsAscend :=
  inferInstanceAs (Decidable (List.Pairwise _ _))

instance (soft : ContiguousAnchoredBlocks) : Decidable soft.Numbered :=
  decidable_of_iff (soft.AnchorsAscend ∧ ∀ anchored ∈ soft.blocks, anchored.number ≤ u64Max)
    ⟨fun h => ⟨h.1, h.2⟩, fun h => ⟨h.anchors, h.bounded⟩⟩

/-- A segment of a numbered batch is numbered. -/
theorem Batch.Numbered.of_infix {batch segment : Batch} (h : batch.Numbered)
    (hsegment : segment.blocks <:+: batch.blocks) : segment.Numbered where
  consecutive := h.consecutive.of_infix hsegment
  bounded := fun block hblock => h.bounded block (hsegment.mem hblock)

/-- Trimming a numbered batch leaves a segment of it. -/
theorem Batch.numbered_keptByTrimming : Batch.KeptByTrimming Batch.Numbered where
  empty batch h := by
    constructor
    · rw [h]
      exact Consecutive.nil
    · simp [h]
  before batch number h := h.of_infix (h.consecutive.filter_lt_prefix number).isInfix
  after batch smaller number h hblocks := by
    refine h.of_infix ?_
    rw [hblocks]
    exact (h.consecutive.filter_gt_suffix number).isInfix

/-- The batches that hold consecutive blocks one after the other are numbered. -/
theorem Batch.numbered_addBlocks {batch : Batch} (anchor : Header) (estimates : Estimates)
    {blocks : List PreconfirmedBlock}
    (h : Consecutive PreconfirmedBlock.number (batch.blocks ++ blocks))
    (hbounded : ∀ block ∈ batch.blocks ++ blocks, block.number ≤ u64Max) :
    ∀ other ∈ (batch.addBlocks anchor estimates blocks).1 ++
      [(batch.addBlocks anchor estimates blocks).2], other.Numbered := by
  obtain ⟨first, others, hsplit, hflatten, -, -⟩ :=
    addBlocks_spec batch anchor estimates h.pairwise_lt
  rw [hsplit]
  intro other hother
  have hsegment : other.blocks <:+: batch.blocks ++ blocks := by
    rw [← hflatten]
    exact List.infix_of_mem_flatten (List.mem_map_of_mem hother)
  exact ⟨h.of_infix hsegment, fun block hblock => hbounded block (hsegment.mem hblock)⟩

/-! ## The batches of a sync -/

/-- The batch of the blocks on the highest anchor is numbered. -/
theorem numbered_intoOutstanding {soft : ContiguousAnchoredBlocks} (h : soft.Numbered)
    (safeAnchor : Header) (settings : BatchSettings) :
    (soft.intoOutstanding safeAnchor settings).Numbered := by
  have hsegment : soft.outstanding safeAnchor settings.capacity <:+: soft.blocks :=
    (List.drop_suffix _ _).isInfix.trans (Consecutive.filter_key_infix h.anchors _)
  constructor
  · rw [soft.blocks_intoOutstanding]
    exact Consecutive.map_iff.mpr (Consecutive.of_infix soft.contiguous hsegment)
  · intro block hblock
    rw [soft.blocks_intoOutstanding] at hblock
    obtain ⟨anchored, hanchored, rfl⟩ := List.mem_map.mp hblock
    exact h.bounded anchored (hsegment.mem hanchored)

/-- The batches of the pipeline are numbered. -/
theorem numbered_createBatchMap {input : PipelineInput} {soft : ContiguousAnchoredBlocks}
    (h : soft.Numbered) {map : BatchMap .retimestamped}
    (hmap : createBatchMap input soft = .ok map) :
    ∀ batch ∈ map.intoVec.batches, batch.Numbered := by
  intro batch hbatch
  refine ⟨((contiguous_createBatchMap_iff hmap).mpr (.inr h.anchors)).within batch hbatch, ?_⟩
  intro block hblock
  obtain ⟨other, hother, hcontent⟩ := content_of_createBatchMap hmap hbatch hblock
  obtain ⟨anchored, hanchored, rfl⟩ := List.mem_map.mp hother
  have hnumber : anchored.intoPreconfirmed.number = block.number := (Prod.ext_iff.mp hcontent).1
  rw [← hnumber]
  exact h.bounded anchored hanchored

/-- A sync of numbered soft blocks plans numbered batches. -/
theorem Syncer.numbered_sync {cfg : RuntimeConfig} {status : DriverStatus} {reads : SyncReads}
    {plan : SyncPlan} (h : Syncer.sync cfg status reads = some plan)
    (hsoft : ∀ soft ∈ reads.softBlocks, soft.Numbered) :
    ∀ batch ∈ plan.batches.batches, batch.Numbered := by
  intro batch hbatch
  obtain ⟨l1Anchor, rfl⟩ | ⟨soft, hdownload, hcases⟩ := Syncer.sync_cases h
  · obtain rfl := List.mem_singleton.mp hbatch
    exact Batch.numbered_keptByTrimming.empty _ rfl
  · have hnumbered := hsoft soft hdownload
    obtain ⟨l1Anchor, hbatches, -⟩ | ⟨-, l1Anchor, hcreate⟩ := hcases
    · rw [hbatches] at hbatch
      obtain rfl := List.mem_singleton.mp hbatch
      exact numbered_intoOutstanding hnumbered l1Anchor cfg.batchSettings
    · obtain ⟨-, -, -, -, ⟨hbatches, -⟩ | ⟨input, map, hmap, -, hbatches, -⟩⟩ :=
        Syncer.createBatches_cases hcreate
      · rw [hbatches] at hbatch
        cases hbatch
      · rw [hbatches] at hbatch
        exact numbered_createBatchMap hnumbered hmap batch hbatch

namespace Driver

instance (driver : Driver) (newBlock : PreconfirmedBlock) (reads : ProducedReads) :
    Decidable (driver.GapFilled newBlock reads) :=
  inferInstanceAs (Decidable (_ → _ → ∃ soft ∈ download reads.download (driver.gap newBlock),
    soft.blocks.map AnchoredBlock.number = List.range' (driver.gap newBlock).start
      ((driver.gap newBlock).stop + 1 - (driver.gap newBlock).start)))

/-- A block that is produced has a number that is a `u64`, and the gap in front of it is filled. The
soft blocks of a sync are numbered. -/
def FillsGaps (driver : Driver) : Event → Prop
  | .handle (.blockProduced reads) => ∀ produced ∈ driver.blockBuilder.nextProduced,
      produced.1.2.preconfirmedBlock.number ≤ u64Max ∧
        driver.GapFilled produced.1.2.preconfirmedBlock reads
  | .resume answers => driver.call = some .syncBatches →
      ∀ soft ∈ answers.sync.softBlocks, soft.Numbered
  | _ => True

instance (driver : Driver) (event : Event) : Decidable (driver.FillsGaps event) :=
  match event with
  | .handle event =>
      match event with
      | .blockProduced reads => inferInstanceAs (Decidable
          (∀ produced ∈ driver.blockBuilder.nextProduced,
            produced.1.2.preconfirmedBlock.number ≤ u64Max ∧
              driver.GapFilled produced.1.2.preconfirmedBlock reads))
      | .l1SlotTick _ _ | .l2SlotTick _ _ | .taikoPreconfEvent _ _ | .l1Block _ _ | .l2Block _ _
      | .operatorChanged | .batchProposalErr _ => isTrue trivial
  | .resume answers => inferInstanceAs (Decidable (driver.call = some .syncBatches →
      ∀ soft ∈ answers.sync.softBlocks, soft.Numbered))
  | .background _ => isTrue trivial

variable {driver next : Driver}

/-- What is submitted with full batches is one of them. -/
theorem batch_mem_of_submissions {fulls : List Batch} {req : BatchSubmissionRequest}
    {status : DriverStatus} {reorgReasons : List ReorgReason}
    (h : .submitted req status reorgReasons ∈ driver.submissions fulls) : req.batch ∈ fulls := by
  unfold submissions at h
  split at h
  · obtain ⟨full, hfull, heq⟩ := List.mem_map.mp (List.mem_reverse.mp h)
    cases heq
    exact (List.mem_filter.mp hfull).1
  · cases h

/-- A produced block is added to numbered batches, after the blocks of the gap. -/
theorem BatchesMeet.onProducedBlock (h : driver.BatchesMeet Batch.Numbered)
    {newBlock : PreconfirmedBlock} {anchor : Header} {reads : ProducedReads}
    (hnumber : newBlock.number ≤ u64Max) (hfilled : driver.GapFilled newBlock reads) :
    (driver.onProducedBlock newBlock anchor reads).BatchesMeet Batch.Numbered := by
  have hcontiguous : driver.Contiguous := ⟨h.outstanding.consecutive, h.outstanding.bounded⟩
  obtain ⟨first, rest, hblocks, hcontinued⟩ := hcontiguous.continued hnumber hfilled
  have hlast : ((driver.outstandingBatch.retainBlocksBefore first.number).blocks ++
      first :: rest).getLast? = some newBlock := by
    rw [← hblocks, ← List.append_assoc]
    exact List.getLast?_concat
  have hall := Batch.numbered_addBlocks anchor reads.estimates hcontinued fun block hblock =>
    (hcontinued.le_last hlast hblock).trans hnumber
  rw [Batch.addBlocks_retain, ← hblocks] at hall
  obtain ⟨hfulls, houtstanding⟩ := List.forall_mem_append.mp hall
  rw [onProducedBlock_eq_batch]
  refine h.change (houtstanding _ (List.mem_singleton_self _)) h.plan _ rfl ?_
  intro req status reorgReasons hmem
  exact hfulls req.batch (batch_mem_of_submissions hmem)

/-- What events bring in is numbered, if gaps are filled. -/
theorem BatchesMeet.bringsIn (h : driver.BatchesMeet Batch.Numbered) {event : Event}
    (hfills : driver.FillsGaps event) : driver.BringsIn Batch.Numbered event where
  produced := by
    rintro reads next rfl hnext
    obtain ⟨⟨⟨finalization, response⟩, rest⟩, hproduced, hnext⟩ := Option.bind_eq_some_iff.mp hnext
    cases hnext
    have hreleased : { driver with blockBuilder := rest.release }.BatchesMeet Batch.Numbered :=
      h.change h.outstanding h.plan [] rfl (by simp)
    obtain ⟨hnumber, hfilled⟩ := hfills _ hproduced
    exact hreleased.onProducedBlock hnumber hfilled
  synced := by
    rintro answers plan rfl hcall hsync
    exact Syncer.numbered_sync hsync (hfills hcall)

/-- All batches of a run in which gaps are filled are numbered. -/
theorem numbered_of_run {cfg : RuntimeConfig} {l1 : L1State} {l2 : L2State} {events : List Event}
    (hfills : Transition.StepsMeet step FillsGaps (new cfg l1 l2) events)
    (hrun : Transition.run step (new cfg l1 l2) events = some driver) :
    driver.BatchesMeet Batch.Numbered := by
  have hstep : ∀ (state : Driver) (event : Event) (next : Driver),
      state.BatchesMeet Batch.Numbered → state.FillsGaps event → state.step event = some next →
        next.BatchesMeet Batch.Numbered := fun state event next hinv hfills hnext =>
    hinv.step Batch.numbered_keptByTrimming (hinv.bringsIn hfills) hnext
  exact Transition.invariant_run hstep (batchesMeet_new Batch.numbered_keptByTrimming cfg l1 l2)
    hfills hrun

/-- In every run from the start of the driver in which gaps are filled and the anchors of soft
blocks never decrease, the blocks of every batch that is submitted are consecutive. -/
theorem submits_consecutive_blocks {cfg : RuntimeConfig} {l1 : L1State} {l2 : L2State}
    {events : List Event} (hfills : Transition.StepsMeet step FillsGaps (new cfg l1 l2) events)
    (hrun : Transition.run step (new cfg l1 l2) events = some driver)
    {req : BatchSubmissionRequest} {status : DriverStatus} {reorgReasons : List ReorgReason}
    (hsubmitted : .submitted req status reorgReasons ∈ driver.log) :
    Consecutive PreconfirmedBlock.number req.batch.blocks :=
  ((numbered_of_run hfills hrun).submitted req status reorgReasons hsubmitted).consecutive

/-- Blocks 1 and 2 are submitted in one batch. -/
theorem submits_consecutive_blocks_block2 :
    ∃ driver req status reorgReasons,
      Transition.run step (startAt 38412 1) (triggerOn48 ++ finishBlock2 ++ nextL1Slot) =
        some driver ∧
      .submitted req status reorgReasons ∈ driver.log ∧ req.batch = batchOn48 ∧
      Consecutive PreconfirmedBlock.number req.batch.blocks := by
  obtain ⟨driver, hrun, hsubmitted⟩ := batchOn48_submitted
  exact ⟨driver, _, _, _, hrun, hsubmitted, rfl,
    submits_consecutive_blocks (by decide +kernel) hrun hsubmitted⟩

end Driver

end Mk1
