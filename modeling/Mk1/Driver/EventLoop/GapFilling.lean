import Mk1.Driver.EventLoop.OutstandingBatch
import Mk1.Driver.SoftBlocks.Partial

/-!
# Filling gaps in the outstanding batch

The blocks of a gap are put into the outstanding batch without their anchors, and
whoever has built them. `gap_filling_iff` says when they fit to the batches that
hold them: when each of them has been built on the anchor of the outstanding
batch, with its coinbase.
-/

namespace Mk1

namespace Batch

/-- What happens to each of the batches when blocks are added: it keeps the coinbase, its anchor is
the old one or the new one, and its blocks were there or are added. -/
theorem addBlocks_batches (batch : Batch) (anchor : Header) (estimates : Estimates)
    (blocks : List PreconfirmedBlock) :
    ∀ other ∈ (batch.addBlocks anchor estimates blocks).1 ++
        [(batch.addBlocks anchor estimates blocks).2],
      other.coinbase = batch.coinbase ∧
        (other.anchorBlock = batch.anchorBlock ∨ other.anchorBlock = anchor) ∧
        ∀ block ∈ other.blocks, block ∈ batch.blocks ∨ block ∈ blocks := by
  induction blocks generalizing batch estimates with
  | nil =>
      refine List.forall_mem_singleton.mpr ?_
      exact ⟨rfl, .inl rfl, fun block hblock => .inl hblock⟩
  | cons block rest ih =>
      have hretained : ∀ other ∈ (batch.retainBlocksBefore block.number).blocks,
          other ∈ batch.blocks := fun other hother => (List.mem_filter.mp hother).1
      unfold addBlocks addBlockAndResetIfFull
      dsimp only
      cases (batch.retainBlocksBefore block.number).doesntFit (estimates 0) block.txList with
      | none =>
          intro other hother
          obtain ⟨hcoinbase, hanchor, hblocks⟩ := ih _ estimates.tail other hother
          refine ⟨hcoinbase, hanchor, fun added hadded => ?_⟩
          rcases hblocks added hadded with hpushed | hrest
          · rcases List.mem_append.mp hpushed with hold | hnew
            · exact .inl (hretained added hold)
            · exact .inr (List.mem_singleton.mp hnew ▸ List.mem_cons_self)
          · exact .inr (List.mem_cons_of_mem _ hrest)
      | some reason =>
          refine List.forall_mem_cons.mpr ⟨⟨rfl, .inl rfl, fun added hadded =>
            .inl (hretained added hadded)⟩, fun other hother => ?_⟩
          obtain ⟨hcoinbase, hanchor, hblocks⟩ := ih _ estimates.tail other hother
          refine ⟨hcoinbase, .inr (hanchor.elim id id), fun added hadded => ?_⟩
          rcases hblocks added hadded with hpushed | hrest
          · exact .inr (List.mem_singleton.mp hpushed ▸ List.mem_cons_self)
          · exact .inr (List.mem_cons_of_mem _ hrest)

/-- A block that comes before all that are added stays in the batch, or is handed out with it. -/
theorem mem_addBlocks {batch : Batch} {anchor : Header} {estimates : Estimates}
    {blocks : List PreconfirmedBlock} {block : PreconfirmedBlock} (hmem : block ∈ batch.blocks)
    (hbefore : ∀ added ∈ blocks, block.number < added.number) :
    ∃ other ∈ (batch.addBlocks anchor estimates blocks).1 ++
      [(batch.addBlocks anchor estimates blocks).2], block ∈ other.blocks := by
  induction blocks generalizing batch estimates with
  | nil => exact ⟨batch, List.mem_singleton_self batch, hmem⟩
  | cons first rest ih =>
      obtain ⟨hfirst, hrest⟩ := List.forall_mem_cons.mp hbefore
      have hretained : block ∈ (batch.retainBlocksBefore first.number).blocks :=
        List.mem_filter.mpr ⟨hmem, decide_eq_true hfirst⟩
      unfold addBlocks addBlockAndResetIfFull
      dsimp only
      cases (batch.retainBlocksBefore first.number).doesntFit (estimates 0) first.txList with
      | none => exact ih (List.mem_append_left _ hretained) hrest
      | some reason => exact ⟨_, List.mem_cons_self, hretained⟩

/-- Blocks that are added in ascending order are all there in the end. -/
theorem mem_addBlocks_of_pairwise (batch : Batch) (anchor : Header) (estimates : Estimates)
    {blocks : List PreconfirmedBlock}
    (h : blocks.Pairwise fun first second => first.number < second.number) :
    ∀ block ∈ blocks, ∃ other ∈ (batch.addBlocks anchor estimates blocks).1 ++
      [(batch.addBlocks anchor estimates blocks).2], block ∈ other.blocks := by
  induction blocks generalizing batch estimates with
  | nil => exact fun _ hblock => absurd hblock List.not_mem_nil
  | cons first rest ih =>
      obtain ⟨hfirst, hrest⟩ := List.pairwise_cons.mp h
      unfold addBlocks addBlockAndResetIfFull
      dsimp only
      cases (batch.retainBlocksBefore first.number).doesntFit (estimates 0) first.txList with
      | none =>
          refine List.forall_mem_cons.mpr ⟨?_, ih _ _ hrest⟩
          exact mem_addBlocks (List.mem_append_right _ (List.mem_singleton_self first)) hfirst
      | some reason =>
          have hself : first ∈
              (((batch.retainBlocksBefore first.number).takeAndReset anchor).2.push first).blocks :=
            List.mem_singleton_self first
          refine List.forall_mem_cons.mpr ⟨?_, fun block hblock => ?_⟩
          · obtain ⟨other, hother, hmem⟩ := mem_addBlocks hself hfirst
            exact ⟨other, List.mem_cons_of_mem _ hother, hmem⟩
          · obtain ⟨other, hother, hmem⟩ := ih _ _ hrest block hblock
            exact ⟨other, List.mem_cons_of_mem _ hother, hmem⟩

/-- The blocks of a batch have its coinbase, and the anchors that they were built on are its
anchor. -/
def FitsBlocks (origin : PreconfirmedBlock → Nat → Prop) (batch : Batch) : Prop :=
  ∀ block ∈ batch.blocks, block.coinbase = batch.coinbase ∧
    ∀ anchorId, origin block anchorId → anchorId = batch.anchorId

end Batch

namespace Driver

/-- The blocks that are downloaded for the gap in front of a new block, with their anchors. -/
def gapDownload (driver : Driver) (newBlock : PreconfirmedBlock) (reads : ProducedReads) :
    List AnchoredBlock :=
  if driver.outstandingBatch.isEmpty || (driver.gap newBlock).isEmpty then []
  else
    match download reads.download (driver.gap newBlock) with
    | some gappedBlocks => gappedBlocks.blocks
    | none => []

/-- On which anchors the blocks were built that a produced block brings together: the blocks of the
outstanding batch on its anchor, the downloaded ones on their own. -/
inductive Origin (driver : Driver) (newBlock : PreconfirmedBlock) (anchor : Header)
    (reads : ProducedReads) : PreconfirmedBlock → Nat → Prop where
  | outstanding (block : PreconfirmedBlock) (h : block ∈ driver.outstandingBatch.blocks) :
      Origin driver newBlock anchor reads block driver.outstandingBatch.anchorId
  | downloaded (anchored : AnchoredBlock) (h : anchored ∈ driver.gapDownload newBlock reads) :
      Origin driver newBlock anchor reads anchored.intoPreconfirmed anchored.anchorId
  | produced : Origin driver newBlock anchor reads newBlock anchor.number

variable {driver : Driver} {newBlock : PreconfirmedBlock} {anchor : Header}
  {reads : ProducedReads}

/-- The anchors of downloaded blocks are dropped. -/
theorem gapBlocks_eq_map (driver : Driver) (newBlock : PreconfirmedBlock)
    (reads : ProducedReads) : driver.gapBlocks newBlock reads =
      (driver.gapDownload newBlock reads).map AnchoredBlock.intoPreconfirmed := by
  unfold gapBlocks gapDownload gap
  dsimp only
  split
  · rfl
  · cases download reads.download
        ⟨saturatingAdd driver.outstandingBatch.blocksRange.stop 1, newBlock.number - 1⟩ with
    | none => rfl
    | some soft => rfl

/-- A download fills the gap if the nodes answer what they were asked for, and every block has an
anchor transaction. -/
theorem gapFilled_of_honest (hhonest : Transition.StepsMeet BlockDownloadTask.step
      BlockDownloadTask.Honest (.new (driver.gap newBlock)) reads.download)
    (hdecodable : ∀ block, .block (some block) ∈ reads.download → block.anchorBlockId ≠ none)
    (hsome : (download reads.download (driver.gap newBlock)).isSome = true) :
    driver.GapFilled newBlock reads := by
  intro _ _
  obtain ⟨soft, hsoft⟩ := Option.isSome_iff_exists.mp hsome
  exact ⟨soft, hsoft, numbers_of_download hhonest hdecodable hsoft⟩

/-- The downloaded blocks and the new one are in ascending order, if the nodes answer what they were
asked for. -/
theorem pairwise_gapBlocks (hhonest : Transition.StepsMeet BlockDownloadTask.step
    BlockDownloadTask.Honest (.new (driver.gap newBlock)) reads.download) :
    (driver.gapBlocks newBlock reads ++ [newBlock]).Pairwise fun first second =>
      first.number < second.number := by
  rw [gapBlocks_eq_map]
  unfold gapDownload
  split
  · exact List.pairwise_singleton _ _
  · split
    · next gappedBlocks hdownload =>
        refine List.pairwise_append.mpr
          ⟨List.pairwise_map.mpr gappedBlocks.numbers_increase, List.pairwise_singleton _ _, ?_⟩
        intro block hblock last hlast
        obtain ⟨anchored, hanchored, rfl⟩ := List.mem_map.mp hblock
        obtain rfl := List.mem_singleton.mp hlast
        have hrange := number_mem_of_download hhonest hdownload anchored hanchored
        have hpos : 0 < (driver.gap last).start := by
          show 0 < min (driver.outstandingBatch.blocksRange.stop + 1) u64Max
          have hmax : 0 < u64Max := by decide
          omega
        have hle : anchored.number ≤ last.number - 1 := hrange.2
        have hge := hrange.1
        show anchored.number < last.number
        omega
    · exact List.pairwise_singleton _ _

/-- The batches after a produced block are on the anchor of the outstanding batch, if the block is
built on this anchor. -/
theorem anchorId_of_added (hanchor : anchor.number = driver.outstandingBatch.anchorId)
    (estimates : Estimates) (blocks : List PreconfirmedBlock) {batch : Batch}
    (hbatch : batch ∈ (driver.outstandingBatch.addBlocks anchor estimates blocks).1 ++
      [(driver.outstandingBatch.addBlocks anchor estimates blocks).2]) :
    batch.anchorId = driver.outstandingBatch.anchorId := by
  obtain ⟨-, heq | heq, -⟩ := Batch.addBlocks_batches _ _ _ _ batch hbatch
  · exact congrArg Header.number heq
  · exact (congrArg Header.number heq).trans hanchor

/-- After a produced block, every block of the outstanding batch and of the full batches fits to the
batch that holds it, if and only if the downloaded blocks have been built on the anchor and with the
coinbase of the outstanding batch. -/
theorem gap_filling_iff
    (hcoinbase : ∀ block ∈ driver.outstandingBatch.blocks,
      block.coinbase = driver.outstandingBatch.coinbase)
    (hanchor : anchor.number = driver.outstandingBatch.anchorId)
    (hproduced : newBlock.coinbase = driver.outstandingBatch.coinbase)
    (hhonest : Transition.StepsMeet BlockDownloadTask.step BlockDownloadTask.Honest
      (.new (driver.gap newBlock)) reads.download) :
    (∀ batch ∈ driver.fullBatches newBlock anchor reads ++
        [(driver.onProducedBlock newBlock anchor reads).outstandingBatch],
      batch.FitsBlocks (Origin driver newBlock anchor reads)) ↔
      ∀ anchored ∈ driver.gapDownload newBlock reads,
        anchored.anchorId = driver.outstandingBatch.anchorId ∧
          anchored.block.header.beneficiary = driver.outstandingBatch.coinbase := by
  have hbatches := Batch.addBlocks_batches driver.outstandingBatch anchor reads.estimates
    (driver.gapBlocks newBlock reads ++ [newBlock])
  have hplaced := Batch.mem_addBlocks_of_pairwise driver.outstandingBatch anchor reads.estimates
    (pairwise_gapBlocks hhonest)
  rw [onProducedBlock_eq_batch]
  unfold fullBatches
  constructor
  -- every downloaded block is in some batch, and all have the coinbase and anchor of the old one
  · intro hfits anchored hanchored
    obtain ⟨batch, hbatch, hmem⟩ := hplaced anchored.intoPreconfirmed
      (List.mem_append_left _ (by
        rw [gapBlocks_eq_map]
        exact List.mem_map_of_mem hanchored))
    obtain ⟨hcoinbase', hanchor'⟩ := hfits batch hbatch _ hmem
    exact ⟨(hanchor' _ (.downloaded anchored hanchored)).trans
        (anchorId_of_added hanchor _ _ hbatch),
      hcoinbase'.trans (hbatches batch hbatch).1⟩
  · intro hdownloaded batch hbatch block hblock
    rw [anchorId_of_added hanchor _ _ hbatch, (hbatches batch hbatch).1]
    constructor
    · rcases (hbatches batch hbatch).2.2 block hblock with hold | hadded
      · exact hcoinbase block hold
      · rw [gapBlocks_eq_map] at hadded
        rcases List.mem_append.mp hadded with hgap | hnew
        · obtain ⟨anchored, hanchored, rfl⟩ := List.mem_map.mp hgap
          exact (hdownloaded anchored hanchored).2
        · rw [List.mem_singleton.mp hnew]
          exact hproduced
    · intro anchorId horigin
      cases horigin with
      | outstanding h => rfl
      | downloaded anchored hanchored => exact (hdownloaded anchored hanchored).1
      | produced => exact hanchor

/-- The nodes answer with block 2 and its anchor. -/
theorem honest_block2Reads (anchorId : Nat) (coinbase : Address) :
    Transition.StepsMeet BlockDownloadTask.step BlockDownloadTask.Honest
      (.new (withBlock1.gap block3)) (block2Reads anchorId coinbase).download := by
  refine ⟨fun _ h => Option.some.inj h, fun first hfirst => ?_⟩
  obtain rfl := Option.some.inj hfirst
  exact ⟨fun _ h => Option.some.inj h, fun _ _ => trivial⟩

/-- Block 3 is produced, block 2 is downloaded from the same anchor and coinbase, and the batch of
all three fits them. -/
theorem gap_filling_iff_block3 :
    (withBlock1.gapDownload block3 (block2Reads 100 1)).map AnchoredBlock.number = [2] ∧
      (∀ anchored ∈ withBlock1.gapDownload block3 (block2Reads 100 1),
        anchored.anchorId = withBlock1.outstandingBatch.anchorId ∧
          anchored.block.header.beneficiary = withBlock1.outstandingBatch.coinbase) ∧
      (withBlock1.onProducedBlock block3 (l1Header 100)
        (block2Reads 100 1)).outstandingBatch.blocks.map PreconfirmedBlock.number = [1, 2, 3] ∧
      ∀ batch ∈ withBlock1.fullBatches block3 (l1Header 100) (block2Reads 100 1) ++
          [(withBlock1.onProducedBlock block3 (l1Header 100)
            (block2Reads 100 1)).outstandingBatch],
        batch.FitsBlocks (Origin withBlock1 block3 (l1Header 100) (block2Reads 100 1)) := by
  have hdownloaded : ∀ anchored ∈ withBlock1.gapDownload block3 (block2Reads 100 1),
      anchored.anchorId = withBlock1.outstandingBatch.anchorId ∧
        anchored.block.header.beneficiary = withBlock1.outstandingBatch.coinbase := by
    decide +kernel
  exact ⟨by decide +kernel, hdownloaded, by decide +kernel,
    (gap_filling_iff (by decide) rfl rfl (honest_block2Reads 100 1)).mpr hdownloaded⟩

/-- If another operator has built block 2 on anchor 90, it is put into the batch on anchor 100. -/
theorem foreign_block_in_gap :
    (∀ block ∈ withBlock1.outstandingBatch.blocks,
      block.coinbase = withBlock1.outstandingBatch.coinbase) ∧
    Transition.StepsMeet BlockDownloadTask.step BlockDownloadTask.Honest
      (.new (withBlock1.gap block3)) (block2Reads 90 2).download ∧
    .fromBlock (l2BlockOn 90 2 302 2) ∈
      (withBlock1.onProducedBlock block3 (l1Header 100)
        (block2Reads 90 2)).outstandingBatch.blocks ∧
    Origin withBlock1 block3 (l1Header 100) (block2Reads 90 2)
      (.fromBlock (l2BlockOn 90 2 302 2)) 90 ∧
    ¬ (withBlock1.onProducedBlock block3 (l1Header 100)
      (block2Reads 90 2)).outstandingBatch.FitsBlocks
        (Origin withBlock1 block3 (l1Header 100) (block2Reads 90 2)) := by
  have hmem : .fromBlock (l2BlockOn 90 2 302 2) ∈ (withBlock1.onProducedBlock block3
      (l1Header 100) (block2Reads 90 2)).outstandingBatch.blocks := by
    decide +kernel
  have horigin : Origin withBlock1 block3 (l1Header 100) (block2Reads 90 2)
      (.fromBlock (l2BlockOn 90 2 302 2)) 90 :=
    .downloaded ⟨l2BlockOn 90 2 302 2, l1Header 90⟩ (by decide +kernel)
  refine ⟨by decide, honest_block2Reads 90 2, hmem, horigin, fun hfits => ?_⟩
  have hanchor := (hfits _ hmem).2 90 horigin
  exact absurd hanchor (by decide +kernel)

end Driver

end Mk1
