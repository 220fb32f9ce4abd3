import Mk1.Driver.EventLoop

/-!
# The blocks of the outstanding batch

What produced blocks, new L2 heads, new information about the L1 and submissions do to
the outstanding batch. `outstanding_batch_contiguous` says that its blocks stay
consecutive, and that the full batches that it hands out join up with it.
-/

namespace Mk1

namespace Batch

/-- Add blocks one after the other: the batches that were full, and the batch that is left. -/
def addBlocks (batch : Batch) (anchor : Header) (estimates : Estimates) :
    List PreconfirmedBlock → List Batch × Batch
  | [] => ([], batch)
  | block :: rest =>
      match batch.addBlockAndResetIfFull (estimates 0) block anchor with
      | (.added _, next) => next.addBlocks anchor estimates.tail rest
      | (.full _ full, next) =>
          let (fulls, last) := next.addBlocks anchor estimates.tail rest
          (full :: fulls, last)

/-- The last block is followed directly by the first block of another batch. -/
def LeadsTo (first second : Batch) : Prop :=
  ∀ last ∈ first.blocks.getLast?, ∃ next ∈ second.blocks.head?, next.number = last.number + 1

/-- Full batches hold consecutive blocks, and each of them that has a block ends right before the
batch that follows it. -/
structure Joined (fulls : List Batch) (outstanding : Batch) : Prop where
  consecutive : ∀ full ∈ fulls, Consecutive PreconfirmedBlock.number full.blocks
  joined : (fulls ++ [outstanding]).IsChain LeadsTo

/-- Adding a block first removes the blocks that do not come before it. -/
theorem addBlockAndResetIfFull_retain (estimate : CompressionEstimate) (batch : Batch)
    (block : PreconfirmedBlock) (newAnchor : Header) :
    (batch.retainBlocksBefore block.number).addBlockAndResetIfFull estimate block newAnchor =
      batch.addBlockAndResetIfFull estimate block newAnchor := by
  have hretain : (batch.retainBlocksBefore block.number).retainBlocksBefore block.number =
      batch.retainBlocksBefore block.number := by
    refine retainBlocksBefore_eq_self fun other hother => ?_
    exact of_decide_eq_true (List.mem_filter.mp hother).2
  unfold addBlockAndResetIfFull
  rw [hretain]

/-- So does adding several blocks. -/
theorem addBlocks_retain (batch : Batch) (anchor : Header) (estimates : Estimates)
    (block : PreconfirmedBlock) (rest : List PreconfirmedBlock) :
    (batch.retainBlocksBefore block.number).addBlocks anchor estimates (block :: rest) =
      batch.addBlocks anchor estimates (block :: rest) := by
  unfold addBlocks
  rw [addBlockAndResetIfFull_retain]

/-- Blocks that come after those of the batch are added without losing any: the full batches and
the batch that is left hold all of them in order. The first of these begins with the blocks of the
batch, and the others are not empty. -/
theorem addBlocks_spec (batch : Batch) (anchor : Header) (estimates : Estimates)
    {blocks : List PreconfirmedBlock}
    (h : (batch.blocks ++ blocks).Pairwise fun first second => first.number < second.number) :
    ∃ first others, (batch.addBlocks anchor estimates blocks).1 ++
        [(batch.addBlocks anchor estimates blocks).2] = first :: others ∧
      ((first :: others).map Batch.blocks).flatten = batch.blocks ++ blocks ∧
      batch.blocks <+: first.blocks ∧ ∀ other ∈ others, other.blocks ≠ [] := by
  induction blocks generalizing batch estimates with
  | nil =>
      exact ⟨batch, [], rfl, rfl, List.prefix_refl _,
        fun _ hother => absurd hother List.not_mem_nil⟩
  | cons block rest ih =>
      have hbefore : ∀ previous ∈ batch.blocks, previous.number < block.number :=
        fun previous hprevious =>
          (List.pairwise_append.mp h).2.2 previous hprevious block List.mem_cons_self
      unfold addBlocks
      obtain ⟨-, hadded⟩ | ⟨reason, -, hfull⟩ :=
        batch.add_block_cases (estimates 0) anchor hbefore
      · rw [hadded]
        dsimp only
        have hpairwise : ((batch.push block).blocks ++ rest).Pairwise
            fun first second => first.number < second.number := by
          rw [blocks_push, List.append_assoc]
          exact h
        obtain ⟨first, others, hsplit, hflatten, hprefix, hothers⟩ :=
          ih (batch.push block) estimates.tail hpairwise
        refine ⟨first, others, hsplit, ?_, ?_, hothers⟩
        · rw [hflatten, blocks_push, List.append_assoc]
          rfl
        · rw [blocks_push] at hprefix
          exact (List.prefix_append _ _).trans hprefix
      · rw [hfull]
        dsimp only
        have hpairwise : ([block] ++ rest).Pairwise fun first second =>
            first.number < second.number := (List.pairwise_append.mp h).2.1
        obtain ⟨first, others, hsplit, hflatten, hprefix, hothers⟩ :=
          ih { batch with blocks := [block], anchorBlock := anchor } estimates.tail hpairwise
        refine ⟨batch, first :: others, congrArg (batch :: ·) hsplit, ?_, List.prefix_refl _,
          List.forall_mem_cons.mpr ⟨?_, hothers⟩⟩
        · rw [List.map_cons, List.flatten_cons, hflatten]
          rfl
        · intro hnil
          rw [hnil] at hprefix
          exact List.cons_ne_nil _ _ (List.prefix_nil.mp hprefix)

/-- The batch that is left ends with the last block. -/
theorem getLast?_addBlocks (batch : Batch) (anchor : Header) (estimates : Estimates)
    (blocks : List PreconfirmedBlock) (block : PreconfirmedBlock) :
    (batch.addBlocks anchor estimates (blocks ++ [block])).2.blocks.getLast? = some block := by
  induction blocks generalizing batch estimates with
  | nil =>
      show (batch.addBlocks anchor estimates [block]).2.blocks.getLast? = some block
      unfold addBlocks addBlockAndResetIfFull
      dsimp only
      split
      · next heq =>
          split at heq
          · cases heq
            exact List.getLast?_concat
          · cases heq
      · next heq =>
          split at heq
          · cases heq
          · cases heq
            exact List.getLast?_concat
  | cons first rest ih =>
      show (batch.addBlocks anchor estimates (first :: (rest ++ [block]))).2.blocks.getLast? =
        some block
      unfold addBlocks
      split
      · exact ih _ _
      · exact ih _ _

/-- Consecutive blocks are added in consecutive batches that join up. -/
theorem addBlocks_joined {batch : Batch} (anchor : Header) (estimates : Estimates)
    {blocks : List PreconfirmedBlock}
    (h : Consecutive PreconfirmedBlock.number (batch.blocks ++ blocks)) :
    Joined (batch.addBlocks anchor estimates blocks).1
        (batch.addBlocks anchor estimates blocks).2 ∧
      Consecutive PreconfirmedBlock.number (batch.addBlocks anchor estimates blocks).2.blocks := by
  obtain ⟨first, others, hsplit, hflatten, -, hothers⟩ :=
    addBlocks_spec batch anchor estimates h.pairwise_lt
  have hall : ∀ other ∈ (batch.addBlocks anchor estimates blocks).1 ++
      [(batch.addBlocks anchor estimates blocks).2],
      Consecutive PreconfirmedBlock.number other.blocks := by
    rw [hsplit]
    intro other hother
    refine h.of_infix ?_
    rw [← hflatten]
    exact List.infix_of_mem_flatten (List.mem_map_of_mem hother)
  obtain ⟨hfulls, hleft⟩ := List.forall_mem_append.mp hall
  refine ⟨⟨hfulls, ?_⟩, hleft _ (List.mem_singleton_self _)⟩
  rw [hsplit]
  have hne : ∀ other ∈ ((first :: others).map Batch.blocks).tail, other ≠ [] := by
    intro other hother
    obtain ⟨batch, hbatch, rfl⟩ := List.mem_map.mp hother
    exact hothers batch hbatch
  rw [← hflatten] at h
  exact (List.isChain_map Batch.blocks).mp (Consecutive.isChain_of_flatten h hne)

end Batch

namespace Driver

/-- The range of the blocks missing between the outstanding batch and a new block. -/
def gap (driver : Driver) (newBlock : PreconfirmedBlock) : RangeInclusive :=
  ⟨saturatingAdd driver.outstandingBatch.blocksRange.stop 1, newBlock.number - 1⟩

/-- The full batches that a new block makes the outstanding batch hand out. -/
def fullBatches (driver : Driver) (newBlock : PreconfirmedBlock) (anchor : Header)
    (reads : ProducedReads) : List Batch :=
  (driver.outstandingBatch.addBlocks anchor reads.estimates
    (driver.gapBlocks newBlock reads ++ [newBlock])).1

/-- The submissions of full batches, the last one first. -/
def submissions (driver : Driver) (fulls : List Batch) : List LogEntry :=
  if driver.status.canPropose then
    ((fulls.filter fun full => !full.isEmpty).map fun full =>
      LogEntry.submitted ⟨full, driver.lookahead.inclusionWindowEnd⟩ driver.status []).reverse
  else []

/-- The driver adds blocks to the outstanding batch, and submits the full batches. -/
theorem addBlocks_eq_batch (driver : Driver) (anchor : Header) (estimates : Estimates)
    (blocks : List PreconfirmedBlock) :
    driver.addBlocks anchor estimates blocks =
      { driver with
        outstandingBatch := (driver.outstandingBatch.addBlocks anchor estimates blocks).2
        log := driver.submissions (driver.outstandingBatch.addBlocks anchor estimates blocks).1 ++
          driver.log } := by
  induction blocks generalizing driver estimates with
  | nil =>
      unfold addBlocks Batch.addBlocks submissions
      simp
  | cons block rest ih =>
      unfold addBlocks Batch.addBlocks
      rw [ih]
      unfold addBlock
      cases driver.outstandingBatch.addBlockAndResetIfFull (estimates 0) block anchor with
      | mk result next =>
          cases result with
          | added rawSize => rfl
          | full reason full =>
              unfold submissions triggerBatchSubmission record
              dsimp only
              by_cases hpropose : driver.status.canPropose
              · by_cases hempty : full.isEmpty
                · simp [hpropose, hempty]
                · simp [hpropose, hempty]
              · simp [hpropose]

/-- If there is a gap in front of a new block, the download returns exactly the blocks of the
gap. -/
def GapFilled (driver : Driver) (newBlock : PreconfirmedBlock) (reads : ProducedReads) : Prop :=
  driver.outstandingBatch.isEmpty = false → (driver.gap newBlock).isEmpty = false →
    ∃ soft, download reads.download (driver.gap newBlock) = some soft ∧
      soft.blocks.map AnchoredBlock.number = List.range' (driver.gap newBlock).start
        ((driver.gap newBlock).stop + 1 - (driver.gap newBlock).start)

/-- The blocks of the outstanding batch are consecutive, and their numbers are `u64`s. -/
structure Contiguous (driver : Driver) : Prop where
  consecutive : Consecutive PreconfirmedBlock.number driver.outstandingBatch.blocks
  bounded : ∀ block ∈ driver.outstandingBatch.blocks, block.number ≤ u64Max

/-- The range of a batch that has blocks ends with the last one. -/
theorem blocksRange_stop {batch : Batch} {last : PreconfirmedBlock}
    (h : last ∈ batch.blocks.getLast?) : batch.blocksRange.stop = last.number := by
  have hlast : batch.blocks.getLast? = some last := h
  obtain ⟨first, rest, hblocks⟩ := List.exists_cons_of_ne_nil
    (List.ne_nil_of_mem (List.mem_of_getLast? hlast))
  unfold Batch.blocksRange
  rw [hlast, hblocks]
  rfl

variable {driver : Driver}

/-- Nothing is downloaded into an empty batch, or without a gap. -/
theorem gapBlocks_eq_nil {newBlock : PreconfirmedBlock} {reads : ProducedReads}
    (h : (driver.outstandingBatch.isEmpty || (driver.gap newBlock).isEmpty) = true) :
    driver.gapBlocks newBlock reads = [] :=
  if_pos h

/-- The blocks that are downloaded for a gap are added without their anchors. -/
theorem gapBlocks_eq_of_download {newBlock : PreconfirmedBlock} {reads : ProducedReads}
    {soft : ContiguousAnchoredBlocks} (hempty : driver.outstandingBatch.isEmpty = false)
    (hgap : (driver.gap newBlock).isEmpty = false)
    (hsoft : download reads.download (driver.gap newBlock) = some soft) :
    driver.gapBlocks newBlock reads = soft.intoPreconfirmed := by
  have hdownload : ¬ (driver.outstandingBatch.isEmpty || (driver.gap newBlock).isEmpty) = true := by
    rw [hempty, hgap]
    decide
  unfold gap at hdownload hsoft
  unfold gapBlocks
  dsimp only
  rw [if_neg hdownload, hsoft]

/-- The gap begins after the last block of a batch that has blocks. -/
theorem gap_eq {last : PreconfirmedBlock} (hlast : last ∈ driver.outstandingBatch.blocks.getLast?)
    (newBlock : PreconfirmedBlock) :
    driver.gap newBlock = ⟨min (last.number + 1) u64Max, newBlock.number - 1⟩ := by
  unfold gap
  rw [blocksRange_stop hlast]
  rfl

/-- A filled gap and the new block are numbered on from the last block. -/
theorem numbers_of_gapFilled {newBlock last : PreconfirmedBlock} {reads : ProducedReads}
    (hfilled : driver.GapFilled newBlock reads) (hnumber : newBlock.number ≤ u64Max)
    (hlast : last ∈ driver.outstandingBatch.blocks.getLast?)
    (hempty : driver.outstandingBatch.isEmpty = false)
    (hgap : (driver.gap newBlock).isEmpty = false) :
    (driver.gapBlocks newBlock reads ++ [newBlock]).map PreconfirmedBlock.number =
      List.range' (last.number + 1) (driver.gapBlocks newBlock reads ++ [newBlock]).length := by
  obtain ⟨soft, hsoft, hnumbers⟩ := hfilled hempty hgap
  have hle : (driver.gap newBlock).start ≤ (driver.gap newBlock).stop :=
    Nat.le_of_not_lt (of_decide_eq_false hgap)
  rw [gap_eq hlast newBlock] at hle hnumbers
  dsimp only at hle hnumbers
  have hpos : 0 < u64Max := by decide
  -- the successor of the last number saturates only if there is no gap
  have hstart : min (last.number + 1) u64Max = last.number + 1 := by omega
  rw [hstart] at hle hnumbers
  have hmap : soft.intoPreconfirmed.map PreconfirmedBlock.number =
      soft.blocks.map AnchoredBlock.number := List.map_map
  have hlength : soft.intoPreconfirmed.length = newBlock.number - 1 + 1 - (last.number + 1) := by
    rw [← List.length_map PreconfirmedBlock.number, hmap, hnumbers, List.length_range']
  rw [gapBlocks_eq_of_download hempty hgap hsoft, List.map_append, hmap, hnumbers,
    List.length_append, List.length_singleton, hlength, List.range'_concat, List.map_singleton]
  congr 2
  omega

/-- Without blocks from a gap, a new block continues the outstanding batch that has been trimmed,
if it leaves no gap. -/
theorem Contiguous.continued_of_no_gap (h : driver.Contiguous) {newBlock : PreconfirmedBlock}
    {reads : ProducedReads} (hgap : driver.gapBlocks newBlock reads = [])
    (hnext : ∀ last ∈ driver.outstandingBatch.blocks.getLast?,
      newBlock.number ≤ last.number + 1) :
    ∃ first rest, driver.gapBlocks newBlock reads ++ [newBlock] = first :: rest ∧
      Consecutive PreconfirmedBlock.number
        ((driver.outstandingBatch.retainBlocksBefore first.number).blocks ++ first :: rest) := by
  rw [hgap]
  exact ⟨newBlock, [], rfl, h.consecutive.filter_lt_concat hnext⟩

/-- After the outstanding batch has been trimmed, the blocks of a gap and the new block continue
it. -/
theorem Contiguous.continued (h : driver.Contiguous) {newBlock : PreconfirmedBlock}
    {reads : ProducedReads} (hnumber : newBlock.number ≤ u64Max)
    (hfilled : driver.GapFilled newBlock reads) :
    ∃ first rest, driver.gapBlocks newBlock reads ++ [newBlock] = first :: rest ∧
      Consecutive PreconfirmedBlock.number
        ((driver.outstandingBatch.retainBlocksBefore first.number).blocks ++ first :: rest) := by
  cases hempty : driver.outstandingBatch.isEmpty with
  | true =>
      have hblocks : driver.outstandingBatch.blocks = [] := List.isEmpty_iff.mp hempty
      refine h.continued_of_no_gap (gapBlocks_eq_nil (by rw [hempty, Bool.true_or])) ?_
      rw [hblocks]
      intro last hlast
      cases hlast
  | false =>
      have hne : driver.outstandingBatch.blocks ≠ [] := List.isEmpty_eq_false_iff.mp hempty
      obtain ⟨last, hlast⟩ : ∃ last, last ∈ driver.outstandingBatch.blocks.getLast? :=
        ⟨_, List.getLast?_eq_some_getLast hne⟩
      cases hgap : (driver.gap newBlock).isEmpty with
      | true =>
          refine h.continued_of_no_gap (gapBlocks_eq_nil (by rw [hgap, Bool.or_true])) ?_
          intro other hother
          obtain rfl := Option.some.inj (hlast.symm.trans hother)
          -- an empty gap means that the new block is not beyond the next one
          have hlt : (driver.gap newBlock).stop < (driver.gap newBlock).start :=
            of_decide_eq_true hgap
          rw [gap_eq hlast newBlock] at hlt
          dsimp only at hlt
          omega
      | false =>
          have hconsecutive := h.consecutive.append_of_range' hlast
            (numbers_of_gapFilled hfilled hnumber hlast hempty hgap)
          obtain ⟨first, rest, hsplit⟩ := List.exists_cons_of_ne_nil
            (List.append_ne_nil_of_right_ne_nil (driver.gapBlocks newBlock reads)
              (List.cons_ne_nil newBlock []))
          rw [hsplit] at hconsecutive
          have hbefore := (List.pairwise_append.mp hconsecutive.pairwise_lt).2.2
          refine ⟨first, rest, hsplit, ?_⟩
          -- the blocks of the gap come after all of the batch, so trimming takes nothing away
          rw [Batch.retainBlocksBefore_eq_self fun block hblock =>
            hbefore block hblock first List.mem_cons_self]
          exact hconsecutive

/-! ## Runs -/

/-- What changes the outstanding batch between two syncs: a produced block, a new head of the L2
chain, new information about the L1, or a submission. -/
inductive BatchEvent where
  | produced (newBlock : PreconfirmedBlock) (anchor : Header) (reads : ProducedReads)
  | l2Block (l2Block : Block) (reads : L2BlockReads)
  | l1Info (l1Header : Header) (reads : L1InfoReads)
  | submit (newAnchor : Header) (deadline : Nat)

/-- One of these changes. -/
def change (driver : Driver) : BatchEvent → Option Driver
  | .produced newBlock anchor reads => some (driver.onProducedBlock newBlock anchor reads)
  | .l2Block l2Block reads => some (driver.onL2Block l2Block reads)
  | .l1Info l1Header reads => some (driver.updateL1Info l1Header reads).1
  | .submit newAnchor deadline => some (driver.submitAndReset newAnchor deadline)

/-- The number of a produced block is a `u64`, and a gap in front of it is filled. -/
def FillsGap (driver : Driver) : BatchEvent → Prop
  | .produced newBlock _ reads => newBlock.number ≤ u64Max ∧ driver.GapFilled newBlock reads
  | _ => True

/-- The outstanding batch is consecutive after a change. After a produced block it ends with this
block, and the full batches that were handed out are joined to it. -/
def StaysContiguous (driver : Driver) (event : BatchEvent) : Prop :=
  ∀ next, driver.change event = some next →
    Consecutive PreconfirmedBlock.number next.outstandingBatch.blocks ∧
    ∀ newBlock anchor reads, event = .produced newBlock anchor reads →
      next.outstandingBatch.blocks.getLast? = some newBlock ∧
      Batch.Joined (driver.fullBatches newBlock anchor reads) next.outstandingBatch

/-- A produced block is added to the outstanding batch after the blocks of the gap, and the full
batches are submitted. -/
theorem onProducedBlock_eq_batch (driver : Driver) (newBlock : PreconfirmedBlock)
    (anchor : Header) (reads : ProducedReads) :
    driver.onProducedBlock newBlock anchor reads =
      { driver with
        outstandingBatch := (driver.outstandingBatch.addBlocks anchor reads.estimates
          (driver.gapBlocks newBlock reads ++ [newBlock])).2
        log := driver.submissions (driver.fullBatches newBlock anchor reads) ++ driver.log } :=
  driver.addBlocks_eq_batch anchor reads.estimates _

/-- A produced block continues the outstanding batch, if the gap is filled. -/
theorem Contiguous.onProducedBlock (h : driver.Contiguous) {newBlock : PreconfirmedBlock}
    {anchor : Header} {reads : ProducedReads} (hnumber : newBlock.number ≤ u64Max)
    (hfilled : driver.GapFilled newBlock reads) :
    (driver.onProducedBlock newBlock anchor reads).Contiguous ∧
      (driver.onProducedBlock newBlock anchor reads).outstandingBatch.blocks.getLast? =
        some newBlock ∧
      Batch.Joined (driver.fullBatches newBlock anchor reads)
        (driver.onProducedBlock newBlock anchor reads).outstandingBatch := by
  obtain ⟨first, rest, hblocks, hcontinued⟩ := h.continued hnumber hfilled
  obtain ⟨hjoined, hconsecutive⟩ :=
    Batch.addBlocks_joined anchor reads.estimates hcontinued
  rw [Batch.addBlocks_retain, ← hblocks] at hjoined hconsecutive
  have hlast := Batch.getLast?_addBlocks driver.outstandingBatch anchor reads.estimates
    (driver.gapBlocks newBlock reads) newBlock
  rw [onProducedBlock_eq_batch]
  refine ⟨⟨hconsecutive, fun block hblock => ?_⟩, hlast, hjoined⟩
  exact (hconsecutive.le_last hlast hblock).trans hnumber

/-- A segment of consecutive blocks can take the place of the outstanding batch. -/
theorem Contiguous.of_infix {next : Driver} (h : driver.Contiguous)
    (hsegment : next.outstandingBatch.blocks <:+: driver.outstandingBatch.blocks) :
    next.Contiguous where
  consecutive := h.consecutive.of_infix hsegment
  bounded := fun block hblock => h.bounded block (hsegment.mem hblock)

/-- Handling a head leaves a segment of the outstanding batch. -/
theorem infix_onL2Block (driver : Driver) (hconsecutive : Consecutive PreconfirmedBlock.number
    driver.outstandingBatch.blocks) (l2Block : Block) (reads : L2BlockReads) :
    (driver.onL2Block l2Block reads).outstandingBatch.blocks <:+:
      driver.outstandingBatch.blocks := by
  obtain ⟨l1, heq, -⟩ := driver.onL2Block_eq l2Block reads
  obtain ⟨-, hreorg⟩ | ⟨-, l2, hreorg⟩ :=
    (driver.record (.l2Block l2Block)).onL2Reorg_cases l2Block reads.headL1Origin
  · rw [heq, hreorg]
    exact List.infix_refl _
  · rw [heq, hreorg]
    exact (hconsecutive.filter_lt_prefix _).isInfix

/-- New information about the L1 leaves a segment of the outstanding batch. -/
theorem infix_updateL1Info (driver : Driver) (hconsecutive : Consecutive PreconfirmedBlock.number
    driver.outstandingBatch.blocks) (l1Header : Header) (reads : L1InfoReads) :
    (driver.updateL1Info l1Header reads).1.outstandingBatch.blocks <:+:
      driver.outstandingBatch.blocks := by
  obtain ⟨l2, batch, lookahead, status, heq, hbatch⟩ := driver.updateL1Info_eq l1Header reads
  rw [heq]
  obtain rfl | ⟨origin, rfl | ⟨-, -, rfl⟩⟩ := hbatch
  · exact List.infix_refl _
  · exact (hconsecutive.filter_gt_suffix origin).isInfix
  · exact (hconsecutive.filter_gt_suffix origin).isInfix

/-- A submission leaves no blocks. -/
theorem infix_submitAndReset (driver : Driver) (newAnchor : Header) (deadline : Nat) :
    (driver.submitAndReset newAnchor deadline).outstandingBatch.blocks <:+:
      driver.outstandingBatch.blocks := by
  obtain heq | ⟨-, heq⟩ := driver.submitAndReset_cases newAnchor deadline
  · rw [heq]
    exact List.nil_infix
  · rw [heq]
    exact List.nil_infix

/-- Every change keeps the outstanding batch contiguous. -/
theorem Contiguous.change (h : driver.Contiguous) {event : BatchEvent}
    (hfills : driver.FillsGap event) {next : Driver} (hnext : driver.change event = some next) :
    next.Contiguous := by
  cases event with
  | produced newBlock anchor reads =>
      cases hnext
      exact (h.onProducedBlock hfills.1 hfills.2).1
  | l2Block l2Block reads =>
      cases hnext
      exact h.of_infix (driver.infix_onL2Block h.consecutive l2Block reads)
  | l1Info l1Header reads =>
      cases hnext
      exact h.of_infix (driver.infix_updateL1Info h.consecutive l1Header reads)
  | submit newAnchor deadline =>
      cases hnext
      exact h.of_infix (driver.infix_submitAndReset newAnchor deadline)

/-- In every run that starts with a contiguous outstanding batch, it stays so, whatever its capacity
and the size estimates, as long as the gaps are filled; and the batches join up. -/
theorem outstanding_batch_contiguous {start : Driver} {events : List BatchEvent}
    (hstart : start.Contiguous)
    (hfills : Transition.StepsMeet Driver.change FillsGap start events) :
    Transition.StepsMeet Driver.change StaysContiguous start events := by
  refine Transition.stepsMeet_of_invariant (fun _ _ _ hinv hcondition hnext =>
    hinv.change hcondition hnext) ?_ hstart hfills
  intro driver event hinv hcondition next hnext
  refine ⟨(hinv.change hcondition hnext).consecutive, ?_⟩
  rintro newBlock anchor reads rfl
  cases hnext
  exact (hinv.onProducedBlock hcondition.1 hcondition.2).2

/-- A driver with block 1 in its outstanding batch. -/
def withBlock1 : Driver :=
  { startAt 348 3 with
    outstandingBatch := .fromBlocksUnchecked (l1Header 100) (defaultConfig 1).batchSettings
      [.fromBlock (l2BlockOn 100 1 300 1)] }

/-- Block 3, which is produced on the same anchor. -/
def block3 : PreconfirmedBlock := .fromBlock (l2BlockOn 100 3 304 1)

/-- Block 2 is downloaded, with this anchor and coinbase. -/
def block2Reads (anchorId : Nat) (coinbase : Address) : ProducedReads :=
  { download :=
      [.block (some (l2BlockOn anchorId 2 302 coinbase)), .anchor 0 (some (l1Header anchorId))]
    estimates := fun _ size => size }

theorem contiguous_withBlock1 : withBlock1.Contiguous where
  consecutive := Consecutive.singleton _
  bounded := by decide

/-- The gap in front of block 3 is filled with block 2, and the batch is submitted. -/
theorem outstanding_batch_contiguous_block3 :
    Transition.StepsMeet Driver.change StaysContiguous withBlock1
      [.produced block3 (l1Header 100) (block2Reads 100 1), .submit (l1Header 101) 30] := by
  refine outstanding_batch_contiguous contiguous_withBlock1
    ⟨⟨by decide, fun _ _ => ?_⟩, fun _ _ => ⟨trivial, fun _ _ => trivial⟩⟩
  have hdownload : (download (block2Reads 100 1).download (withBlock1.gap block3)).map
      (fun soft => soft.blocks.map AnchoredBlock.number) = some [2] := by
    decide +kernel
  exact Option.map_eq_some_iff.mp hdownload

end Driver

end Mk1
