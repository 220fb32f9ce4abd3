import Mk1.Primitives.Block

/-!
# The representation invariant of a batch

`Batch.WellFormed` is what every operation on a batch keeps: the capacity, the order of the block
numbers and, for more than one block, the size estimate. The capacity check of `doesntFit` is an
equality, so it only works because no operation ever overshoots. `batch_well_formed` says that
the invariant holds after every sequence of operations, for the batch and for all that are handed
out.
-/

namespace Mk1

/-- An operation on a batch that changes its blocks or its anchor. -/
inductive BatchOp where
  | addBlockAndResetIfFull (block : PreconfirmedBlock) (newAnchor : Header)
  | retainBlocksBefore (blockNumber : Nat)
  | retainBlocksAfter (blockNumber : Nat)
  | takeAndReset (newAnchorBlock : Header)
  | changeAnchor (newAnchor : Header)
  | setAllBlocksTimestamp (timestamp : Nat)

namespace Batch

/-- Perform an operation. The first component holds the batch that is handed out, if one is. -/
def applyOp (estimate : CompressionEstimate) (batch : Batch) : BatchOp → Option Batch × Batch
  | .addBlockAndResetIfFull block newAnchor =>
      match batch.addBlockAndResetIfFull estimate block newAnchor with
      | (.added _, batch) => (none, batch)
      | (.full _ handedOut, batch) => (some handedOut, batch)
  | .retainBlocksBefore blockNumber => (none, batch.retainBlocksBefore blockNumber)
  | .retainBlocksAfter blockNumber => (none, batch.retainBlocksAfter blockNumber)
  | .takeAndReset newAnchorBlock =>
      let (handedOut, batch) := batch.takeAndReset newAnchorBlock
      (some handedOut, batch)
  | .changeAnchor newAnchor => (none, batch.changeAnchor newAnchor)
  | .setAllBlocksTimestamp timestamp => (none, batch.setAllBlocksTimestamp timestamp)

/-- Perform a sequence of operations. The first component lists the batches handed out. -/
def applyOps (estimate : CompressionEstimate) (batch : Batch) : List BatchOp → List Batch × Batch
  | [] => ([], batch)
  | op :: rest =>
      let (handedOut, batch) := batch.applyOp estimate op
      let (later, batch) := batch.applyOps estimate rest
      (handedOut.toList ++ later, batch)

/-- The invariant of a batch with the given settings. -/
structure WellFormed (estimate : CompressionEstimate) (settings : BatchSettings) (batch : Batch) :
    Prop where
  settings_eq : batch.settings = settings
  length_le : batch.blocks.length ≤ settings.capacity
  numbers : batch.blocks.Pairwise fun first second => first.number < second.number
  size_le : 1 < batch.blocks.length → estimate batch.rawSize ≤ settings.targetCompressedSize

/-- An added block goes behind exactly the earlier blocks with a lower number, or into the reset
batch while the batch with these is handed out. -/
def KeepsEarlier (batch : Batch) (block : PreconfirmedBlock) : AddBlockResult × Batch → Prop
  | (.added _, after) =>
      after.blocks = batch.blocks.filter (fun earlier => earlier.number < block.number) ++ [block]
  | (.full _ handedOut, after) =>
      handedOut.blocks = batch.blocks.filter (fun earlier => earlier.number < block.number) ∧
        after.blocks = [block]

/-! ## What each operation keeps -/

section WellFormed

variable {estimate : CompressionEstimate} {settings : BatchSettings} {batch : Batch}

/-- A new batch is well formed. -/
theorem wellFormed_new (estimate : CompressionEstimate) (settings : BatchSettings)
    (anchorBlock : Header) : WellFormed estimate settings (new anchorBlock settings) where
  settings_eq := rfl
  length_le := Nat.zero_le _
  numbers := .nil
  size_le h := absurd h (Nat.not_lt_zero 1)

/-- A batch with a single block is well formed if the capacity allows a block at all. -/
theorem wellFormed_singleton (hcapacity : 1 ≤ settings.capacity)
    (hsettings : batch.settings = settings) (block : PreconfirmedBlock)
    (hblocks : batch.blocks = [block]) : WellFormed estimate settings batch where
  settings_eq := hsettings
  length_le := by rw [hblocks]; exact hcapacity
  numbers := by rw [hblocks]; exact List.pairwise_singleton _ _
  size_le h := by
    rw [hblocks] at h
    exact absurd h (Nat.lt_irrefl 1)

/-- The raw size of some of the blocks is no greater than that of all. -/
theorem rawSize_le_of_sublist {other : Batch} (h : other.blocks.Sublist batch.blocks) :
    other.rawSize ≤ batch.rawSize :=
  (h.map PreconfirmedBlock.rawSize).sum_le_sum fun _ _ => Nat.zero_le _

/-- A batch that only loses blocks stays well formed: a smaller raw size has no greater estimate. -/
theorem WellFormed.of_sublist (hmono : Monotone estimate) (h : WellFormed estimate settings batch)
    {other : Batch} (hsettings : other.settings = batch.settings)
    (hblocks : other.blocks.Sublist batch.blocks) : WellFormed estimate settings other where
  settings_eq := hsettings.trans h.settings_eq
  length_le := hblocks.length_le.trans h.length_le
  numbers := h.numbers.sublist hblocks
  size_le hmany :=
    (hmono (rawSize_le_of_sublist hblocks)).trans (h.size_le (hmany.trans_le hblocks.length_le))

/-- Dropping the blocks from a number on keeps the invariant. -/
theorem WellFormed.retainBlocksBefore (hmono : Monotone estimate)
    (h : WellFormed estimate settings batch) (blockNumber : Nat) :
    WellFormed estimate settings (batch.retainBlocksBefore blockNumber) :=
  h.of_sublist hmono rfl List.filter_sublist

/-- A block that fits behind the blocks of a batch keeps the invariant. -/
theorem WellFormed.push (h : WellFormed estimate settings batch) {block : PreconfirmedBlock}
    (hfit : batch.doesntFit estimate block.txList = none)
    (hnumber : ∀ earlier ∈ batch.blocks, earlier.number < block.number) :
    WellFormed estimate settings (batch.push block) := by
  obtain ⟨hsize, hlength⟩ := doesntFit_eq_none_iff.mp hfit
  rw [h.settings_eq] at hsize hlength
  refine ⟨h.settings_eq, ?_, ?_, fun _ => ?_⟩
  · -- the capacity is not reached, and by the invariant it is not passed either
    have hle := h.length_le
    rw [blocks_push, List.length_append, List.length_singleton]
    omega
  · refine List.pairwise_append.mpr ⟨h.numbers, List.pairwise_singleton _ _, ?_⟩
    intro earlier hearlier added hadded
    rw [List.mem_singleton.mp hadded]
    exact hnumber earlier hearlier
  · rw [rawSize_push]
    exact hsize

/-- The retained blocks have lower numbers. -/
theorem number_lt_of_retained {blockNumber : Nat} :
    ∀ earlier ∈ (batch.retainBlocksBefore blockNumber).blocks, earlier.number < blockNumber :=
  fun _ hearlier => of_decide_eq_true (List.mem_filter.mp hearlier).2

/-- Moving the timestamps changes neither the numbers nor the sizes of the blocks. -/
theorem WellFormed.setAllBlocksTimestamp (h : WellFormed estimate settings batch)
    (timestamp : Nat) : WellFormed estimate settings (batch.setAllBlocksTimestamp timestamp) := by
  have hlength : (batch.setAllBlocksTimestamp timestamp).blocks.length = batch.blocks.length :=
    List.length_map _
  have hsize : (batch.setAllBlocksTimestamp timestamp).rawSize = batch.rawSize := by
    show (List.map _ (List.map _ batch.blocks)).sum = _
    rw [List.map_map]
    rfl
  refine ⟨h.settings_eq, hlength ▸ h.length_le, ?_, fun hmany => ?_⟩
  · exact List.pairwise_map.mpr h.numbers
  · rw [hsize]
    exact h.size_le (hlength ▸ hmany)

/-- Every operation keeps the invariant, and what it hands out satisfies it too. -/
theorem WellFormed.applyOp (hmono : Monotone estimate) (hcapacity : 1 ≤ settings.capacity)
    (h : WellFormed estimate settings batch) (op : BatchOp) :
    (∀ handedOut ∈ (batch.applyOp estimate op).1, WellFormed estimate settings handedOut) ∧
      WellFormed estimate settings (batch.applyOp estimate op).2 := by
  have hnone : ∀ handedOut ∈ (none : Option Batch), WellFormed estimate settings handedOut :=
    fun _ hmem => absurd hmem (Option.not_mem_none _)
  cases op with
  | addBlockAndResetIfFull block newAnchor =>
      have hkept := h.retainBlocksBefore hmono block.number
      obtain ⟨hfit, hadd⟩ | ⟨reason, -, hadd⟩ := add_block_spec estimate batch block newAnchor
      · simp only [Batch.applyOp, hadd]
        exact ⟨hnone, hkept.push hfit number_lt_of_retained⟩
      · simp only [Batch.applyOp, hadd]
        refine ⟨fun handedOut hmem => ?_, wellFormed_singleton hcapacity h.settings_eq block rfl⟩
        rw [← Option.some.inj hmem]
        exact hkept
  | retainBlocksBefore blockNumber => exact ⟨hnone, h.retainBlocksBefore hmono blockNumber⟩
  | retainBlocksAfter blockNumber => exact ⟨hnone, h.of_sublist hmono rfl List.filter_sublist⟩
  | takeAndReset newAnchorBlock =>
      refine ⟨fun handedOut hmem => ?_, h.of_sublist hmono rfl (List.nil_sublist _)⟩
      rw [← Option.some.inj hmem]
      exact h
  | changeAnchor newAnchor => exact ⟨hnone, h.of_sublist hmono rfl (List.Sublist.refl _)⟩
  | setAllBlocksTimestamp timestamp => exact ⟨hnone, h.setAllBlocksTimestamp timestamp⟩

/-- Every sequence of operations keeps the invariant, and all that they hand out satisfies it. -/
theorem WellFormed.applyOps (hmono : Monotone estimate) (hcapacity : 1 ≤ settings.capacity)
    (h : WellFormed estimate settings batch) (ops : List BatchOp) :
    (∀ handedOut ∈ (batch.applyOps estimate ops).1, WellFormed estimate settings handedOut) ∧
      WellFormed estimate settings (batch.applyOps estimate ops).2 := by
  induction ops generalizing batch with
  | nil => exact ⟨fun _ hmem => absurd hmem List.not_mem_nil, h⟩
  | cons op rest ih =>
      obtain ⟨hfirst, hafter⟩ := h.applyOp hmono hcapacity op
      obtain ⟨hlater, hfinal⟩ := ih hafter
      refine ⟨fun handedOut hmem => ?_, hfinal⟩
      rcases List.mem_append.mp hmem with hmem | hmem
      · exact hfirst handedOut (Option.mem_toList.mp hmem)
      · exact hlater handedOut hmem

end WellFormed

/-- An added block drops exactly the blocks from its number on, in every batch. -/
theorem keepsEarlier_add (estimate : CompressionEstimate) (batch : Batch)
    (block : PreconfirmedBlock) (newAnchor : Header) :
    KeepsEarlier batch block (batch.addBlockAndResetIfFull estimate block newAnchor) := by
  obtain ⟨-, hadd⟩ | ⟨reason, -, hadd⟩ := add_block_spec estimate batch block newAnchor
  · rw [hadd]
    rfl
  · rw [hadd]
    exact ⟨rfl, rfl⟩

/-- The representation invariant: after every sequence of operations on a new batch, it and the
batches handed out are well formed, and a further block keeps exactly the earlier blocks with a
lower number. -/
theorem batch_well_formed {estimate : CompressionEstimate} (hmono : Monotone estimate)
    (settings : BatchSettings) (hcapacity : 1 ≤ settings.capacity) (anchorBlock : Header)
    (ops : List BatchOp) :
    (∀ handedOut ∈ ((new anchorBlock settings).applyOps estimate ops).1,
        WellFormed estimate settings handedOut) ∧
      WellFormed estimate settings ((new anchorBlock settings).applyOps estimate ops).2 ∧
      ∀ block newAnchor, KeepsEarlier ((new anchorBlock settings).applyOps estimate ops).2 block
        (((new anchorBlock settings).applyOps estimate ops).2.addBlockAndResetIfFull estimate
          block newAnchor) := by
  obtain ⟨hhandedOut, hbatch⟩ :=
    (wellFormed_new estimate settings anchorBlock).applyOps hmono hcapacity ops
  exact ⟨hhandedOut, hbatch, fun block newAnchor => keepsEarlier_add estimate _ block newAnchor⟩

/-- Blocks 1, 2 and 3 in batches of two: the third starts a new batch, from which another block 2
drops it. -/
theorem batch_well_formed_three_blocks :
    let ops := [1, 2, 3].map fun number =>
      BatchOp.addBlockAndResetIfFull (softBlock number 100).intoPreconfirmed (l1Header 10)
    let after := (new (l1Header 9) ⟨2, 1000, 0, 64, 8⟩).applyOps id ops
    after.1.map (fun handedOut => handedOut.blocks.map PreconfirmedBlock.number) = [[1, 2]] ∧
      WellFormed id ⟨2, 1000, 0, 64, 8⟩ after.2 ∧
      KeepsEarlier after.2 (softBlock 2 100).intoPreconfirmed
        (after.2.addBlockAndResetIfFull id (softBlock 2 100).intoPreconfirmed (l1Header 10)) := by
  refine ⟨rfl, ?_⟩
  obtain ⟨-, hbatch, hkeeps⟩ := batch_well_formed monotone_id ⟨2, 1000, 0, 64, 8⟩ (by decide)
    (l1Header 9) ([1, 2, 3].map fun number =>
      BatchOp.addBlockAndResetIfFull (softBlock number 100).intoPreconfirmed (l1Header 10))
  exact ⟨hbatch, hkeeps _ _⟩

end Batch

end Mk1
