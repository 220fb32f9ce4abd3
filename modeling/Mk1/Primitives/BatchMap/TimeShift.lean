import Mk1.Primitives.BatchMap.Proposability

/-!
# Time shifts inside a batch

The time shift between two neighbours of a batch is encoded as a `u8`. No stage
of the pipeline looks at it: the size check does not, and re-timestamping only
reacts to timestamps outside of the valid range. `timeShiftsFit_iff` says for
which soft blocks the shifts fit anyway, however the batches are filled.
-/

namespace Mk1

/-- The timestamps of neighbouring blocks differ by at most `MAX_TIMESHIFT_SECS`. -/
def Batch.TimeShiftsFit (batch : Batch) : Prop :=
  batch.blocks.IsChain fun first second =>
    second.timestamp ≤ first.timestamp + MAX_TIMESHIFT_SECS ∧
      first.timestamp ≤ second.timestamp + MAX_TIMESHIFT_SECS

/-- Two neighbouring soft blocks that nothing keeps out of one batch: either all soft blocks are
re-anchored, or the two have the same anchor and the same coinbase. -/
def Mergeable (minProposableAnchor : Nat) (soft : ContiguousAnchoredBlocks)
    (first second : AnchoredBlock) : Prop :=
  (∃ block ∈ soft.blocks, block.anchorId < minProposableAnchor) ∨
    (first.anchorId = second.anchorId ∧
      first.block.header.beneficiary = second.block.header.beneficiary)

/-- The soft blocks have no two mergeable neighbours too far apart in time, unless some block up
to these is out of range and moves both. -/
def ShiftsBounded (minProposableAnchor minTs maxTs : Nat) (soft : ContiguousAnchoredBlocks) :
    Prop :=
  ∀ before first second after, soft.blocks = before ++ first :: second :: after →
    first.timestamp + MAX_TIMESHIFT_SECS < second.timestamp →
      Mergeable minProposableAnchor soft first second →
        ∃ block ∈ before ++ [first, second],
          block.timestamp < minTs ∨ maxTs < block.timestamp

/-! ## Bounded shifts are enough -/

/-- Moved batches have no time shift at all. -/
theorem Batch.timeShiftsFit_setAllBlocksTimestamp (batch : Batch) (timestamp : Nat) :
    (batch.setAllBlocksTimestamp timestamp).TimeShiftsFit := by
  refine List.isChain_iff_forall_rel_of_append_cons_cons.mpr ?_
  intro first second before after hblocks
  have hsame : ∀ block ∈ (batch.setAllBlocksTimestamp timestamp).blocks,
      block.timestamp = timestamp := by
    intro block hblock
    obtain ⟨original, -, rfl⟩ := List.mem_map.mp hblock
    rfl
  rw [hsame first (by simp [hblocks]), hsame second (by simp [hblocks])]
  omega

/-- A soft block has one list of blocks before it. -/
theorem ContiguousAnchoredBlocks.before_unique (soft : ContiguousAnchoredBlocks)
    {before before' after after' : List AnchoredBlock} {anchored : AnchoredBlock}
    (h : soft.blocks = before ++ anchored :: after)
    (h' : soft.blocks = before' ++ anchored :: after') : before = before' := by
  have hnumbers := soft.numbers_increase
  rw [h, List.pairwise_append, List.pairwise_cons] at hnumbers
  obtain ⟨-, ⟨hafter, -⟩, hbefore⟩ := hnumbers
  have hnotBefore : anchored ∉ before := fun hmem =>
    lt_irrefl _ (hbefore anchored hmem anchored (by simp))
  have hnotAfter : anchored ∉ after := fun hmem => lt_irrefl _ (hafter anchored hmem)
  exact ((List.append_cons_inj_of_notMem hnotBefore hnotAfter).mp (h.symm.trans h')).1

/-- A soft block in a batch of a grouped map has the anchor of that batch. -/
theorem Grouped.anchorId_eq {inner : OrderedMap Nat (List Batch)}
    {soft : ContiguousAnchoredBlocks} (h : Grouped inner soft.blocks) {batch : Batch}
    (hbatch : batch ∈ inner.values.flatten) {anchored : AnchoredBlock}
    (hsoft : anchored ∈ soft.blocks) (hblock : anchored.intoPreconfirmed ∈ batch.blocks) :
    anchored.anchorId = batch.anchorId := by
  obtain ⟨batches, hbatches, hmem⟩ := List.mem_flatten.mp hbatch
  obtain ⟨key, hfind⟩ := OrderedMap.mem_values_iff.mp hbatches
  have hgroup : anchored.intoPreconfirmed ∈
      (withAnchor soft.blocks key).map AnchoredBlock.intoPreconfirmed := by
    rw [← h.blocks key batches hfind]
    exact mem_blocksOf.mpr ⟨batch, hmem, hblock⟩
  obtain ⟨source, hsource, heq⟩ := List.mem_map.mp hgroup
  obtain ⟨hsource, hkey⟩ := List.mem_filter.mp hsource
  have hsame : source = anchored :=
    soft.eq_of_number_eq hsource hsoft (congrArg PreconfirmedBlock.number heq)
  have hid : batch.anchorId = key := (h.anchors key batches hfind batch hmem).1
  rw [hid, ← hsame]
  simpa using hkey

/-- Neighbours in one batch of the map that `reanchor` returns are mergeable. -/
theorem mergeable_of_mem_batch {input : PipelineInput} {soft : ContiguousAnchoredBlocks}
    {initial : BatchMap .initial}
    (hgrouped : Grouped initial.ensureUniqueCoinbase.inner soft.blocks) {batch : Batch}
    (hbatch : batch ∈ initial.ensureUniqueCoinbase.inner.values.flatten)
    {first second : AnchoredBlock} (hfirst : first ∈ soft.blocks) (hsecond : second ∈ soft.blocks)
    (hfirst' : first.intoPreconfirmed ∈ batch.blocks)
    (hsecond' : second.intoPreconfirmed ∈ batch.blocks) :
    Mergeable input.minProposableAnchor soft first second := by
  refine .inr ⟨?_, ?_⟩
  · rw [hgrouped.anchorId_eq hbatch hfirst hfirst', hgrouped.anchorId_eq hbatch hsecond hsecond']
  · simp only [BatchMap.ensureUniqueCoinbase, BatchMap.ofInner, OrderedMap.values_mapValues,
      List.mem_flatten, List.mem_map] at hbatch
    obtain ⟨parts, ⟨batches, -, rfl⟩, hpart⟩ := hbatch
    obtain ⟨whole, -, hpart⟩ := List.mem_flatMap.mp hpart
    exact (Batch.splitByCoinbase_coinbase hpart _ hfirst').trans
      (Batch.splitByCoinbase_coinbase hpart _ hsecond').symm

/-- A batch that re-timestamping keeps comes after batches in range only. -/
theorem exists_prefix_of_mem_takeWhile {minTs maxTs : Nat} {batches : List Batch} {batch : Batch}
    (h : batch ∈ batches.takeWhile (Batch.inRange minTs maxTs)) :
    ∃ earlier later, batches = earlier ++ batch :: later ∧
      ∀ other ∈ earlier ++ [batch], other.inRange minTs maxTs = true := by
  obtain ⟨earlier, later, hsplit⟩ := List.append_of_mem h
  refine ⟨earlier, later ++ batches.dropWhile (Batch.inRange minTs maxTs), ?_, ?_⟩
  · rw [← List.cons_append, ← List.append_assoc, ← hsplit, List.takeWhile_append_dropWhile]
  · intro other hother
    have hall : (batches.takeWhile (Batch.inRange minTs maxTs)).all (Batch.inRange minTs maxTs) =
        true := List.all_takeWhile
    rw [hsplit] at hall
    refine List.all_eq_true.mp hall other ?_
    rcases List.mem_append.mp hother with hother | hother
    · simp [hother]
    · simp [List.mem_singleton.mp hother]

/-- Neighbours in a batch are neighbours among the soft blocks when the batches keep their
order. -/
theorem exists_neighbours {soft : ContiguousAnchoredBlocks} {earlier later : List Batch}
    {batch : Batch} (hblocks : blocksOf (earlier ++ batch :: later) = soft.intoPreconfirmed)
    {first second : PreconfirmedBlock} {front back : List PreconfirmedBlock}
    (hbatch : batch.blocks = front ++ first :: second :: back) :
    ∃ before first' second' after, soft.blocks = before ++ first' :: second' :: after ∧
      first = first'.intoPreconfirmed ∧ second = second'.intoPreconfirmed ∧
      before.map AnchoredBlock.intoPreconfirmed = blocksOf earlier ++ front := by
  have hsoft : soft.blocks.map AnchoredBlock.intoPreconfirmed =
      (blocksOf earlier ++ front) ++ first :: second :: (back ++ blocksOf later) := by
    rw [← ContiguousAnchoredBlocks.intoPreconfirmed, ← hblocks]
    simp [hbatch]
  obtain ⟨before, rest, hsoft', hbefore, hrest⟩ := List.map_eq_append_iff.mp hsoft
  obtain ⟨first', rest', rfl, hfirst, hrest'⟩ := List.map_eq_cons_iff.mp hrest
  obtain ⟨second', after, rfl, hsecond, -⟩ := List.map_eq_cons_iff.mp hrest'
  exact ⟨before, first', second', after, hsoft', hfirst.symm, hsecond.symm, hbefore⟩

/-- A kept batch of the pipeline has time shifts that fit if the shifts are bounded. -/
theorem timeShiftsFit_of_kept {minProposableAnchor minTs maxTs : Nat}
    {soft : ContiguousAnchoredBlocks}
    (htimestamps : soft.blocks.Pairwise fun first second => first.timestamp ≤ second.timestamp)
    (h : ShiftsBounded minProposableAnchor minTs maxTs soft) {earlier later : List Batch}
    {batch : Batch} (hblocks : blocksOf (earlier ++ batch :: later) = soft.intoPreconfirmed)
    (hrange : ∀ other ∈ earlier ++ [batch], other.inRange minTs maxTs = true)
    (hmerge : ∀ first ∈ soft.blocks, ∀ second ∈ soft.blocks,
      first.intoPreconfirmed ∈ batch.blocks → second.intoPreconfirmed ∈ batch.blocks →
        Mergeable minProposableAnchor soft first second) : batch.TimeShiftsFit := by
  refine List.isChain_iff_forall_rel_of_append_cons_cons.mpr ?_
  intro x y front back hbatch
  obtain ⟨before, first, second, after, hsoft, rfl, rfl, hbefore⟩ :=
    exists_neighbours hblocks hbatch
  simp only [AnchoredBlock.timestamp_intoPreconfirmed]
  have hle : first.timestamp ≤ second.timestamp := by
    rw [hsoft] at htimestamps
    exact (List.pairwise_cons.mp (List.pairwise_append.mp htimestamps).2.1).1 second (by simp)
  have hfits : second.timestamp ≤ first.timestamp + MAX_TIMESHIFT_SECS := by
    by_contra hfar
    obtain ⟨block, hblock, hout⟩ := h before first second after hsoft (by omega)
      (hmerge first (by simp [hsoft]) second (by simp [hsoft]) (by simp [hbatch])
        (by simp [hbatch]))
    -- the block out of range would be in a batch in range
    have hmem : block.intoPreconfirmed ∈ blocksOf (earlier ++ [batch]) := by
      have hall : blocksOf (earlier ++ [batch]) =
          (before ++ [first, second]).map AnchoredBlock.intoPreconfirmed ++ back := by
        simp [hbefore, hbatch]
      rw [hall]
      exact List.mem_append_left _ (List.mem_map_of_mem hblock)
    obtain ⟨other, hother, hblock'⟩ := mem_blocksOf.mp hmem
    have hin := Batch.inRange_iff.mp (hrange other hother) _ hblock'
    rw [AnchoredBlock.timestamp_intoPreconfirmed] at hin
    omega
  exact ⟨hfits, by omega⟩

/-- If the shifts are bounded, every batch of the pipeline has time shifts that fit. -/
theorem timeShiftsFit_of_bounded (input : PipelineInput) (soft : ContiguousAnchoredBlocks)
    (hanchors : soft.blocks.Pairwise fun first second => first.anchorId ≤ second.anchorId)
    (htimestamps : soft.blocks.Pairwise fun first second => first.timestamp ≤ second.timestamp)
    (h : ShiftsBounded input.minProposableAnchor input.minTs input.maxTs soft) :
    ∃ map, createBatchMap input soft = .ok map ∧
      ∀ batch ∈ map.intoVec.batches, batch.TimeShiftsFit := by
  obtain ⟨initial, anchored, -, hgrouped, hanchored, hmap, hcases⟩ :=
    createBatchMap_cases input soft
  refine ⟨_, hmap, ?_⟩
  have hblocks := (reanchored_blocks hgrouped hanchored).2 hanchors
  intro batch hbatch
  rw [BatchMap.intoVec_retimestamp] at hbatch
  rcases List.mem_append.mp hbatch with hkept | hmoved
  · have hmem : batch ∈ anchored.inner.values.flatten := (List.takeWhile_subset _) hkept
    obtain ⟨earlier, later, hsplit, hrange⟩ := exists_prefix_of_mem_takeWhile hkept
    refine timeShiftsFit_of_kept htimestamps h (hsplit ▸ hblocks) hrange ?_
    intro first hfirst second hsecond hfirst' hsecond'
    obtain ⟨-, rfl⟩ | ⟨oldest, holdest, hlt, -⟩ := hcases
    · exact mergeable_of_mem_batch hgrouped hmem hfirst hsecond hfirst' hsecond'
    · exact .inl ⟨oldest, holdest, hlt⟩
  · obtain ⟨source, -, rfl⟩ := List.mem_map.mp hmoved
    exact source.timeShiftsFit_setAllBlocksTimestamp input.maxTs

/-! ## Unbounded shifts reach a batch

With an estimate of zero, batches are filled to their capacity. A capacity that
ends the first batch right after two mergeable neighbours puts both in it.
-/

/-- An estimate under which every block is small enough. -/
def nothingCompressed : Estimates := fun _ _ => 0

@[simp] theorem nothingCompressed_tail : nothingCompressed.tail = nothingCompressed := rfl

/-- Settings that fill batches up to a capacity. -/
def filledTo (capacity : Nat) : BatchSettings :=
  { capacity := capacity, targetCompressedSize := 0, defaultCoinbase := 0,
    maxAnchorHeightOffset := 0, anchorMaxHeightBuffer := 0 }

/-- The first of the batches holds the first blocks, up to the capacity. -/
structure FirstFull (capacity : Nat) (batches : List Batch) (blocks : List PreconfirmedBlock) :
    Prop where
  settings : ∀ batch ∈ batches,
    batch.settings.capacity = capacity ∧ batch.settings.targetCompressedSize = 0
  first : ∃ first rest, batches = first :: rest ∧ first.blocks = blocks.take capacity ∧
    (rest = [] ∨ capacity ≤ blocks.length)

section FirstFull

variable {capacity : Nat} {front : List Batch} {current : Batch}
  {blocks : List PreconfirmedBlock} {block : PreconfirmedBlock} {reason : DoesntFitBlockReason}

/-- A batch under these settings takes a block until it has reached its capacity. -/
theorem doesntFit_filled (hcapacity : current.settings.capacity = capacity)
    (htarget : current.settings.targetCompressedSize = 0) (txList : List TxEnvelope) :
    current.doesntFit (nothingCompressed 0) txList =
      if current.blocks.length = capacity then some .capacity else none := by
  simp [Batch.doesntFit, nothingCompressed, hcapacity, htarget]

/-- A block that fits joins the last batch. -/
theorem FirstFull.push (h : FirstFull capacity (front ++ [current]) blocks)
    (hfit : current.doesntFit (nothingCompressed 0) block.txList = none) :
    FirstFull capacity (front ++ [current.push block]) (blocks ++ [block]) := by
  obtain ⟨hcapacity, htarget⟩ := h.settings current (by simp)
  rw [doesntFit_filled hcapacity htarget] at hfit
  constructor
  · intro batch hbatch
    rcases List.mem_append.mp hbatch with hbatch | hbatch
    · exact h.settings batch (by simp [hbatch])
    · rw [List.mem_singleton.mp hbatch, Batch.settings_push]
      exact ⟨hcapacity, htarget⟩
  · obtain ⟨first, rest, hbatches, hfirst, hrest⟩ := h.first
    cases front with
    | nil =>
        cases hbatches
        have hroom : current.blocks.length ≠ capacity := fun heq => by simp [heq] at hfit
        have hshort : blocks.length < capacity := by
          rw [hfirst, List.length_take] at hroom
          omega
        refine ⟨_, [], rfl, ?_, .inl rfl⟩
        rw [Batch.blocks_push, hfirst, List.take_of_length_le (by omega),
          List.take_of_length_le (by simp; omega)]
    | cons other front =>
        cases hbatches
        have hlong : capacity ≤ blocks.length := hrest.resolve_left (by simp)
        refine ⟨_, _, rfl, ?_, .inr (by simp; omega)⟩
        rw [hfirst, List.take_append_of_le_length hlong]

/-- A block that does not fit starts another batch. -/
theorem FirstFull.reset (h : FirstFull capacity (front ++ [current]) blocks) (anchor : Header)
    (hfit : current.doesntFit (nothingCompressed 0) block.txList = some reason) :
    FirstFull capacity
      (front ++ [current, { current with blocks := [block], anchorBlock := anchor }])
      (blocks ++ [block]) := by
  obtain ⟨hcapacity, htarget⟩ := h.settings current (by simp)
  rw [doesntFit_filled hcapacity htarget] at hfit
  have hfull : current.blocks.length = capacity := by
    by_contra hne
    simp [hne] at hfit
  constructor
  · intro batch hbatch
    rcases List.mem_append.mp hbatch with hbatch | hbatch
    · exact h.settings batch (by simp [hbatch])
    · rcases List.mem_pair.mp hbatch with rfl | rfl
      · exact ⟨hcapacity, htarget⟩
      · exact ⟨hcapacity, htarget⟩
  · obtain ⟨first, rest, hbatches, hfirst, hrest⟩ := h.first
    have hlong : capacity ≤ blocks.length := by
      cases front with
      | nil =>
          cases hbatches
          rw [hfirst, List.length_take] at hfull
          omega
      | cons other front =>
          cases hbatches
          exact hrest.resolve_left (by simp)
    refine ⟨first, rest ++ [{ current with blocks := [block], anchorBlock := anchor }], ?_, ?_,
      .inr (by simp; omega)⟩
    · rw [← List.cons_append, ← hbatches]
      simp
    · rw [hfirst, List.take_append_of_le_length hlong]

end FirstFull

/-- Refilling from an empty batch fills the first batch up to the capacity. -/
theorem refill_firstFull {capacity : Nat} (anchor : Header) {front : List Batch}
    {current : Batch} {placed : List PreconfirmedBlock} (blocks : List PreconfirmedBlock)
    (h : FirstFull capacity (front ++ [current]) placed)
    (hnumbers : (current.blocks ++ blocks).Pairwise fun first second =>
      first.number < second.number) :
    FirstFull capacity (refill nothingCompressed anchor front current blocks)
      (placed ++ blocks) := by
  induction blocks generalizing front current placed with
  | nil => simpa [refill] using h
  | cons block rest ih =>
      have hbefore : ∀ previous ∈ current.blocks, previous.number < block.number := by
        intro previous hprevious
        exact (List.pairwise_append.mp hnumbers).2.2 previous hprevious block (by simp)
      simp only [refill]
      obtain ⟨hfit, hadd⟩ | ⟨reason, hfit, hadd⟩ :=
        Batch.add_block_cases (nothingCompressed 0) anchor hbefore
      · simp only [hadd]
        simpa using ih (h.push hfit) (by simpa using hnumbers)
      · simp only [hadd]
        have hstep := h.reset anchor hfit
        rw [List.append_cons] at hstep
        simpa using ih hstep (List.pairwise_append.mp hnumbers).2.1

namespace BatchMap

/-- Placing a soft block keeps the first batch under each anchor filled up to the capacity. -/
theorem addAnchoredBlock_firstFull {capacity : Nat} (hcapacity : 0 < capacity)
    {inner result : OrderedMap Nat (List Batch)} {placed : List AnchoredBlock}
    {anchored : AnchoredBlock} (hgrouped : Grouped inner placed)
    (hnumber : ∀ previous ∈ placed, previous.number < anchored.number)
    (h : ∀ key batches, inner.find? key = some batches → FirstFull capacity batches
      ((withAnchor placed key).map AnchoredBlock.intoPreconfirmed))
    (hresult : addAnchoredBlock (nothingCompressed 0) (filledTo capacity) inner anchored =
      .ok result) :
    ∀ key batches, result.find? key = some batches → FirstFull capacity batches
      ((withAnchor (placed ++ [anchored]) key).map AnchoredBlock.intoPreconfirmed) := by
  -- it is enough to look at the batches under the anchor of the new block
  have hinsert : ∀ batches, FirstFull capacity batches
        ((withAnchor placed anchored.anchorId).map AnchoredBlock.intoPreconfirmed ++
          [anchored.intoPreconfirmed]) →
      result = inner.insert anchored.anchorId batches →
      ∀ key batches, result.find? key = some batches → FirstFull capacity batches
        ((withAnchor (placed ++ [anchored]) key).map AnchoredBlock.intoPreconfirmed) := by
    rintro batches hnew rfl key found hfind
    rw [OrderedMap.find?_insert] at hfind
    split at hfind
    · next heq =>
        cases hfind
        simpa [heq, withAnchor] using hnew
    · next hne =>
        have hskip : withAnchor [anchored] key = [] := by simp [withAnchor, Ne.symm hne]
        simpa [hskip] using h key found hfind
  unfold addAnchoredBlock at hresult
  cases hfind : inner.find? anchored.anchorId with
  | none =>
      have hskip := hgrouped.withAnchor_eq_nil hfind
      simp only [AnchoredBlock.anchorId] at hfind
      simp only [hfind, pure, Except.pure, Except.ok.injEq] at hresult
      refine hinsert _ ?_ hresult.symm
      refine ⟨by simp [Batch.fromBlocksUnchecked, filledTo], _, [], rfl, ?_, .inl rfl⟩
      rw [hskip, List.map_nil, List.nil_append, List.take_of_length_le (by simp; omega)]
      rfl
  | some batches =>
      have hfull := h _ _ hfind
      have hne := (hgrouped.nonempty _ _ hfind).1
      obtain ⟨front, current, rfl⟩ : ∃ front current, batches = front ++ [current] :=
        ⟨batches.dropLast, batches.getLast hne, (List.dropLast_append_getLast hne).symm⟩
      have hbefore := hgrouped.number_lt hnumber hfind (by simp : current ∈ front ++ [current])
      simp only [AnchoredBlock.anchorId] at hfind
      simp only [hfind, expect, List.getLast?_append, List.getLast?_singleton, Option.some_or,
        List.dropLast_concat, bind, Except.bind] at hresult
      obtain ⟨hfit, hadd⟩ | ⟨reason, hfit, hadd⟩ :=
        Batch.add_block_cases (nothingCompressed 0) anchored.anchor hbefore
      · simp only [hadd, pure, Except.pure, Except.ok.injEq] at hresult
        exact hinsert _ (hfull.push hfit) hresult.symm
      · simp only [hadd, pure, Except.pure, Except.ok.injEq] at hresult
        exact hinsert _ (hfull.reset anchored.anchor hfit) hresult.symm

/-- Placing all soft blocks keeps the first batch under each anchor filled up to the capacity. -/
theorem addAnchoredBlocks_firstFull {capacity : Nat} (hcapacity : 0 < capacity)
    {inner result : OrderedMap Nat (List Batch)} {placed rest : List AnchoredBlock}
    (hgrouped : Grouped inner placed)
    (hnumbers : (placed ++ rest).Pairwise fun first second => first.number < second.number)
    (h : ∀ key batches, inner.find? key = some batches → FirstFull capacity batches
      ((withAnchor placed key).map AnchoredBlock.intoPreconfirmed))
    (hresult : addAnchoredBlocks nothingCompressed (filledTo capacity) inner rest =
      .ok result) :
    ∀ key batches, result.find? key = some batches → FirstFull capacity batches
      ((withAnchor (placed ++ rest) key).map AnchoredBlock.intoPreconfirmed) := by
  induction rest generalizing inner placed with
  | nil =>
      cases hresult
      simpa using h
  | cons anchored rest ih =>
      have hbefore : ∀ previous ∈ placed, previous.number < anchored.number := by
        intro previous hprevious
        exact (List.pairwise_append.mp hnumbers).2.2 previous hprevious anchored (by simp)
      obtain ⟨following, hstep, hgrouped'⟩ := addAnchoredBlock_grouped (nothingCompressed 0)
        (filledTo capacity) hgrouped hbefore
      have hfull := addAnchoredBlock_firstFull hcapacity hgrouped hbefore h hstep
      simp only [addAnchoredBlocks, hstep, nothingCompressed_tail, bind, Except.bind] at hresult
      simpa using ih hgrouped' (by simpa using hnumbers) hfull hresult

end BatchMap

/-- The pipeline input that fills every batch up to a capacity. -/
def fillingInput (capacity minProposableAnchor : Nat) (safeL1Anchor : Header)
    (minTs maxTs : Nat) : PipelineInput :=
  { settings := filledTo capacity, newEstimates := nothingCompressed,
    reanchorEstimates := nothingCompressed, minProposableAnchor := minProposableAnchor,
    safeL1Anchor := safeL1Anchor, minTs := minTs, maxTs := maxTs }

section Unfit

variable {minProposableAnchor minTs maxTs : Nat} {soft : ContiguousAnchoredBlocks}
  {before after : List AnchoredBlock} {first second : AnchoredBlock}

/-- Blocks in range that are the first soft blocks make batches in range. -/
theorem inRange_of_blocks {batches : List Batch} {blocks : List AnchoredBlock}
    (hblocks : blocksOf batches = blocks.map AnchoredBlock.intoPreconfirmed)
    (hrange : ∀ block ∈ blocks, minTs ≤ block.timestamp ∧ block.timestamp ≤ maxTs) :
    ∀ batch ∈ batches, batch.inRange minTs maxTs = true := by
  intro batch hbatch
  refine Batch.inRange_iff.mpr fun block hblock => ?_
  have hmem : block ∈ blocksOf batches := mem_blocksOf.mpr ⟨batch, hbatch, hblock⟩
  rw [hblocks] at hmem
  obtain ⟨source, hsource, rfl⟩ := List.mem_map.mp hmem
  exact hrange source hsource

/-- Re-anchored neighbours reach the first batch together. -/
theorem exists_unfit_of_reanchored (safeL1Anchor : Header)
    (hsoft : soft.blocks = before ++ first :: second :: after)
    (hold : ∃ block ∈ soft.blocks, block.anchorId < minProposableAnchor)
    (hrange : ∀ block ∈ before ++ [first, second],
      minTs ≤ block.timestamp ∧ block.timestamp ≤ maxTs) :
    ∃ map, createBatchMap (fillingInput (before.length + 2) minProposableAnchor safeL1Anchor
        minTs maxTs) soft = .ok map ∧
      ∃ batch ∈ map.intoVec.batches, ∃ earlier,
        batch.blocks = earlier ++ [first.intoPreconfirmed, second.intoPreconfirmed] := by
  obtain ⟨initial, anchored, -, -, -, hmap, hcases⟩ := createBatchMap_cases
    (fillingInput (before.length + 2) minProposableAnchor safeL1Anchor minTs maxTs) soft
  refine ⟨_, hmap, ?_⟩
  obtain ⟨hyoung, -⟩ | ⟨-, -, -, -, hvalues, -⟩ := hcases
  · obtain ⟨block, hblock, hlt⟩ := hold
    exact absurd hlt (not_lt.mpr (hyoung block hblock))
  · have hempty : FirstFull (before.length + 2)
        ([] ++ [Batch.new safeL1Anchor (filledTo (before.length + 2))]) [] :=
      ⟨by simp [Batch.new, filledTo], _, [], rfl, by simp, .inl rfl⟩
    obtain ⟨batch, rest, hrefill, hblocks, -⟩ := (refill_firstFull safeL1Anchor
      soft.intoPreconfirmed hempty soft.intoPreconfirmed_numbers).first
    have htake : batch.blocks = (before ++ [first, second]).map AnchoredBlock.intoPreconfirmed := by
      have hlength : before.length + 2 =
          ((before ++ [first, second]).map AnchoredBlock.intoPreconfirmed).length := by simp
      have hall : soft.intoPreconfirmed =
          (before ++ [first, second]).map AnchoredBlock.intoPreconfirmed ++
            after.map AnchoredBlock.intoPreconfirmed := by
        simp [ContiguousAnchoredBlocks.intoPreconfirmed, hsoft]
      rw [hblocks, List.nil_append, hall, hlength, List.take_left]
    refine ⟨batch, ?_, before.map AnchoredBlock.intoPreconfirmed, by simpa using htake⟩
    have hprefix : [batch] <+: anchored.inner.values.flatten := by
      rw [hvalues, List.flatten_singleton]
      exact ⟨rest, hrefill.symm⟩
    refine (anchored.prefix_retimestamp minTs maxTs hprefix ?_).subset (List.mem_singleton_self _)
    exact inRange_of_blocks (by simpa using htake) hrange

/-- The first batch under an anchor, with the capacity for the blocks before two neighbours under
it, ends with these. -/
theorem exists_part_of_same_anchor {inner : OrderedMap Nat (List Batch)}
    (hloop : BatchMap.addAnchoredBlocks nothingCompressed
      (filledTo ((withAnchor before first.anchorId).length + 2)) .empty soft.blocks = .ok inner)
    (hgrouped : Grouped inner soft.blocks)
    (hsoft : soft.blocks = before ++ first :: second :: after)
    (hanchor : first.anchorId = second.anchorId)
    (hcoinbase : first.block.header.beneficiary = second.block.header.beneficiary) :
    ∃ part ∈ (BatchMap.ofInner inner).ensureUniqueCoinbase.inner.values.flatten, ∃ earlier,
      part.blocks = earlier ++ [first.intoPreconfirmed, second.intoPreconfirmed] := by
  obtain ⟨batches, hfind⟩ := OrderedMap.mem_keys_iff.mp
    ((hgrouped.keys first.anchorId).mpr ⟨first, by simp [hsoft], rfl⟩)
  obtain ⟨batch, rest, rfl, hblocks, -⟩ := (BatchMap.addAnchoredBlocks_firstFull (by omega)
    grouped_empty (by simpa using soft.numbers_increase) (by simp) hloop _ _ hfind).first
  have htake : batch.blocks = (withAnchor before first.anchorId).map
      AnchoredBlock.intoPreconfirmed ++ [first.intoPreconfirmed, second.intoPreconfirmed] := by
    have hall : (withAnchor soft.blocks first.anchorId).map AnchoredBlock.intoPreconfirmed =
        ((withAnchor before first.anchorId).map AnchoredBlock.intoPreconfirmed ++
          [first.intoPreconfirmed, second.intoPreconfirmed]) ++
            (withAnchor after first.anchorId).map AnchoredBlock.intoPreconfirmed := by
      simp [hsoft, withAnchor, hanchor]
    rw [hblocks, List.nil_append, hall]
    exact List.take_left' (by simp)
  obtain ⟨part, hpart, earlier, hearlier⟩ := Batch.splitByCoinbase_last htake hcoinbase
  refine ⟨part, ?_, earlier, hearlier⟩
  simp only [BatchMap.ensureUniqueCoinbase, BatchMap.ofInner, OrderedMap.values_mapValues,
    List.mem_flatten, List.mem_map]
  refine ⟨_, ⟨_, OrderedMap.mem_values_iff.mpr ⟨_, hfind⟩, rfl⟩, ?_⟩
  exact List.mem_flatMap.mpr ⟨batch, by simp, hpart⟩

/-- Where batches list the soft blocks in order, those up to the one that ends with two neighbours
hold the blocks up to these. -/
theorem blocksOf_up_to_neighbours {front back : List Batch} {part : Batch}
    {earlier : List PreconfirmedBlock}
    (hordered : blocksOf (front ++ part :: back) = soft.intoPreconfirmed)
    (hsoft : soft.blocks = before ++ first :: second :: after)
    (hearlier : part.blocks = earlier ++ [first.intoPreconfirmed, second.intoPreconfirmed]) :
    blocksOf (front ++ [part]) =
      (before ++ [first, second]).map AnchoredBlock.intoPreconfirmed := by
  obtain ⟨before', first', second', after', hsoft', hfirst, hsecond, hbefore⟩ :=
    exists_neighbours hordered hearlier
  obtain rfl : first = first' := soft.eq_of_number_eq (by simp [hsoft]) (by simp [hsoft'])
    (congrArg PreconfirmedBlock.number hfirst)
  obtain rfl : second = second' := soft.eq_of_number_eq (by simp [hsoft]) (by simp [hsoft'])
    (congrArg PreconfirmedBlock.number hsecond)
  obtain rfl : before = before' := soft.before_unique hsoft hsoft'
  simp [hearlier, hbefore]

/-- Neighbours with one anchor and one coinbase reach a batch together. -/
theorem exists_unfit_of_same_anchor (safeL1Anchor : Header)
    (hanchors : soft.blocks.Pairwise fun first second => first.anchorId ≤ second.anchorId)
    (hsoft : soft.blocks = before ++ first :: second :: after)
    (hyoung : ¬ ∃ block ∈ soft.blocks, block.anchorId < minProposableAnchor)
    (hanchor : first.anchorId = second.anchorId)
    (hcoinbase : first.block.header.beneficiary = second.block.header.beneficiary)
    (hrange : ∀ block ∈ before ++ [first, second],
      minTs ≤ block.timestamp ∧ block.timestamp ≤ maxTs) :
    ∃ map, createBatchMap (fillingInput ((withAnchor before first.anchorId).length + 2)
        minProposableAnchor safeL1Anchor minTs maxTs) soft = .ok map ∧
      ∃ batch ∈ map.intoVec.batches, ∃ earlier,
        batch.blocks = earlier ++ [first.intoPreconfirmed, second.intoPreconfirmed] := by
  obtain ⟨initial, anchored, hnew, hgrouped, -, hmap, hcases⟩ := createBatchMap_cases
    (fillingInput ((withAnchor before first.anchorId).length + 2) minProposableAnchor
      safeL1Anchor minTs maxTs) soft
  refine ⟨_, hmap, ?_⟩
  obtain ⟨-, rfl⟩ | ⟨oldest, holdest, hlt, -⟩ := hcases
  · obtain ⟨inner, hloop, hnew', hgrouped'⟩ := BatchMap.new_grouped nothingCompressed soft
      (filledTo ((withAnchor before first.anchorId).length + 2))
    obtain rfl : BatchMap.ofInner inner = initial := Except.ok.inj (hnew'.symm.trans hnew)
    obtain ⟨part, hmem, earlier, hearlier⟩ :=
      exists_part_of_same_anchor hloop hgrouped' hsoft hanchor hcoinbase
    refine ⟨part, ?_, earlier, hearlier⟩
    obtain ⟨front, back, hsplit⟩ := List.append_of_mem hmem
    have hordered := hgrouped.blocks_eq hanchors
    rw [hsplit] at hordered
    have hprefix : front ++ [part] <+:
        (BatchMap.ofInner inner).ensureUniqueCoinbase.inner.values.flatten :=
      ⟨back, by simp [hsplit]⟩
    refine (BatchMap.prefix_retimestamp (.ofInner _) minTs maxTs hprefix ?_).subset (by simp)
    exact inRange_of_blocks (blocksOf_up_to_neighbours hordered hsoft hearlier) hrange
  · exact absurd ⟨oldest, holdest, hlt⟩ hyoung

end Unfit

/-- The time shifts of all batches fit, however these are filled, exactly for soft blocks whose
shifts are bounded. -/
theorem timeShiftsFit_iff (soft : ContiguousAnchoredBlocks) (minProposableAnchor : Nat)
    (safeL1Anchor : Header) (minTs maxTs : Nat)
    (hanchors : soft.blocks.Pairwise fun first second => first.anchorId ≤ second.anchorId)
    (htimestamps : soft.blocks.Pairwise fun first second => first.timestamp ≤ second.timestamp) :
    (∀ settings newEstimates reanchorEstimates, ∃ map,
        createBatchMap ⟨settings, newEstimates, reanchorEstimates, minProposableAnchor,
          safeL1Anchor, minTs, maxTs⟩ soft = .ok map ∧
        ∀ batch ∈ map.intoVec.batches, batch.TimeShiftsFit) ↔
      ShiftsBounded minProposableAnchor minTs maxTs soft := by
  constructor
  · intro hfits before first second after hsoft hfar hmerge
    by_contra hin
    have hrange' : ∀ block ∈ before ++ [first, second],
        minTs ≤ block.timestamp ∧ block.timestamp ≤ maxTs := by
      intro block hblock
      by_contra hout
      exact hin ⟨block, hblock, by omega⟩
    obtain ⟨capacity, map, hmap, batch, hbatch, earlier, hblocks⟩ :
        ∃ capacity map, createBatchMap (fillingInput capacity minProposableAnchor safeL1Anchor
            minTs maxTs) soft = .ok map ∧
          ∃ batch ∈ map.intoVec.batches, ∃ earlier,
            batch.blocks = earlier ++ [first.intoPreconfirmed, second.intoPreconfirmed] := by
      by_cases hold : ∃ block ∈ soft.blocks, block.anchorId < minProposableAnchor
      · exact ⟨_, exists_unfit_of_reanchored safeL1Anchor hsoft hold hrange'⟩
      · obtain ⟨hanchor, hcoinbase⟩ := hmerge.resolve_left hold
        exact ⟨_, exists_unfit_of_same_anchor safeL1Anchor hanchors hsoft hold hanchor hcoinbase
          hrange'⟩
    obtain ⟨map', hmap', hall⟩ := hfits (filledTo capacity) nothingCompressed nothingCompressed
    obtain rfl : map = map' := Except.ok.inj (hmap.symm.trans hmap')
    have hfit := List.isChain_iff_forall_rel_of_append_cons_cons.mp (hall batch hbatch) hblocks
    simp only [AnchoredBlock.timestamp_intoPreconfirmed] at hfit
    omega
  · intro h settings newEstimates reanchorEstimates
    exact timeShiftsFit_of_bounded _ soft hanchors htimestamps h

/-- Soft blocks twelve seconds apart have time shifts that fit. -/
theorem timeShiftsFit_twelve_seconds :
    ∃ map, createBatchMap (fillingInput 2 0 (l1Header 12) 0 1000) (twoSoftBlocks 12) = .ok map ∧
      ∀ batch ∈ map.intoVec.batches, batch.TimeShiftsFit := by
  refine (timeShiftsFit_iff (twoSoftBlocks 12) 0 (l1Header 12) 0 1000 (by decide)
    (by decide)).mpr ?_ (filledTo 2) nothingCompressed nothingCompressed
  intro before first second after hsoft hfar
  have hnear : (twoSoftBlocks 12).blocks.IsChain fun first second =>
      second.timestamp ≤ first.timestamp + MAX_TIMESHIFT_SECS := by
    simp [twoSoftBlocks, softBlock, AnchoredBlock.timestamp, MAX_TIMESHIFT_SECS]
  have hle := List.isChain_iff_forall_rel_of_append_cons_cons.mp hnear hsoft
  omega

/-- Two soft blocks 256 seconds apart, on one anchor and in range, reach the same batch. -/
theorem timeShift_of_256_seconds :
    (twoSoftBlocks 256).blocks.Pairwise (fun first second => first.anchorId ≤ second.anchorId) ∧
      (twoSoftBlocks 256).blocks.Pairwise
        (fun first second => first.timestamp ≤ second.timestamp) ∧
      ∃ map batch, createBatchMap (fillingInput 2 0 (l1Header 12) 0 1000) (twoSoftBlocks 256) =
          .ok map ∧
        map.intoVec.batches = [batch] ∧
        batch.blocks = [(softBlock 1 100).intoPreconfirmed, (softBlock 2 356).intoPreconfirmed] ∧
        ¬ batch.TimeShiftsFit := by
  refine ⟨by decide, by decide, _, _, rfl, rfl, rfl, ?_⟩
  intro hfits
  have hpair := (List.isChain_cons_cons.mp hfits).1.1
  exact absurd hpair (by decide)

end Mk1
