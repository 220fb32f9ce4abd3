import Mk1.Primitives.BatchMap.Grouping

/-!
# The coinbase-checked batch map

What the documentation of the second stage promises: under each anchor non-empty batches within
the capacity, each with the coinbase of its blocks, in the order of the block numbers.
`coinbase_checked` proves it for all soft blocks, and that `Batch.splitByCoinbase` cuts a batch
into as few parts as possible.
-/

namespace Mk1

/-- A way to cut the blocks of a batch into batches of one coinbase that needs as few of them as
possible. -/
structure Batch.SplitsByCoinbase (batch : Batch) (parts : List Batch) : Prop where
  blocks : blocksOf parts = batch.blocks
  nonempty : ∀ part ∈ parts, part.blocks ≠ []
  coinbases : ∀ part ∈ parts, ∀ block ∈ part.blocks, block.coinbase = part.coinbase
  neighbours : parts.IsChain fun first second => first.coinbase ≠ second.coinbase
  fewest : ∀ pieces : List (List PreconfirmedBlock), pieces.flatten = batch.blocks →
    (∀ piece ∈ pieces, ∀ first ∈ piece, ∀ second ∈ piece, first.coinbase = second.coinbase) →
      parts.length ≤ pieces.length

/-- A batch in a coinbase-checked map, under this key. -/
structure Batch.CoinbaseChecked (capacity key : Nat) (batch : Batch) : Prop where
  anchorId : batch.anchorId = key
  nonempty : batch.blocks ≠ []
  length_le : batch.blocks.length ≤ capacity
  coinbases : ∀ block ∈ batch.blocks, block.coinbase = batch.coinbase

/-! ## The capacity of the batches -/

/-- A batch within the capacity that it has in its settings. -/
structure Batch.Within (capacity : Nat) (batch : Batch) : Prop where
  capacity_eq : batch.settings.capacity = capacity
  length_le : batch.blocks.length ≤ capacity

/-- A batch within its capacity is so after a block is added, and what is handed out is too. -/
theorem Batch.Within.add {capacity : Nat} (hcapacity : 1 ≤ capacity) {batch : Batch}
    (h : batch.Within capacity) (estimate : CompressionEstimate) (block : PreconfirmedBlock)
    (newAnchor : Header) :
    (batch.addBlockAndResetIfFull estimate block newAnchor).2.Within capacity ∧
      ∀ reason handedOut,
        (batch.addBlockAndResetIfFull estimate block newAnchor).1 = .full reason handedOut →
          handedOut.Within capacity := by
  have hkept : (batch.retainBlocksBefore block.number).blocks.length ≤ capacity :=
    (List.length_filter_le _ _).trans h.length_le
  obtain ⟨hfit, hadd⟩ | ⟨reason, -, hadd⟩ := Batch.add_block_spec estimate batch block newAnchor
  · have hroom : (batch.retainBlocksBefore block.number).blocks.length ≠ capacity :=
      h.capacity_eq ▸ (Batch.doesntFit_eq_none_iff.mp hfit).2
    rw [hadd]
    refine ⟨⟨h.capacity_eq, ?_⟩, fun _ _ hfull => AddBlockResult.noConfusion hfull⟩
    rw [Batch.blocks_push, List.length_append, List.length_singleton]
    omega
  · rw [hadd]
    refine ⟨⟨h.capacity_eq, hcapacity⟩, fun other handedOut hfull => ?_⟩
    obtain ⟨-, rfl⟩ := AddBlockResult.full.inj hfull
    exact ⟨h.capacity_eq, hkept⟩

namespace BatchMap

/-- Every batch of the map is within the capacity. -/
def AllWithin (capacity : Nat) (inner : OrderedMap Nat (List Batch)) : Prop :=
  ∀ key batches, inner.find? key = some batches → ∀ batch ∈ batches, batch.Within capacity

/-- Batches within the capacity may replace those under a key. -/
theorem AllWithin.insert {capacity : Nat} {inner : OrderedMap Nat (List Batch)}
    (h : AllWithin capacity inner) {batches : List Batch}
    (hbatches : ∀ batch ∈ batches, batch.Within capacity) (key : Nat) :
    AllWithin capacity (inner.insert key batches) := by
  intro other found hfound
  rw [OrderedMap.find?_insert] at hfound
  split at hfound
  · cases hfound
    exact hbatches
  · exact h other found hfound

/-- One iteration of the loop of `BatchMap::new` keeps all batches within the capacity. -/
theorem addAnchoredBlock_within {estimate : CompressionEstimate} {settings : BatchSettings}
    (hcapacity : 1 ≤ settings.capacity) {inner result : OrderedMap Nat (List Batch)}
    (h : AllWithin settings.capacity inner) {anchored : AnchoredBlock}
    (hstep : addAnchoredBlock estimate settings inner anchored = .ok result) :
    AllWithin settings.capacity result := by
  unfold addAnchoredBlock at hstep
  cases hfind : inner.find? anchored.anchor.number with
  | none =>
      simp only [hfind] at hstep
      obtain rfl := Except.ok.inj hstep
      refine h.insert (fun batch hbatch => ?_) _
      rw [List.mem_singleton.mp hbatch]
      exact ⟨rfl, hcapacity⟩
  | some batches =>
      simp only [hfind] at hstep
      obtain ⟨current, hcurrent, hstep⟩ := bind_eq_ok.mp hstep
      have hlast : current ∈ batches := by
        cases hget : batches.getLast? with
        | none => simp [hget, expect] at hcurrent
        | some last =>
            simp only [hget, expect, Except.ok.injEq] at hcurrent
            exact hcurrent ▸ List.mem_of_getLast? hget
      have hold : ∀ batch ∈ batches.dropLast, batch.Within settings.capacity := fun batch hbatch =>
        h _ batches hfind batch (List.mem_of_mem_dropLast hbatch)
      obtain ⟨hnew, hfull⟩ := (h _ batches hfind current hlast).add hcapacity estimate
        (PreconfirmedBlock.fromBlock anchored.block) anchored.anchor
      split at hstep
      · next size cursor hadd =>
          obtain rfl := Except.ok.inj hstep
          refine h.insert (List.forall_mem_append.mpr ⟨hold, ?_⟩) _
          rw [hadd] at hnew
          exact List.forall_mem_singleton.mpr hnew
      · next reason handedOut cursor hadd =>
          obtain rfl := Except.ok.inj hstep
          refine h.insert (List.forall_mem_append.mpr ⟨hold, ?_⟩) _
          rw [hadd] at hnew
          refine List.forall_mem_cons.mpr ⟨hfull reason handedOut ?_,
            List.forall_mem_singleton.mpr hnew⟩
          rw [hadd]

/-- The loop of `BatchMap::new` keeps all batches within the capacity. -/
theorem addAnchoredBlocks_within {estimates : Estimates} {settings : BatchSettings}
    (hcapacity : 1 ≤ settings.capacity) {inner result : OrderedMap Nat (List Batch)}
    (h : AllWithin settings.capacity inner) {soft : List AnchoredBlock}
    (hloop : addAnchoredBlocks estimates settings inner soft = .ok result) :
    AllWithin settings.capacity result := by
  induction soft generalizing estimates inner with
  | nil =>
      obtain rfl := Except.ok.inj hloop
      exact h
  | cons anchored rest ih =>
      obtain ⟨following, hstep, hrest⟩ := bind_eq_ok.mp hloop
      exact ih (addAnchoredBlock_within hcapacity h hstep) hrest

end BatchMap

/-! ## The parts of a split batch -/

namespace Batch

/-- The first batch that the split hands out has the coinbase of the one being filled. -/
theorem coinbase_head_splitByCoinbaseLoop (currentBatch : Batch) (rest : List PreconfirmedBlock) :
    ∀ first ∈ (splitByCoinbaseLoop currentBatch rest).head?,
      first.coinbase = currentBatch.coinbase := by
  induction rest generalizing currentBatch with
  | nil => exact fun first hfirst => Option.some.inj hfirst ▸ rfl
  | cons block rest ih =>
      simp only [splitByCoinbaseLoop]
      split
      · exact fun first hfirst => Option.some.inj hfirst ▸ rfl
      · exact ih (currentBatch.push block)

/-- Batches that the split hands out one after the other differ in their coinbase. -/
theorem splitByCoinbaseLoop_isChain (currentBatch : Batch) (rest : List PreconfirmedBlock) :
    (splitByCoinbaseLoop currentBatch rest).IsChain
      fun first second => first.coinbase ≠ second.coinbase := by
  induction rest generalizing currentBatch with
  | nil => exact List.IsChain.singleton currentBatch
  | cons block rest ih =>
      simp only [splitByCoinbaseLoop]
      split
      · next hdiffers =>
          refine List.isChain_cons.mpr ⟨fun second hsecond => ?_, ih _⟩
          rw [coinbase_head_splitByCoinbaseLoop _ rest second hsecond]
          exact hdiffers
      · exact ih (currentBatch.push block)

/-- Splitting a batch cuts its blocks where their coinbase changes, and nowhere else. -/
theorem splitsByCoinbase (batch : Batch) : batch.SplitsByCoinbase batch.splitByCoinbase := by
  by_cases hempty : batch.blocks = []
  · have hparts : batch.splitByCoinbase = [] := by simp [splitByCoinbase, hempty]
    rw [hparts]
    refine ⟨hempty.symm, ?_, ?_, List.IsChain.nil, fun pieces _ _ => Nat.zero_le _⟩
    · exact fun _ hpart => absurd hpart List.not_mem_nil
    · exact fun _ hpart => absurd hpart List.not_mem_nil
  · obtain ⟨hblocks, -, hparts⟩ := splitByCoinbase_spec hempty
    have hcoinbases : ∀ part ∈ batch.splitByCoinbase, ∀ block ∈ part.blocks,
        block.coinbase = part.coinbase := fun _ hpart => splitByCoinbase_coinbase hpart
    have hneighbours : batch.splitByCoinbase.IsChain
        fun first second => first.coinbase ≠ second.coinbase := by
      unfold splitByCoinbase
      split
      · exact List.IsChain.nil
      · exact splitByCoinbaseLoop_isChain _ _
    refine ⟨hblocks, fun part hpart => (hparts part hpart).2, hcoinbases, hneighbours, ?_⟩
    intro pieces hpieces hsame
    -- the coinbases of the parts occur in the blocks in this order, without equal neighbours
    have hsub : (batch.splitByCoinbase.map Batch.coinbase).Sublist
        (pieces.flatten.map PreconfirmedBlock.coinbase) := by
      rw [hpieces, ← hblocks]
      exact Partition.map_sublist_of_pieces fun part hpart =>
        ⟨(hparts part hpart).2, hcoinbases part hpart⟩
    have hlength := Partition.length_le_of_isChain_sublist
      ((List.isChain_map Batch.coinbase).mpr hneighbours) hsub hsame
    rwa [List.length_map] at hlength

/-- A part has no more blocks than the whole. -/
theorem length_le_of_mem_splitByCoinbase {batch part : Batch} (h : part ∈ batch.splitByCoinbase) :
    part.blocks.length ≤ batch.blocks.length := by
  rw [← batch.splitsByCoinbase.blocks, blocksOf, List.flatMap]
  exact (List.sublist_flatten_of_mem (List.mem_map_of_mem h)).length_le

end Batch

/-- The invariants of the coinbase-checked map, for all soft blocks and size estimates. -/
theorem coinbase_checked (estimates : Estimates) (soft : ContiguousAnchoredBlocks)
    (settings : BatchSettings) (hcapacity : 1 ≤ settings.capacity) :
    (∃ initial, BatchMap.new estimates soft settings = .ok initial ∧
      ∀ key batches, initial.ensureUniqueCoinbase.inner.find? key = some batches →
        (∀ batch ∈ batches, batch.CoinbaseChecked settings.capacity key) ∧
        (blocksOf batches).Pairwise fun first second => first.number < second.number) ∧
      ∀ batch : Batch, batch.SplitsByCoinbase batch.splitByCoinbase := by
  refine ⟨?_, Batch.splitsByCoinbase⟩
  obtain ⟨inner, hloop, hnew, hgrouped⟩ := BatchMap.new_grouped estimates soft settings
  refine ⟨_, hnew, fun key batches hfind => ?_⟩
  have hsplit := BatchMap.ensureUniqueCoinbase_grouped (.ofInner inner) hgrouped
  have hwithin : BatchMap.AllWithin settings.capacity inner :=
    BatchMap.addAnchoredBlocks_within hcapacity (by simp [BatchMap.AllWithin]) hloop
  refine ⟨fun part hpart => ?_, ?_⟩
  · have hwhole := hfind
    simp only [BatchMap.ensureUniqueCoinbase, BatchMap.ofInner, OrderedMap.find?_mapValues,
      Option.map_eq_some_iff] at hwhole
    obtain ⟨whole, hwhole, rfl⟩ := hwhole
    obtain ⟨batch, hbatch, hmem⟩ := List.mem_flatMap.mp hpart
    refine ⟨(hsplit.anchors key _ hfind part hpart).1, (hsplit.nonempty key _ hfind).2 part hpart,
      ?_, Batch.splitByCoinbase_coinbase hmem⟩
    exact (Batch.length_le_of_mem_splitByCoinbase hmem).trans
      (hwithin key whole hwhole batch hbatch).length_le
  · rw [hsplit.blocks key batches hfind]
    exact List.pairwise_map.mpr (soft.numbers_increase.filter _)

/-- Two soft blocks on anchor 10 with different coinbases. -/
def twoCoinbases : ContiguousAnchoredBlocks :=
  let second := softBlock 2 112
  let header := { second.block.header with beneficiary := 1 }
  ⟨[softBlock 1 100, { second with block := { second.block with header := header } }],
    .cons_cons rfl (.singleton _)⟩

/-- These blocks in one batch. -/
def mixedBatch : Batch :=
  { Batch.new (l1Header 10) ⟨8, 1000, 0, 64, 8⟩ with blocks := twoCoinbases.intoPreconfirmed }

/-- Both blocks come under their anchor, and are split as in a batch of the two. -/
theorem coinbase_checked_two :
    (∃ initial batches, BatchMap.new (fun _ size => size) twoCoinbases ⟨8, 1000, 0, 64, 8⟩ =
        .ok initial ∧
      initial.ensureUniqueCoinbase.inner.find? 10 = some batches ∧
      batches.map (fun batch => batch.blocks.map PreconfirmedBlock.number) = [[1], [2]] ∧
      ∀ batch ∈ batches, batch.CoinbaseChecked 8 10) ∧
    mixedBatch.splitByCoinbase.map (fun part => part.blocks.map PreconfirmedBlock.number) =
        [[1], [2]] ∧
      mixedBatch.SplitsByCoinbase mixedBatch.splitByCoinbase := by
  obtain ⟨⟨initial, hnew, hchecked⟩, hsplit⟩ := coinbase_checked (fun _ size => size)
    twoCoinbases ⟨8, 1000, 0, 64, 8⟩ (by decide)
  obtain ⟨batches, hfind, hnumbers⟩ : ∃ batches,
      initial.ensureUniqueCoinbase.inner.find? 10 = some batches ∧
        batches.map (fun batch => batch.blocks.map PreconfirmedBlock.number) = [[1], [2]] := by
    cases hnew
    exact ⟨_, rfl, rfl⟩
  exact ⟨⟨initial, batches, hnew, hfind, hnumbers, (hchecked 10 batches hfind).1⟩, rfl,
    hsplit mixedBatch⟩

end Mk1
