import Mk1.Library.Partition
import Mk1.Primitives.BatchMap

/-!
# Grouping soft blocks by anchor

`Grouped inner placed` says that a map holds the soft blocks `placed`: under
each anchor number its non-empty batches list, in order, exactly the blocks
with that anchor. `new_grouped` and `ensureUniqueCoinbase_grouped` establish it
for the first two stages of the pipeline, so neither loses, duplicates or
reorders a block under its anchor.
-/

namespace Mk1

/-- The blocks of a list of batches, in order. -/
def blocksOf (batches : List Batch) : List PreconfirmedBlock := batches.flatMap Batch.blocks

@[simp] theorem blocksOf_nil : blocksOf [] = [] := rfl

@[simp] theorem blocksOf_append (left right : List Batch) :
    blocksOf (left ++ right) = blocksOf left ++ blocksOf right :=
  List.flatMap_append

@[simp] theorem blocksOf_cons (batch : Batch) (rest : List Batch) :
    blocksOf (batch :: rest) = batch.blocks ++ blocksOf rest := rfl

theorem blocksOf_flatten (batches : List (List Batch)) :
    blocksOf batches.flatten = batches.flatMap blocksOf := by
  induction batches with
  | nil => rfl
  | cons first rest ih => simp [ih]

theorem mem_blocksOf {batches : List Batch} {block : PreconfirmedBlock} :
    block ∈ blocksOf batches ↔ ∃ batch ∈ batches, block ∈ batch.blocks :=
  List.mem_flatMap

/-- The soft blocks anchored to an L1 block number. -/
def withAnchor (placed : List AnchoredBlock) (key : Nat) : List AnchoredBlock :=
  placed.filter fun anchored => anchored.anchorId = key

@[simp] theorem withAnchor_append (left right : List AnchoredBlock) (key : Nat) :
    withAnchor (left ++ right) key = withAnchor left key ++ withAnchor right key :=
  List.filter_append left right

/-- The map holds exactly these soft blocks, grouped by anchor. -/
structure Grouped (inner : OrderedMap Nat (List Batch)) (placed : List AnchoredBlock) :
    Prop where
  anchors : ∀ key batches, inner.find? key = some batches → ∀ batch ∈ batches,
    batch.anchorBlock.number = key ∧ batch.anchorBlock ∈ placed.map AnchoredBlock.anchor
  nonempty : ∀ key batches, inner.find? key = some batches →
    batches ≠ [] ∧ ∀ batch ∈ batches, batch.blocks ≠ []
  blocks : ∀ key batches, inner.find? key = some batches →
    blocksOf batches = (withAnchor placed key).map AnchoredBlock.intoPreconfirmed
  keys : ∀ key, key ∈ inner.keys ↔ ∃ anchored ∈ placed, anchored.anchorId = key

/-- The empty map holds no blocks. -/
theorem grouped_empty : Grouped .empty [] where
  anchors := by simp
  nonempty := by simp
  blocks := by simp
  keys := by simp [OrderedMap.mem_keys_iff]

section Grouped

variable {inner : OrderedMap Nat (List Batch)} {placed : List AnchoredBlock}

/-- A key without a binding groups no block. -/
theorem Grouped.withAnchor_eq_nil (h : Grouped inner placed) {key : Nat}
    (hkey : inner.find? key = none) : withAnchor placed key = [] := by
  refine List.filter_eq_nil_iff.mpr fun anchored hmem => ?_
  have hnot : key ∉ inner.keys := by simp [OrderedMap.mem_keys_iff, hkey]
  have hne : anchored.anchorId ≠ key := fun heq => hnot ((h.keys key).mpr ⟨anchored, hmem, heq⟩)
  simpa using hne

/-- Replacing the batches under the anchor of a new block by batches that end with this block
keeps the grouping. -/
theorem Grouped.insert (h : Grouped inner placed) (anchored : AnchoredBlock)
    {batches : List Batch}
    (hanchors : ∀ batch ∈ batches, batch.anchorBlock.number = anchored.anchorId ∧
      batch.anchorBlock ∈ (placed ++ [anchored]).map AnchoredBlock.anchor)
    (hnonempty : ∀ batch ∈ batches, batch.blocks ≠ [])
    (hblocks : blocksOf batches =
      (withAnchor placed anchored.anchorId).map AnchoredBlock.intoPreconfirmed ++
        [anchored.intoPreconfirmed]) :
    Grouped (inner.insert anchored.anchorId batches) (placed ++ [anchored]) where
  anchors key found hfound batch hbatch := by
    rw [OrderedMap.find?_insert] at hfound
    split at hfound
    · next heq =>
        cases hfound
        exact heq ▸ hanchors batch hbatch
    · obtain ⟨hnumber, hmem⟩ := h.anchors key found hfound batch hbatch
      exact ⟨hnumber, by simp [List.mem_map.mp hmem]⟩
  nonempty key found hfound := by
    rw [OrderedMap.find?_insert] at hfound
    split at hfound
    · cases hfound
      refine ⟨?_, hnonempty⟩
      rintro rfl
      simp at hblocks
    · exact h.nonempty key found hfound
  blocks key found hfound := by
    rw [OrderedMap.find?_insert] at hfound
    split at hfound
    · next heq =>
        cases hfound
        simp [hblocks, heq, withAnchor]
    · next hne =>
        have hskip : withAnchor [anchored] key = [] := by simp [withAnchor, Ne.symm hne]
        simp [h.blocks key found hfound, hskip]
  keys key := by
    have hother : key ∈ inner.keys ↔ ∃ anchored ∈ placed, anchored.anchorId = key := h.keys key
    rw [OrderedMap.mem_keys_iff] at hother ⊢
    by_cases heq : key = anchored.anchorId
    · subst heq
      simp
    · rw [OrderedMap.find?_insert_of_ne batches heq, hother]
      simp [Ne.symm heq]

/-- A block numbered after all soft blocks is numbered after the blocks of every batch. -/
theorem Grouped.number_lt (h : Grouped inner placed) {anchored : AnchoredBlock}
    (hnumber : ∀ previous ∈ placed, previous.number < anchored.number) {key : Nat}
    {batches : List Batch} (hfind : inner.find? key = some batches) {batch : Batch}
    (hbatch : batch ∈ batches) :
    ∀ previous ∈ batch.blocks,
      previous.number < (PreconfirmedBlock.fromBlock anchored.block).number := by
  intro previous hprevious
  have hmem : previous ∈ blocksOf batches := mem_blocksOf.mpr ⟨batch, hbatch, hprevious⟩
  rw [h.blocks key batches hfind] at hmem
  obtain ⟨source, hsource, rfl⟩ := List.mem_map.mp hmem
  exact hnumber source (List.mem_filter.mp hsource).1

/-- The batches in key order list the groups of soft blocks in key order. -/
theorem Grouped.blocks_by_key (h : Grouped inner placed) :
    blocksOf inner.values.flatten =
      (inner.keys.flatMap (withAnchor placed)).map AnchoredBlock.intoPreconfirmed := by
  rw [List.map_flatMap, ← OrderedMap.flatMap_values h.blocks, blocksOf_flatten]

/-- The blocks of all batches are a rearrangement of the soft blocks. -/
theorem Grouped.perm (h : Grouped inner placed) :
    (blocksOf inner.values.flatten).Perm (placed.map AnchoredBlock.intoPreconfirmed) := by
  rw [h.blocks_by_key]
  refine (Partition.flatMap_filter_perm (inner.keys_sorted.imp fun hlt => hlt.ne)
    AnchoredBlock.anchorId fun anchored hmem => ?_).map _
  exact (h.keys _).mpr ⟨anchored, hmem, rfl⟩

/-- With anchors that never decrease, the batches list the soft blocks in their order. -/
theorem Grouped.blocks_eq (h : Grouped inner placed)
    (hmono : placed.Pairwise fun first second => first.anchorId ≤ second.anchorId) :
    blocksOf inner.values.flatten = placed.map AnchoredBlock.intoPreconfirmed := by
  rw [h.blocks_by_key]
  refine congrArg (List.map _) (Partition.flatMap_filter_eq inner.keys_sorted
    AnchoredBlock.anchorId (fun anchored hmem => ?_) hmono)
  exact (h.keys _).mpr ⟨anchored, hmem, rfl⟩

end Grouped

/-! ## The loop of `BatchMap::new` -/

namespace BatchMap

/-- Placing one more soft block, numbered after those already placed, succeeds and keeps the
grouping. -/
theorem addAnchoredBlock_grouped (estimate : CompressionEstimate) (settings : BatchSettings)
    {inner : OrderedMap Nat (List Batch)} {placed : List AnchoredBlock}
    {anchored : AnchoredBlock} (h : Grouped inner placed)
    (hnumber : ∀ previous ∈ placed, previous.number < anchored.number) :
    ∃ result, addAnchoredBlock estimate settings inner anchored = .ok result ∧
      Grouped result (placed ++ [anchored]) := by
  unfold addAnchoredBlock
  cases hfind : inner.find? anchored.anchorId with
  | none =>
      -- the first block on its anchor starts a list of batches
      have hskip := h.withAnchor_eq_nil hfind
      simp only [AnchoredBlock.anchorId] at hfind
      simp only [hfind]
      refine ⟨_, rfl, h.insert anchored ?_ ?_ ?_⟩
      · simp [Batch.fromBlocksUnchecked, AnchoredBlock.anchorId]
      · simp [Batch.fromBlocksUnchecked]
      · simp [Batch.fromBlocksUnchecked, hskip, AnchoredBlock.intoPreconfirmed]
  | some batches =>
      obtain ⟨hne, hblocks⟩ := h.nonempty _ _ hfind
      have hanchors := h.anchors _ _ hfind
      have hgroup := h.blocks _ _ hfind
      -- otherwise the block goes to the last batch of its anchor, or to a new batch after it
      obtain ⟨front, current, rfl⟩ : ∃ front current, batches = front ++ [current] :=
        ⟨batches.dropLast, batches.getLast hne, (List.dropLast_append_getLast hne).symm⟩
      have hbefore := h.number_lt hnumber hfind (by simp : current ∈ front ++ [current])
      simp only [AnchoredBlock.anchorId] at hfind
      have hold : ∀ batch ∈ front ++ [current],
          batch.anchorBlock.number = anchored.anchorId ∧
            batch.anchorBlock ∈ (placed ++ [anchored]).map AnchoredBlock.anchor := by
        intro batch hbatch
        obtain ⟨hkey, hmem⟩ := hanchors batch hbatch
        exact ⟨hkey, by simp [List.mem_map.mp hmem]⟩
      simp only [hfind, expect, List.getLast?_append, List.getLast?_singleton, Option.some_or,
        List.dropLast_concat, bind, Except.bind]
      obtain ⟨-, hadd⟩ | ⟨reason, -, hadd⟩ := Batch.add_block_cases estimate anchored.anchor hbefore
      · simp only [hadd]
        refine ⟨_, rfl, h.insert anchored ?_ ?_ ?_⟩
        · intro batch hbatch
          rcases List.mem_append.mp hbatch with hbatch | hbatch
          · exact hold batch (by simp [hbatch])
          · rw [List.mem_singleton.mp hbatch]
            exact hold current (by simp)
        · intro batch hbatch
          rcases List.mem_append.mp hbatch with hbatch | hbatch
          · exact hblocks batch (by simp [hbatch])
          · rw [List.mem_singleton.mp hbatch]
            simp
        · rw [← hgroup]
          simp [AnchoredBlock.intoPreconfirmed]
      · simp only [hadd]
        refine ⟨_, rfl, h.insert anchored ?_ ?_ ?_⟩
        · intro batch hbatch
          rcases List.mem_append.mp hbatch with hbatch | hbatch
          · exact hold batch (by simp [hbatch])
          · rcases List.mem_pair.mp hbatch with rfl | rfl
            · exact hold batch (by simp)
            · simp [AnchoredBlock.anchorId]
        · intro batch hbatch
          rcases List.mem_append.mp hbatch with hbatch | hbatch
          · exact hblocks batch (by simp [hbatch])
          · rcases List.mem_pair.mp hbatch with rfl | rfl
            · exact hblocks batch (by simp)
            · simp
        · rw [← hgroup]
          simp [AnchoredBlock.intoPreconfirmed]

/-- Placing soft blocks in increasing order of number succeeds and groups all of them. -/
theorem addAnchoredBlocks_grouped (estimates : Estimates) (settings : BatchSettings)
    {inner : OrderedMap Nat (List Batch)} {placed rest : List AnchoredBlock}
    (h : Grouped inner placed)
    (hnumbers : (placed ++ rest).Pairwise fun first second => first.number < second.number) :
    ∃ result, addAnchoredBlocks estimates settings inner rest = .ok result ∧
      Grouped result (placed ++ rest) := by
  induction rest generalizing estimates inner placed with
  | nil => exact ⟨inner, rfl, by simpa using h⟩
  | cons anchored rest ih =>
      have hbefore : ∀ previous ∈ placed, previous.number < anchored.number := by
        intro previous hprevious
        exact (List.pairwise_append.mp hnumbers).2.2 previous hprevious anchored (by simp)
      obtain ⟨following, hstep, hgrouped⟩ :=
        addAnchoredBlock_grouped (estimates 0) settings h hbefore
      obtain ⟨result, hrest, hresult⟩ := ih estimates.tail hgrouped (by simpa using hnumbers)
      refine ⟨result, ?_, by simpa using hresult⟩
      simp [addAnchoredBlocks, hstep, hrest, bind, Except.bind]

/-- Non-empty batches whose blocks increase in number are keyed in increasing order. -/
theorem keyByFirstNumber_sorted {batches : List Batch}
    (hne : ∀ batch ∈ batches, batch.blocks ≠ [])
    (hsorted : (blocksOf batches).Pairwise fun first second => first.number < second.number) :
    ∃ keyed, keyByFirstNumber batches = .ok keyed ∧ keyed.map Prod.snd = batches ∧
      keyed.Pairwise (fun first second => first.1 ≤ second.1) ∧
      ∀ entry ∈ keyed, ∃ block ∈ blocksOf batches, block.number = entry.1 := by
  induction batches with
  | nil => exact ⟨[], rfl, rfl, .nil, by simp⟩
  | cons batch rest ih =>
      obtain ⟨first, blocks, hblocks⟩ := List.exists_cons_of_ne_nil (hne batch (by simp))
      rw [blocksOf_cons, List.pairwise_append] at hsorted
      obtain ⟨-, hrest, hacross⟩ := hsorted
      obtain ⟨keyed, hkeyed, hbatches, hkeys, hmem⟩ :=
        ih (fun other hother => hne other (by simp [hother])) hrest
      refine ⟨(first.number, batch) :: keyed, ?_, by simp [hbatches], ?_, ?_⟩
      · simp [keyByFirstNumber, firstNumber, hblocks, expect, hkeyed, bind, Except.bind, pure,
          Except.pure]
      · refine List.pairwise_cons.mpr ⟨fun entry hentry => ?_, hkeys⟩
        obtain ⟨block, hblock, hnumber⟩ := hmem entry hentry
        exact hnumber ▸ (hacross first (by simp [hblocks]) block hblock).le
      · intro entry hentry
        rcases List.mem_cons.mp hentry with rfl | hentry
        · exact ⟨first, by simp [hblocks], rfl⟩
        · obtain ⟨block, hblock, hnumber⟩ := hmem entry hentry
          exact ⟨block, by simp [hblock], hnumber⟩

/-- The sort at the end of `BatchMap::new` never panics and finds the batches already sorted. -/
theorem sortByFirstNumber_eq_self {batches : List Batch}
    (hne : ∀ batch ∈ batches, batch.blocks ≠ [])
    (hsorted : (blocksOf batches).Pairwise fun first second => first.number < second.number) :
    sortByFirstNumber batches = .ok batches := by
  unfold sortByFirstNumber
  split
  · rfl
  · obtain ⟨keyed, hkeyed, hbatches, hkeys, -⟩ := keyByFirstNumber_sorted hne hsorted
    have hself : sortByKey Prod.fst keyed = keyed := hkeys.insertionSort_eq
    simp [hkeyed, hself, hbatches, bind, Except.bind, pure, Except.pure]

/-- `BatchMap::new` does not panic and groups all soft blocks by anchor. -/
theorem new_grouped (estimates : Estimates) (soft : ContiguousAnchoredBlocks)
    (settings : BatchSettings) :
    ∃ inner, addAnchoredBlocks estimates settings .empty soft.blocks = .ok inner ∧
      new estimates soft settings = .ok (ofInner inner) ∧ Grouped inner soft.blocks := by
  unfold new
  split
  · next hempty =>
      have hblocks : soft.blocks = [] := by simpa using hempty
      exact ⟨.empty, by rw [hblocks]; rfl, rfl, hblocks ▸ grouped_empty⟩
  · obtain ⟨inner, hloop, hgrouped⟩ := addAnchoredBlocks_grouped estimates settings grouped_empty
      (by simpa using soft.numbers_increase)
    rw [List.nil_append] at hgrouped
    have hsort : inner.traverseValues sortByFirstNumber = .ok inner := by
      refine OrderedMap.traverseValues_eq_self fun key batches hfind => ?_
      refine sortByFirstNumber_eq_self (hgrouped.nonempty key batches hfind).2 ?_
      rw [hgrouped.blocks key batches hfind]
      exact List.pairwise_map.mpr (soft.numbers_increase.filter _)
    exact ⟨inner, hloop, by simp [hloop, hsort, bind, Except.bind, pure, Except.pure], hgrouped⟩

end BatchMap

/-! ## Splitting by coinbase -/

namespace Batch

/-- Splitting a batch that is being filled keeps its blocks and the blocks still to place, in
order, and hands out non-empty batches under the same anchor. -/
theorem splitByCoinbaseLoop_spec (currentBatch : Batch) (rest : List PreconfirmedBlock)
    (hne : currentBatch.blocks ≠ []) :
    blocksOf (splitByCoinbaseLoop currentBatch rest) = currentBatch.blocks ++ rest ∧
      ∀ batch ∈ splitByCoinbaseLoop currentBatch rest,
        batch.anchorBlock = currentBatch.anchorBlock ∧ batch.blocks ≠ [] := by
  induction rest generalizing currentBatch with
  | nil => simpa [splitByCoinbaseLoop] using hne
  | cons block rest ih =>
      simp only [splitByCoinbaseLoop]
      split
      · obtain ⟨hblocks, hbatches⟩ :=
          ih (((new currentBatch.anchorBlock currentBatch.settings).changeCoinbase
            block.coinbase).push block) (by simp)
        refine ⟨by simp [hblocks], ?_⟩
        intro batch hbatch
        rcases List.mem_cons.mp hbatch with rfl | hbatch
        · exact ⟨rfl, hne⟩
        · exact hbatches batch hbatch
      · obtain ⟨hblocks, hbatches⟩ := ih (currentBatch.push block) (by simp)
        exact ⟨by simp [hblocks], hbatches⟩

/-- Splitting a non-empty batch keeps its blocks in order, under the same anchor. -/
theorem splitByCoinbase_spec {batch : Batch} (hne : batch.blocks ≠ []) :
    blocksOf batch.splitByCoinbase = batch.blocks ∧ batch.splitByCoinbase ≠ [] ∧
      ∀ part ∈ batch.splitByCoinbase, part.anchorBlock = batch.anchorBlock ∧ part.blocks ≠ [] := by
  obtain ⟨first, rest, hblocks⟩ := List.exists_cons_of_ne_nil hne
  -- the first block has the coinbase that the batch being filled starts with
  have hsplit : batch.splitByCoinbase = splitByCoinbaseLoop
      (((new batch.anchorBlock batch.settings).changeCoinbase first.coinbase).push first) rest := by
    simp [splitByCoinbase, hblocks, splitByCoinbaseLoop, changeCoinbase]
  obtain ⟨hkept, hparts⟩ := splitByCoinbaseLoop_spec
    (((new batch.anchorBlock batch.settings).changeCoinbase first.coinbase).push first) rest
    (by simp)
  rw [hsplit]
  have hall : blocksOf (splitByCoinbaseLoop
      (((new batch.anchorBlock batch.settings).changeCoinbase first.coinbase).push first) rest) =
        batch.blocks := by
    rw [hkept, hblocks]
    simp
  refine ⟨hall, ?_, hparts⟩
  intro hnil
  rw [hnil] at hall
  exact hne hall.symm

/-- Every block of a part has the coinbase of the part, if this holds of the batch being filled. -/
theorem splitByCoinbaseLoop_coinbase {currentBatch : Batch} (rest : List PreconfirmedBlock)
    (h : ∀ block ∈ currentBatch.blocks, block.coinbase = currentBatch.coinbase) :
    ∀ part ∈ splitByCoinbaseLoop currentBatch rest, ∀ block ∈ part.blocks,
      block.coinbase = part.coinbase := by
  induction rest generalizing currentBatch with
  | nil => simpa [splitByCoinbaseLoop] using h
  | cons block rest ih =>
      simp only [splitByCoinbaseLoop]
      split
      · intro part hpart
        rcases List.mem_cons.mp hpart with rfl | hpart
        · exact h
        · exact ih (by simp [changeCoinbase]) part hpart
      · next hsame =>
          refine ih ?_
          intro other hother
          rcases List.mem_append.mp hother with hother | hother
          · exact h other hother
          · rw [List.mem_singleton.mp hother, coinbase_push]
            exact (not_not.mp hsame).symm

/-- Every part of a split batch has one coinbase. -/
theorem splitByCoinbase_coinbase {batch part : Batch} (h : part ∈ batch.splitByCoinbase) :
    ∀ block ∈ part.blocks, block.coinbase = part.coinbase := by
  unfold splitByCoinbase at h
  split at h
  · simp at h
  · exact splitByCoinbaseLoop_coinbase batch.blocks (by simp) part h

/-- The last two blocks to place end up next to each other if they share a coinbase. -/
theorem splitByCoinbaseLoop_last {currentBatch : Batch} (before : List PreconfirmedBlock)
    {first second : PreconfirmedBlock} (h : first.coinbase = second.coinbase) :
    ∃ part ∈ splitByCoinbaseLoop currentBatch (before ++ [first, second]),
      ∃ earlier, part.blocks = earlier ++ [first, second] := by
  induction before generalizing currentBatch with
  | nil =>
      by_cases hsame : currentBatch.coinbase = second.coinbase
      · have hloop : splitByCoinbaseLoop currentBatch [first, second] =
            [(currentBatch.push first).push second] := by
          simp [splitByCoinbaseLoop, hsame, h]
        exact ⟨_, hloop ▸ List.mem_singleton_self _, currentBatch.blocks, by simp⟩
      · have hloop : splitByCoinbaseLoop currentBatch [first, second] = [currentBatch,
            ((((new currentBatch.anchorBlock currentBatch.settings).changeCoinbase
              second.coinbase).push first).push second)] := by
          simp [splitByCoinbaseLoop, hsame, h, changeCoinbase]
        exact ⟨_, hloop ▸ List.mem_cons_of_mem _ (List.mem_singleton_self _), [], by simp⟩
  | cons block rest ih =>
      simp only [List.cons_append, splitByCoinbaseLoop]
      split
      · obtain ⟨part, hpart, hblocks⟩ := ih
        exact ⟨part, List.mem_cons_of_mem _ hpart, hblocks⟩
      · exact ih

/-- The last two blocks of a batch stay next to each other if they share a coinbase. -/
theorem splitByCoinbase_last {batch : Batch} {before : List PreconfirmedBlock}
    {first second : PreconfirmedBlock} (hblocks : batch.blocks = before ++ [first, second])
    (h : first.coinbase = second.coinbase) :
    ∃ part ∈ batch.splitByCoinbase, ∃ earlier, part.blocks = earlier ++ [first, second] := by
  unfold splitByCoinbase
  split
  · next hnil => simp [hnil] at hblocks
  · rw [hblocks]
    exact splitByCoinbaseLoop_last before h

end Batch

/-- Splitting every batch by coinbase keeps the grouping. -/
theorem BatchMap.ensureUniqueCoinbase_grouped (map : BatchMap .initial)
    {placed : List AnchoredBlock} (h : Grouped map.inner placed) :
    Grouped map.ensureUniqueCoinbase.inner placed := by
  have hsplit : ∀ key batches, map.ensureUniqueCoinbase.inner.find? key = some batches →
      ∃ whole, map.inner.find? key = some whole ∧
        batches = whole.flatMap Batch.splitByCoinbase := by
    intro key batches hfind
    simp only [ensureUniqueCoinbase, ofInner, OrderedMap.find?_mapValues,
      Option.map_eq_some_iff] at hfind
    obtain ⟨whole, hwhole, hbatches⟩ := hfind
    exact ⟨whole, hwhole, hbatches.symm⟩
  constructor
  · intro key batches hfind part hpart
    obtain ⟨whole, hwhole, rfl⟩ := hsplit key batches hfind
    obtain ⟨batch, hbatch, hpart⟩ := List.mem_flatMap.mp hpart
    obtain ⟨-, -, hparts⟩ :=
      Batch.splitByCoinbase_spec ((h.nonempty key whole hwhole).2 batch hbatch)
    rw [(hparts part hpart).1]
    exact h.anchors key whole hwhole batch hbatch
  · intro key batches hfind
    obtain ⟨whole, hwhole, rfl⟩ := hsplit key batches hfind
    obtain ⟨hne, hblocks⟩ := h.nonempty key whole hwhole
    refine ⟨?_, ?_⟩
    · obtain ⟨batch, rest, rfl⟩ := List.exists_cons_of_ne_nil hne
      have hfirst := (Batch.splitByCoinbase_spec (hblocks batch (by simp))).2.1
      simp [hfirst]
    · intro part hpart
      obtain ⟨batch, hbatch, hpart⟩ := List.mem_flatMap.mp hpart
      exact ((Batch.splitByCoinbase_spec (hblocks batch hbatch)).2.2 part hpart).2
  · intro key batches hfind
    obtain ⟨whole, hwhole, rfl⟩ := hsplit key batches hfind
    rw [← h.blocks key whole hwhole, blocksOf, blocksOf, List.flatMap_assoc]
    refine List.flatMap_congr fun batch hbatch => ?_
    exact (Batch.splitByCoinbase_spec ((h.nonempty key whole hwhole).2 batch hbatch)).1
  · intro key
    rw [← h.keys key]
    simp [ensureUniqueCoinbase, ofInner]

end Mk1
