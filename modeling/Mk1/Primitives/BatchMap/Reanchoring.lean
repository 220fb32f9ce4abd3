import Mk1.Primitives.BatchMap.Grouping

/-!
# Re-anchoring

`reassemble` fills batches through a map whose only key is the safe anchor.
`refill` is the same loop over a plain list of batches, and `reassemble_refines`
relates the two. `reanchor_cases` then says what `BatchMap::reanchor` returns:
the map itself when every anchor is young enough, otherwise one list of batches
under the safe anchor with all soft blocks in their order.
-/

namespace Mk1

/-- The loop of `BatchMap::reanchor` over the list of the batches that are already full. -/
def refill (estimates : Estimates) (anchor : Header) (front : List Batch) (current : Batch) :
    List PreconfirmedBlock → List Batch
  | [] => front ++ [current]
  | block :: rest =>
      match current.addBlockAndResetIfFull (estimates 0) block anchor with
      | (.added _, current) => refill estimates.tail anchor front current rest
      | (.full _ batch, current) => refill estimates.tail anchor (front ++ [batch]) current rest

/-- Refilling keeps the blocks of the batches and the blocks still to place, in order, and puts
every batch on the given anchor. -/
theorem refill_spec (estimates : Estimates) (anchor : Header) (front : List Batch)
    (current : Batch) (blocks : List PreconfirmedBlock)
    (hanchors : ∀ batch ∈ front ++ [current], batch.anchorBlock = anchor)
    (hnumbers : (current.blocks ++ blocks).Pairwise fun first second =>
      first.number < second.number) :
    blocksOf (refill estimates anchor front current blocks) =
        blocksOf front ++ current.blocks ++ blocks ∧
      ∀ batch ∈ refill estimates anchor front current blocks, batch.anchorBlock = anchor := by
  induction blocks generalizing estimates front current with
  | nil => exact ⟨by simp [refill], hanchors⟩
  | cons block rest ih =>
      -- the numbers increase, so `add_block` accepts the block or finds the batch full
      have hbefore : ∀ previous ∈ current.blocks, previous.number < block.number := by
        intro previous hprevious
        exact (List.pairwise_append.mp hnumbers).2.2 previous hprevious block (by simp)
      have hcurrent : current.anchorBlock = anchor := hanchors current (by simp)
      simp only [refill]
      obtain ⟨-, hadd⟩ | ⟨reason, -, hadd⟩ := Batch.add_block_cases (estimates 0) anchor hbefore
      · simp only [hadd]
        have hanchors' : ∀ batch ∈ front ++ [current.push block], batch.anchorBlock = anchor := by
          intro batch hbatch
          rcases List.mem_append.mp hbatch with hbatch | hbatch
          · exact hanchors batch (by simp [hbatch])
          · rw [List.mem_singleton.mp hbatch]
            exact hcurrent
        obtain ⟨hblocks, hall⟩ := ih estimates.tail front (current.push block) hanchors'
          (by simpa using hnumbers)
        exact ⟨by simp [hblocks], hall⟩
      · simp only [hadd]
        have hanchors' : ∀ batch ∈ (front ++ [current]) ++
            [{ current with blocks := [block], anchorBlock := anchor }],
            batch.anchorBlock = anchor := by
          intro batch hbatch
          rcases List.mem_append.mp hbatch with hbatch | hbatch
          · exact hanchors batch hbatch
          · rw [List.mem_singleton.mp hbatch]
        have hrest : (block :: rest).Pairwise fun first second => first.number < second.number :=
          (List.pairwise_append.mp hnumbers).2.1
        obtain ⟨hblocks, hall⟩ := ih estimates.tail _ _ hanchors' hrest
        exact ⟨by simp [hblocks], hall⟩

namespace BatchMap

/-- The map built by `reanchor` holds this list of full batches, all of them under one key. -/
def Lists (key : Nat) (inner : OrderedMap Nat (List Batch)) (front : List Batch) : Prop :=
  (inner.find? key).getD [] = front ∧ ∀ other ∈ inner.keys, other = key

theorem lists_empty (key : Nat) : Lists key .empty [] :=
  ⟨rfl, by simp [OrderedMap.keys, OrderedMap.empty]⟩

/-- Pushing a batch under the key appends it to the list. -/
theorem Lists.pushBatch {key : Nat} {inner : OrderedMap Nat (List Batch)} {front : List Batch}
    (h : Lists key inner front) (batch : Batch) :
    Lists key (BatchMap.pushBatch inner key batch) (front ++ [batch]) := by
  obtain ⟨hfront, hkeys⟩ := h
  refine ⟨by simp [BatchMap.pushBatch, hfront], ?_⟩
  intro other hother
  by_cases hne : other = key
  · exact hne
  · rw [OrderedMap.mem_keys_iff] at hother
    obtain ⟨value, hvalue⟩ := hother
    rw [BatchMap.pushBatch, OrderedMap.find?_insert_of_ne _ hne] at hvalue
    exact hkeys other (OrderedMap.mem_keys_iff.mpr ⟨value, hvalue⟩)

/-- The map with the last batch pushed has the listed batches and this one as its only entry. -/
theorem Lists.entries_pushBatch {key : Nat} {inner : OrderedMap Nat (List Batch)}
    {front : List Batch} (h : Lists key inner front) (batch : Batch) :
    (BatchMap.pushBatch inner key batch).entries = [(key, front ++ [batch])] := by
  have hfind : (BatchMap.pushBatch inner key batch).find? key = some (front ++ [batch]) := by
    simp [BatchMap.pushBatch, h.1]
  exact OrderedMap.entries_eq_singleton hfind (h.pushBatch batch).2

/-- The loop over the map is the loop over the list that it holds. -/
theorem reassemble_refines (estimates : Estimates) {safeL1Anchor : Header}
    {inner : OrderedMap Nat (List Batch)} {front : List Batch} {cursor : Batch}
    {blocks : List PreconfirmedBlock} (hlists : Lists safeL1Anchor.number inner front)
    (hcursor : cursor.anchorBlock = safeL1Anchor)
    (hnumbers : (cursor.blocks ++ blocks).Pairwise fun first second =>
      first.number < second.number) :
    (pushBatch (reassemble estimates safeL1Anchor inner cursor blocks).1 safeL1Anchor.number
      (reassemble estimates safeL1Anchor inner cursor blocks).2).entries =
        [(safeL1Anchor.number, refill estimates safeL1Anchor front cursor blocks)] := by
  induction blocks generalizing estimates inner front cursor with
  | nil => exact hlists.entries_pushBatch cursor
  | cons block rest ih =>
      have hbefore : ∀ previous ∈ cursor.blocks, previous.number < block.number := by
        intro previous hprevious
        exact (List.pairwise_append.mp hnumbers).2.2 previous hprevious block (by simp)
      simp only [reassemble, refill]
      obtain ⟨-, hadd⟩ | ⟨reason, -, hadd⟩ :=
        Batch.add_block_cases (estimates 0) safeL1Anchor hbefore
      · simp only [hadd]
        exact ih estimates.tail hlists hcursor (by simpa using hnumbers)
      · simp only [hadd]
        have hkey : cursor.anchorId = safeL1Anchor.number := by rw [Batch.anchorId, hcursor]
        rw [hkey]
        exact ih estimates.tail (hlists.pushBatch cursor) rfl (List.pairwise_append.mp hnumbers).2.1

/-- The oldest anchor of the map decides whether it is re-anchored. -/
theorem shouldReanchor_eq {map : BatchMap .coinbaseChecked} {placed : List AnchoredBlock}
    (h : Grouped map.inner placed) {oldest : Nat} (holdest : map.minAnchor = some oldest)
    (minProposableAnchor : Nat) :
    map.shouldReanchor minProposableAnchor = .ok (decide (oldest < minProposableAnchor)) := by
  obtain ⟨⟨batches, hfind⟩, -⟩ := OrderedMap.minKey?_eq_some holdest
  obtain ⟨first, rest, rfl⟩ := List.exists_cons_of_ne_nil (h.nonempty oldest batches hfind).1
  have hnumber : first.anchorBlock.number = oldest := (h.anchors oldest _ hfind first (by simp)).1
  simp [shouldReanchor, holdest, hfind, expect, hnumber, bind, Except.bind, pure, Except.pure]

/-- The blocks of a map, sorted by number, are the soft blocks in their order. -/
theorem sortByKey_values {map : BatchMap .coinbaseChecked} {placed : List AnchoredBlock}
    (h : Grouped map.inner placed)
    (hnumbers : placed.Pairwise fun first second => first.number < second.number) :
    sortByKey PreconfirmedBlock.number (map.inner.values.flatten.flatMap Batch.blocks) =
      placed.map AnchoredBlock.intoPreconfirmed :=
  Partition.sort_eq_of_perm PreconfirmedBlock.number
    (List.pairwise_map.mpr (hnumbers.imp fun hlt => hlt)) h.perm

/-- Everything that `BatchMap::reanchor` can return: the map as it is when no anchor is too old,
and otherwise the soft blocks refilled into batches on the safe anchor, with a reason. -/
theorem reanchor_cases (estimates : Estimates) {map : BatchMap .coinbaseChecked}
    {placed : List AnchoredBlock} (h : Grouped map.inner placed)
    (hnumbers : placed.Pairwise fun first second => first.number < second.number)
    (minProposableAnchor : Nat) (safeL1Anchor : Header) (settings : BatchSettings) :
    ∃ result, map.reanchor estimates minProposableAnchor safeL1Anchor settings = .ok result ∧
      (((∀ anchored ∈ placed, minProposableAnchor ≤ anchored.anchorId) ∧
          result = ofInner map.inner) ∨
        ∃ oldest ∈ placed, oldest.anchorId < minProposableAnchor ∧
          (∀ anchored ∈ placed, oldest.anchorId ≤ anchored.anchorId) ∧
          result.inner.entries = [(safeL1Anchor.number, refill estimates safeL1Anchor []
            (.new safeL1Anchor settings) (placed.map AnchoredBlock.intoPreconfirmed))] ∧
          result.reorgReasons = [.reanchor oldest.anchorId safeL1Anchor.number]) := by
  unfold reanchor
  cases hmin : map.minAnchor with
  | none =>
      refine ⟨_, rfl, .inl ⟨?_, rfl⟩⟩
      have hvalues : map.inner.values = [] := OrderedMap.minKey?_eq_none.mp hmin
      have hperm := h.perm
      rw [hvalues] at hperm
      have hplaced : placed = [] := by simpa using hperm
      simp [hplaced]
  | some key =>
      obtain ⟨⟨batches, hfind⟩, hleast⟩ := OrderedMap.minKey?_eq_some hmin
      have hleast' : ∀ anchored ∈ placed, key ≤ anchored.anchorId := fun anchored hanchored =>
        hleast _ ((h.keys _).mpr ⟨anchored, hanchored, rfl⟩)
      simp only [shouldReanchor_eq h hmin, bind, Except.bind]
      by_cases hold : key < minProposableAnchor
      -- the least key is the anchor of the oldest soft block
      · obtain ⟨oldest, hmem, rfl⟩ := (h.keys key).mp (OrderedMap.mem_keys_iff.mpr ⟨batches, hfind⟩)
        have hsort := sortByKey_values h hnumbers
        have hblocks : (placed.map AnchoredBlock.intoPreconfirmed).Pairwise
            fun first second => first.number < second.number :=
          List.pairwise_map.mpr (hnumbers.imp fun hlt => hlt)
        refine ⟨_, by simp only [hold, decide_true, Bool.not_true, hsort]; rfl, .inr
          ⟨oldest, hmem, hold, hleast', ?_, rfl⟩⟩
        exact reassemble_refines estimates (lists_empty safeL1Anchor.number) rfl hblocks
      · refine ⟨_, by simp only [hold, decide_false, Bool.not_false]; rfl, .inl ⟨?_, rfl⟩⟩
        intro anchored hanchored
        have hle := hleast' anchored hanchored
        omega

end BatchMap

/-- The numbers of the soft blocks still increase without their anchors. -/
theorem ContiguousAnchoredBlocks.intoPreconfirmed_numbers (soft : ContiguousAnchoredBlocks) :
    soft.intoPreconfirmed.Pairwise fun first second => first.number < second.number :=
  List.pairwise_map.mpr (soft.numbers_increase.imp fun hlt => hlt)

/-- Refilling the soft blocks from an empty batch keeps them in order, on the given anchor. -/
theorem refill_soft (estimates : Estimates) (anchor : Header) (settings : BatchSettings)
    (soft : ContiguousAnchoredBlocks) :
    blocksOf (refill estimates anchor [] (.new anchor settings) soft.intoPreconfirmed) =
        soft.intoPreconfirmed ∧
      ∀ batch ∈ refill estimates anchor [] (.new anchor settings) soft.intoPreconfirmed,
        batch.anchorBlock = anchor := by
  obtain ⟨hblocks, hanchors⟩ := refill_spec estimates anchor [] (.new anchor settings)
    soft.intoPreconfirmed (by simp) soft.intoPreconfirmed_numbers
  exact ⟨by simpa using hblocks, hanchors⟩

/-- The stages of the pipeline on soft blocks: `new` groups them, `reanchor` keeps or refills the
batches, and the result is what `retimestamp` makes of those. -/
theorem createBatchMap_cases (input : PipelineInput) (soft : ContiguousAnchoredBlocks) :
    ∃ initial anchored, BatchMap.new input.newEstimates soft input.settings = .ok initial ∧
      Grouped initial.ensureUniqueCoinbase.inner soft.blocks ∧
      initial.ensureUniqueCoinbase.reanchor input.reanchorEstimates input.minProposableAnchor
        input.safeL1Anchor input.settings = .ok anchored ∧
      createBatchMap input soft = .ok (anchored.retimestamp input.minTs input.maxTs) ∧
      (((∀ block ∈ soft.blocks, input.minProposableAnchor ≤ block.anchorId) ∧
          anchored = .ofInner initial.ensureUniqueCoinbase.inner) ∨
        ∃ oldest ∈ soft.blocks, oldest.anchorId < input.minProposableAnchor ∧
          (∀ block ∈ soft.blocks, oldest.anchorId ≤ block.anchorId) ∧
          anchored.inner.values = [refill input.reanchorEstimates input.safeL1Anchor []
            (.new input.safeL1Anchor input.settings) soft.intoPreconfirmed] ∧
          anchored.reorgReasons = [.reanchor oldest.anchorId input.safeL1Anchor.number]) := by
  obtain ⟨inner, -, hnew, hgrouped⟩ := BatchMap.new_grouped input.newEstimates soft input.settings
  have hsplit := BatchMap.ensureUniqueCoinbase_grouped (.ofInner inner) hgrouped
  obtain ⟨anchored, hanchored, hcases⟩ := BatchMap.reanchor_cases input.reanchorEstimates hsplit
    soft.numbers_increase input.minProposableAnchor input.safeL1Anchor input.settings
  refine ⟨.ofInner inner, anchored, hnew, hsplit, hanchored, ?_, ?_⟩
  · simp [createBatchMap, hnew, hanchored, bind, Except.bind, pure, Except.pure]
  · refine hcases.imp_right ?_
    rintro ⟨oldest, hmem, hlt, hleast, hentries, hreasons⟩
    exact ⟨oldest, hmem, hlt, hleast, congrArg (List.map Prod.snd) hentries, hreasons⟩

/-- What `reanchor` returns still holds all soft blocks, and in their order when their anchors
never decrease. -/
theorem reanchored_blocks {input : PipelineInput} {soft : ContiguousAnchoredBlocks}
    {initial : BatchMap .initial} {anchored : BatchMap .anchored}
    (hgrouped : Grouped initial.ensureUniqueCoinbase.inner soft.blocks)
    (hanchored : initial.ensureUniqueCoinbase.reanchor input.reanchorEstimates
      input.minProposableAnchor input.safeL1Anchor input.settings = .ok anchored) :
    (blocksOf anchored.inner.values.flatten).Perm soft.intoPreconfirmed ∧
      (soft.blocks.Pairwise (fun first second => first.anchorId ≤ second.anchorId) →
        blocksOf anchored.inner.values.flatten = soft.intoPreconfirmed) := by
  obtain ⟨result, hresult, hcases⟩ := BatchMap.reanchor_cases input.reanchorEstimates hgrouped
    soft.numbers_increase input.minProposableAnchor input.safeL1Anchor input.settings
  obtain rfl : result = anchored := Except.ok.inj (hresult.symm.trans hanchored)
  obtain ⟨-, rfl⟩ | ⟨oldest, -, -, -, hentries, -⟩ := hcases
  · exact ⟨hgrouped.perm, hgrouped.blocks_eq⟩
  · have hall : blocksOf result.inner.values.flatten = soft.intoPreconfirmed := by
      rw [OrderedMap.values, hentries, List.map_singleton, List.flatten_singleton]
      exact (refill_soft input.reanchorEstimates input.safeL1Anchor input.settings soft).1
    exact ⟨hall ▸ List.Perm.refl _, fun _ => hall⟩

end Mk1
