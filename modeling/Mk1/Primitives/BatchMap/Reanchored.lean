import Mk1.Primitives.BatchMap.CoinbaseChecked
import Mk1.Primitives.BatchMap.Reanchoring

/-!
# The re-anchored batch map

What `BatchMap::reanchor` makes of a map with an anchor that is too old. All its batches are on
the safe anchor, within the capacity, with the default coinbase and in the order of the block
numbers. They are non-empty too, as `BatchMap::new` expects of its own batches, unless the first
block alone is over the target size: then the empty batch that the loop starts with is handed
out. `reanchored_well_formed_iff` says so.
-/

namespace Mk1

/-- A batch of a re-anchored map. -/
structure Batch.Reanchored (settings : BatchSettings) (safeL1Anchor : Header) (batch : Batch) :
    Prop where
  nonempty : batch.blocks ≠ []
  length_le : batch.blocks.length ≤ settings.capacity
  anchorBlock : batch.anchorBlock = safeL1Anchor
  coinbase : batch.coinbase = settings.defaultCoinbase

/-- A well-formed re-anchored map: one key, batches on it in order, and no need to re-anchor. -/
structure BatchMap.WellReanchored (settings : BatchSettings) (safeL1Anchor : Header)
    (minProposableAnchor : Nat) (map : BatchMap .anchored) : Prop where
  keys : map.inner.keys = [safeL1Anchor.number]
  batches : ∀ batch ∈ map.inner.values.flatten, batch.Reanchored settings safeL1Anchor
  numbers : (blocksOf map.inner.values.flatten).Pairwise fun first second =>
    first.number < second.number
  again : map.shouldReanchor minProposableAnchor = .ok false

/-- The soft block with the lowest number stays within the target size on its own. -/
def ContiguousAnchoredBlocks.FirstFits (soft : ContiguousAnchoredBlocks)
    (estimate : CompressionEstimate) (settings : BatchSettings) : Prop :=
  ∀ first ∈ soft.blocks.head?,
    estimate first.intoPreconfirmed.rawSize ≤ settings.targetCompressedSize

/-! ## The refilled batches -/

section Refill

variable {anchor : Header}

/-- A property of batches that blocks which fit preserve, and that every next batch starts with,
holds of all refilled batches. -/
theorem refill_forall {P : Batch → Prop}
    (hpush : ∀ (batch : Batch) block estimate, P batch →
      batch.doesntFit estimate block.txList = none → P (batch.push block))
    (hreset : ∀ (batch : Batch) block, P batch →
      P { batch with blocks := [block], anchorBlock := anchor })
    (estimates : Estimates) {front : List Batch} {current : Batch} {blocks : List PreconfirmedBlock}
    (hfront : ∀ batch ∈ front, P batch) (hcurrent : P current)
    (hnumbers : (current.blocks ++ blocks).Pairwise fun first second =>
      first.number < second.number) :
    ∀ batch ∈ refill estimates anchor front current blocks, P batch := by
  induction blocks generalizing estimates front current with
  | nil => exact List.forall_mem_append.mpr ⟨hfront, List.forall_mem_singleton.mpr hcurrent⟩
  | cons block rest ih =>
      have hbefore : ∀ previous ∈ current.blocks, previous.number < block.number := by
        intro previous hprevious
        exact (List.pairwise_append.mp hnumbers).2.2 previous hprevious block (by simp)
      simp only [refill]
      obtain ⟨hfit, hadd⟩ | ⟨reason, -, hadd⟩ := Batch.add_block_cases (estimates 0) anchor hbefore
      · simp only [hadd]
        exact ih estimates.tail hfront (hpush current block _ hcurrent hfit)
          (by simpa using hnumbers)
      · simp only [hadd]
        refine ih estimates.tail ?_ (hreset current block hcurrent)
          (List.pairwise_append.mp hnumbers).2.1
        exact List.forall_mem_append.mpr ⟨hfront, List.forall_mem_singleton.mpr hcurrent⟩

/-- A batch that is already full is among the refilled ones. -/
theorem mem_refill_of_mem_front {estimates : Estimates} {front : List Batch} {current batch : Batch}
    {blocks : List PreconfirmedBlock} (h : batch ∈ front) :
    batch ∈ refill estimates anchor front current blocks := by
  induction blocks generalizing estimates front current with
  | nil => exact List.mem_append_left _ h
  | cons block rest ih =>
      simp only [refill]
      split
      · exact ih h
      · exact ih (List.mem_append_left _ h)

variable {settings : BatchSettings}

/-- The refilled batches are within the capacity and have the default coinbase. -/
theorem refill_within (hcapacity : 1 ≤ settings.capacity) (estimates : Estimates)
    {blocks : List PreconfirmedBlock}
    (hnumbers : blocks.Pairwise fun first second => first.number < second.number) :
    ∀ batch ∈ refill estimates anchor [] (.new anchor settings) blocks,
      batch.Within settings.capacity ∧ batch.coinbase = settings.defaultCoinbase := by
  refine refill_forall ?_ ?_ estimates (fun _ h => absurd h List.not_mem_nil)
    ⟨⟨rfl, Nat.zero_le _⟩, rfl⟩ hnumbers
  · intro batch block estimate hbatch hfit
    obtain ⟨⟨hsettings, hlength⟩, hcoinbase⟩ := hbatch
    have hroom : batch.blocks.length ≠ settings.capacity :=
      hsettings ▸ (Batch.doesntFit_eq_none_iff.mp hfit).2
    refine ⟨⟨hsettings, ?_⟩, hcoinbase⟩
    rw [Batch.blocks_push, List.length_append, List.length_singleton]
    omega
  · intro batch block hbatch
    exact ⟨⟨hbatch.1.capacity_eq, hcapacity⟩, hbatch.2⟩

/-- The refilled batches are non-empty exactly if the first block fits into an empty batch: every
later block meets a batch with a block in it. -/
theorem refill_nonempty_iff (hcapacity : 1 ≤ settings.capacity) (estimates : Estimates)
    {first : PreconfirmedBlock} {rest : List PreconfirmedBlock}
    (hnumbers : (first :: rest).Pairwise fun first second => first.number < second.number) :
    (∀ batch ∈ refill estimates anchor [] (.new anchor settings) (first :: rest),
        batch.blocks ≠ []) ↔ estimates 0 first.rawSize ≤ settings.targetCompressedSize := by
  have hempty : ∀ batch ∈ ([] : List Batch), batch.blocks ≠ [] :=
    fun _ h => absurd h List.not_mem_nil
  have hfits : (Batch.new anchor settings).doesntFit (estimates 0) first.txList = none ↔
      estimates 0 first.rawSize ≤ settings.targetCompressedSize := by
    rw [Batch.doesntFit_eq_none_iff]
    have hroom : (0 : Nat) ≠ settings.capacity := by omega
    simp [Batch.new, Batch.rawSize, hroom]
  rw [← hfits]
  obtain ⟨hfit, hadd⟩ | ⟨reason, hfull, hadd⟩ := Batch.add_block_cases (estimates 0) anchor
    (fun _ h => absurd h List.not_mem_nil :
      ∀ previous ∈ (Batch.new anchor settings).blocks, previous.number < first.number)
  · refine iff_of_true ?_ hfit
    simp only [refill, hadd]
    refine refill_forall ?_ ?_ estimates.tail hempty ?_ hnumbers
    · exact fun batch block _ _ _ => List.append_ne_nil_of_right_ne_nil _ (List.cons_ne_nil _ _)
    · exact fun batch block _ => List.cons_ne_nil _ _
    · exact List.cons_ne_nil _ _
  · refine iff_of_false ?_ (by simp [hfull])
    intro hall
    -- the empty batch is handed out and stays in front
    simp only [refill, hadd] at hall
    exact hall _ (mem_refill_of_mem_front (List.mem_singleton_self _)) rfl

end Refill

namespace BatchMap

/-- Whether the first batch under the only key is young enough decides whether the map is
re-anchored again. -/
theorem shouldReanchor_singleton {stage : MapStage} {map : BatchMap stage} {key : Nat}
    {batches : List Batch} (hentries : map.inner.entries = [(key, batches)])
    {minProposableAnchor : Nat}
    (hanchors : ∀ batch ∈ batches, minProposableAnchor ≤ batch.anchorBlock.number) :
    map.shouldReanchor minProposableAnchor = .ok false := by
  have hmin : map.minAnchor = some key := by
    simp [minAnchor, OrderedMap.minKey?, OrderedMap.keys, hentries]
  have hfind : map.inner.find? key = some batches := by
    simp [OrderedMap.find?, OrderedMap.findEntry, hentries]
  unfold shouldReanchor
  cases batches with
  | nil => simp [hmin, hfind, expect, bind, Except.bind, pure, Except.pure]
  | cons first rest =>
      have hyoung : ¬ first.anchorBlock.number < minProposableAnchor :=
        Nat.not_lt.mpr (hanchors first (by simp))
      simp [hmin, hfind, hyoung, expect, bind, Except.bind, pure, Except.pure]

/-- A map of soft blocks is re-anchored only because one of them has an anchor that is too old. -/
theorem exists_old_of_shouldReanchor {map : BatchMap .coinbaseChecked}
    {placed : List AnchoredBlock} (h : Grouped map.inner placed) {minProposableAnchor : Nat}
    (hshould : map.shouldReanchor minProposableAnchor = .ok true) :
    ∃ anchored ∈ placed, anchored.anchorId < minProposableAnchor := by
  cases hmin : map.minAnchor with
  | none => simp [shouldReanchor, hmin, pure, Except.pure] at hshould
  | some key =>
      rw [shouldReanchor_eq h hmin, Except.ok.injEq, decide_eq_true_eq] at hshould
      obtain ⟨⟨batches, hfind⟩, -⟩ := OrderedMap.minKey?_eq_some hmin
      obtain ⟨anchored, hmem, rfl⟩ :=
        (h.keys key).mp (OrderedMap.mem_keys_iff.mpr ⟨batches, hfind⟩)
      exact ⟨anchored, hmem, hshould⟩

/-- Re-anchoring soft blocks gives a well-formed map exactly if the block with the lowest number
stays within the target size on its own. -/
theorem reanchored_well_formed_iff (newEstimates reanchorEstimates : Estimates)
    (soft : ContiguousAnchoredBlocks) (newSettings settings : BatchSettings)
    (hcapacity : 1 ≤ settings.capacity) (minProposableAnchor : Nat) (safeL1Anchor : Header)
    (hsafe : minProposableAnchor ≤ safeL1Anchor.number) {initial : BatchMap .initial}
    (hnew : BatchMap.new newEstimates soft newSettings = .ok initial)
    (hrewrites : initial.ensureUniqueCoinbase.shouldReanchor minProposableAnchor = .ok true) :
    ∃ result, initial.ensureUniqueCoinbase.reanchor reanchorEstimates minProposableAnchor
        safeL1Anchor settings = .ok result ∧
      (WellReanchored settings safeL1Anchor minProposableAnchor result ↔
        soft.FirstFits (reanchorEstimates 0) settings) := by
  obtain ⟨inner, -, hinner, hgrouped⟩ := new_grouped newEstimates soft newSettings
  obtain rfl := Except.ok.inj (hinner.symm.trans hnew)
  have hsplit := ensureUniqueCoinbase_grouped (.ofInner inner) hgrouped
  obtain ⟨result, hresult, hcases⟩ := reanchor_cases reanchorEstimates hsplit
    soft.numbers_increase minProposableAnchor safeL1Anchor settings
  refine ⟨result, hresult, ?_⟩
  obtain ⟨old, hold, hlt⟩ := exists_old_of_shouldReanchor hsplit hrewrites
  -- the map is rewritten, so it holds what refilling all soft blocks gives
  obtain ⟨hyoung, -⟩ | ⟨-, -, -, -, hentries, -⟩ := hcases
  · exact absurd (hyoung old hold) (Nat.not_le.mpr hlt)
  obtain ⟨first, rest, hblocks⟩ := List.exists_cons_of_ne_nil (List.ne_nil_of_mem hold)
  have hnumbers := soft.intoPreconfirmed_numbers
  rw [ContiguousAnchoredBlocks.intoPreconfirmed, hblocks, List.map_cons] at hnumbers
  rw [hblocks, List.map_cons] at hentries
  have hvalues : result.inner.values.flatten = refill reanchorEstimates safeL1Anchor []
      (.new safeL1Anchor settings)
      (first.intoPreconfirmed :: rest.map AnchoredBlock.intoPreconfirmed) := by
    simp [OrderedMap.values, hentries]
  have hfits : soft.FirstFits (reanchorEstimates 0) settings ↔
      reanchorEstimates 0 first.intoPreconfirmed.rawSize ≤ settings.targetCompressedSize := by
    simp [ContiguousAnchoredBlocks.FirstFits, hblocks]
  rw [hfits, ← refill_nonempty_iff hcapacity reanchorEstimates hnumbers]
  obtain ⟨hkept, hanchors⟩ := refill_spec reanchorEstimates safeL1Anchor []
    (.new safeL1Anchor settings) _ (by simp) hnumbers
  -- all batches are well-formed but for an empty one, left by a first block that does not fit
  constructor
  · intro hwell batch hbatch
    exact (hwell.batches batch (hvalues ▸ hbatch)).nonempty
  · intro hnonempty
    refine ⟨by simp [OrderedMap.keys, hentries], fun batch hbatch => ?_, ?_, ?_⟩
    · rw [hvalues] at hbatch
      obtain ⟨hlength, hcoinbase⟩ := refill_within hcapacity reanchorEstimates hnumbers batch hbatch
      exact ⟨hnonempty batch hbatch, hlength.length_le, hanchors batch hbatch, hcoinbase⟩
    · rw [hvalues, hkept]
      exact hnumbers
    · refine shouldReanchor_singleton hentries fun batch hbatch => ?_
      rw [hanchors batch hbatch]
      exact hsafe

/-- Two soft blocks on anchor 10 that fit into one batch are well-formed on anchor 12. -/
theorem reanchored_well_formed_two :
    ∃ initial result, BatchMap.new (fun _ size => size) (twoSoftBlocks 12) ⟨10, 1000, 0, 64, 8⟩ =
        .ok initial ∧
      initial.ensureUniqueCoinbase.reanchor (fun _ size => size) 11 (l1Header 12)
        ⟨10, 1000, 0, 64, 8⟩ = .ok result ∧
      WellReanchored ⟨10, 1000, 0, 64, 8⟩ (l1Header 12) 11 result := by
  obtain ⟨result, hresult, hiff⟩ := reanchored_well_formed_iff (fun _ size => size)
    (fun _ size => size) (twoSoftBlocks 12) ⟨10, 1000, 0, 64, 8⟩ ⟨10, 1000, 0, 64, 8⟩ (by decide) 11
    (l1Header 12) (by decide) rfl rfl
  exact ⟨_, result, rfl, hresult, hiff.mpr (by simp [ContiguousAnchoredBlocks.FirstFits,
    twoSoftBlocks, softBlock, AnchoredBlock.intoPreconfirmed, PreconfirmedBlock.fromBlock,
    PreconfirmedBlock.rawSize])⟩

/-- A soft block with one transaction of 12 bytes. -/
def largeSoftBlock : ContiguousAnchoredBlocks :=
  ⟨[{ softBlock 1 100 with
      block := { (softBlock 1 100).block with
        transactions := [⟨0, ⟨List.replicate 12 0⟩, none⟩] } }],
    by simp [softBlock, AnchoredBlock.number]⟩

/-- The block of 12 bytes is over a target size of 10 bytes, so re-anchoring it puts an empty
batch in front. -/
theorem reanchored_with_empty_batch :
    ∃ initial result, BatchMap.new (fun _ size => size) largeSoftBlock ⟨10, 10, 0, 64, 8⟩ =
        .ok initial ∧
      initial.ensureUniqueCoinbase.reanchor (fun _ size => size) 11 (l1Header 12)
        ⟨10, 10, 0, 64, 8⟩ = .ok result ∧
      result.reorgReasons = [.reanchor 10 12] ∧
      result.inner.values.flatten.map (fun batch => batch.blocks.map PreconfirmedBlock.number) =
        [[], [1]] ∧
      ¬ WellReanchored ⟨10, 10, 0, 64, 8⟩ (l1Header 12) 11 result := by
  refine ⟨_, _, rfl, rfl, rfl, rfl, fun hwell => ?_⟩
  exact (hwell.batches (.new (l1Header 12) ⟨10, 10, 0, 64, 8⟩) List.mem_cons_self).nonempty rfl

end BatchMap

end Mk1
