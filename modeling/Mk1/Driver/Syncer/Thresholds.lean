import Mk1.Driver.Syncer

/-!
# The thresholds of the batch map

`create_batch_map` computes the oldest anchor and the oldest timestamp that can still be proposed.
Both are differences that a release build wraps around, where the anchor of the sync and the age
limit of a batch are computed with saturating ones. `thresholdsSound_iff` says that they are exact
and sound unless the chain is shorter, or the clock earlier, than the maximum age minus the buffer.
-/

namespace Mk1

namespace Syncer

/-- `min_proposable_anchor_id` of `create_batch_map`. -/
def minProposableAnchorId (cfg : RuntimeConfig) (l1HeadId : Nat) : Nat :=
  wrappingSub (l1HeadId + cfg.anchorMaxHeightBuffer) cfg.maxAnchorHeightOffset

/-- `min_proposable_ts` of `create_batch_map`. -/
def minProposableTs (cfg : RuntimeConfig) (maxTs : Nat) : Nat :=
  wrappingSub (maxTs + cfg.defaultProposalTimeBuffer) cfg.maxProposableBlockAgeSecs

/-- For soft blocks, `create_batch_map` asks for the header with the least number that can be
proposed, and passes both thresholds on to the pipeline. -/
theorem createBatchMap_eq {cfg : RuntimeConfig} {reads : SyncReads}
    {soft : ContiguousAnchoredBlocks} (safeL1Anchor : Header) (hne : soft.blocks ≠ [])
    {l1HeadId : Nat} (hhead : reads.l1HeadId = some l1HeadId) :
    createBatchMap cfg reads soft safeL1Anchor =
      (reads.l1Header (minProposableAnchorId cfg l1HeadId)).bind fun minProposableAnchor =>
        (Mk1.createBatchMap
          { settings := cfg.batchSettings
            newEstimates := reads.newEstimates
            reanchorEstimates := reads.reanchorEstimates
            minProposableAnchor := minProposableAnchor.number
            safeL1Anchor := safeL1Anchor
            minTs := minProposableTs cfg reads.currentTimestamp
            maxTs := reads.currentTimestamp } soft).toOption := by
  have hsome : ¬ soft.blocks.isEmpty = true := by simpa using hne
  unfold createBatchMap
  simp only [if_neg hsome, hhead]
  rfl

/-- The thresholds at a head and a time are the differences that they are meant to be. From its
threshold on, an anchor up to the head is young enough for every L1 block in the next blocks, and a
timestamp is young enough for the time that a proposal may take. -/
structure ThresholdsSound (cfg : RuntimeConfig) (l1HeadId maxTs : Nat) : Prop where
  anchorId_exact : (minProposableAnchorId cfg l1HeadId : Int) =
    (l1HeadId : Int) + cfg.anchorMaxHeightBuffer - cfg.maxAnchorHeightOffset
  anchor_young : ∀ anchorId, minProposableAnchorId cfg l1HeadId ≤ anchorId → anchorId ≤ l1HeadId →
    ∀ number, number ≤ l1HeadId + cfg.anchorMaxHeightBuffer →
      number ≤ anchorId + cfg.maxAnchorHeightOffset
  ts_exact : (minProposableTs cfg maxTs : Int) =
    (maxTs : Int) + cfg.defaultProposalTimeBuffer - cfg.maxProposableBlockAgeSecs
  timestamp_young : ∀ timestamp, minProposableTs cfg maxTs ≤ timestamp →
    ∀ blockTs, blockTs ≤ maxTs + cfg.defaultProposalTimeBuffer →
      blockTs ≤ timestamp + cfg.maxProposableBlockAgeSecs

/-- A wrapping difference is the true one if that is a `u64`, and only then. -/
theorem wrappingSub_eq_iff (left right : Nat) :
    (wrappingSub left right : Int) = (left : Int) - right ↔
      right ≤ left ∧ left - right ≤ u64Max := by
  unfold wrappingSub u64Max
  constructor
  · intro hexact
    have hlt := Nat.mod_lt (left + (2 ^ 64 - 1 + 1) - right) (by decide : 0 < 2 ^ 64 - 1 + 1)
    omega
  · rintro ⟨hle, hfits⟩
    have hsum : left + (2 ^ 64 - 1 + 1) - right = (left - right) + (2 ^ 64 - 1 + 1) := by omega
    rw [hsum, Nat.add_mod_right, Nat.mod_eq_of_lt (by omega), Nat.cast_sub hle]

/-- What is not below an exact difference makes up for what was subtracted. -/
theorem le_add_of_wrappingSub_le {left right value : Nat}
    (hexact : (wrappingSub left right : Int) = (left : Int) - right)
    (h : wrappingSub left right ≤ value) : left ≤ value + right := by
  omega

/-- The thresholds are sound exactly if the maximum age reaches neither below L1 block 0 nor below
time 0, and the differences are `u64`s. -/
theorem thresholdsSound_iff (cfg : RuntimeConfig) (l1HeadId maxTs : Nat) :
    ThresholdsSound cfg l1HeadId maxTs ↔
      (cfg.maxAnchorHeightOffset ≤ l1HeadId + cfg.anchorMaxHeightBuffer ∧
        l1HeadId + cfg.anchorMaxHeightBuffer - cfg.maxAnchorHeightOffset ≤ u64Max) ∧
      (cfg.maxProposableBlockAgeSecs ≤ maxTs + cfg.defaultProposalTimeBuffer ∧
        maxTs + cfg.defaultProposalTimeBuffer - cfg.maxProposableBlockAgeSecs ≤ u64Max) := by
  have hanchor :=
    wrappingSub_eq_iff (l1HeadId + cfg.anchorMaxHeightBuffer) cfg.maxAnchorHeightOffset
  have hts := wrappingSub_eq_iff (maxTs + cfg.defaultProposalTimeBuffer)
    cfg.maxProposableBlockAgeSecs
  rw [Nat.cast_add] at hanchor hts
  rw [← hanchor, ← hts]
  constructor
  · exact fun hsound => ⟨hsound.anchorId_exact, hsound.ts_exact⟩
  · rintro ⟨hanchorExact, htsExact⟩
    refine ⟨hanchorExact, fun anchorId hle _ number hnumber => ?_, htsExact,
      fun timestamp hle blockTs hblockTs => ?_⟩
    · refine hnumber.trans (le_add_of_wrappingSub_le ?_ hle)
      rw [Nat.cast_add]
      exact hanchorExact
    · refine hblockTs.trans (le_add_of_wrappingSub_le ?_ hle)
      rw [Nat.cast_add]
      exact htsExact

/-- At L1 block 10, with a maximum age of 64 blocks and a buffer of 6, the threshold for anchors is
48 below the number of `u64`s. No L1 block has this number, so the batch map fails. -/
theorem threshold_underflows_at_block_10 :
    minProposableAnchorId (defaultConfig 1) 10 = 2 ^ 64 - 48 ∧
      ¬ ThresholdsSound (defaultConfig 1) 10 1000 ∧
      createBatchMap (defaultConfig 1)
        { l2Head := some 2, l2HeadL1Origin := some 0, l1Head := some 10
          l1Header := fun number => if number ≤ 10 then some (l1Header number) else none
          download := [], highestUnsafe := none, l1HeadId := some 10, currentTimestamp := 1000
          newEstimates := fun _ size => size, reanchorEstimates := fun _ size => size }
        (twoSoftBlocks 2) (l1Header 10) = none := by
  refine ⟨by decide, fun hsound => ?_, ?_⟩
  · exact absurd hsound.anchorId_exact (by decide)
  · rw [createBatchMap_eq (l1Header 10) (by simp [twoSoftBlocks]) rfl]
    decide

end Syncer

end Mk1
