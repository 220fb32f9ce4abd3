import Mk1.Driver.EventLoop

/-!
# The age limit of the outstanding batch

At every L1 slot the driver computes how many slots the outstanding batch has left, and submits it
with a deadline when these are few. The limit combines the age of the anchor, counted in blocks,
with the age of the first block, in seconds. `age_limit_sound` says that no L1 block up to the
deadline finds either of them too old.
-/

namespace Mk1

/-- The inbox takes the batch in an L1 block: neither its anchor nor its first timestamp is too
old. -/
structure Batch.TakenIn (batch : Batch) (block : Header) : Prop where
  anchorBlockId : block.number ≤ batch.anchorId + batch.settings.maxAnchorHeightOffset
  timestamp : ∀ first ∈ batch.firstTimestamp,
    block.timestamp ≤ first + 12 * batch.settings.maxAnchorHeightOffset

namespace Batch

variable {batch : Batch} {nextBlockTs nextBlockNumber : Nat}

/-- While slots are left, the anchor is young enough for as many blocks after the next one. -/
theorem next_number_le (h : 0 < batch.computeAgeLimit nextBlockTs nextBlockNumber) :
    nextBlockNumber + batch.computeAgeLimit nextBlockTs nextBlockNumber ≤
      batch.anchorId + batch.settings.maxAnchorHeightOffset := by
  have hle : batch.computeAgeLimit nextBlockTs nextBlockNumber ≤
      batch.settings.maxAnchorHeightOffset - (nextBlockNumber - batch.anchorId) := by
    unfold computeAgeLimit
    dsimp only
    split
    · exact min_le_left _ _
    · exact le_rfl
  omega

/-- While slots are left, the first block is young enough for as many slots after the next block:
the division rounds the seconds left down to whole slots. -/
theorem next_timestamp_le {first : Nat} (hfirst : batch.firstTimestamp = some first)
    (h : 0 < batch.computeAgeLimit nextBlockTs nextBlockNumber) :
    nextBlockTs + 12 * batch.computeAgeLimit nextBlockTs nextBlockNumber ≤
      first + 12 * batch.settings.maxAnchorHeightOffset := by
  have hle : batch.computeAgeLimit nextBlockTs nextBlockNumber ≤
      (batch.settings.maxAnchorHeightOffset * SLOT_DURATION_SECS - (nextBlockTs - first)) /
        SLOT_DURATION_SECS := by
    unfold computeAgeLimit
    simp only [hfirst]
    exact min_le_right _ _
  have hseconds := Nat.mul_le_of_le_div _ _ _ hle
  unfold SLOT_DURATION_SECS at hseconds
  omega

end Batch

namespace Driver

/-- What `on_l1_slot_tick` computes for the outstanding batch at the start of a slot. -/
def slotsLeft (driver : Driver) (slot : Nat) : Nat :=
  driver.outstandingBatch.computeAgeLimit (driver.cfg.slotToTimestamp slot + driver.cfg.l1BlockTime)
    (driver.l1.tip.number + 1)

/-- When few slots are left, the tick at the start of a slot submits the outstanding batch with
the slots left as its deadline. -/
theorem onL1SlotTick_eq (driver : Driver) (slot : Nat)
    (hfew : driver.slotsLeft slot ≤ driver.cfg.anchorMaxHeightBuffer) :
    ∃ ticked : Driver, ticked.outstandingBatch = driver.outstandingBatch ∧
      driver.onL1SlotTick (driver.cfg.slotToTimestamp slot) slot =
        ticked.submitLocalOutstandingBatch (slot + driver.slotsLeft slot) := by
  refine ⟨{ driver with
    l1 := { driver.l1 with
      headSlot := driver.cfg.timestampToL1Slot (driver.cfg.slotToTimestamp slot) }
    tickParts := [.enterSlot (driver.cfg.timestampToL1Slot (driver.cfg.slotToTimestamp slot)),
      .submitInHandover, .updateOutstandingBatchAnchor] }, rfl, ?_⟩
  exact if_pos hfew

/-- At a tick at the start of a slot, if slots are left for the outstanding batch, then every L1
block from this slot up to the deadline can take it. The deadline is the one that the tick submits
the batch with. The L1 chain has at most one block a slot after the tip. -/
theorem age_limit_sound (driver : Driver) (hblockTime : driver.cfg.l1BlockTime = 12) (slot : Nat)
    (chain : Nat → Option Header)
    (hchain : ∀ j block, chain (slot + j) = some block →
      block.number ≤ driver.l1.tip.number + 1 + j ∧
        block.timestamp = driver.cfg.slotToTimestamp (slot + j))
    (hpositive : 0 < driver.slotsLeft slot) :
    (∀ later block, slot ≤ later → later ≤ slot + driver.slotsLeft slot →
        chain later = some block → driver.outstandingBatch.TakenIn block) ∧
      (driver.slotsLeft slot ≤ driver.cfg.anchorMaxHeightBuffer →
        ∃ ticked : Driver, ticked.outstandingBatch = driver.outstandingBatch ∧
          driver.onL1SlotTick (driver.cfg.slotToTimestamp slot) slot =
            ticked.submitLocalOutstandingBatch (slot + driver.slotsLeft slot)) := by
  refine ⟨fun later block hlater hdeadline hblock => ?_, driver.onL1SlotTick_eq slot⟩
  obtain ⟨j, rfl⟩ := Nat.exists_eq_add_of_le hlater
  obtain ⟨hnumber, htimestamp⟩ := hchain j block hblock
  have hj : j ≤ driver.slotsLeft slot := by omega
  constructor
  · have hnext := Batch.next_number_le hpositive
    unfold slotsLeft at hj
    omega
  · intro first hfirst
    have hnext := Batch.next_timestamp_le hfirst hpositive
    have htick : block.timestamp = driver.cfg.slotToTimestamp slot + 12 * j := by
      rw [htimestamp, RuntimeConfig.slotToTimestamp, RuntimeConfig.slotToTimestamp,
        slotToTimestamp, slotToTimestamp, hblockTime]
      omega
    rw [hblockTime] at hnext
    unfold slotsLeft at hj
    rw [hblockTime] at hj
    omega

/-- A driver at slot 29 with L1 block 104 as its tip, and a block from slot 25 on anchor 100. -/
def atSlot29 : Driver :=
  { startAt 348 3 with
    outstandingBatch := .fromBlocksUnchecked (l1Header 100) (defaultConfig 1).batchSettings
      [.fromBlock (l2BlockOn 100 1 300 1)] }

/-- 59 slots are left for the first block, and L1 block 164 at slot 88 can still take it. -/
theorem age_limit_sound_at_slot_29 : atSlot29.slotsLeft 29 = 59 ∧
    atSlot29.outstandingBatch.TakenIn { l1Header 164 with timestamp := 1056 } := by
  refine ⟨by decide, ?_⟩
  obtain ⟨htaken, -⟩ := age_limit_sound atSlot29 rfl 29
    (fun slot => some { l1Header (slot + 76) with timestamp := slot * 12 })
    (fun j block hblock => by
      obtain rfl := Option.some.inj hblock
      exact ⟨by show 29 + j + 76 ≤ 104 + 1 + j; omega, by
        show (29 + j) * 12 = 0 + (29 + j) * 12
        omega⟩)
    (by decide)
  exact htaken 88 _ (by decide) (by decide) rfl

end Driver

end Mk1
