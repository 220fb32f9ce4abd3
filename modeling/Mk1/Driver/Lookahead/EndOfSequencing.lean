import Mk1.Driver.Lookahead.MutualExclusion
import Mk1.Driver.Lookahead.WindowEnd

/-!
# The end of the sequencing window

The driver marks the last L2 block before the end of its sequencing window. The end is that of the
highest epoch in a ring which can also hold epochs from before the last head. `end_of_sequencing`
says that from the head on the window has no gap before its end, and that the mark picks one L2
timestamp, the last one before the end.
-/

namespace Mk1

namespace Lookahead

/-- `Window::<Inclusion>::calculate` and then `Window::<Sequencing>::calculate`. -/
def record (lookahead : Lookahead) (report : EpochReport) : Lookahead :=
  let inclusionWindow := lookahead.inclusionWindow.calculate report.headSlot
    report.sequencerCurrentEpoch report.sequencerNextEpoch
  { lookahead with
    inclusionWindow := inclusionWindow
    sequencingWindow := lookahead.sequencingWindow.calculateFrom inclusionWindow }

/-- The lookahead after a sequence of calls. -/
def recordAll (lookahead : Lookahead) (reports : List EpochReport) : Lookahead :=
  reports.foldl record lookahead

/-- The update of both windows is a call with what the operators report. -/
theorem calculate_eq_record (lookahead : Lookahead) (headSlot : Nat)
    (currentOperator nextOperator : Address) :
    lookahead.calculate headSlot currentOperator nextOperator =
      lookahead.record ⟨headSlot, currentOperator = lookahead.cfg.operator,
        nextOperator = lookahead.cfg.operator⟩ := rfl

end Lookahead

/-- The timestamps at which an L2 block can start. -/
def RuntimeConfig.l2Timestamps (cfg : RuntimeConfig) : Set Nat :=
  { timestamp | ∃ k, timestamp = cfg.l1GenesisTimestamp + k * cfg.l2BlockTime }

namespace Lookahead

/-- The sequencing window keeps its offset when it is calculated. -/
theorem offset_foldl_applyEpoch (window : Window .sequencing) (epochs : List Nat) :
    (epochs.foldl Window.applyEpoch window).offset = window.offset := by
  induction epochs generalizing window with
  | nil => rfl
  | cons epoch rest ih => exact ih (window.applyEpoch epoch)

/-- The calls leave the configuration alone, calculate the inclusion window from the reports, and
keep the handover offset of the sequencing window. -/
theorem recordAll_spec (cfg : RuntimeConfig) (reports : List EpochReport) :
    ((new cfg).recordAll reports).cfg = cfg ∧
      ((new cfg).recordAll reports).inclusionWindow = Window.default.calculateAll reports ∧
      ((new cfg).recordAll reports).sequencingWindow.offset = cfg.handoverWindowSlots := by
  induction reports using List.reverseRecOn with
  | nil => exact ⟨rfl, rfl, rfl⟩
  | append_singleton reports report ih =>
      obtain ⟨hcfg, hinclusion, hoffset⟩ := ih
      rw [recordAll, List.foldl_concat, ← recordAll]
      refine ⟨hcfg, ?_, (offset_foldl_applyEpoch _ _).trans hoffset⟩
      rw [Window.calculateAll_append_singleton, ← hinclusion]
      rfl

/-- After calls whose head slots never decrease, the sequencing window is well-formed, and no epoch
after the next one is set in it. -/
theorem sequencingWindow_recordAll (cfg : RuntimeConfig) {reports : List EpochReport}
    {last : EpochReport}
    (hsorted : (reports ++ [last]).Pairwise fun first second => first.headSlot ≤ second.headSlot)
    (hbounds : ∀ report ∈ reports ++ [last], report.InBounds) :
    ((new cfg).recordAll (reports ++ [last])).sequencingWindow.WellFormed ∧
      ∀ epoch, last.epoch + 1 < epoch →
        ¬ ((new cfg).recordAll (reports ++ [last])).sequencingWindow.IsSet epoch := by
  have htracks := tracks_calculateAll hsorted hbounds
  have hlast : lastEpoch (reports ++ [last]) = last.epoch := by simp [lastEpoch]
  rw [hlast, ← (recordAll_spec cfg (reports ++ [last])).2.1] at htracks
  have hwindow : ((new cfg).recordAll (reports ++ [last])).sequencingWindow =
      ((new cfg).recordAll reports).sequencingWindow.calculateFrom
        ((new cfg).recordAll (reports ++ [last])).inclusionWindow := by
    rw [recordAll, List.foldl_concat, ← recordAll]
    rfl
  obtain ⟨hwellFormed, -, hset⟩ := Window.calculateFrom_spec htracks.wellFormed
    ((new cfg).recordAll reports).sequencingWindow
  rw [hwindow]
  refine ⟨hwellFormed, fun epoch hlater => ?_⟩
  rw [hset]
  exact htracks.not_isSet hlater

/-- The mark is for the L2 timestamp after which the next one is the end of the window. -/
theorem isLastBlock_iff {lookahead : Lookahead} (hl1 : 0 < lookahead.cfg.l1BlockTime)
    (hdvd : lookahead.cfg.l2BlockTime ∣ lookahead.cfg.l1BlockTime)
    (hend : 0 < lookahead.sequencingWindow.end') (k : Nat) :
    lookahead.isLastBlockInSequencingWindow
        (lookahead.cfg.l1GenesisTimestamp + k * lookahead.cfg.l2BlockTime) = true ↔
      (k + 1) * lookahead.cfg.l2BlockTime =
        lookahead.sequencingWindow.end' * lookahead.cfg.l1BlockTime := by
  obtain ⟨n, hn⟩ := Nat.exists_eq_succ_of_ne_zero hend.ne'
  have hle : lookahead.cfg.l2BlockTime ≤ lookahead.cfg.l1BlockTime := Nat.le_of_dvd hl1 hdvd
  simp only [isLastBlockInSequencingWindow, RuntimeConfig.timestampToL1Slot, timestampToL1Slot,
    RuntimeConfig.slotToTimestamp, slotToTimestamp, Nat.add_sub_cancel_left, hn,
    Nat.succ_eq_add_one, Nat.add_sub_cancel]
  generalize lookahead.cfg.l1GenesisTimestamp = genesis
  generalize lookahead.cfg.l2BlockTime = l2 at *
  generalize lookahead.cfg.l1BlockTime = l1 at *
  rw [Nat.succ_mul k l2, Nat.succ_mul n l1]
  constructor
  · intro hmark
    split at hmark
    · cases hmark
    · next hslot =>
        have htimestamp := of_decide_eq_true hmark
        rw [← not_not.mp hslot] at htimestamp
        omega
  · intro hsum
    have hslot : n = k * l2 / l1 := by
      refine (Nat.div_eq_of_lt_le ?_ ?_).symm
      · omega
      · rw [Nat.succ_mul]
        rcases Nat.eq_zero_or_pos l2 with hzero | hpositive
        · rw [hzero] at hdvd
          exact absurd (Nat.eq_zero_of_zero_dvd hdvd) hl1.ne'
        · omega
    rw [if_neg (not_not.mpr hslot), decide_eq_true_eq, ← hslot]
    omega

/-- If the L2 block time divides the L1 block time, one L2 block ends with each slot but the
first. -/
theorem exists_block_before {l1 l2 last : Nat} (hl1 : 0 < l1) (hdvd : l2 ∣ l1) (hlast : 0 < last) :
    ∃ k, (k + 1) * l2 = last * l1 := by
  obtain ⟨m, rfl⟩ := hdvd
  have hpositive : 0 < last * m := Nat.mul_pos hlast (Nat.pos_of_mul_pos_left hl1)
  refine ⟨last * m - 1, ?_⟩
  rw [Nat.sub_add_cancel hpositive]
  ring

/-- The L2 block that ends with a slot has the greatest L2 timestamp before the end of the slot. -/
theorem isGreatest_l2Timestamp {cfg : RuntimeConfig} {k slot : Nat} (hl2 : 0 < cfg.l2BlockTime)
    (hk : (k + 1) * cfg.l2BlockTime = slot * cfg.l1BlockTime) :
    IsGreatest { other ∈ cfg.l2Timestamps | other < cfg.slotToTimestamp slot }
      (cfg.l1GenesisTimestamp + k * cfg.l2BlockTime) := by
  have hsum := hk
  rw [Nat.succ_mul] at hsum
  refine ⟨⟨⟨k, rfl⟩, ?_⟩, ?_⟩
  · unfold RuntimeConfig.slotToTimestamp slotToTimestamp
    omega
  · rintro other ⟨⟨j, rfl⟩, hbefore⟩
    unfold RuntimeConfig.slotToTimestamp slotToTimestamp at hbefore
    have hj : j < k + 1 := by
      refine Nat.lt_of_mul_lt_mul_right (a := cfg.l2BlockTime) ?_
      rw [hk]
      omega
    exact Nat.add_le_add_left (Nat.mul_le_mul_right _ (Nat.le_of_lt_succ hj)) _

/-- After any calls whose head slots never decrease, from any slot on that is in the sequencing
window and not before the epoch of the last head, the window goes on up to its end, which is not in
it. Of the L2 timestamps from this slot on, the mark is for one only: the greatest before the
end. -/
theorem end_of_sequencing (cfg : RuntimeConfig) (hoffset : cfg.handoverWindowSlots < 32)
    (reports : List EpochReport) (last : EpochReport)
    (hsorted : (reports ++ [last]).Pairwise fun first second => first.headSlot ≤ second.headSlot)
    (hbounds : ∀ report ∈ reports ++ [last], report.InBounds) (slot : Nat)
    (hslot : 32 * last.epoch ≤ slot)
    (hin : ((new cfg).recordAll (reports ++ [last])).inSequencingWindow slot = true) :
    let lookahead := (new cfg).recordAll (reports ++ [last])
    (∀ other, slot ≤ other → other < lookahead.sequencingWindow.end' →
        lookahead.inSequencingWindow other = true) ∧
      lookahead.inSequencingWindow lookahead.sequencingWindow.end' = false ∧
      (0 < cfg.l2BlockTime → cfg.l2BlockTime ∣ cfg.l1BlockTime → 0 < cfg.l1BlockTime →
        ∃ timestamp,
          IsGreatest { other ∈ cfg.l2Timestamps |
            other < cfg.slotToTimestamp lookahead.sequencingWindow.end' } timestamp ∧
          cfg.slotToTimestamp slot ≤ timestamp ∧
          ∀ other ∈ cfg.l2Timestamps, cfg.slotToTimestamp slot ≤ other →
            (lookahead.isLastBlockInSequencingWindow other = true ↔ other = timestamp)) := by
  intro lookahead
  obtain ⟨hcfg, -, hseqOffset⟩ := recordAll_spec cfg (reports ++ [last])
  obtain ⟨hwellFormed, hbeyond⟩ := sequencingWindow_recordAll cfg hsorted hbounds
  refine ⟨fun other hother hlt => ?_, lookahead.sequencingWindow.contains_end, ?_⟩
  · have hhead : last.epoch ≤ toEpoch (slot + lookahead.sequencingWindow.offset) := by
      unfold toEpoch EPOCH_SLOTS
      omega
    refine Window.contains_of_lt_end hwellFormed ?_ hbeyond hhead hin hother hlt
    rw [hseqOffset]
    exact hoffset.le
  · intro hl2 hdvd hl1
    have hlt : slot < lookahead.sequencingWindow.end' := Window.lt_end_of_contains hin
    have hend : 0 < lookahead.sequencingWindow.end' := Nat.zero_lt_of_lt hlt
    have hmark := isLastBlock_iff (hcfg.symm ▸ hl1 : 0 < lookahead.cfg.l1BlockTime)
      (hcfg.symm ▸ hdvd) hend
    rw [hcfg] at hmark
    -- slots are whole numbers of L2 blocks, so a block ends exactly where the window does
    obtain ⟨k, hk⟩ := exists_block_before hl1 hdvd hend
    have hsum := hk
    rw [Nat.succ_mul] at hsum
    refine ⟨cfg.l1GenesisTimestamp + k * cfg.l2BlockTime, isGreatest_l2Timestamp hl2 hk, ?_, ?_⟩
    · have hle : cfg.l2BlockTime ≤ cfg.l1BlockTime := Nat.le_of_dvd hl1 hdvd
      have hslots : (slot + 1) * cfg.l1BlockTime ≤
          lookahead.sequencingWindow.end' * cfg.l1BlockTime := Nat.mul_le_mul_right _ hlt
      rw [Nat.succ_mul] at hslots
      unfold RuntimeConfig.slotToTimestamp slotToTimestamp
      omega
    · rintro other ⟨j, rfl⟩ -
      rw [hmark, ← hk, Nat.mul_left_inj hl2.ne', Nat.add_left_cancel_iff,
        Nat.mul_left_inj hl2.ne', Nat.add_right_cancel_iff]

/-- The sequencer of epoch 3 with an offset of 4 slots: from slot 96 on its window ends at slot 124,
and the mark is for the block two seconds before. -/
theorem end_of_sequencing_at_slot_96 :
    let lookahead := (new (defaultConfig 1)).recordAll ([] ++ [⟨100, true, false⟩])
    lookahead.sequencingWindow.end' = 124 ∧ lookahead.inSequencingWindow 123 = true ∧
      lookahead.isLastBlockInSequencingWindow 1486 = true := by
  have hbounds : ∀ report ∈ [] ++ [⟨100, true, false⟩], EpochReport.InBounds report := by
    intro report hreport
    rw [List.mem_singleton.mp hreport]
    show _ ≤ _
    decide
  obtain ⟨hwindow, -, hmark⟩ := end_of_sequencing (defaultConfig 1) (by decide) []
    ⟨100, true, false⟩ (List.pairwise_singleton _ _) hbounds 96 (by decide) (by decide)
  refine ⟨by decide, hwindow 123 (by decide) (by decide), ?_⟩
  obtain ⟨timestamp, ⟨⟨hmem, hlt⟩, hgreatest⟩, hle, hiff⟩ :=
    hmark (by decide) (by decide) (by decide)
  refine (hiff 1486 ⟨743, rfl⟩ (by decide)).mpr (le_antisymm ?_ ?_)
  · exact hgreatest ⟨⟨743, rfl⟩, by decide⟩
  · obtain ⟨j, rfl⟩ := hmem
    have hend : 0 + j * 2 < 1488 := hlt
    show 0 + j * 2 ≤ 1486
    omega

end Lookahead

end Mk1
