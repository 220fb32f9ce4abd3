import Mk1.Driver.Config
import Mk1.Primitives.SlotClock

/-!
# The slot clock of the driver

The clock that `config.rs` starts at the next L1 slot. It starts late by the time since
the last full second, so every tick comes a little after the beginning of its slot.
`l1_ticks_consecutive_iff` says when the L1 ticks announce every slot exactly once and in
order.
-/

namespace Mk1

open SkippingInterval (Api due fired)

namespace RuntimeConfig

/-- The timestamp of the next L1 slot. -/
def nextSlotTs (cfg : RuntimeConfig) (now : Nat) : Nat :=
  cfg.l1GenesisTimestamp + cfg.timestampToL1Slot now * cfg.l1BlockTime + cfg.l1BlockTime

/-- The instant at which the clock starts, when the system clock is read at `now` and the clock of
the intervals at `instant`, both in milliseconds. -/
def slotClockStart (cfg : RuntimeConfig) (now instant : Nat) : Nat :=
  let nowSeconds := now / 1000
  let durationUntilNext := cfg.nextSlotTs nowSeconds - nowSeconds
  instant + durationUntilNext * 1000

/-- `RuntimeConfig::slot_clock`: a clock that starts ticking at the next L1 slot. -/
def slotClock {I : Type} (api : Api I) (cfg : RuntimeConfig) (now instant : Nat) : SlotClock I :=
  .newAt api (cfg.slotClockStart now instant) (cfg.l1BlockTime * 1000) (cfg.l2BlockTime * 1000)

/-- The number of L1 ticks that are due by the time of a poll. -/
def l1TicksDue (cfg : RuntimeConfig) (now instant : Nat) (reads : ClockReads) : Nat :=
  due (cfg.slotClockStart now instant) (cfg.l1BlockTime * 1000) reads.l1Poll

/-- Every tick that the intervals yield at one of these polls gets its timestamp before the next
slot begins. -/
def StampedInSlot (cfg : RuntimeConfig) (now instant : Nat) (polls : List ClockReads) : Prop :=
  ∀ reads ∈ fired (cfg.l1TicksDue now instant) 0 polls, reads.l1Timestamp / 1000 <
    cfg.slotToTimestamp (cfg.timestampToL1Slot (now / 1000) + cfg.l1TicksDue now instant reads + 1)

/-- No two L1 ticks become due between two of these polls, or before the first one. -/
def KeepsPace (cfg : RuntimeConfig) (now instant : Nat) (polls : List ClockReads) : Prop :=
  (0 :: polls.map (cfg.l1TicksDue now instant)).IsChain fun earlier later => later ≤ earlier + 1

instance (cfg : RuntimeConfig) (now instant : Nat) (polls : List ClockReads) :
    Decidable (cfg.StampedInSlot now instant polls) :=
  inferInstanceAs (Decidable (∀ reads ∈ fired _ _ _, _))

instance (cfg : RuntimeConfig) (now instant : Nat) (polls : List ClockReads) :
    Decidable (cfg.KeepsPace now instant polls) :=
  inferInstanceAs (Decidable (List.IsChain _ _))

variable {cfg : RuntimeConfig} {now instant : Nat}

/-- The clock starts after the beginning of the next slot. -/
theorem nextSlotTs_le_start (hblock : 0 < cfg.l1BlockTime) (hnow : now ≤ instant) :
    cfg.nextSlotTs (now / 1000) * 1000 ≤ cfg.slotClockStart now instant := by
  have hnext : now / 1000 < cfg.nextSlotTs (now / 1000) := by
    have hslot := Nat.lt_div_mul_add (a := now / 1000 - cfg.l1GenesisTimestamp) hblock
    unfold nextSlotTs timestampToL1Slot Mk1.timestampToL1Slot
    omega
  unfold slotClockStart
  dsimp only
  omega

/-- A timestamp that is read after a poll, but before the slot ends for which the last tick was due,
is one of this slot. -/
theorem slot_of_stamp (hblock : 0 < cfg.l1BlockTime) (hnow : now ≤ instant) {reads : ClockReads}
    {stamp : Nat} (hpoll : reads.l1Poll ≤ stamp) (hdue : 0 < cfg.l1TicksDue now instant reads)
    (hstamped : stamp / 1000 < cfg.slotToTimestamp
      (cfg.timestampToL1Slot (now / 1000) + cfg.l1TicksDue now instant reads + 1)) :
    cfg.timestampToL1Slot (stamp / 1000) =
      cfg.timestampToL1Slot (now / 1000) + cfg.l1TicksDue now instant reads := by
  obtain ⟨ticks, hticks⟩ := Nat.exists_eq_add_one_of_ne_zero hdue.ne'
  have hstart := cfg.nextSlotTs_le_start hblock hnow
  -- the last tick that is due comes after the beginning of its slot
  have hlast : cfg.slotClockStart now instant + ticks * (cfg.l1BlockTime * 1000) ≤
      reads.l1Poll := by
    refine (SkippingInterval.lt_due (by omega)).mp ?_
    show ticks < cfg.l1TicksDue now instant reads
    omega
  have hbegun : cfg.slotToTimestamp (cfg.timestampToL1Slot (now / 1000) + (ticks + 1)) ≤
      stamp / 1000 := by
    rw [Nat.le_div_iff_mul_le (by omega)]
    refine le_trans ?_ (hlast.trans hpoll)
    unfold nextSlotTs at hstart
    unfold slotToTimestamp Mk1.slotToTimestamp
    calc (cfg.l1GenesisTimestamp +
          (cfg.timestampToL1Slot (now / 1000) + (ticks + 1)) * cfg.l1BlockTime) * 1000
        = (cfg.l1GenesisTimestamp + cfg.timestampToL1Slot (now / 1000) * cfg.l1BlockTime +
            cfg.l1BlockTime) * 1000 + ticks * (cfg.l1BlockTime * 1000) := by ring
      _ ≤ _ := Nat.add_le_add_right hstart _
  rw [hticks] at hstamped ⊢
  unfold slotToTimestamp Mk1.slotToTimestamp at hbegun hstamped
  generalize cfg.timestampToL1Slot (now / 1000) = slot at hbegun hstamped ⊢
  unfold timestampToL1Slot Mk1.timestampToL1Slot
  refine Nat.le_antisymm (Nat.lt_add_one_iff.mp ?_) ?_
  · rw [Nat.div_lt_iff_lt_mul hblock]
    omega
  · rw [Nat.le_div_iff_mul_le hblock]
    omega

/-- Numbers that are shifted by the same amount stay consecutive. -/
theorem consecutive_add_iff (first : Nat) (numbers : List Nat) :
    Consecutive (first + ·) numbers ↔ Consecutive id numbers := by
  refine List.IsChain.iff fun earlier later => ?_
  simp only [id_eq]
  omega

/-- If every L1 tick gets its timestamp before the next slot begins, the L1 ticks announce every
slot exactly once and in order, beginning with the slot after the one in which the clock was made,
if and only if no two ticks become due between two polls of the intervals. -/
theorem l1_ticks_consecutive_iff {I : Type} {api : Api I} (hskips : api.Skips (1000 ≤ ·))
    (hblock : 0 < cfg.l1BlockTime) (hnow : now ≤ instant) {polls : List ClockReads}
    (horder : InOrder polls)
    (hstamped : cfg.StampedInSlot now instant
      ((cfg.slotClock api now instant).reaching api polls)) :
    Consecutive cfg.timestampToL1Slot
        (now / 1000 :: l1Timestamps ((cfg.slotClock api now instant).run api polls)) ↔
      cfg.KeepsPace now instant ((cfg.slotClock api now instant).reaching api polls) := by
  have hperiod : 1000 ≤ cfg.l1BlockTime * 1000 := Nat.le_mul_of_pos_left 1000 hblock
  have hclock : SlotClock.PolledAt api (cfg.slotClockStart now instant) (cfg.l1BlockTime * 1000)
      (cfg.l2BlockTime * 1000) [] (cfg.slotClock api now instant) := SlotClock.polledAt_newAt
  have hpolls : (polls.map ClockReads.l1Poll).Pairwise (· ≤ ·) := by
    rw [List.pairwise_map]
    exact horder.2.imp_of_mem fun hearlier _ hle => (horder.1 _ hearlier).l1Poll_le.trans hle
  have hticks := SlotClock.l1Timestamps_run hskips hperiod (by omega)
    (show (([] ++ polls).map ClockReads.l1Poll).Pairwise (· ≤ ·) from hpolls) hclock
  have hsublist := SlotClock.reaching_sublist api (cfg.slotClock api now instant) polls
  generalize (cfg.slotClock api now instant).reaching api polls = reached
    at hstamped hticks hsublist ⊢
  have hsorted : (0 :: reached.map (cfg.l1TicksDue now instant)).Pairwise (· ≤ ·) := by
    refine List.pairwise_cons.mpr ⟨fun _ _ => Nat.zero_le _, ?_⟩
    rw [List.pairwise_map]
    exact (List.pairwise_map.mp (hpolls.sublist (hsublist.map _))).imp
      fun hle => SkippingInterval.due_mono hle
  have hslots : (now / 1000 :: l1Timestamps ((cfg.slotClock api now instant).run api polls)).map
      cfg.timestampToL1Slot =
        (0 :: (fired (cfg.l1TicksDue now instant) 0 reached).map (cfg.l1TicksDue now instant)).map
          (cfg.timestampToL1Slot (now / 1000) + ·) := by
    have hgrown := (List.pairwise_cons.mp (SkippingInterval.pairwise_fired hsorted)).1
    rw [hticks, List.map_cons, List.map_cons, List.map_map, List.map_map]
    refine congrArg₂ List.cons rfl (List.map_congr_left fun reads hreads => ?_)
    have hmem := (SkippingInterval.fired_sublist 0 reached).subset hreads
    exact slot_of_stamp hblock hnow (horder.1 reads (hsublist.subset hmem)).l1Poll_le
      (hgrown _ (List.mem_map_of_mem hreads)) (hstamped reads hreads)
  rw [Consecutive.congr_numbers hslots, consecutive_add_iff,
    SkippingInterval.consecutive_fired_iff hsorted]
  rfl

/-- Polls at which one L1 tick with an L2 tick, the L2 tick from the cache, another L2 tick and the
L1 tick of the next slot are found. -/
def fourPolls : List ClockReads :=
  [⟨1008501, 1008501, 1008502, 1008502⟩, ⟨1009000, 1009000, 1009000, 1009000⟩,
    ⟨1010600, 1010600, 1010601, 1010601⟩, ⟨1020700, 1020700, 1020700, 1020701⟩]

/-- A clock that is made half a second after a full one in slot 83 announces slots 84 and 85. -/
theorem l1_ticks_consecutive_fourPolls :
    ((defaultConfig 1).slotClock SkippingInterval.skipping 1000500 1000501).run
        SkippingInterval.skipping fourPolls = [.l1 1008, .l2 1008, .l2 1010, .l1 1020] ∧
      Consecutive (defaultConfig 1).timestampToL1Slot [1000, 1008, 1020] := by
  have hconsecutive := (l1_ticks_consecutive_iff
    (SkippingInterval.skips_skipping.mono fun _ hperiod => by omega) (by decide) (by decide)
    (show InOrder fourPolls by decide) (by decide)).mpr
    (show (defaultConfig 1).KeepsPace 1000500 1000501 _ by decide)
  exact ⟨by decide, hconsecutive⟩

end RuntimeConfig

end Mk1
