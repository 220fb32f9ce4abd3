import Mk1.Driver.SlotClock

/-!
# The slot that the clock has announced

The slot of the last L1 tick that was due at the polls of the clock. If no slot ends
while the timestamps of a poll are read, an L1 tick announces its slot, and the timestamp
of an L2 tick lies in the slot that has been announced, also if it has been cached.
-/

namespace Mk1

open SkippingInterval (Api due)

namespace RuntimeConfig

/-- The number of L1 ticks that were due at these polls. -/
def l1TicksDueBy (cfg : RuntimeConfig) (now instant : Nat) (polls : List ClockReads) : Nat :=
  Api.dueBy (cfg.slotClockStart now instant) (cfg.l1BlockTime * 1000)
    (polls.map ClockReads.l1Poll)

/-- The slot of the last L1 tick that was due at these polls, if any tick was due. -/
def announcedSlot (cfg : RuntimeConfig) (now instant : Nat) (polls : List ClockReads) :
    Option Nat :=
  if cfg.l1TicksDueBy now instant polls = 0 then none
  else some (cfg.timestampToL1Slot (now / 1000) + cfg.l1TicksDueBy now instant polls)

/-- A clock after these polls of its intervals, the last of them before an instant. An L2 tick is
only cached with a timestamp of the slot that has been announced. -/
structure ClockAt {I : Type} (api : Api I) (cfg : RuntimeConfig) (now instant : Nat)
    (polls : List ClockReads) (last : Nat) (clock : SlotClock I) : Prop where
  polled : SlotClock.PolledAt api (cfg.slotClockStart now instant) (cfg.l1BlockTime * 1000)
    (cfg.l2BlockTime * 1000) polls clock
  l1Polls : (polls.map ClockReads.l1Poll ++ [last]).Pairwise (· ≤ ·)
  l2Polls : (polls.map ClockReads.l2Poll ++ [last]).Pairwise (· ≤ ·)
  cache : ∀ timestamp, clock.cache = some (.l2 timestamp) →
    cfg.announcedSlot now instant polls = some (cfg.timestampToL1Slot timestamp)

/-- The timestamp of a tick from the intervals is read before the slot ends for which the last L1
tick was due. -/
def stampedInTime {I : Type} (api : Api I) (cfg : RuntimeConfig) (now instant : Nat)
    (clock : SlotClock I) (reads : ClockReads) : Bool :=
  clock.cache.isSome || (clock.pollNext api reads).1.all fun tick => tick.timestamp <
    cfg.slotToTimestamp (cfg.timestampToL1Slot (now / 1000) + cfg.l1TicksDue now instant reads + 1)

/-- The clock of a configuration has announced nothing. -/
theorem clockAt_slotClock {I : Type} (api : Api I) (cfg : RuntimeConfig) (now instant last : Nat) :
    ClockAt api cfg now instant [] last (cfg.slotClock api now instant) where
  polled := SlotClock.polledAt_newAt
  l1Polls := List.pairwise_singleton _ _
  l2Polls := List.pairwise_singleton _ _
  cache := by simp [slotClock, SlotClock.newAt]

/-- Instants that come before one come before a later one. -/
theorem pairwise_concat_mono {instants : List Nat} {last later : Nat}
    (h : (instants ++ [last]).Pairwise (· ≤ ·)) (hle : last ≤ later) :
    (instants ++ [later]).Pairwise (· ≤ ·) := by
  obtain ⟨hinstants, -, hlast⟩ := List.pairwise_append.mp h
  refine List.pairwise_append.mpr ⟨hinstants, List.pairwise_singleton _ _, ?_⟩
  intro instant hinstant other hother
  rw [List.mem_singleton.mp hother]
  exact (hlast instant hinstant last (by simp)).trans hle

/-- An instant after the last one. -/
theorem pairwise_concat_concat {instants : List Nat} {last later : Nat}
    (h : (instants ++ [last]).Pairwise (· ≤ ·)) (hle : last ≤ later) :
    (instants ++ [last] ++ [later]).Pairwise (· ≤ ·) := by
  refine List.pairwise_append.mpr ⟨h, List.pairwise_singleton _ _, ?_⟩
  intro instant hinstant other hother
  rw [List.mem_singleton.mp hother]
  rcases List.mem_append.mp hinstant with hmem | hmem
  · exact ((List.pairwise_append.mp h).2.2 instant hmem last (by simp)).trans hle
  · rwa [List.mem_singleton.mp hmem]

variable {I : Type} {api : Api I} {cfg : RuntimeConfig} {now instant last : Nat}
  {polls : List ClockReads} {clock : SlotClock I} {reads : ClockReads}

/-- One more poll of the intervals. -/
theorem l1TicksDueBy_concat (polls : List ClockReads) (reads : ClockReads) :
    cfg.l1TicksDueBy now instant (polls ++ [reads]) = cfg.l1TicksDue now instant reads := by
  simp [l1TicksDueBy, l1TicksDue, Api.dueBy]

/-- The slot of the last tick that is due at a poll of the intervals. -/
theorem announcedSlot_concat (hdue : 0 < cfg.l1TicksDue now instant reads) :
    cfg.announcedSlot now instant (polls ++ [reads]) =
      some (cfg.timestampToL1Slot (now / 1000) + cfg.l1TicksDue now instant reads) := by
  unfold announcedSlot
  rw [l1TicksDueBy_concat, if_neg hdue.ne']

/-- The slot after the one in which the clock was made. -/
theorem slotToTimestamp_next (timestamp : Nat) :
    cfg.slotToTimestamp (cfg.timestampToL1Slot timestamp + 0 + 1) = cfg.nextSlotTs timestamp := by
  unfold slotToTimestamp Mk1.slotToTimestamp nextSlotTs
  rw [Nat.add_zero, Nat.succ_mul, Nat.add_assoc]

/-- A slot is only announced once the clock has started. -/
theorem ClockAt.start_le (h : ClockAt api cfg now instant polls last clock)
    (hblock : 0 < cfg.l1BlockTime) (hannounced : cfg.announcedSlot now instant polls ≠ none) :
    cfg.slotClockStart now instant ≤ last := by
  obtain ⟨hpolls, -, hlast⟩ := List.pairwise_append.mp h.l1Polls
  have hticks : 0 < cfg.l1TicksDueBy now instant polls := by
    refine Nat.pos_of_ne_zero fun hzero => hannounced ?_
    simp [announcedSlot, hzero]
  obtain ⟨poll, hpoll, hdue⟩ := (Api.lt_dueBy (by omega) hpolls).mp hticks
  exact (Nat.le_add_right _ _).trans (hdue.trans (hlast poll hpoll last (by simp)))

/-- The L1 interval ticks exactly if more ticks are due than before. -/
theorem ClockAt.l1Ready_iff (h : ClockAt api cfg now instant polls last clock)
    (hskips : api.Skips (1000 ≤ ·)) (hblock : 0 < cfg.l1BlockTime)
    (hlast : last ≤ reads.l1Poll) :
    (api.pollTick clock.l1Interval reads.l1Poll).1 = true ↔
      cfg.l1TicksDueBy now instant polls < cfg.l1TicksDue now instant reads := by
  have hperiod : 1000 ≤ cfg.l1BlockTime * 1000 := Nat.le_mul_of_pos_left 1000 hblock
  rw [h.polled.l1]
  exact hskips.pollTick_iff hperiod (by omega) (pairwise_concat_mono h.l1Polls hlast)

/-- At least as many ticks are due as before. -/
theorem ClockAt.l1TicksDueBy_le (h : ClockAt api cfg now instant polls last clock)
    (hlast : last ≤ reads.l1Poll) :
    cfg.l1TicksDueBy now instant polls ≤ cfg.l1TicksDue now instant reads := by
  unfold l1TicksDueBy Api.dueBy
  cases hpolls : (polls.map ClockReads.l1Poll).getLast? with
  | none => exact Nat.zero_le _
  | some poll =>
      have hmem := List.mem_of_getLast? hpolls
      exact SkippingInterval.due_mono
        (((List.pairwise_append.mp h.l1Polls).2.2 poll hmem last (by simp)).trans hlast)

/-- The L2 interval only ticks once the clock has started. -/
theorem ClockAt.start_le_of_l2Ready (h : ClockAt api cfg now instant polls last clock)
    (hskips : api.Skips (1000 ≤ ·)) (hblock : 0 < cfg.l2BlockTime) (hlast : last ≤ reads.l2Poll)
    (hready : (api.pollTick clock.l2Interval reads.l2Poll).1 = true) :
    cfg.slotClockStart now instant ≤ reads.l2Poll := by
  have hperiod : 1000 ≤ cfg.l2BlockTime * 1000 := Nat.le_mul_of_pos_left 1000 hblock
  rw [h.polled.l2] at hready
  obtain ⟨count, hcount, -⟩ :=
    (hskips _ _ _ _ hperiod (pairwise_concat_mono h.l2Polls hlast)).mp hready
  exact (Nat.le_add_right _ _).trans hcount

/-- A poll whose timestamps are read in time: an L1 tick announces its slot, and an L2 tick has a
timestamp of the slot that has been announced. -/
theorem ClockAt.pollNext (h : ClockAt api cfg now instant polls last clock)
    (hskips : api.Skips (1000 ≤ ·)) (hblock : 0 < cfg.l1BlockTime) (hl2Block : 0 < cfg.l2BlockTime)
    (hnow : now ≤ instant) (hlast : last ≤ reads.l1Poll) (hordered : reads.Ordered)
    (hstamped : stampedInTime api cfg now instant clock reads = true) :
    ∃ polls', ClockAt api cfg now instant polls' reads.l1Timestamp (clock.pollNext api reads).2 ∧
      ((∃ timestamp, (clock.pollNext api reads).1 = some (.l1 timestamp) ∧
          cfg.announcedSlot now instant polls' = some (cfg.timestampToL1Slot timestamp)) ∨
        (cfg.announcedSlot now instant polls' = cfg.announcedSlot now instant polls ∧
          ∀ tick ∈ (clock.pollNext api reads).1, ∃ timestamp, tick = .l2 timestamp ∧
            cfg.announcedSlot now instant polls = some (cfg.timestampToL1Slot timestamp))) := by
  have hnext := h.polled.pollNext reads
  cases hcache : clock.cache with
  | some tick =>
      obtain ⟨timestamp, rfl⟩ := h.polled.cache tick hcache
      rw [hcache] at hnext
      rw [SlotClock.pollNext_of_cached reads hcache] at hnext ⊢
      have hlater := hlast.trans hordered.l1Poll_le
      refine ⟨polls, ⟨by simpa using hnext, pairwise_concat_mono h.l1Polls hlater,
        pairwise_concat_mono h.l2Polls hlater, by simp⟩, .inr ⟨rfl, ?_⟩⟩
      rintro tick ⟨⟩
      exact ⟨timestamp, rfl, h.cache timestamp hcache⟩
  | none =>
      have hready := h.l1Ready_iff hskips hblock hlast
      have hle := h.l1TicksDueBy_le hlast
      have hl1Polls := pairwise_concat_concat (pairwise_concat_mono h.l1Polls hlast)
        hordered.l1Poll_le
      have hl2Polls := pairwise_concat_concat
        (pairwise_concat_mono h.l2Polls (hlast.trans hordered.l2Poll))
        (hordered.l2Timestamp.trans hordered.l1Timestamp)
      rw [hcache] at hnext
      have hstamped : ∀ tick ∈ (clock.pollNext api reads).1, tick.timestamp < cfg.slotToTimestamp
          (cfg.timestampToL1Slot (now / 1000) + cfg.l1TicksDue now instant reads + 1) := by
        simpa [stampedInTime, hcache, Option.all_eq_true] using hstamped
      obtain ⟨cache, hclock, hcached, ⟨hticked, hresult⟩ | ⟨hquiet, rfl, hresult⟩⟩ :=
        clock.pollNext_of_reached api reads hcache
      · -- an L1 tick announces its slot, also for an L2 tick that is cached
        have hdue := (Nat.zero_le _).trans_lt (hready.mp hticked)
        have hin := hstamped _ hresult
        refine ⟨polls ++ [reads], ⟨by simpa using hnext, by simpa using hl1Polls,
          by simpa using hl2Polls, fun timestamp htimestamp => ?_⟩, .inl ⟨_, hresult, ?_⟩⟩
        · rw [hclock] at htimestamp
          cases hcached _ htimestamp
          rw [announcedSlot_concat hdue, slot_of_stamp hblock hnow
            (hordered.l2Poll.trans hordered.l2Timestamp) hdue ?_]
          exact (Nat.div_le_div_right hordered.l1Timestamp).trans_lt hin
        · rw [announcedSlot_concat hdue, slot_of_stamp hblock hnow hordered.l1Poll_le hdue hin]
      · -- no other tick is due, so the slot stays the same
        have hsame : cfg.l1TicksDueBy now instant polls = cfg.l1TicksDue now instant reads :=
          Nat.le_antisymm hle (Nat.le_of_not_lt fun hlt => by simp [hready.mpr hlt] at hquiet)
        have hannounced : cfg.announcedSlot now instant (polls ++ [reads]) =
            cfg.announcedSlot now instant polls := by
          unfold announcedSlot
          rw [l1TicksDueBy_concat, hsame]
        refine ⟨polls ++ [reads], ⟨by simpa using hnext, by simpa using hl1Polls,
          by simpa using hl2Polls, by simp [hclock]⟩, .inr ⟨hannounced, fun tick htick => ?_⟩⟩
        obtain ⟨rfl, hticked⟩ := hresult tick htick
        have hin := hstamped _ htick
        have hdue : 0 < cfg.l1TicksDue now instant reads := by
          have hstart := (nextSlotTs_le_start hblock hnow).trans
            ((h.start_le_of_l2Ready hskips hl2Block (hlast.trans hordered.l2Poll) hticked).trans
              hordered.l2Timestamp)
          refine Nat.pos_of_ne_zero fun hzero => Nat.not_lt.mpr ?_ hin
          rw [hzero, slotToTimestamp_next]
          exact (Nat.le_div_iff_mul_le (by omega)).mpr hstart
        refine ⟨_, rfl, ?_⟩
        rw [← hannounced, announcedSlot_concat hdue, slot_of_stamp hblock hnow
          (hordered.l2Poll.trans hordered.l2Timestamp) hdue hin]

end RuntimeConfig

end Mk1
