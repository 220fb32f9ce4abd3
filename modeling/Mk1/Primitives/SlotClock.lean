import Mk1.Library.SkippingInterval
import Mk1.Primitives.Time

/-!
# The slot clock

`SlotClock` of `time.rs`, the stream of L1 and L2 ticks that drives the event loop.
Instants are milliseconds since the UNIX epoch, for the intervals and for the system
clock, which is not adjusted. A poll that finds a tick in the cache does not reach the
intervals. `l1Timestamps_run` says which polls yield L1 ticks.
-/

namespace Mk1

open SkippingInterval (Api due fired)

/-- A tick from the slot clock, with a timestamp in seconds. -/
inductive SlotTick where
  | l1 (timestamp : Nat)
  | l2 (timestamp : Nat)
  deriving DecidableEq, Repr

/-- The timestamp of a tick. -/
def SlotTick.timestamp : SlotTick → Nat
  | .l1 timestamp => timestamp
  | .l2 timestamp => timestamp

/-- A clock that emits ticks from two slot intervals. -/
structure SlotClock (I : Type) where
  l1Interval : I
  l2Interval : I
  cache : Option SlotTick
  deriving DecidableEq

/-- The instants of one poll: when it polls the intervals, and when it reads the timestamps, that of
an L2 tick first. -/
structure ClockReads where
  l1Poll : Nat
  l2Poll : Nat
  l2Timestamp : Nat
  l1Timestamp : Nat
  deriving DecidableEq, Repr

/-- The instants follow each other. -/
structure ClockReads.Ordered (reads : ClockReads) : Prop where
  l2Poll : reads.l1Poll ≤ reads.l2Poll
  l2Timestamp : reads.l2Poll ≤ reads.l2Timestamp
  l1Timestamp : reads.l2Timestamp ≤ reads.l1Timestamp

instance (reads : ClockReads) : Decidable reads.Ordered :=
  decidable_of_iff (reads.l1Poll ≤ reads.l2Poll ∧ reads.l2Poll ≤ reads.l2Timestamp ∧
    reads.l2Timestamp ≤ reads.l1Timestamp)
    ⟨fun h => ⟨h.1, h.2.1, h.2.2⟩, fun h => ⟨h.l2Poll, h.l2Timestamp, h.l1Timestamp⟩⟩

/-- The timestamp of an L1 tick is read after the poll of its interval. -/
theorem ClockReads.Ordered.l1Poll_le {reads : ClockReads} (h : reads.Ordered) :
    reads.l1Poll ≤ reads.l1Timestamp :=
  (h.l2Poll.trans h.l2Timestamp).trans h.l1Timestamp

/-- The instants of several polls follow each other. -/
def InOrder (polls : List ClockReads) : Prop :=
  (∀ reads ∈ polls, reads.Ordered) ∧
    polls.Pairwise fun earlier later => earlier.l1Timestamp ≤ later.l1Poll

instance (polls : List ClockReads) : Decidable (InOrder polls) :=
  inferInstanceAs (Decidable (_ ∧ _))

namespace SlotClock

variable {I : Type}

/-- `SlotClock::new_at`. -/
def newAt (api : Api I) (start l1Interval l2Interval : Nat) : SlotClock I :=
  ⟨api.intervalAt start l1Interval, api.intervalAt start l2Interval, none⟩

/-- `SlotClock::poll_next`: L1 ticks come first, and an L2 tick that is due at the same time is
cached for the next poll. -/
def pollNext (api : Api I) (clock : SlotClock I) (reads : ClockReads) :
    Option SlotTick × SlotClock I :=
  match clock.cache with
  | some tick => (some tick, { clock with cache := none })
  | none =>
      let (l1Ready, l1Interval) := api.pollTick clock.l1Interval reads.l1Poll
      let (l2Ready, l2Interval) := api.pollTick clock.l2Interval reads.l2Poll
      let l2Tick := SlotTick.l2 (reads.l2Timestamp / 1000)
      if l1Ready then
        (some (.l1 (reads.l1Timestamp / 1000)),
          ⟨l1Interval, l2Interval, if l2Ready then some l2Tick else none⟩)
      else (if l2Ready then some l2Tick else none, ⟨l1Interval, l2Interval, none⟩)

/-- The ticks of several polls. -/
def run (api : Api I) (clock : SlotClock I) : List ClockReads → List SlotTick
  | [] => []
  | reads :: rest =>
      (clock.pollNext api reads).1.toList ++ (clock.pollNext api reads).2.run api rest

/-- The polls that reach the intervals. -/
def reaching (api : Api I) (clock : SlotClock I) : List ClockReads → List ClockReads
  | [] => []
  | reads :: rest =>
      (if clock.cache.isNone then [reads] else []) ++
        (clock.pollNext api reads).2.reaching api rest

end SlotClock

/-- The timestamps of the L1 ticks. -/
def l1Timestamps (ticks : List SlotTick) : List Nat :=
  ticks.filterMap fun tick =>
    match tick with
    | .l1 timestamp => some timestamp
    | .l2 _ => none

/-! ## What a poll yields -/

namespace SlotClock

variable {I : Type} {api : Api I} {periods : Nat → Prop} {start l1Period l2Period : Nat}

/-- The clock after these polls of its intervals. Only L2 ticks are cached. -/
structure PolledAt (api : Api I) (start l1Period l2Period : Nat) (polls : List ClockReads)
    (clock : SlotClock I) : Prop where
  l1 : clock.l1Interval = api.polled start l1Period (polls.map ClockReads.l1Poll)
  l2 : clock.l2Interval = api.polled start l2Period (polls.map ClockReads.l2Poll)
  cache : ∀ tick ∈ clock.cache, ∃ timestamp, tick = .l2 timestamp

/-- A new clock has not been polled. -/
theorem polledAt_newAt : PolledAt api start l1Period l2Period []
    (newAt api start l1Period l2Period) where
  l1 := rfl
  l2 := rfl
  cache := by simp [newAt]

/-- A cached tick is returned at once. -/
theorem pollNext_of_cached {clock : SlotClock I} {tick : SlotTick} (reads : ClockReads)
    (h : clock.cache = some tick) :
    clock.pollNext api reads = (some tick, { clock with cache := none }) := by
  unfold pollNext
  rw [h]

/-- A poll that reaches the intervals yields an L1 tick if the L1 interval ticks. -/
theorem pollNext_of_reached (api : Api I) {clock : SlotClock I} (reads : ClockReads)
    (h : clock.cache = none) :
    ∃ cache, (clock.pollNext api reads).2 =
        ⟨(api.pollTick clock.l1Interval reads.l1Poll).2,
          (api.pollTick clock.l2Interval reads.l2Poll).2, cache⟩ ∧
      (∀ tick ∈ cache, tick = .l2 (reads.l2Timestamp / 1000)) ∧
      (((api.pollTick clock.l1Interval reads.l1Poll).1 = true ∧
          (clock.pollNext api reads).1 = some (.l1 (reads.l1Timestamp / 1000))) ∨
        ((api.pollTick clock.l1Interval reads.l1Poll).1 = false ∧ cache = none ∧
          ∀ tick ∈ (clock.pollNext api reads).1, tick = .l2 (reads.l2Timestamp / 1000) ∧
            (api.pollTick clock.l2Interval reads.l2Poll).1 = true)) := by
  unfold pollNext
  rw [h]
  cases hl1 : (api.pollTick clock.l1Interval reads.l1Poll).1 with
  | true =>
      cases hl2 : (api.pollTick clock.l2Interval reads.l2Poll).1 with
      | true =>
          exact ⟨some (.l2 (reads.l2Timestamp / 1000)), by simp [hl1, hl2], by simp,
            .inl ⟨rfl, by simp [hl1]⟩⟩
      | false => exact ⟨none, by simp [hl1, hl2], by simp, .inl ⟨rfl, by simp [hl1]⟩⟩
  | false =>
      cases hl2 : (api.pollTick clock.l2Interval reads.l2Poll).1 with
      | true => exact ⟨none, by simp [hl1], by simp, .inr ⟨rfl, rfl, by simp [hl1, hl2]⟩⟩
      | false => exact ⟨none, by simp [hl1], by simp, .inr ⟨rfl, rfl, by simp [hl1, hl2]⟩⟩

/-- The clock after one more poll of its intervals. -/
theorem PolledAt.pollNext {polls : List ClockReads} {clock : SlotClock I}
    (h : PolledAt api start l1Period l2Period polls clock) (reads : ClockReads) :
    PolledAt api start l1Period l2Period
      (polls ++ if clock.cache.isNone then [reads] else []) (clock.pollNext api reads).2 := by
  cases hcache : clock.cache with
  | some tick =>
      rw [pollNext_of_cached reads hcache]
      exact ⟨by simpa using h.l1, by simpa using h.l2, by simp⟩
  | none =>
      obtain ⟨cache, hnext, hl2, -⟩ := clock.pollNext_of_reached api reads hcache
      rw [hnext]
      refine ⟨?_, ?_, fun tick htick => ⟨_, hl2 tick htick⟩⟩
      · simp only [Option.isNone_none, if_true, List.map_append, List.map_singleton,
          Api.polled_concat, h.l1]
      · simp only [Option.isNone_none, if_true, List.map_append, List.map_singleton,
          Api.polled_concat, h.l2]

/-- The polls that reach the intervals are some of all polls. -/
theorem reaching_sublist (api : Api I) (clock : SlotClock I) (polls : List ClockReads) :
    (clock.reaching api polls).Sublist polls := by
  induction polls generalizing clock with
  | nil => exact List.Sublist.refl _
  | cons reads rest ih =>
      unfold reaching
      split
      · exact (ih _).cons_cons reads
      · exact (ih _).cons reads

/-- The L1 ticks come from the polls of the intervals by which another L1 tick has become due. -/
theorem l1Timestamps_run (hskips : api.Skips periods) (hperiod : periods l1Period)
    (hpos : 0 < l1Period) {polled polls : List ClockReads} {clock : SlotClock I}
    (hsorted : ((polled ++ polls).map ClockReads.l1Poll).Pairwise (· ≤ ·))
    (hclock : PolledAt api start l1Period l2Period polled clock) :
    l1Timestamps (clock.run api polls) =
      (fired (fun reads => due start l1Period reads.l1Poll)
        (Api.dueBy start l1Period (polled.map ClockReads.l1Poll))
        (clock.reaching api polls)).map fun reads => reads.l1Timestamp / 1000 := by
  induction polls generalizing clock polled with
  | nil => rfl
  | cons reads rest ih =>
      have hnext := hclock.pollNext reads
      unfold run reaching
      cases hcache : clock.cache with
      | some tick =>
          obtain ⟨timestamp, rfl⟩ := hclock.cache tick hcache
          have hshorter : ((polled ++ rest).map ClockReads.l1Poll).Pairwise (· ≤ ·) :=
            hsorted.sublist (((List.sublist_cons_self reads rest).append_left polled).map _)
          rw [hcache] at hnext
          have hrest := ih hshorter (by simpa using hnext)
          rw [pollNext_of_cached reads hcache] at hrest ⊢
          simpa [l1Timestamps] using hrest
      | none =>
          have hpolls : (polled.map ClockReads.l1Poll ++ [reads.l1Poll]).Pairwise (· ≤ ·) := by
            rw [← List.map_singleton, ← List.map_append]
            exact hsorted.sublist ((List.sublist_append_left _ rest).map _ |>.trans (by simp))
          have hdue : Api.dueBy start l1Period
              ((polled ++ [reads]).map ClockReads.l1Poll) = due start l1Period reads.l1Poll := by
            simp [Api.dueBy]
          rw [hcache] at hnext
          have hlonger : ((polled ++ [reads] ++ rest).map ClockReads.l1Poll).Pairwise (· ≤ ·) := by
            simpa using hsorted
          have hrest := ih hlonger (by simpa using hnext)
          rw [hdue] at hrest
          have hticks : (api.pollTick clock.l1Interval reads.l1Poll).1 = true ↔
              Api.dueBy start l1Period (polled.map ClockReads.l1Poll) <
                due start l1Period reads.l1Poll := by
            rw [hclock.l1]
            exact hskips.pollTick_iff hperiod hpos hpolls
          simp only [Option.isNone_none, if_true, List.singleton_append,
            SkippingInterval.fired_cons]
          obtain ⟨cache, -, -, ⟨hready, htick⟩ | ⟨hready, -, htick⟩⟩ :=
            clock.pollNext_of_reached api reads hcache
          · rw [if_pos (hticks.mp hready), htick, List.map_cons, ← hrest]
            rfl
          · rw [if_neg (fun hgrown => by rw [hticks.mpr hgrown] at hready; cases hready), ← hrest]
            -- a poll without an L1 tick adds no timestamp
            have hnone : l1Timestamps (clock.pollNext api reads).1.toList = [] := by
              cases hresult : (clock.pollNext api reads).1 with
              | none => rfl
              | some tick =>
                  rw [(htick tick hresult).1]
                  rfl
            unfold l1Timestamps at hnone ⊢
            rw [List.filterMap_append, hnone, List.nil_append]

end SlotClock

end Mk1
