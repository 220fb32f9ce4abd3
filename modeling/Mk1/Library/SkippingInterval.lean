import Mathlib.Data.List.Infix
import Mathlib.Data.List.Sort
import Mk1.Library.Consecutive

/-!
# Intervals that skip missed ticks

An interval whose ticks become due at `start`, `start + period` and so on. When it
is polled late it ticks once for all ticks that are due, and then follows the old
schedule. `due` counts the ticks that are due by an instant, so the interval ticks
at a poll exactly if this number has grown since the poll before. An implementation
is a parameter; `Skips` is what such an interval promises.
-/

namespace SkippingInterval

/-- How many ticks are due by an instant. -/
def due (start period now : Nat) : Nat := (now + period - start) / period

/-- A tick is due if its instant has come. -/
theorem lt_due {start period now count : Nat} (hperiod : 0 < period) :
    count < due start period now ↔ start + count * period ≤ now := by
  unfold due
  rw [← Nat.succ_le_iff, Nat.le_div_iff_mul_le hperiod, Nat.succ_mul]
  omega

/-- Ticks stay due. -/
theorem due_mono {start period earlier later : Nat} (h : earlier ≤ later) :
    due start period earlier ≤ due start period later :=
  Nat.div_le_div_right (by omega)

/-- The members at which a counter has grown since the member before, and from a first value. -/
def fired {α : Type*} (count : α → Nat) : Nat → List α → List α
  | _, [] => []
  | before, a :: rest =>
      if before < count a then a :: fired count (count a) rest else fired count (count a) rest

section Fired

variable {α : Type*} {count : α → Nat}

theorem fired_cons (before : Nat) (a : α) (rest : List α) : fired count before (a :: rest) =
    if before < count a then a :: fired count (count a) rest else fired count (count a) rest := rfl

/-- The counter fires at members of the list. -/
theorem fired_sublist (before : Nat) (list : List α) : (fired count before list).Sublist list := by
  induction list generalizing before with
  | nil => exact List.Sublist.refl _
  | cons a rest ih =>
      rw [fired_cons]
      split
      · exact (ih _).cons_cons a
      · exact (ih _).cons a

/-- Each number is above the one before. -/
theorem pairwise_fired {before : Nat} {list : List α}
    (hsorted : (before :: list.map count).Pairwise (· ≤ ·)) :
    (before :: (fired count before list).map count).Pairwise (· < ·) := by
  induction list generalizing before with
  | nil => exact List.pairwise_singleton _ _
  | cons a rest ih =>
      obtain ⟨hbefore, hrest⟩ := List.pairwise_cons.mp hsorted
      have hle := hbefore (count a) List.mem_cons_self
      have hfired := ih hrest
      rw [fired_cons]
      split
      · next hgrown =>
          refine List.pairwise_cons.mpr ⟨fun number hnumber => ?_, hfired⟩
          rcases List.mem_cons.mp hnumber with rfl | hlater
          · exact hgrown
          · exact hgrown.trans ((List.pairwise_cons.mp hfired).1 number hlater)
      · next hsame =>
          obtain rfl : before = count a := by omega
          exact hfired

/-- The numbers at which the counter fires are consecutive exactly if it never grows by more than
one at once. -/
theorem consecutive_fired_iff {before : Nat} {list : List α}
    (hsorted : (before :: list.map count).Pairwise (· ≤ ·)) :
    Consecutive id (before :: (fired count before list).map count) ↔
      (before :: list.map count).IsChain fun earlier later => later ≤ earlier + 1 := by
  induction list generalizing before with
  | nil => exact ⟨fun _ => List.IsChain.singleton _, fun _ => Consecutive.singleton _⟩
  | cons a rest ih =>
      obtain ⟨hbefore, hrest⟩ := List.pairwise_cons.mp hsorted
      have hle := hbefore (count a) List.mem_cons_self
      rw [List.map_cons, List.isChain_cons_cons, ← ih hrest, fired_cons]
      split
      · next hgrown =>
          rw [List.map_cons]
          unfold Consecutive
          rw [List.isChain_cons_cons]
          refine and_congr_left fun _ => ?_
          simp only [id_eq]
          omega
      · next hsame =>
          obtain rfl : before = count a := by omega
          exact ⟨fun h => ⟨Nat.le_succ _, h⟩, And.right⟩

end Fired

/-- An implementation of intervals: an interval with a first tick and a period, and what a poll at
an instant finds and leaves. -/
structure Api (I : Type*) where
  intervalAt : (start period : Nat) → I
  pollTick : I → (now : Nat) → Bool × I

namespace Api

variable {I : Type*} (api : Api I)

/-- An interval after polls at these instants. -/
def polled (start period : Nat) (polls : List Nat) : I :=
  polls.foldl (fun interval now => (api.pollTick interval now).2) (api.intervalAt start period)

/-- What intervals with these periods promise: polled at instants in order, they tick if and only
if a tick has become due since the last poll. -/
def Skips (periods : Nat → Prop) : Prop :=
  ∀ start period polls now, periods period → (polls ++ [now]).Pairwise (· ≤ ·) →
    ((api.pollTick (api.polled start period polls) now).1 = true ↔
      ∃ count, start + count * period ≤ now ∧ ∀ poll ∈ polls, poll < start + count * period)

@[simp] theorem polled_nil (start period : Nat) :
    api.polled start period [] = api.intervalAt start period := rfl

/-- One more poll. -/
theorem polled_concat (start period : Nat) (polls : List Nat) (now : Nat) :
    api.polled start period (polls ++ [now]) =
      (api.pollTick (api.polled start period polls) now).2 := by
  unfold polled
  rw [List.foldl_append]
  rfl

variable {api}

/-- The promise for more periods covers that for fewer. -/
theorem Skips.mono {periods others : Nat → Prop} (h : api.Skips periods)
    (hothers : ∀ period, others period → periods period) : api.Skips others :=
  fun start period polls now hperiod => h start period polls now (hothers period hperiod)

/-- The number of ticks due by the last of some polls. -/
def dueBy (start period : Nat) (polls : List Nat) : Nat :=
  (polls.getLast?.map (due start period)).getD 0

/-- A tick is due by the last poll if it was due by any of them. -/
theorem lt_dueBy {start period : Nat} {polls : List Nat} (hperiod : 0 < period)
    (hsorted : polls.Pairwise (· ≤ ·)) {count : Nat} :
    count < dueBy start period polls ↔ ∃ poll ∈ polls, start + count * period ≤ poll := by
  unfold dueBy
  cases hlast : polls.getLast? with
  | none =>
      rw [List.getLast?_eq_none_iff.mp hlast]
      simp
  | some last =>
      obtain ⟨front, rfl⟩ := List.getLast?_eq_some_iff.mp hlast
      simp only [Option.map_some, Option.getD_some]
      rw [lt_due hperiod]
      constructor
      · exact fun hle => ⟨last, by simp, hle⟩
      · rintro ⟨poll, hpoll, hle⟩
        rcases List.mem_append.mp hpoll with hfront | hself
        · exact hle.trans ((List.pairwise_append.mp hsorted).2.2 poll hfront last (by simp))
        · rwa [List.mem_singleton.mp hself] at hle

/-- A tick has become due since the last poll exactly if the number of ticks due has grown. -/
theorem Skips.pollTick_iff {periods : Nat → Prop} (h : api.Skips periods) {start period : Nat}
    {polls : List Nat} {now : Nat} (hperiod : periods period) (hpos : 0 < period)
    (hsorted : (polls ++ [now]).Pairwise (· ≤ ·)) :
    (api.pollTick (api.polled start period polls) now).1 = true ↔
      dueBy start period polls < due start period now := by
  have hpolls := (List.pairwise_append.mp hsorted).1
  rw [h start period polls now hperiod hsorted]
  constructor
  · rintro ⟨count, hnow, hbefore⟩
    have hnot : ¬ count < dueBy start period polls := by
      rw [lt_dueBy hpos hpolls]
      rintro ⟨poll, hpoll, hle⟩
      exact Nat.not_le.mpr (hbefore poll hpoll) hle
    exact (Nat.le_of_not_lt hnot).trans_lt ((lt_due hpos).mpr hnow)
  · intro hgrown
    refine ⟨dueBy start period polls, (lt_due hpos).mp hgrown, fun poll hpoll => ?_⟩
    refine Nat.lt_of_not_le fun hle => Nat.lt_irrefl (dueBy start period polls) ?_
    exact (lt_dueBy hpos hpolls).mpr ⟨poll, hpoll, hle⟩

end Api

/-! ## An implementation -/

/-- An interval as the instant of its next tick and its period. -/
def skipping : Api (Nat × Nat) where
  intervalAt start period := (start, period)
  pollTick interval now :=
    if now < interval.1 then (false, interval)
    else (true, interval.1 + ((now - interval.1) / interval.2 + 1) * interval.2, interval.2)

/-- The next tick is the first one that is not yet due. -/
theorem polled_skipping {start period : Nat} (hperiod : 0 < period) {polls : List Nat}
    (hsorted : polls.Pairwise (· ≤ ·)) :
    skipping.polled start period polls =
      (start + Api.dueBy start period polls * period, period) := by
  induction polls using List.reverseRecOn with
  | nil => simp [skipping, Api.dueBy]
  | append_singleton polls now ih =>
      obtain ⟨hpolls, -, hbefore⟩ := List.pairwise_append.mp hsorted
      have hdue : Api.dueBy start period (polls ++ [now]) = due start period now := by
        simp [Api.dueBy]
      have hmono : Api.dueBy start period polls ≤ due start period now := by
        unfold Api.dueBy
        cases hlast : polls.getLast? with
        | none => exact Nat.zero_le _
        | some last => exact due_mono (hbefore last (List.mem_of_getLast? hlast) now (by simp))
      rw [Api.polled_concat, ih hpolls, hdue]
      generalize Api.dueBy start period polls = count at hmono
      simp only [skipping]
      split
      · next hearly =>
          have hnot : ¬ count < due start period now := fun hlt =>
            Nat.not_le.mpr hearly ((lt_due hperiod).mp hlt)
          rw [show due start period now = count by omega]
      · next hlate =>
          -- the missed periods are skipped
          obtain ⟨rest, hrest⟩ := Nat.exists_eq_add_of_le (Nat.le_of_not_lt hlate)
          have hnow : due start period now = count + (rest / period + 1) := by
            unfold due
            rw [hrest, show start + count * period + rest + period - start =
              rest + (count + 1) * period by rw [Nat.succ_mul]; omega,
              Nat.add_mul_div_right _ _ hperiod]
            omega
          rw [hnow, hrest, Nat.add_sub_cancel_left, Nat.add_mul count, Nat.add_assoc]

/-- This implementation skips missed ticks, whatever the period is. -/
theorem skips_skipping : skipping.Skips (0 < ·) := by
  intro start period polls now hperiod hsorted
  have hpolls := (List.pairwise_append.mp hsorted).1
  rw [polled_skipping hperiod hpolls]
  have hready : (skipping.pollTick (start + Api.dueBy start period polls * period, period)
      now).1 = true ↔ Api.dueBy start period polls < due start period now := by
    rw [lt_due hperiod]
    simp only [skipping]
    split
    · next hearly => simp [hearly]
    · next hlate => simp [Nat.le_of_not_lt hlate]
  rw [hready]
  constructor
  · intro hgrown
    refine ⟨_, (lt_due hperiod).mp hgrown, fun poll hpoll => Nat.lt_of_not_le fun hle => ?_⟩
    exact Nat.lt_irrefl _ ((Api.lt_dueBy hperiod hpolls).mpr ⟨poll, hpoll, hle⟩)
  · rintro ⟨count, hnow, hbefore⟩
    refine lt_of_le_of_lt (Nat.le_of_not_lt fun hlt => ?_) ((lt_due hperiod).mpr hnow)
    obtain ⟨poll, hpoll, hle⟩ := (Api.lt_dueBy hperiod hpolls).mp hlt
    exact Nat.not_le.mpr (hbefore poll hpoll) hle

end SkippingInterval
