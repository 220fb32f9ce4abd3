import Mk1.Driver.Lookahead.Ring

/-!
# The inclusion window refines a map of epochs

What the inclusion window stands for is a map from every epoch to the last
report about it. The ring of three entries forgets old epochs, but agrees with
the map from the epoch before the last head on, for every sequence of calls
whose head slots never decrease.
-/

namespace Mk1

/-- The arguments of one call of `Window::<Inclusion>::calculate`. -/
structure EpochReport where
  headSlot : Nat
  sequencerCurrentEpoch : Bool
  sequencerNextEpoch : Bool
  deriving DecidableEq, Repr

namespace EpochReport

/-- The epoch of the head slot. -/
def epoch (report : EpochReport) : Nat := toEpoch report.headSlot

/-- The slots of the epoch after the head's are `u64` values. -/
def InBounds (report : EpochReport) : Prop :=
  toSlot (report.epoch + 1) + EPOCH_SLOTS ≤ u64Max

/-- What a call reports about an epoch, if it is the current or the next one. -/
def about (report : EpochReport) (epoch : Nat) : Option Bool :=
  if epoch = report.epoch then some report.sequencerCurrentEpoch
  else if epoch = report.epoch + 1 then some report.sequencerNextEpoch
  else none

end EpochReport

/-- The window after a sequence of calls. -/
def Window.calculateAll (window : Window .inclusion) (reports : List EpochReport) :
    Window .inclusion :=
  reports.foldl (fun window report => window.calculate report.headSlot
    report.sequencerCurrentEpoch report.sequencerNextEpoch) window

@[simp] theorem Window.calculateAll_append_singleton (window : Window .inclusion)
    (reports : List EpochReport) (report : EpochReport) :
    window.calculateAll (reports ++ [report]) = (window.calculateAll reports).calculate
      report.headSlot report.sequencerCurrentEpoch report.sequencerNextEpoch :=
  List.foldl_concat ..

/-- Whether the most recent call about an epoch reported us as its sequencer. -/
def lastReport (reports : List EpochReport) (epoch : Nat) : Bool :=
  (reports.reverse.findSome? fun report => report.about epoch).getD false

@[simp] theorem lastReport_append_singleton (reports : List EpochReport) (report : EpochReport)
    (epoch : Nat) :
    lastReport (reports ++ [report]) epoch =
      (report.about epoch).getD (lastReport reports epoch) := by
  unfold lastReport
  rw [List.reverse_append, List.reverse_singleton, List.singleton_append, List.findSome?_cons]
  cases report.about epoch with
  | none => rfl
  | some flag => rfl

/-- The window agrees with what was reported about every epoch from the one before `head` on, and
nothing was reported yet about the epochs after the next one. -/
structure Tracks (head : Nat) (window : Window .inclusion) (known : Nat → Bool) : Prop where
  wellFormed : window.WellFormed
  offset : window.offset = 0
  near : ∀ epoch, head ≤ epoch + 1 → (window.IsSet epoch ↔ known epoch = true)
  beyond : ∀ epoch, head + 1 < epoch → known epoch = false

theorem tracks_default : Tracks 0 .default (lastReport []) where
  wellFormed := Window.wellFormed_cleared 0
  offset := rfl
  near epoch _ := by simp [Window.IsSet, Window.default, Window.cleared, lastReport]
  beyond _ _ := rfl

/-- A call at the same head or a later one keeps the agreement, around the new head. -/
theorem Tracks.calculate {head : Nat} {window : Window .inclusion} {reports : List EpochReport}
    (h : Tracks head window (lastReport reports)) {report : EpochReport}
    (hhead : head ≤ report.epoch) (hbounds : report.InBounds) :
    Tracks report.epoch (window.calculate report.headSlot report.sequencerCurrentEpoch
      report.sequencerNextEpoch) (lastReport (reports ++ [report])) where
  wellFormed := h.wellFormed.calculate hbounds
  offset := by rw [Window.offset_calculate, h.offset]
  near epoch hnear := by
    rw [lastReport_append_singleton, EpochReport.about]
    by_cases hcurrent : epoch = report.epoch
    · subst hcurrent
      rw [if_pos rfl]
      exact Window.isSet_calculate_current h.wellFormed h.offset hbounds
    by_cases hnext : epoch = report.epoch + 1
    · subst hnext
      rw [if_neg (by omega), if_pos rfl]
      exact Window.isSet_calculate_next h.wellFormed h.offset hbounds
    rw [if_neg hcurrent, if_neg hnext, Option.getD_none, ← h.near epoch (by omega)]
    by_cases hprevious : epoch + 1 = report.epoch
    · -- the previous epoch has the third place of the ring
      have hcurrent' : epoch % WINDOW_SIZE ≠ report.epoch % WINDOW_SIZE :=
        DirectMapped.mod_ne_of_near hcurrent (by unfold WINDOW_SIZE; omega)
          (by unfold WINDOW_SIZE; omega)
      have hnext' : epoch % WINDOW_SIZE ≠ (report.epoch + 1) % WINDOW_SIZE :=
        DirectMapped.mod_ne_of_near hnext (by unfold WINDOW_SIZE; omega)
          (by unfold WINDOW_SIZE; omega)
      exact Window.isSet_calculate_of_mod_ne h.wellFormed h.offset hbounds hcurrent' hnext'
    · -- nothing is known about later epochs, so they are not set either
      have hunknown : ¬ window.IsSet epoch := by
        rw [h.near epoch (by omega), h.beyond epoch (by omega)]
        exact Bool.false_ne_true
      constructor
      · exact Window.isSet_of_isSet_calculate h.wellFormed h.offset hbounds hcurrent hnext
      · exact fun hset => absurd hset hunknown
  beyond epoch hlater := by
    rw [lastReport_append_singleton, EpochReport.about, if_neg (by omega), if_neg (by omega)]
    exact h.beyond epoch (by omega)

/-- The epoch of the last head slot, zero before the first call. -/
def lastEpoch (reports : List EpochReport) : Nat :=
  (reports.getLast?.map EpochReport.epoch).getD 0

/-- Calls whose head slots never decrease keep the window in agreement with the reports. -/
theorem tracks_calculateAll {reports : List EpochReport}
    (hsorted : reports.Pairwise fun first second => first.headSlot ≤ second.headSlot)
    (hbounds : ∀ report ∈ reports, report.InBounds) :
    Tracks (lastEpoch reports) (Window.default.calculateAll reports) (lastReport reports) := by
  induction reports using List.reverseRecOn with
  | nil => exact tracks_default
  | append_singleton reports report ih =>
      obtain ⟨hsorted', -, hlast⟩ := List.pairwise_append.mp hsorted
      have htracks := ih hsorted' fun earlier hearlier => hbounds earlier (by simp [hearlier])
      have hhead : lastEpoch reports ≤ report.epoch := by
        unfold lastEpoch
        cases hearlier : reports.getLast? with
        | none => exact Nat.zero_le _
        | some earlier =>
            have hmem : earlier ∈ reports := List.mem_of_getLast? hearlier
            exact Nat.div_le_div_right (hlast earlier hmem report (by simp))
      have hstep := htracks.calculate hhead (hbounds report (by simp))
      simpa [lastEpoch] using hstep

/-- The inclusion window holds a slot exactly if the last report about its epoch said that we are
the sequencer, for the slots from the epoch before the last head to the one after it, and it
holds no later slot. -/
theorem inclusion_contains_iff (reports : List EpochReport) (last : EpochReport)
    (hsorted : (reports ++ [last]).Pairwise fun first second => first.headSlot ≤ second.headSlot)
    (hbounds : ∀ report ∈ reports ++ [last], report.InBounds) (slot : Nat) :
    (last.epoch ≤ toEpoch slot + 1 → toEpoch slot ≤ last.epoch + 1 →
        (Window.default.calculateAll (reports ++ [last])).contains slot =
          lastReport (reports ++ [last]) (toEpoch slot)) ∧
      (last.epoch + 1 < toEpoch slot →
        (Window.default.calculateAll (reports ++ [last])).contains slot = false) := by
  have htracks := tracks_calculateAll hsorted hbounds
  have hlast : lastEpoch (reports ++ [last]) = last.epoch := by simp [lastEpoch]
  rw [hlast] at htracks
  have hcontains := Window.contains_iff htracks.wellFormed (by rw [htracks.offset]; omega) slot
  rw [htracks.offset, Nat.add_zero] at hcontains
  have hnear : last.epoch ≤ toEpoch slot + 1 →
      (Window.default.calculateAll (reports ++ [last])).contains slot =
        lastReport (reports ++ [last]) (toEpoch slot) := fun hle =>
    Bool.eq_iff_iff.mpr (hcontains.trans (htracks.near _ hle))
  refine ⟨fun hle _ => hnear hle, fun hlater => ?_⟩
  rw [hnear (by omega), htracks.beyond _ hlater]

/-- Three calls that skip epochs: the second one withdraws the report of the first about epoch 4,
and no call is about epoch 8, the one before the last head's. -/
theorem inclusion_contains_iff_of_gaps :
    (Window.default.calculateAll ([⟨100, true, true⟩, ⟨130, false, false⟩] ++
        [⟨300, true, true⟩])).contains 260 =
      lastReport ([⟨100, true, true⟩, ⟨130, false, false⟩] ++ [⟨300, true, true⟩]) 8 := by
  refine (inclusion_contains_iff [⟨100, true, true⟩, ⟨130, false, false⟩] ⟨300, true, true⟩
    (by decide) ?_ 260).1 (by decide) (by decide)
  intro report hreport
  simp only [List.cons_append, List.nil_append, List.mem_cons, List.not_mem_nil, or_false]
    at hreport
  obtain rfl | rfl | rfl := hreport
  · show _ ≤ _
    decide
  · show _ ≤ _
    decide
  · show _ ≤ _
    decide

end Mk1
