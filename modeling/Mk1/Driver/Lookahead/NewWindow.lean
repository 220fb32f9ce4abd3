import Mk1.Driver.Handlers
import Mk1.Driver.Lookahead.EpochMap

/-!
# Detecting a new inclusion window

At the first slot of an epoch the driver syncs if the slot is in the inclusion window and the one
an epoch earlier is not. The lookahead is not read at that slot, so the decision uses what the ring
remembers from the epoch before. When all reports follow one schedule of own epochs, stale entries
never have to be erased, and `isNew_iff_schedule` says that the decision is exact.
-/

namespace Mk1

/-- The call of `calculate` at a head slot, when the reports follow a schedule of own epochs. -/
def EpochReport.scheduled (own : Nat → Bool) (headSlot : Nat) : EpochReport :=
  { headSlot := headSlot
    sequencerCurrentEpoch := own (toEpoch headSlot)
    sequencerNextEpoch := own (saturatingAdd (toEpoch headSlot) 1) }

namespace Window

/-- The inclusion window after calls at these head slots that follow a schedule. -/
def scheduled (own : Nat → Bool) (headSlots : List Nat) : Window .inclusion :=
  default.calculateAll (headSlots.map (EpochReport.scheduled own))

/-- Setting the entry of an epoch keeps the entries at their places. -/
theorem Placed.applyEpoch {window : Window .inclusion} (h : window.Placed) (epoch : Nat) :
    (window.applyEpoch epoch).Placed := by
  intro index
  by_cases hindex : index = Fin.ofNat WINDOW_SIZE epoch
  · subst hindex
    exact .inl ⟨epoch, window.inner_applyEpoch_self epoch, rfl⟩
  · rw [window.inner_applyEpoch_of_ne epoch hindex]
    exact h index

/-- A window in which only own epochs are set. -/
structure OnSchedule (own : Nat → Bool) (window : Window .inclusion) : Prop where
  placed : window.Placed
  offset : window.offset = 0
  own_of_isSet : ∀ epoch, window.IsSet epoch → own epoch = true

section OnSchedule

variable {own : Nat → Bool} {window : Window .inclusion}

theorem onSchedule_default : OnSchedule own .default where
  placed _ := .inr rfl
  offset := rfl
  own_of_isSet _ hset := by cases hset

/-- Recording an epoch as scheduled sets its entry if it is an own epoch, and otherwise does
nothing: there is no stale entry to erase. -/
theorem OnSchedule.recordEpoch_eq (h : OnSchedule own window) {epoch : Nat}
    (hslot : toSlot epoch ≤ u64Max) :
    window.recordEpoch epoch (own epoch) =
      if own epoch = true then window.applyEpoch epoch else window := by
  unfold recordEpoch
  split
  · rfl
  · next hother =>
      have hunset : ¬ window.contains (toSlot epoch) = true := fun hcontains =>
        hother (h.own_of_isSet epoch ((contains_toSlot_iff h.placed h.offset hslot).mp hcontains))
      rw [if_neg hunset]

/-- Recording an epoch as scheduled keeps the schedule. -/
theorem OnSchedule.recordEpoch (h : OnSchedule own window) {epoch : Nat}
    (hslot : toSlot epoch ≤ u64Max) : OnSchedule own (window.recordEpoch epoch (own epoch)) := by
  rw [h.recordEpoch_eq hslot]
  split
  · next hown =>
      refine ⟨h.placed.applyEpoch epoch, h.offset, fun other hset => ?_⟩
      by_cases hplace : Fin.ofNat WINDOW_SIZE other = Fin.ofNat WINDOW_SIZE epoch
      · rw [IsSet, hplace, window.inner_applyEpoch_self epoch] at hset
        have hsame : epoch = other := congrArg Prod.snd hset
        exact hsame ▸ hown
      · rw [IsSet, window.inner_applyEpoch_of_ne epoch hplace] at hset
        exact h.own_of_isSet other hset
  · exact h

/-- After it is recorded, an epoch is set exactly if it is an own one. -/
theorem OnSchedule.isSet_recordEpoch (h : OnSchedule own window) {epoch : Nat}
    (hslot : toSlot epoch ≤ u64Max) :
    (window.recordEpoch epoch (own epoch)).IsSet epoch ↔ own epoch = true := by
  refine ⟨(h.recordEpoch hslot).own_of_isSet epoch, fun hown => ?_⟩
  rw [h.recordEpoch_eq hslot, if_pos hown]
  exact window.inner_applyEpoch_self epoch

/-- Recording the next epoch leaves the entry of the current one alone. -/
theorem OnSchedule.isSet_recordEpoch_succ (h : OnSchedule own window) {epoch : Nat}
    (hslot : toSlot (epoch + 1) ≤ u64Max) :
    (window.recordEpoch (epoch + 1) (own (epoch + 1))).IsSet epoch ↔ window.IsSet epoch := by
  rw [h.recordEpoch_eq hslot]
  split
  · have hmod : epoch % WINDOW_SIZE ≠ (epoch + 1) % WINDOW_SIZE :=
      DirectMapped.mod_ne_of_near (by omega) (by unfold WINDOW_SIZE; omega)
        (by unfold WINDOW_SIZE; omega)
    have hplace : Fin.ofNat WINDOW_SIZE epoch ≠ Fin.ofNat WINDOW_SIZE (epoch + 1) :=
      fun heq => hmod (congrArg Fin.val heq)
    rw [IsSet, IsSet, window.inner_applyEpoch_of_ne (epoch + 1) hplace]
  · exact Iff.rfl

/-- A scheduled call keeps the schedule, and then the entries of its two epochs are exact. -/
theorem OnSchedule.calculate (h : OnSchedule own window) {headSlot : Nat}
    (hslot : toSlot (toEpoch headSlot + 1) ≤ u64Max) :
    let report := EpochReport.scheduled own headSlot
    let after := window.calculate report.headSlot report.sequencerCurrentEpoch
      report.sequencerNextEpoch
    OnSchedule own after ∧ (after.IsSet (toEpoch headSlot) ↔ own (toEpoch headSlot) = true) ∧
      (after.IsSet (toEpoch headSlot + 1) ↔ own (toEpoch headSlot + 1) = true) := by
  have hcurrent : toSlot (toEpoch headSlot) ≤ u64Max := by
    unfold toSlot EPOCH_SLOTS at *
    omega
  have hnext : saturatingAdd (toEpoch headSlot) 1 = toEpoch headSlot + 1 := by
    refine min_eq_left ?_
    unfold toSlot EPOCH_SLOTS at *
    omega
  have hmiddle := h.recordEpoch hcurrent
  simp only [EpochReport.scheduled, Window.calculate, hnext]
  refine ⟨hmiddle.recordEpoch hslot, ?_, hmiddle.isSet_recordEpoch hslot⟩
  rw [hmiddle.isSet_recordEpoch_succ hslot]
  exact h.isSet_recordEpoch hcurrent

/-- A further call that follows the schedule. -/
theorem scheduled_append_singleton (headSlots : List Nat) (headSlot : Nat) :
    scheduled own (headSlots ++ [headSlot]) = (scheduled own headSlots).calculate
      (EpochReport.scheduled own headSlot).headSlot
      (EpochReport.scheduled own headSlot).sequencerCurrentEpoch
      (EpochReport.scheduled own headSlot).sequencerNextEpoch := by
  rw [scheduled, List.map_append, List.map_singleton, calculateAll_append_singleton]
  rfl

/-- Scheduled calls keep the schedule. -/
theorem onSchedule_scheduled {headSlots : List Nat}
    (hslots : ∀ headSlot ∈ headSlots, toSlot (toEpoch headSlot + 1) ≤ u64Max) :
    OnSchedule own (scheduled own headSlots) := by
  induction headSlots using List.reverseRecOn with
  | nil => exact onSchedule_default
  | append_singleton headSlots headSlot ih =>
      have hearlier := ih fun earlier hmem => hslots earlier (by simp [hmem])
      rw [scheduled_append_singleton]
      exact (hearlier.calculate (hslots headSlot (by simp))).1

/-- The first slot of an epoch is in a new window exactly if the epoch is set and the one before is
not. -/
theorem OnSchedule.isNew_iff (h : OnSchedule own window) {epoch : Nat}
    (hslot : toSlot (epoch + 1) ≤ u64Max) :
    window.isNew (toSlot (epoch + 1)) = true ↔
      window.IsSet (epoch + 1) ∧ ¬ window.IsSet epoch := by
  have hprevious : toSlot (epoch + 1) - EPOCH_SLOTS = toSlot epoch := by
    unfold toSlot EPOCH_SLOTS
    omega
  have hslot' : toSlot epoch ≤ u64Max := by
    unfold toSlot EPOCH_SLOTS at *
    omega
  rw [isNew, hprevious, Bool.and_eq_true, Bool.not_eq_true', ← Bool.not_eq_true,
    contains_toSlot_iff h.placed h.offset hslot, contains_toSlot_iff h.placed h.offset hslot']

/-- After scheduled calls, the decision for the epoch after the one of the last call is exact. -/
theorem isNew_scheduled_iff {front : List Nat} {last : Nat}
    (hslots : ∀ headSlot ∈ front ++ [last], toSlot (toEpoch headSlot + 1) ≤ u64Max) :
    (scheduled own (front ++ [last])).isNew (toSlot (toEpoch last + 1)) = true ↔
      own (toEpoch last + 1) = true ∧ ¬ own (toEpoch last) = true := by
  have hearlier : OnSchedule own (scheduled own front) :=
    onSchedule_scheduled fun headSlot hheadSlot => hslots headSlot (by simp [hheadSlot])
  have hslot := hslots last (by simp)
  obtain ⟨honSchedule, hcurrent, hnext⟩ := hearlier.calculate hslot
  rw [scheduled_append_singleton, honSchedule.isNew_iff hslot, hnext, hcurrent]

end OnSchedule

/-- The last of sorted calls is in the greatest epoch of a call. -/
theorem toEpoch_last {front : List Nat} {last epoch : Nat}
    (hsorted : (front ++ [last]).Pairwise (· ≤ ·))
    (hcalled : ∃ headSlot ∈ front ++ [last], toEpoch headSlot = epoch)
    (hnone : ∀ headSlot ∈ front ++ [last], toEpoch headSlot ≤ epoch) : toEpoch last = epoch := by
  obtain ⟨called, hmem, rfl⟩ := hcalled
  obtain ⟨-, -, hacross⟩ := List.pairwise_append.mp hsorted
  refine le_antisymm (hnone last (by simp)) ?_
  rcases List.mem_append.mp hmem with hfront | hself
  · exact Nat.div_le_div_right (hacross called hfront last (by simp))
  · rw [List.mem_singleton.mp hself]

/-- After calls that follow a schedule, the last of them in the epoch before, the first slot of an
epoch is in a new window exactly at the start of a run of own epochs. The driver syncs at this slot
in this case, and only updates its status otherwise. -/
theorem isNew_iff_schedule (own : Nat → Bool) (headSlots : List Nat)
    (hsorted : headSlots.Pairwise (· ≤ ·)) (epoch : Nat) (hpositive : 1 ≤ epoch)
    (hslot : 32 * epoch ≤ u64Max)
    (hcalled : ∃ headSlot ∈ headSlots, toEpoch headSlot = epoch - 1)
    (hnone : ∀ headSlot ∈ headSlots, toEpoch headSlot ≤ epoch - 1) :
    ((scheduled own headSlots).isNew (32 * epoch) = true ↔
        own epoch = true ∧ ¬ own (epoch - 1) = true) ∧
      ∀ (driver : Driver) (currentTimestamp : Nat),
        driver.lookahead.inclusionWindow = scheduled own headSlots →
          driver.enterSlot (32 * epoch) currentTimestamp =
            if own epoch = true ∧ ¬ own (epoch - 1) = true then driver.await .syncLookahead
            else driver.updateStatus
              (driver.lookahead.driverStatus currentTimestamp (32 * epoch)) := by
  have hfirst : 32 * epoch = toSlot epoch := Nat.mul_comm 32 epoch
  rw [hfirst] at hslot ⊢
  have hnew : (scheduled own headSlots).isNew (toSlot epoch) = true ↔
      own epoch = true ∧ ¬ own (epoch - 1) = true := by
    have hne : headSlots ≠ [] := by
      rintro rfl
      simp at hcalled
    obtain ⟨front, last, rfl⟩ : ∃ front last, headSlots = front ++ [last] :=
      ⟨_, _, (List.dropLast_append_getLast hne).symm⟩
    -- the head slots are sorted, so the last call is the one in the epoch before
    have hlast := toEpoch_last hsorted hcalled hnone
    obtain rfl : epoch = toEpoch last + 1 := by omega
    have hslots : ∀ headSlot ∈ front ++ [last], toSlot (toEpoch headSlot + 1) ≤ u64Max := by
      intro headSlot hheadSlot
      have hle := hnone headSlot hheadSlot
      unfold toSlot EPOCH_SLOTS at *
      omega
    exact isNew_scheduled_iff hslots
  refine ⟨hnew, fun driver currentTimestamp hwindow => ?_⟩
  have hmultiple : toSlot epoch % EPOCH_SLOTS = 0 := Nat.mul_mod_left epoch EPOCH_SLOTS
  have hbranch : (decide (toSlot epoch % EPOCH_SLOTS = 0) &&
      driver.lookahead.isNewInclusionWindow (toSlot epoch)) = true ↔
        own epoch = true ∧ ¬ own (epoch - 1) = true := by
    rw [← hnew, Lookahead.isNewInclusionWindow, hwindow, decide_eq_true hmultiple, Bool.true_and]
  unfold Driver.enterSlot
  simp only [hbranch]

/-- Epochs 3 and 4 are own ones. The calls in epochs 1 and 2 detect the new window at slot 96, and
with a call in epoch 3 there is none at slot 128. -/
theorem isNew_iff_schedule_at_96 :
    (scheduled (fun epoch => epoch = 3 ∨ epoch = 4) [40, 70]).isNew 96 = true ∧
      (scheduled (fun epoch => epoch = 3 ∨ epoch = 4) [40, 70, 100]).isNew 128 = false := by
  constructor
  · obtain ⟨hnew, -⟩ := isNew_iff_schedule (fun epoch => epoch = 3 ∨ epoch = 4) [40, 70] (by decide)
      3 (by decide) (by decide) (by decide) (by decide)
    exact hnew.mpr (by decide)
  · obtain ⟨hnew, -⟩ := isNew_iff_schedule (fun epoch => epoch = 3 ∨ epoch = 4) [40, 70, 100]
      (by decide) 4 (by decide) (by decide) (by decide) (by decide)
    exact Bool.not_eq_true _ ▸ fun hactive => absurd (hnew.mp hactive) (by decide)

end Window

end Mk1
