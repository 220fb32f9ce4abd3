import Mk1.Driver.Lookahead.EpochMap
import Mk1.Driver.Poster

/-!
# The end of a window as a deadline

`Window::end` is excluded, like the end of a range, and the batches of the
driver carry it as their deadline. The poster, which gives up when the current
slot is greater than the deadline, takes it as the last slot.
`deadline_past_window` says that the poster can therefore start at a slot after
the window, and `contains_iff_ne_end` that it is the only one.
-/

namespace Mk1

namespace Window

variable {kind : WindowKind}

/-- The loop of `Window::end`: the highest epoch that is set, and whether there is one. -/
def highestEpoch (entries : List (Bool × Nat)) (start : Nat × Bool) : Nat × Bool :=
  entries.foldl (fun (highest, set) (isSet, epoch) =>
    if isSet && highest ≤ epoch then (epoch, true) else (highest, set)) start

/-- An epoch that is set and no lower than the highest one so far takes its place. -/
theorem highestEpoch_cons_of_le {isSet : Bool} {first highest : Nat} (set : Bool)
    (rest : List (Bool × Nat)) (h : isSet = true ∧ highest ≤ first) :
    highestEpoch ((isSet, first) :: rest) (highest, set) = highestEpoch rest (first, true) := by
  simp [highestEpoch, h.1, h.2]

/-- Any other epoch is passed over. -/
theorem highestEpoch_cons_of_not {isSet : Bool} {first highest : Nat} (set : Bool)
    (rest : List (Bool × Nat)) (h : ¬ (isSet = true ∧ highest ≤ first)) :
    highestEpoch ((isSet, first) :: rest) (highest, set) = highestEpoch rest (highest, set) := by
  simp only [highestEpoch, List.foldl_cons]
  rw [if_neg (by simpa using h)]

/-- The loop starts from an epoch that it never lowers. Its result is no lower than any epoch that
is set, and it has the flag if it is zero and such an epoch was there. -/
theorem highestEpoch_ge (entries : List (Bool × Nat)) (start : Nat × Bool) :
    start.1 ≤ (highestEpoch entries start).1 ∧
      (start.2 = true → (highestEpoch entries start).2 = true) ∧
      ∀ epoch, (true, epoch) ∈ entries → epoch ≤ (highestEpoch entries start).1 ∧
        ((highestEpoch entries start).1 = 0 → (highestEpoch entries start).2 = true) := by
  induction entries generalizing start with
  | nil => exact ⟨Nat.le_refl _, id, by simp⟩
  | cons entry rest ih =>
      obtain ⟨highest, set⟩ := start
      obtain ⟨isSet, first⟩ := entry
      by_cases htaken : isSet = true ∧ highest ≤ first
      · obtain ⟨hge, hflag, hall⟩ := ih (first, true)
        rw [highestEpoch_cons_of_le set rest htaken]
        refine ⟨htaken.2.trans hge, fun _ => hflag rfl, fun epoch hmem => ?_⟩
        rcases List.mem_cons.mp hmem with heq | hrest
        · cases heq
          exact ⟨hge, fun _ => hflag rfl⟩
        · exact hall epoch hrest
      · obtain ⟨hge, hflag, hall⟩ := ih (highest, set)
        rw [highestEpoch_cons_of_not set rest htaken]
        refine ⟨hge, hflag, fun epoch hmem => ?_⟩
        rcases List.mem_cons.mp hmem with heq | hrest
        · cases heq
          have hlt : first < highest := Nat.lt_of_not_le fun hle => htaken ⟨rfl, hle⟩
          have hpositive : first < (highestEpoch rest (highest, set)).1 := hlt.trans_le hge
          exact ⟨hpositive.le, fun hzero => by omega⟩
        · exact hall epoch hrest

/-- The epoch that the loop ends with is the one it started from or is set. -/
theorem highestEpoch_mem (entries : List (Bool × Nat)) (start : Nat × Bool) :
    highestEpoch entries start = start ∨ (true, (highestEpoch entries start).1) ∈ entries := by
  induction entries generalizing start with
  | nil => exact .inl rfl
  | cons entry rest ih =>
      obtain ⟨highest, set⟩ := start
      obtain ⟨isSet, first⟩ := entry
      by_cases htaken : isSet = true ∧ highest ≤ first
      · rw [highestEpoch_cons_of_le set rest htaken, htaken.1]
        obtain heq | hmem := ih (first, true)
        · rw [heq]
          exact .inr List.mem_cons_self
        · exact .inr (List.mem_cons_of_mem _ hmem)
      · rw [highestEpoch_cons_of_not set rest htaken]
        obtain heq | hmem := ih (highest, set)
        · exact .inl heq
        · exact .inr (List.mem_cons_of_mem _ hmem)

/-- The range of an epoch ends one epoch after its first slot, minus the offset. -/
theorem stop_epochToRangeWithOffset (window : Window kind) (epoch : Nat) :
    (window.epochToRangeWithOffset epoch).stop =
      saturatingAdd (toSlot epoch) EPOCH_SLOTS - window.offset := rfl

/-- The end is computed from the epoch and the flag of the loop. -/
theorem end_eq (window : Window kind) :
    window.end' =
      if (highestEpoch window.entries (0, false)).1 = 0 &&
        !(highestEpoch window.entries (0, false)).2 then 0
      else saturatingAdd (toSlot (highestEpoch window.entries (0, false)).1) EPOCH_SLOTS -
        window.offset := rfl

/-- The range of a set epoch ends at the end of the window or before it. -/
theorem stop_le_end {window : Window kind} {epoch : Nat} (h : (true, epoch) ∈ window.entries) :
    (window.epochToRangeWithOffset epoch).stop ≤ window.end' := by
  obtain ⟨-, -, hall⟩ := highestEpoch_ge window.entries (0, false)
  obtain ⟨hle, hflag⟩ := hall epoch h
  have hslot : toSlot epoch ≤ toSlot (highestEpoch window.entries (0, false)).1 :=
    Nat.mul_le_mul_right _ hle
  rw [end_eq, if_neg (by simpa using hflag), stop_epochToRangeWithOffset]
  exact Nat.sub_le_sub_right (min_le_min_right _ (Nat.add_le_add_right hslot _)) _

/-- The window ends with the range of an epoch that is set, unless it is empty. -/
theorem end_eq_stop {window : Window kind} (h : window.end' ≠ 0) :
    ∃ epoch, (true, epoch) ∈ window.entries ∧
      window.end' = (window.epochToRangeWithOffset epoch).stop := by
  obtain heq | hmem := highestEpoch_mem window.entries (0, false)
  · rw [end_eq, heq] at h
    exact absurd rfl h
  · refine ⟨_, hmem, ?_⟩
    rw [end_eq] at h ⊢
    split at h
    · exact absurd rfl h
    · next hset =>
        rw [if_neg hset]
        rfl

/-- The entry by which a slot is found in the window. -/
theorem exists_entry_of_contains {window : Window kind} {slot : Nat}
    (h : window.contains slot = true) :
    ∃ epoch, (true, epoch) ∈ window.entries ∧
      (window.epochToRangeWithOffset epoch).contains slot = true := by
  unfold contains at h
  split at h
  · next isSet epoch hfind =>
      subst h
      exact ⟨epoch, List.mem_of_find?_eq_some hfind, by simpa using List.find?_some hfind⟩
  · cases h

/-- The slots of a window are before its end. -/
theorem lt_end_of_contains {window : Window kind} {slot : Nat} (h : window.contains slot = true) :
    slot < window.end' := by
  obtain ⟨epoch, hmem, hrange⟩ := exists_entry_of_contains h
  obtain ⟨-, hlt⟩ := Bool.and_eq_true_iff.mp hrange
  exact (of_decide_eq_true hlt).trans_le (stop_le_end hmem)

/-- The end is excluded. -/
theorem contains_end (window : Window kind) : window.contains window.end' = false := by
  cases h : window.contains window.end' with
  | false => rfl
  | true => exact absurd (lt_end_of_contains h) (Nat.lt_irrefl _)

/-- In a well-formed window, an entry with the flag sets its epoch. -/
theorem isSet_of_mem {window : Window kind} (h : window.WellFormed) {epoch : Nat}
    (hmem : (true, epoch) ∈ window.entries) : window.IsSet epoch := by
  obtain ⟨index, hindex⟩ := List.mem_ofFn.mp hmem
  rcases h index with ⟨other, hentry, hplace, -⟩ | hentry
  · obtain rfl : other = epoch := congrArg Prod.snd (hentry.symm.trans hindex)
    have hindex' : Fin.ofNat WINDOW_SIZE other = index := Fin.ext hplace
    unfold IsSet
    rw [hindex', hindex]
  · cases hentry.symm.trans hindex

/-- If no epoch after the next one is set, every slot before the end is in the window, from one in
it on that is not before the epoch of the head. -/
theorem contains_of_lt_end {window : Window kind} (h : window.WellFormed)
    (hoffset : window.offset ≤ EPOCH_SLOTS) {head : Nat}
    (hbeyond : ∀ epoch, head + 1 < epoch → ¬ window.IsSet epoch) {built slot : Nat}
    (hhead : head ≤ toEpoch (built + window.offset)) (hbuilt : window.contains built = true)
    (hslot : built ≤ slot) (hlt : slot < window.end') : window.contains slot = true := by
  obtain ⟨epoch, hmem, hstop⟩ := end_eq_stop (by omega : window.end' ≠ 0)
  have hset : window.IsSet epoch := isSet_of_mem h hmem
  -- the slot is in the epoch of `built` or in the last one that is set
  have hnext : epoch ≤ head + 1 := Nat.le_of_not_lt fun hlater => hbeyond epoch hlater hset
  have hslotEpoch : toEpoch (slot + window.offset) ≤ epoch := by
    rw [hstop, stop_epochToRangeWithOffset] at hlt
    have hle : saturatingAdd (toSlot epoch) EPOCH_SLOTS ≤ toSlot epoch + EPOCH_SLOTS :=
      min_le_left _ _
    unfold toSlot EPOCH_SLOTS at *
    unfold toEpoch EPOCH_SLOTS
    omega
  have hbuiltEpoch : toEpoch (built + window.offset) ≤ toEpoch (slot + window.offset) :=
    Nat.div_le_div_right (Nat.add_le_add_right hslot _)
  rw [contains_iff h hoffset] at hbuilt ⊢
  rcases Nat.eq_or_lt_of_le hbuiltEpoch with hsame | hlater
  · rwa [← hsame]
  · obtain rfl : epoch = toEpoch (slot + window.offset) := by omega
    exact hset

end Window

/-- No epoch after the next one is set. -/
theorem Tracks.not_isSet {head : Nat} {window : Window .inclusion} {known : Nat → Bool}
    (h : Tracks head window known) {epoch : Nat} (hlater : head + 1 < epoch) :
    ¬ window.IsSet epoch := by
  rw [h.near epoch (by omega), h.beyond epoch hlater]
  exact Bool.false_ne_true

namespace Window

/-- In a window after calls whose head slots never decrease, every slot up to the end is in the
window, from one in it on that is not before the epoch of the last head. -/
theorem contains_iff_ne_end {reports : List EpochReport} {last : EpochReport}
    (hsorted : (reports ++ [last]).Pairwise fun first second => first.headSlot ≤ second.headSlot)
    (hbounds : ∀ report ∈ reports ++ [last], report.InBounds) {built slot : Nat}
    (hhead : last.epoch ≤ toEpoch built)
    (hbuilt : (default.calculateAll (reports ++ [last])).contains built = true)
    (hslot : built ≤ slot) (hend : slot ≤ (default.calculateAll (reports ++ [last])).end') :
    (default.calculateAll (reports ++ [last])).contains slot = true ↔
      slot ≠ (default.calculateAll (reports ++ [last])).end' := by
  have htracks := tracks_calculateAll hsorted hbounds
  have hlast : lastEpoch (reports ++ [last]) = last.epoch := by simp [lastEpoch]
  rw [hlast] at htracks
  generalize default.calculateAll (reports ++ [last]) = window at *
  constructor
  · rintro hslot rfl
    rw [window.contains_end] at hslot
    cases hslot
  · intro hne
    have hoffset := htracks.offset
    exact contains_of_lt_end htracks.wellFormed (by omega) (fun epoch => htracks.not_isSet)
      (by rwa [hoffset]) hbuilt hslot (lt_of_le_of_ne hend hne)

end Window

/-- The poster lets an attempt to submit start at a slot: when it is called, or at the end of a
round. -/
def LetsStart (deadline slot : Nat) : Prop :=
  (∃ head feesHints loop, PosterState.start deadline slot head feesHints = .running loop) ∨
    ∃ loop next : PosterLoop, loop.checkDeadline deadline slot = .ok (.running next)

/-- Both checks of the poster let the deadline itself pass. -/
theorem letsStart_iff {deadline slot : Nat} : LetsStart deadline slot ↔ slot ≤ deadline := by
  constructor
  · rintro (⟨head, feesHints, loop, hstart⟩ | ⟨loop, next, hcheck⟩)
    · refine Nat.le_of_not_lt fun hlate => ?_
      simp only [PosterState.start, if_pos hlate] at hstart
      cases hstart
    · refine Nat.le_of_not_lt fun hlate => ?_
      simp only [PosterLoop.checkDeadline, if_pos hlate] at hcheck
      cases hcheck
  · intro hle
    refine .inl ⟨.ok (some 0), gweiHints, ?_⟩
    unfold PosterState.start
    dsimp only
    rw [if_neg (Nat.not_lt.mpr hle)]
    exact ⟨_, rfl⟩

/-- Every slot at which the submission of a batch can start, from the slot at which its request was
built on, is in the inclusion window. -/
def StartsInWindow (window : Window .inclusion) (deadline built : Nat) : Prop :=
  ∀ slot, built ≤ slot → LetsStart deadline slot → window.contains slot = true

/-- Whatever the inclusion window is and at whatever slot in it a request with its end as the
deadline is built, the submission can start at the end itself, which is not in the window. -/
theorem deadline_past_window {lookahead : Lookahead} {built : Nat}
    (hbuilt : lookahead.inInclusionWindow built = true) :
    ¬ StartsInWindow lookahead.inclusionWindow lookahead.inclusionWindowEnd built := by
  intro hstarts
  have hlt : built < lookahead.inclusionWindowEnd := Window.lt_end_of_contains hbuilt
  have hlate := hstarts lookahead.inclusionWindowEnd hlt.le (letsStart_iff.mpr (Nat.le_refl _))
  have hend : lookahead.inclusionWindow.contains lookahead.inclusionWindowEnd = false :=
    lookahead.inclusionWindow.contains_end
  rw [hend] at hlate
  cases hlate

/-- The lookahead of an operator who is the sequencer of epoch 3 only, synced at slot 100. -/
def thirdEpochLookahead : Lookahead := (Lookahead.new (defaultConfig 1)).sync 100 (some 1) (some 2)

/-- A request that is built at slot 110 can start to be submitted outside of the window. -/
theorem deadline_past_window_at_110 :
    ¬ StartsInWindow thirdEpochLookahead.inclusionWindow thirdEpochLookahead.inclusionWindowEnd
      110 :=
  deadline_past_window (by decide)

/-- The window of slots 96 to 127 has the end 128, and slot 128 is outside of the window, but the
poster lets a submission with this deadline start at it. -/
theorem starts_at_slot_128 :
    thirdEpochLookahead.inInclusionWindow 110 = true ∧
      thirdEpochLookahead.inclusionWindowEnd = 128 ∧
      PosterState.start 128 128 (.ok (some 10)) gweiHints =
        .running ⟨gweiHints, none, none, 10, 0, [.slotRead 128]⟩ ∧
      thirdEpochLookahead.inInclusionWindow 128 = false ∧
      ¬ StartsInWindow thirdEpochLookahead.inclusionWindow
        thirdEpochLookahead.inclusionWindowEnd 110 := by
  refine ⟨by decide, by decide, rfl, by decide, fun hstarts => ?_⟩
  have hlate := hstarts 128 (by decide) (letsStart_iff.mpr (by decide))
  revert hlate
  decide

end Mk1
