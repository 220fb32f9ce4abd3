import Mk1.Library.DirectMapped
import Mk1.Driver.Lookahead

/-!
# Windows as direct-mapped sets of epochs

A window marks an unset entry with epoch 0 and looks a slot up by the first
entry whose range has it. On well-formed windows this is membership in a
direct-mapped set: `contains_iff` says so for every offset of at most one epoch.
-/

namespace Mk1

namespace Window

variable {kind : WindowKind}

/-- Every set entry is at the place of its epoch, whose slots are `u64` values, and every unset
entry is the cleared one. -/
def WellFormed (window : Window kind) : Prop :=
  ∀ index, (∃ epoch, window.inner index = (true, epoch) ∧ epoch % WINDOW_SIZE = index.val ∧
    toSlot epoch + EPOCH_SLOTS ≤ u64Max) ∨ window.inner index = (false, 0)

/-- The set of the epochs that are set. -/
def ring (window : Window kind) (h : window.WellFormed) : DirectMapped WINDOW_SIZE where
  slot index := if (window.inner index).1 then some (window.inner index).2 else none
  placed := by
    intro index key hkey
    rcases h index with ⟨epoch, hentry, hplace, -⟩ | hentry
    · rw [hentry] at hkey
      cases hkey
      exact hplace
    · rw [hentry] at hkey
      cases hkey

/-- The entry of an epoch is set. -/
def IsSet (window : Window kind) (epoch : Nat) : Prop :=
  window.inner (Fin.ofNat WINDOW_SIZE epoch) = (true, epoch)

/-- The members of the ring are the set epochs. -/
theorem mem_ring {window : Window kind} (h : window.WellFormed) {epoch : Nat} :
    epoch ∈ window.ring h ↔ window.IsSet epoch := by
  show (if (window.inner (Fin.ofNat WINDOW_SIZE epoch)).1 then
    some (window.inner (Fin.ofNat WINDOW_SIZE epoch)).2 else none) = some epoch ↔
      window.inner (Fin.ofNat WINDOW_SIZE epoch) = (true, epoch)
  obtain ⟨isSet, found⟩ := window.inner (Fin.ofNat WINDOW_SIZE epoch)
  cases isSet with
  | true => simp
  | false => simp

/-- The range of an entry has a slot exactly when the slot, moved by the offset, is in the epoch
of the entry. -/
theorem contains_range_iff {window : Window kind} (hoffset : window.offset ≤ EPOCH_SLOTS)
    {epoch slot : Nat} (hepoch : toSlot epoch + EPOCH_SLOTS ≤ u64Max) :
    (window.epochToRangeWithOffset epoch).contains slot = true ↔
      epoch = toEpoch (slot + window.offset) := by
  have hstop : saturatingAdd (toSlot epoch) EPOCH_SLOTS = toSlot epoch + EPOCH_SLOTS :=
    min_eq_left hepoch
  simp only [epochToRangeWithOffset, toSlotRange, hstop, Range.contains, Bool.and_eq_true,
    decide_eq_true_eq]
  unfold toSlot toEpoch EPOCH_SLOTS at *
  omega

/-- The entry that the lookup of a slot compares with. -/
theorem find_entry_iff {window : Window kind} (h : window.WellFormed)
    (hoffset : window.offset ≤ EPOCH_SLOTS) (slot : Nat) (index : Fin WINDOW_SIZE) :
    (window.epochToRangeWithOffset (window.inner index).2).contains slot = true ↔
      (window.inner index).2 = toEpoch (slot + window.offset) := by
  refine contains_range_iff hoffset ?_
  rcases h index with ⟨epoch, hentry, -, hbound⟩ | hentry
  · rw [hentry]
    exact hbound
  · rw [hentry]
    decide

/-- Every set entry is at the place of its epoch, and every unset entry is the cleared one. -/
def Placed (window : Window kind) : Prop :=
  ∀ index, (∃ epoch, window.inner index = (true, epoch) ∧ epoch % WINDOW_SIZE = index.val) ∨
    window.inner index = (false, 0)

theorem WellFormed.placed {window : Window kind} (h : window.WellFormed) : window.Placed :=
  fun index => (h index).imp_left fun ⟨epoch, hentry, hplace, _⟩ => ⟨epoch, hentry, hplace⟩

/-- The lookup of a slot compares every entry with the epoch of the slot. Then it finds a set entry
exactly when this epoch is set: an unset entry also has epoch 0, but the set one of epoch 0 comes
first. -/
theorem contains_iff_of_ranges {window : Window kind} (h : window.Placed) {slot wanted : Nat}
    (hranges : ∀ index, (window.epochToRangeWithOffset (window.inner index).2).contains slot =
      decide ((window.inner index).2 = wanted)) :
    window.contains slot = true ↔ window.IsSet wanted := by
  have hfind : (window.entries.find? fun entry =>
      (window.epochToRangeWithOffset entry.2).contains slot) =
        window.entries.find? fun entry => entry.2 = wanted := by
    refine List.find?_congr fun entry hentry => ?_
    obtain ⟨index, rfl⟩ := List.mem_ofFn.mp hentry
    exact hranges index
  rw [contains, hfind, IsSet]
  constructor
  · intro hfound
    split at hfound
    · next isSet epoch hfind =>
        subst hfound
        obtain ⟨index, hindex⟩ := List.mem_ofFn.mp (List.mem_of_find?_eq_some hfind)
        have hepoch : epoch = wanted := by simpa using List.find?_some hfind
        subst hepoch
        rcases h index with ⟨other, hentry, hplace⟩ | hentry
        -- a set entry is at the place of its epoch, so the entry found is the one asked for
        · have hother : other = epoch := congrArg Prod.snd (hentry.symm.trans hindex)
          subst hother
          have hplace' : Fin.ofNat WINDOW_SIZE other = index := Fin.ext hplace
          rw [hplace']
          exact hindex
        · cases hentry.symm.trans hindex
    · cases hfound
  · intro hentry
    have hmem : window.inner (Fin.ofNat WINDOW_SIZE wanted) ∈ window.entries :=
      List.mem_ofFn.mpr ⟨_, rfl⟩
    by_cases hzero : wanted = 0
    · subst hzero
      have hfirst : window.entries = (true, 0) ::
          List.ofFn fun index : Fin 2 => window.inner index.succ := by
        rw [entries, ← hentry]
        exact List.ofFn_succ
      simp [hfirst]
    · cases hfind : window.entries.find? fun entry => entry.2 = wanted with
      | none =>
          have hnone := List.find?_eq_none.mp hfind _ hmem
          rw [hentry] at hnone
          exact absurd (decide_eq_true rfl) hnone
      | some entry =>
          obtain ⟨index, hindex⟩ := List.mem_ofFn.mp (List.mem_of_find?_eq_some hfind)
          have hepoch : entry.2 = wanted := by simpa using List.find?_some hfind
          rcases h index with ⟨other, hother, -⟩ | hother
          · rw [← hindex, hother]
          · rw [← hindex, hother] at hepoch
            exact absurd hepoch.symm hzero

/-- A slot is in the window exactly when its epoch, counted with the offset, is set. -/
theorem contains_iff {window : Window kind} (h : window.WellFormed)
    (hoffset : window.offset ≤ EPOCH_SLOTS) (slot : Nat) :
    window.contains slot = true ↔ window.IsSet (toEpoch (slot + window.offset)) := by
  refine contains_iff_of_ranges h.placed fun index => ?_
  rw [Bool.eq_iff_iff, find_entry_iff h hoffset slot index, decide_eq_true_eq]

/-- Without an offset the first slot of an epoch is in the window exactly when the epoch is set,
also for the last epoch, whose slots are not all `u64` values. -/
theorem contains_toSlot_iff {window : Window kind} (h : window.Placed) (hoffset : window.offset = 0)
    {epoch : Nat} (hslot : toSlot epoch ≤ u64Max) :
    window.contains (toSlot epoch) = true ↔ window.IsSet epoch := by
  refine contains_iff_of_ranges h fun index => ?_
  rw [Bool.eq_iff_iff, decide_eq_true_eq]
  simp only [epochToRangeWithOffset, toSlotRange, hoffset, Range.contains, Bool.and_eq_true,
    decide_eq_true_eq, saturatingAdd, lt_min_iff, Nat.sub_zero]
  unfold toSlot EPOCH_SLOTS u64Max at *
  omega

theorem wellFormed_cleared (offset : Nat) :
    (⟨cleared, offset⟩ : Window kind).WellFormed := fun _ => .inr rfl

section Entries

variable (window : Window kind) (epoch : Nat) {index : Fin WINDOW_SIZE}

theorem inner_applyEpoch_self :
    (window.applyEpoch epoch).inner (Fin.ofNat WINDOW_SIZE epoch) = (true, epoch) :=
  Function.update_self ..

theorem inner_applyEpoch_of_ne (h : index ≠ Fin.ofNat WINDOW_SIZE epoch) :
    (window.applyEpoch epoch).inner index = window.inner index :=
  Function.update_of_ne h ..

theorem inner_resetAtEpoch_self :
    (window.resetAtEpoch epoch).inner (Fin.ofNat WINDOW_SIZE epoch) = (false, 0) :=
  Function.update_self ..

theorem inner_resetAtEpoch_of_ne (h : index ≠ Fin.ofNat WINDOW_SIZE epoch) :
    (window.resetAtEpoch epoch).inner index = window.inner index :=
  Function.update_of_ne h ..

end Entries

/-- Setting the entry of an epoch keeps the window well-formed. -/
theorem WellFormed.applyEpoch {window : Window kind} (h : window.WellFormed) {epoch : Nat}
    (hepoch : toSlot epoch + EPOCH_SLOTS ≤ u64Max) : (window.applyEpoch epoch).WellFormed := by
  intro index
  by_cases hindex : index = Fin.ofNat WINDOW_SIZE epoch
  · subst hindex
    exact .inl ⟨epoch, window.inner_applyEpoch_self epoch, rfl, hepoch⟩
  · rw [window.inner_applyEpoch_of_ne epoch hindex]
    exact h index

/-- Erasing an entry keeps the window well-formed. -/
theorem WellFormed.resetAtEpoch {window : Window kind} (h : window.WellFormed) (epoch : Nat) :
    (window.resetAtEpoch epoch).WellFormed := by
  intro index
  by_cases hindex : index = Fin.ofNat WINDOW_SIZE epoch
  · subst hindex
    exact .inr (window.inner_resetAtEpoch_self epoch)
  · rw [window.inner_resetAtEpoch_of_ne epoch hindex]
    exact h index

/-- Setting the entry of an epoch inserts it into the ring. -/
theorem ring_applyEpoch {window : Window kind} (h : window.WellFormed) (epoch other : Nat) :
    (window.applyEpoch epoch).IsSet other ↔ other ∈ (window.ring h).insert epoch := by
  rw [DirectMapped.mem_insert_iff, mem_ring]
  unfold IsSet
  by_cases hsame : Fin.ofNat WINDOW_SIZE other = Fin.ofNat WINDOW_SIZE epoch
  · have hmod : other % WINDOW_SIZE = epoch % WINDOW_SIZE := congrArg Fin.val hsame
    rw [hsame, window.inner_applyEpoch_self epoch]
    simp [hmod, eq_comm]
  · have hmod : other % WINDOW_SIZE ≠ epoch % WINDOW_SIZE := fun heq => hsame (Fin.ext heq)
    have hne : other ≠ epoch := fun heq => hmod (congrArg (· % WINDOW_SIZE) heq)
    rw [window.inner_applyEpoch_of_ne epoch hsame]
    simp [hmod, hne]

/-- Erasing an entry clears its place in the ring. -/
theorem ring_resetAtEpoch {window : Window kind} (h : window.WellFormed) (epoch other : Nat) :
    (window.resetAtEpoch epoch).IsSet other ↔ other ∈ (window.ring h).clear epoch := by
  rw [DirectMapped.mem_clear_iff, mem_ring]
  unfold IsSet
  by_cases hsame : Fin.ofNat WINDOW_SIZE other = Fin.ofNat WINDOW_SIZE epoch
  · have hmod : other % WINDOW_SIZE = epoch % WINDOW_SIZE := congrArg Fin.val hsame
    rw [hsame, window.inner_resetAtEpoch_self epoch]
    simp [hmod]
  · have hmod : other % WINDOW_SIZE ≠ epoch % WINDOW_SIZE := fun heq => hsame (Fin.ext heq)
    rw [window.inner_resetAtEpoch_of_ne epoch hsame]
    simp [hmod]

/-- The first slot of an epoch is in that epoch. -/
@[simp] theorem toEpoch_toSlot (epoch : Nat) : toEpoch (toSlot epoch) = epoch :=
  Nat.mul_div_cancel epoch (by decide)

section Record

variable {window : Window .inclusion} {epoch : Nat}

/-- Recording an epoch in the inclusion window is recording it in the ring. -/
theorem ring_recordEpoch (h : window.WellFormed) (hoffset : window.offset = 0)
    (sequencer : Bool) (other : Nat) :
    (window.recordEpoch epoch sequencer).IsSet other ↔
      other ∈ (window.ring h).record epoch sequencer := by
  have hcontains : window.contains (toSlot epoch) = true ↔ epoch ∈ window.ring h := by
    rw [contains_iff h (by omega), mem_ring, hoffset, Nat.add_zero, toEpoch_toSlot]
  unfold recordEpoch DirectMapped.record
  cases sequencer with
  | true => exact ring_applyEpoch h epoch other
  | false =>
      by_cases hmem : epoch ∈ window.ring h
      · rw [if_neg Bool.false_ne_true, if_neg Bool.false_ne_true, if_pos hmem,
          if_pos (hcontains.mpr hmem)]
        exact ring_resetAtEpoch h epoch other
      · rw [if_neg Bool.false_ne_true, if_neg Bool.false_ne_true, if_neg hmem,
          if_neg (fun hin => hmem (hcontains.mp hin))]
        exact (mem_ring h).symm

/-- Recording an epoch keeps the window well-formed. -/
theorem WellFormed.recordEpoch (h : window.WellFormed)
    (hepoch : toSlot epoch + EPOCH_SLOTS ≤ u64Max) (sequencer : Bool) :
    (window.recordEpoch epoch sequencer).WellFormed := by
  unfold Window.recordEpoch
  split
  · exact h.applyEpoch hepoch
  · split
    · exact h.resetAtEpoch epoch
    · exact h

@[simp] theorem offset_recordEpoch (window : Window .inclusion) (epoch : Nat) (sequencer : Bool) :
    (window.recordEpoch epoch sequencer).offset = window.offset := by
  unfold recordEpoch
  split
  · rfl
  · split
    · rfl
    · rfl

end Record

/-! ## One call of `calculate` -/

section Calculate

variable {window : Window .inclusion} {headSlot : Nat} {current next : Bool}

theorem saturatingAdd_epoch {epoch : Nat} (h : toSlot (epoch + 1) + EPOCH_SLOTS ≤ u64Max) :
    saturatingAdd epoch 1 = epoch + 1 := by
  refine min_eq_left ?_
  unfold toSlot EPOCH_SLOTS at h
  omega

theorem toSlot_le_of_next {epoch : Nat} (h : toSlot (epoch + 1) + EPOCH_SLOTS ≤ u64Max) :
    toSlot epoch + EPOCH_SLOTS ≤ u64Max := by
  unfold toSlot EPOCH_SLOTS at *
  omega

/-- A call keeps the inclusion window well-formed. -/
theorem WellFormed.calculate (h : window.WellFormed)
    (hbound : toSlot (toEpoch headSlot + 1) + EPOCH_SLOTS ≤ u64Max) :
    (window.calculate headSlot current next).WellFormed := by
  rw [Window.calculate, saturatingAdd_epoch hbound]
  exact (h.recordEpoch (toSlot_le_of_next hbound) current).recordEpoch hbound next

@[simp] theorem offset_calculate :
    (window.calculate headSlot current next).offset = window.offset := by
  rw [Window.calculate, offset_recordEpoch, offset_recordEpoch]

variable (h : window.WellFormed) (hoffset : window.offset = 0)
  (hbound : toSlot (toEpoch headSlot + 1) + EPOCH_SLOTS ≤ u64Max)

include h hoffset hbound

/-- After a call the next epoch is set exactly if we were reported as its sequencer. -/
theorem isSet_calculate_next :
    (window.calculate headSlot current next).IsSet (toEpoch headSlot + 1) ↔ next = true := by
  have hmiddle := h.recordEpoch (toSlot_le_of_next hbound) current
  rw [Window.calculate, saturatingAdd_epoch hbound,
    ring_recordEpoch hmiddle (by rw [offset_recordEpoch, hoffset]), DirectMapped.mem_record_self]

/-- After a call every other place of the ring is as before. -/
theorem isSet_calculate_of_mod_ne {epoch : Nat}
    (hcurrent : epoch % WINDOW_SIZE ≠ toEpoch headSlot % WINDOW_SIZE)
    (hnext : epoch % WINDOW_SIZE ≠ (toEpoch headSlot + 1) % WINDOW_SIZE) :
    (window.calculate headSlot current next).IsSet epoch ↔ window.IsSet epoch := by
  have hmiddle := h.recordEpoch (toSlot_le_of_next hbound) current
  rw [Window.calculate, saturatingAdd_epoch hbound,
    ring_recordEpoch hmiddle (by rw [offset_recordEpoch, hoffset]),
    DirectMapped.mem_record_of_mod_ne hnext, mem_ring, ring_recordEpoch h hoffset,
    DirectMapped.mem_record_of_mod_ne hcurrent, mem_ring]

/-- After a call the current epoch is set exactly if we were reported as its sequencer. -/
theorem isSet_calculate_current :
    (window.calculate headSlot current next).IsSet (toEpoch headSlot) ↔ current = true := by
  have hmiddle := h.recordEpoch (toSlot_le_of_next hbound) current
  have hne : toEpoch headSlot % WINDOW_SIZE ≠ (toEpoch headSlot + 1) % WINDOW_SIZE :=
    DirectMapped.mod_ne_of_near (by omega) (by unfold WINDOW_SIZE; omega)
      (by unfold WINDOW_SIZE; omega)
  rw [Window.calculate, saturatingAdd_epoch hbound,
    ring_recordEpoch hmiddle (by rw [offset_recordEpoch, hoffset]),
    DirectMapped.mem_record_of_mod_ne hne, mem_ring, ring_recordEpoch h hoffset,
    DirectMapped.mem_record_self]

/-- A call sets no other epoch. -/
theorem isSet_of_isSet_calculate {epoch : Nat} (hcurrent : epoch ≠ toEpoch headSlot)
    (hnext : epoch ≠ toEpoch headSlot + 1)
    (hset : (window.calculate headSlot current next).IsSet epoch) : window.IsSet epoch := by
  have hmiddle := h.recordEpoch (toSlot_le_of_next hbound) current
  rw [Window.calculate, saturatingAdd_epoch hbound,
    ring_recordEpoch hmiddle (by rw [offset_recordEpoch, hoffset])] at hset
  have hset' := (mem_ring hmiddle).mp (DirectMapped.mem_of_mem_record hnext hset)
  rw [ring_recordEpoch h hoffset] at hset'
  exact (mem_ring h).mp (DirectMapped.mem_of_mem_record hcurrent hset')

end Calculate

end Window

end Mk1
