import Mathlib.Data.Nat.ModEq
import Mathlib.Logic.Function.Basic

/-!
# Direct-mapped sets

A set of natural numbers kept in `n` slots, where a number can only be in the
slot of its remainder modulo `n`. Adding a number evicts the one that was in its
slot, so the set forgets; numbers less than `n` apart never evict each other
(`mod_ne_of_near`).
-/

/-- A set of numbers, each in the slot of its remainder. -/
structure DirectMapped (n : Nat) where
  slot : Fin n → Option Nat
  placed : ∀ index key, slot index = some key → key % n = index.val

namespace DirectMapped

variable {n : Nat} [NeZero n]

/-- The slot of a number. -/
def index (n : Nat) [NeZero n] (key : Nat) : Fin n := Fin.ofNat n key

@[simp] theorem val_index (key : Nat) : (index n key).val = key % n := rfl

theorem index_eq_iff {key other : Nat} : index n key = index n other ↔ key % n = other % n :=
  Fin.ext_iff

/-- A number is in the set when its slot holds it. -/
instance : Membership Nat (DirectMapped n) where
  mem ring key := ring.slot (index n key) = some key

theorem mem_def {ring : DirectMapped n} {key : Nat} :
    key ∈ ring ↔ ring.slot (index n key) = some key := Iff.rfl

instance (key : Nat) (ring : DirectMapped n) : Decidable (key ∈ ring) :=
  inferInstanceAs (Decidable (ring.slot (index n key) = some key))

/-- The set without numbers. -/
def empty : DirectMapped n := ⟨fun _ => none, by simp⟩

@[simp] theorem not_mem_empty (key : Nat) : key ∉ (empty : DirectMapped n) := by
  simp [mem_def, empty]

/-- Put a number in its slot. -/
def insert (ring : DirectMapped n) (key : Nat) : DirectMapped n where
  slot := Function.update ring.slot (index n key) (some key)
  placed := by
    intro i other h
    by_cases hi : i = index n key
    · subst hi
      rw [Function.update_self] at h
      cases h
      rfl
    · rw [Function.update_of_ne hi] at h
      exact ring.placed i other h

/-- Empty the slot of a number. -/
def clear (ring : DirectMapped n) (key : Nat) : DirectMapped n where
  slot := Function.update ring.slot (index n key) none
  placed := by
    intro i other h
    by_cases hi : i = index n key
    · subst hi
      simp at h
    · rw [Function.update_of_ne hi] at h
      exact ring.placed i other h

variable {ring : DirectMapped n} {key other : Nat}

/-- After an insertion the number is in the set, and so is every other one that was not evicted. -/
theorem mem_insert_iff :
    other ∈ ring.insert key ↔ other = key ∨ (other % n ≠ key % n ∧ other ∈ ring) := by
  by_cases hsame : other % n = key % n
  · have hindex : index n other = index n key := index_eq_iff.mpr hsame
    rw [mem_def, insert]
    simp only [hindex, Function.update_self, Option.some.injEq]
    constructor
    · exact fun heq => .inl heq.symm
    · rintro (heq | ⟨hne, -⟩)
      · exact heq.symm
      · exact absurd hsame hne
  · have hindex : index n other ≠ index n key := fun heq => hsame (index_eq_iff.mp heq)
    rw [mem_def, insert]
    simp only [Function.update_of_ne hindex, mem_def]
    constructor
    · exact fun hmem => .inr ⟨hsame, hmem⟩
    · rintro (heq | ⟨-, hmem⟩)
      · exact absurd (congrArg (· % n) heq) hsame
      · exact hmem

/-- After clearing a slot, the numbers of the other slots are left. -/
theorem mem_clear_iff : other ∈ ring.clear key ↔ other % n ≠ key % n ∧ other ∈ ring := by
  by_cases hsame : other % n = key % n
  · have hindex : index n other = index n key := index_eq_iff.mpr hsame
    simp [mem_def, clear, hindex, hsame]
  · have hindex : index n other ≠ index n key := fun heq => hsame (index_eq_iff.mp heq)
    simp [mem_def, clear, Function.update_of_ne hindex, hsame]

omit [NeZero n] in
/-- Two numbers less than `n` apart have different slots. -/
theorem mod_ne_of_near (hne : other ≠ key) (hlow : other < key + n) (hhigh : key < other + n) :
    other % n ≠ key % n := by
  intro heq
  have hmod : other ≡ key [MOD n] := heq
  have hnear : |(key : Int) - other| < n := by
    rw [abs_lt]
    omega
  exact hne (hmod.eq_of_abs_lt hnear)

/-- Record whether a number belongs to the set: insert it, or clear its slot if it is there. -/
def record (ring : DirectMapped n) (key : Nat) (flag : Bool) : DirectMapped n :=
  if flag then ring.insert key else if key ∈ ring then ring.clear key else ring

/-- Recording decides the number itself. -/
theorem mem_record_self {flag : Bool} :
    key ∈ ring.record key flag ↔ flag = true := by
  unfold record
  split
  · next hflag => simp [hflag, mem_insert_iff]
  · next hflag =>
      split
      · simp [hflag, mem_clear_iff]
      · next hnot => simp [hflag, hnot]

/-- Recording leaves the numbers of the other slots alone. -/
theorem mem_record_of_mod_ne {flag : Bool}
    (hne : other % n ≠ key % n) : other ∈ ring.record key flag ↔ other ∈ ring := by
  have hother : other ≠ key := fun heq => hne (congrArg (· % n) heq)
  unfold record
  split
  · simp [mem_insert_iff, hother, hne]
  · split
    · simp [mem_clear_iff, hne]
    · rfl

/-- Recording adds no other number. -/
theorem mem_of_mem_record {flag : Bool} (hne : other ≠ key)
    (h : other ∈ ring.record key flag) : other ∈ ring := by
  unfold record at h
  split at h
  · exact ((mem_insert_iff.mp h).resolve_left hne).2
  · split at h
    · exact (mem_clear_iff.mp h).2
    · exact h

end DirectMapped
