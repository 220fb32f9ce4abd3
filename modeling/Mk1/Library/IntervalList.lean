import Mathlib.Data.Finset.Max
import Mathlib.Data.List.Perm.Basic
import Mathlib.Order.Bounds.Defs
import Mathlib.Order.Interval.Finset.Nat
import Mathlib.Order.Interval.Set.OrdConnected

/-!
# Lists of the numbers of an interval

When a list is an interval of natural numbers in any order (`perm_range'_iff`),
and where a list differs for the first time from counting up from a number
(`FirstMismatch`).
-/

namespace IntervalList

/-- An interval has a least and a greatest number, and what is between them. -/
theorem exists_toFinset_eq_Icc {numbers : List ℕ} (hne : numbers ≠ [])
    (hinterval : Set.OrdConnected {number | number ∈ numbers}) :
    ∃ least greatest, numbers.toFinset = Finset.Icc least greatest := by
  have hnonempty : numbers.toFinset.Nonempty := (List.toFinset_nonempty_iff numbers).mpr hne
  refine ⟨numbers.toFinset.min' hnonempty, numbers.toFinset.max' hnonempty, ?_⟩
  ext number
  rw [Finset.mem_Icc]
  constructor
  · exact fun hmem => ⟨Finset.min'_le _ _ hmem, Finset.le_max' _ _ hmem⟩
  · intro hbetween
    have hleast := List.mem_toFinset.mp (numbers.toFinset.min'_mem hnonempty)
    have hgreatest := List.mem_toFinset.mp (numbers.toFinset.max'_mem hnonempty)
    exact List.mem_toFinset.mpr (hinterval.out hleast hgreatest hbetween)

/-- The numbers of an interval are counted up from the least one on. -/
theorem perm_range'_iff {numbers : List ℕ} :
    (∃ first, numbers.Perm (List.range' first numbers.length)) ↔
      numbers.Nodup ∧ Set.OrdConnected {number | number ∈ numbers} := by
  constructor
  · rintro ⟨first, hperm⟩
    refine ⟨hperm.nodup_iff.mpr List.nodup_range', ⟨?_⟩⟩
    intro low hlow high hhigh number hnumber
    simp only [Set.mem_ofPred_eq, hperm.mem_iff, List.mem_range'_1] at hlow hhigh ⊢
    exact ⟨hlow.1.trans hnumber.1, hnumber.2.trans_lt hhigh.2⟩
  · rintro ⟨hnodup, hinterval⟩
    by_cases hne : numbers = []
    · subst hne
      exact ⟨0, List.Perm.refl _⟩
    · obtain ⟨least, greatest, hbounds⟩ := exists_toFinset_eq_Icc hne hinterval
      -- without duplicates there are as many numbers as the interval has
      have hlength := List.toFinset_card_of_nodup hnodup
      rw [hbounds, Nat.card_Icc] at hlength
      refine ⟨least, (List.perm_ext_iff_of_nodup hnodup List.nodup_range').mpr fun number => ?_⟩
      rw [← List.mem_toFinset, hbounds, Finset.mem_Icc, List.mem_range'_1]
      omega

/-- The first number of a sorted list is the least one. -/
theorem isLeast_of_sorted {first : ℕ} {rest : List ℕ}
    (hsorted : (first :: rest).Pairwise (· ≤ ·)) :
    IsLeast {number | number ∈ first :: rest} first := by
  refine ⟨List.mem_cons_self, fun number hnumber => ?_⟩
  rcases List.mem_cons.mp hnumber with heq | hrest
  · exact heq.ge
  · exact (List.pairwise_cons.mp hsorted).1 number hrest

/-- At this position is the first number that is not the one counted up from the given one. -/
structure FirstMismatch (first : ℕ) (numbers : List ℕ) (position got : ℕ) : Prop where
  found : numbers[position]? = some got
  differs : got ≠ first + position
  before : ∀ earlier < position, numbers[earlier]? = some (first + earlier)

variable {first number position got : ℕ} {rest : List ℕ}

theorem not_firstMismatch_nil : ¬ FirstMismatch first [] position got := by
  intro h
  cases h.found

/-- The first number differs. -/
theorem firstMismatch_zero : FirstMismatch first (number :: rest) 0 got ↔
    number = got ∧ got ≠ first := by
  constructor
  · exact fun h => ⟨Option.some.inj h.found, h.differs⟩
  · rintro ⟨rfl, hne⟩
    exact ⟨rfl, hne, fun _ hnone => absurd hnone (Nat.not_lt_zero _)⟩

/-- A later number differs if the first one does not. -/
theorem firstMismatch_succ : FirstMismatch first (number :: rest) (position + 1) got ↔
    number = first ∧ FirstMismatch (first + 1) rest position got := by
  constructor
  · intro h
    refine ⟨Option.some.inj (h.before 0 (Nat.succ_pos _)), h.found, ?_, ?_⟩
    · have hdiffers := h.differs
      omega
    · intro earlier hearlier
      have hbefore := h.before (earlier + 1) (Nat.succ_lt_succ hearlier)
      rw [List.getElem?_cons_succ] at hbefore
      rw [hbefore, Nat.add_right_comm, Nat.add_assoc]
  · rintro ⟨rfl, h⟩
    refine ⟨h.found, ?_, ?_⟩
    · have hdiffers := h.differs
      omega
    · intro earlier hearlier
      cases earlier with
      | zero => rfl
      | succ earlier =>
          rw [List.getElem?_cons_succ, h.before earlier (Nat.lt_of_succ_lt_succ hearlier),
            Nat.add_right_comm, Nat.add_assoc]

end IntervalList
