import Mathlib.Algebra.Ring.Nat
import Mathlib.Data.List.Chain

/-!
# Differences and slices

Two ways to flatten a list of values. Non-decreasing numbers are given by their
differences and the last number, from which the others follow backwards. Lists
are given by their lengths and everything they hold, which is cut up again.
-/

namespace Deltas

/-! ## Differences -/

/-- The difference of each number to the one before it. -/
def deltas (previous : ℕ) : List ℕ → List ℕ
  | [] => []
  | value :: rest => (value - previous) :: deltas value rest

/-- The numbers with these differences: each is the last number minus all later differences. -/
def undeltas (last : ℕ) : List ℕ → List ℕ
  | [] => []
  | _ :: rest => (last - rest.sum) :: undeltas last rest

/-- The differences lead from the first number to the last one. -/
theorem add_sum_deltas {previous : ℕ} {values : List ℕ}
    (h : (previous :: values).IsChain (· ≤ ·)) :
    previous + (deltas previous values).sum =
      (previous :: values).getLast (List.cons_ne_nil _ _) := by
  induction values generalizing previous with
  | nil => rfl
  | cons value rest ih =>
      obtain ⟨hle, hrest⟩ := List.isChain_cons_cons.mp h
      have hsum := ih hrest
      rw [deltas, List.sum_cons, List.getLast_cons (List.cons_ne_nil _ _), ← hsum]
      omega

/-- Non-decreasing numbers follow from their differences and the last number. -/
theorem undeltas_deltas {previous last : ℕ} {values : List ℕ}
    (h : (previous :: values).IsChain (· ≤ ·))
    (hlast : (previous :: values).getLast (List.cons_ne_nil _ _) = last) :
    undeltas last (deltas previous values) = values := by
  induction values generalizing previous with
  | nil => rfl
  | cons value rest ih =>
      have hrest := (List.isChain_cons_cons.mp h).2
      rw [List.getLast_cons (List.cons_ne_nil _ _)] at hlast
      have hsum := add_sum_deltas hrest
      rw [hlast] at hsum
      rw [deltas, undeltas, ih hrest hlast]
      congr 1
      omega

/-! ## Slices -/

variable {α : Type*}

/-- Consecutive slices of these lengths, and what is left after them. -/
def slices : List ℕ → List α → List (List α) × List α
  | [], flat => ([], flat)
  | length :: lengths, flat =>
      let (rest, left) := slices lengths (flat.drop length)
      (flat.take length :: rest, left)

/-- Lists follow from their lengths and everything they hold. -/
theorem slices_flatten (lists : List (List α)) :
    slices (lists.map List.length) lists.flatten = (lists, []) := by
  induction lists with
  | nil => rfl
  | cons list rest ih =>
      rw [List.map_cons, List.flatten_cons, slices, List.drop_left, ih, List.take_left]

end Deltas
