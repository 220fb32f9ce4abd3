import Mathlib.Data.List.Infix

/-!
# Where a pattern occurs in a text

A pattern that overlaps with no copy of itself is found where it was put: if the
text before it does not contain it, its first occurrence is the one that was put
there.
-/

namespace Mk1

variable {α : Type}

/-- No proper suffix of a pattern is also its beginning, so that its occurrences do not overlap. -/
def Unbordered (pattern : List α) : Prop :=
  ∀ start < pattern.length, 0 < start → ¬ pattern.drop start <+: pattern

/-- A pattern begins nowhere in the text before it that does not contain it. -/
theorem Unbordered.not_isPrefix {pattern before rest : List α} (hpattern : Unbordered pattern)
    (hne : before ≠ []) (h : ¬ pattern <:+: before) :
    ¬ pattern <+: before ++ (pattern ++ rest) := by
  intro hprefix
  rcases Nat.lt_or_ge before.length pattern.length with hlt | hge
  · -- the occurrence would run into the pattern itself, and so overlap with it
    obtain ⟨overlap, hoverlap⟩ :=
      List.prefix_of_prefix_length_le (List.prefix_append before _) hprefix hlt.le
    have hdrop : pattern.drop before.length = overlap := by
      rw [← hoverlap, List.drop_left]
    have hshort : overlap.length ≤ pattern.length := by
      rw [← hoverlap, List.length_append]
      exact Nat.le_add_left _ _
    rw [← hoverlap, List.prefix_append_right_inj, hoverlap] at hprefix
    refine hpattern before.length hlt (List.length_pos_of_ne_nil hne) ?_
    rw [hdrop]
    exact List.prefix_of_prefix_length_le hprefix (List.prefix_append ..) hshort
  · exact h (List.prefix_of_prefix_length_le hprefix (List.prefix_append ..) hge).isInfix

/-- What is dropped from the front of a text stays within its first part, if the second part begins
with something to keep. -/
theorem dropWhile_append_of_head {p : α → Bool} {first : α} {left right : List α}
    (h : p first = false) :
    (left ++ first :: right).dropWhile p = left.dropWhile p ++ first :: right := by
  rw [List.dropWhile_append]
  split
  · next hempty =>
      have hkeep : ¬ p first = true := by rw [h]; exact Bool.false_ne_true
      rw [List.isEmpty_iff.mp hempty, List.dropWhile_cons_of_neg hkeep]
      rfl
  · rfl

/-- What is taken from the front of a text ends with its first part, if all of that is taken and the
second part begins with something else. -/
theorem takeWhile_append_eq_left {p : α → Bool} {left right : List α} (hleft : ∀ a ∈ left, p a)
    (hright : ∀ first ∈ right.head?, p first = false) : (left ++ right).takeWhile p = left := by
  rw [List.takeWhile_append_of_pos hleft]
  cases right with
  | nil => exact List.append_nil left
  | cons first right =>
      rw [List.takeWhile_cons_of_neg (by rw [hright first rfl]; exact Bool.false_ne_true)]
      exact List.append_nil left

end Mk1
