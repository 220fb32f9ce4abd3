import Mathlib.Algebra.Order.Field.Basic
import Mathlib.Data.Nat.Cast.Order.Field
import Mathlib.Order.Iterate
import Mathlib.Tactic.FieldSimp
import Mathlib.Tactic.Linarith

/-!
# Decay with truncated division

An amount from which one of a number of equal parts is taken away, round after
round, where the part is rounded down. It never grows, it stays positive if
there are at least two parts, and it is never less than without rounding
(`mul_pow_le_decay`).
-/

namespace TruncatedDecay

/-- What is left of an amount without one of its parts. -/
def shrink (parts amount : ℕ) : ℕ := amount - amount / parts

/-- What is left after some rounds. -/
def decay (parts amount rounds : ℕ) : ℕ := (shrink parts)^[rounds] amount

variable {parts amount : ℕ}

@[simp] theorem decay_zero : decay parts amount 0 = amount := rfl

/-- The first of the rounds. -/
theorem decay_succ (rounds : ℕ) :
    decay parts amount (rounds + 1) = decay parts (shrink parts amount) rounds := rfl

/-- The last of the rounds. -/
theorem decay_succ' (rounds : ℕ) :
    decay parts amount (rounds + 1) = shrink parts (decay parts amount rounds) :=
  Function.iterate_succ_apply' _ _ _

/-- Further rounds leave no more. -/
theorem decay_antitone (parts amount : ℕ) : Antitone (decay parts amount) := by
  intro fewer more hle
  exact Function.antitone_iterate_of_le_id (fun _ => Nat.sub_le _ _) hle amount

theorem decay_le (rounds : ℕ) : decay parts amount rounds ≤ amount :=
  decay_antitone parts amount (Nat.zero_le rounds)

/-- A part that is one of two or more is not all of the amount. -/
theorem shrink_pos (hparts : 2 ≤ parts) (hamount : 0 < amount) : 0 < shrink parts amount :=
  Nat.sub_pos_of_lt (Nat.div_lt_self hamount hparts)

/-- Something is left after any rounds. -/
theorem decay_pos (hparts : 2 ≤ parts) (hamount : 0 < amount) (rounds : ℕ) :
    0 < decay parts amount rounds := by
  induction rounds with
  | zero => exact hamount
  | succ rounds ih =>
      rw [decay_succ']
      exact shrink_pos hparts ih

variable {K : Type*} [Field K] [LinearOrder K] [IsStrictOrderedRing K]

/-- The part is rounded down, so what is left is not. -/
theorem mul_le_shrink (hparts : 0 < parts) :
    (amount : K) * ((parts - 1) / parts) ≤ shrink parts amount := by
  have hpos : (0 : K) < parts := Nat.cast_pos.mpr hparts
  have hpart : ((amount / parts : ℕ) : K) ≤ amount / parts := Nat.cast_div_le
  have hexact : (amount : K) * ((parts - 1) / parts) = amount - amount / parts := by
    field_simp
  rw [hexact, shrink, Nat.cast_sub (Nat.div_le_self amount parts)]
  linarith

/-- After any rounds there is at least as much as without rounding. -/
theorem mul_pow_le_decay (hparts : 0 < parts) (rounds : ℕ) :
    (amount : K) * ((parts - 1) / parts) ^ rounds ≤ decay parts amount rounds := by
  have hone : (1 : K) ≤ parts := Nat.one_le_cast.mpr hparts
  have hratio : (0 : K) ≤ (parts - 1) / parts :=
    div_nonneg (sub_nonneg.mpr hone) (Nat.cast_nonneg parts)
  induction rounds with
  | zero => simp
  | succ rounds ih =>
      rw [decay_succ']
      calc (amount : K) * ((parts - 1) / parts) ^ (rounds + 1)
          = amount * ((parts - 1) / parts) ^ rounds * ((parts - 1) / parts) := by
            rw [pow_succ, mul_assoc]
        _ ≤ decay parts amount rounds * ((parts - 1) / parts) :=
            mul_le_mul_of_nonneg_right ih hratio
        _ ≤ shrink parts (decay parts amount rounds) := mul_le_shrink hparts

end TruncatedDecay
