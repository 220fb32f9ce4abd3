import Mathlib.Algebra.Order.Round
import Mathlib.Analysis.Convex.Basic
import Mathlib.Tactic.Linarith

/-!
# Rounded moving averages

An exponentially weighted moving average that is kept as an integer: each
sample replaces the value by the nearest integer to a convex combination of the
two. Rounding is to the nearest integer, halves upwards. However many samples
follow, the value stays between the least and the greatest of the first one and
the rounded samples (`exists_le_run`, `exists_run_le`).
-/

namespace MovingAverage

variable {K : Type*} [Field K] [LinearOrder K] [IsStrictOrderedRing K]

/-- The average of a value and a sample, with the weight of the value. -/
def average (weight : K) (value : ℤ) (sample : K) : K := weight * value + (1 - weight) * sample

variable {weight sample : K} {value bound : ℤ}

theorem average_le {high : K} (hpos : 0 ≤ weight) (hone : weight ≤ 1) (hvalue : (value : K) ≤ high)
    (hsample : sample ≤ high) : average weight value sample ≤ high :=
  convex_Iic high hvalue hsample hpos (sub_nonneg.mpr hone) (add_sub_cancel weight 1)

theorem le_average {low : K} (hpos : 0 ≤ weight) (hone : weight ≤ 1) (hvalue : low ≤ (value : K))
    (hsample : low ≤ sample) : low ≤ average weight value sample :=
  convex_Ici low hvalue hsample hpos (sub_nonneg.mpr hone) (add_sub_cancel weight 1)

variable [FloorRing K]

theorem round_mono {left right : K} (h : left ≤ right) : round left ≤ round right := by
  rw [round_eq, round_eq]
  exact Int.floor_le_floor (by linarith)

/-- An average is not rounded to less than both the value and the rounded sample. -/
theorem le_round_average (hpos : 0 ≤ weight) (hone : weight ≤ 1) (hvalue : bound ≤ value)
    (hsample : bound ≤ round sample) : bound ≤ round (average weight value sample) := by
  rcases le_total (value : K) sample with hle | hle
  · have h := le_average hpos hone le_rfl hle
    have hround := round_mono h
    rw [round_intCast] at hround
    exact hvalue.trans hround
  · exact hsample.trans (round_mono (le_average hpos hone hle le_rfl))

/-- An average is not rounded to more than both the value and the rounded sample. -/
theorem round_average_le (hpos : 0 ≤ weight) (hone : weight ≤ 1) (hvalue : value ≤ bound)
    (hsample : round sample ≤ bound) : round (average weight value sample) ≤ bound := by
  rcases le_total sample (value : K) with hle | hle
  · have h := average_le hpos hone le_rfl hle
    have hround := round_mono h
    rw [round_intCast] at hround
    exact hround.trans hvalue
  · exact (round_mono (average_le hpos hone hle le_rfl)).trans hsample

/-- If the value has more than two thirds of the weight, only a sample that rounds to the value is
rounded as the average is. -/
theorem round_average_eq_iff (hweight : 2 / 3 < weight) (hone : weight ≤ 1) (value : ℤ)
    (sample : K) :
    round (average weight value sample) = round sample ↔ round sample = value := by
  have hpos : 0 ≤ weight := by linarith
  have hlow : (round sample : K) ≤ sample + 1 / 2 := by
    rw [round_eq]
    exact Int.floor_le _
  have hhigh : sample + 1 / 2 < (round sample : K) + 1 := by
    rw [round_eq]
    exact Int.lt_floor_add_one _
  constructor
  · intro heq
    rcases lt_trichotomy (round sample) value with hlt | hsame | hgt
    · have hvalue : (round sample : K) + 1 ≤ value := by exact_mod_cast hlt
      have hnext : round sample + 1 ≤ round (average weight value sample) := by
        rw [round_eq (average weight value sample), Int.le_floor, average]
        push_cast
        nlinarith [mul_nonneg hpos (sub_nonneg.mpr hvalue),
          mul_nonneg (sub_nonneg.mpr hone) (sub_nonneg.mpr hlow)]
      omega
    · exact hsame
    · have hvalue : (value : K) + 1 ≤ round sample := by exact_mod_cast hgt
      have hprevious : round (average weight value sample) < round sample := by
        rw [round_eq (average weight value sample), Int.floor_lt, average]
        nlinarith [mul_nonneg hpos (sub_nonneg.mpr hvalue),
          mul_nonneg (sub_nonneg.mpr hone) (sub_nonneg.mpr hhigh.le)]
      omega
  · intro hsame
    rw [hsame]
    exact le_antisymm (round_average_le hpos hone le_rfl hsame.le)
      (le_round_average hpos hone le_rfl hsame.ge)

section Run

omit [IsStrictOrderedRing K]

/-- The value after some samples. -/
def run (weight : K) (value : ℤ) (samples : List K) : ℤ :=
  samples.foldl (fun value sample => round (average weight value sample)) value

@[simp] theorem run_nil : run weight value [] = value := rfl

/-- A further sample. -/
theorem run_append_singleton (samples : List K) :
    run weight value (samples ++ [sample]) =
      round (average weight (run weight value samples) sample) := by
  rw [run, List.foldl_append]
  rfl

end Run

/-- The value is not below all of the first one and the rounded samples. -/
theorem exists_le_run (hpos : 0 ≤ weight) (hone : weight ≤ 1) (samples : List K) :
    ∃ low ∈ value :: samples.map round, low ≤ run weight value samples := by
  induction samples using List.reverseRecOn with
  | nil => exact ⟨value, by simp, le_rfl⟩
  | append_singleton front last ih =>
      obtain ⟨low, hmem, hle⟩ := ih
      rw [run_append_singleton, List.map_append, ← List.cons_append]
      rcases le_total low (round last) with hlow | hlast
      · exact ⟨low, List.mem_append_left _ hmem, le_round_average hpos hone hle hlow⟩
      · exact ⟨round last, List.mem_append_right _ (by simp),
          le_round_average hpos hone (hlast.trans hle) le_rfl⟩

/-- The value is not above all of the first one and the rounded samples. -/
theorem exists_run_le (hpos : 0 ≤ weight) (hone : weight ≤ 1) (samples : List K) :
    ∃ high ∈ value :: samples.map round, run weight value samples ≤ high := by
  induction samples using List.reverseRecOn with
  | nil => exact ⟨value, by simp, le_rfl⟩
  | append_singleton front last ih =>
      obtain ⟨high, hmem, hle⟩ := ih
      rw [run_append_singleton, List.map_append, ← List.cons_append]
      rcases le_total (round last) high with hhigh | hlast
      · exact ⟨high, List.mem_append_left _ hmem, round_average_le hpos hone hle hhigh⟩
      · exact ⟨round last, List.mem_append_right _ (by simp),
          round_average_le hpos hone (hle.trans hlast) le_rfl⟩

end MovingAverage
