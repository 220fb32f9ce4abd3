import Mk1.Library.MovingAverage
import Mk1.Primitives.Batch.Invariant

/-!
# The estimate of the compression ratio

`ZlibCompressionEstimate` of `compression/estimate.rs`: a moving average of the
ratios of compressed to uncompressed sizes, kept in bps. The operations on `f64`
are those on rational numbers here. Whether a sample is the first one is read
off the average itself, which is the initial constant then. `isEwma_iff` says on
which histories of samples this is a moving average.
-/

namespace Mk1

/-- Initial compression ratio in bps. -/
def INITIAL_RATIO_BPS : Nat := 6800

/-- Retention factor of the moving average. -/
def DECAY : ℚ := 99 / 100

/-- The weight of a new sample. -/
def ALPHA : ℚ := 1 - DECAY

/-- `f64::round` and the cast to `u64`, which saturates. -/
def roundU64 (x : ℚ) : Nat := min (round x).toNat u64Max

/-- A sample: the sizes before and after compression. -/
structure Sample where
  uncompressedSize : Nat
  compressedSize : Nat
  deriving DecidableEq, Repr

/-- Only samples with an uncompressed size are counted. -/
def Sample.IsReal (sample : Sample) : Prop := sample.uncompressedSize ≠ 0

instance (sample : Sample) : Decidable sample.IsReal := inferInstanceAs (Decidable (¬ _))

/-- The ratio of a sample in bps. -/
def Sample.ratioBps (sample : Sample) : ℚ :=
  (sample.compressedSize : ℚ) / sample.uncompressedSize * 10000

namespace ZlibCompressionEstimate

/-- `ZlibCompressionEstimate::get` at an estimate. -/
def get (estimate uncompressed : Nat) : Nat := roundU64 (uncompressed * (estimate / 10000 : ℚ))

/-- `ZlibCompressionEstimate::update`. -/
def update (estimate : Nat) (sample : Sample) : Nat :=
  if sample.uncompressedSize = 0 then estimate
  else
    let newBpsF := sample.ratioBps
    let newBps := roundU64 newBpsF
    -- the first real sample is recognised by the initial value
    if estimate = INITIAL_RATIO_BPS then newBps
    else roundU64 (DECAY * estimate + ALPHA * newBpsF)

/-- `ZlibCompressionEstimate::clear`. -/
def clear : Nat := INITIAL_RATIO_BPS

/-- The estimate after some updates that follow `clear`. -/
def estimateAfter (samples : List Sample) : Nat := samples.foldl update clear

/-- The ratios of the real samples. -/
def realRatios (samples : List Sample) : List ℚ :=
  (samples.filter fun sample => sample.IsReal).map Sample.ratioBps

/-- What a sample after some others does to a moving average: nothing without an uncompressed size;
the first real one sets it, the others move it. -/
structure FollowsEwma (before : List Sample) (sample : Sample) : Prop where
  ignored : ¬ sample.IsReal → estimateAfter (before ++ [sample]) = estimateAfter before
  first : sample.IsReal → realRatios before = [] →
    (estimateAfter (before ++ [sample]) : ℤ) = round sample.ratioBps
  further : sample.IsReal → realRatios before ≠ [] →
    (estimateAfter (before ++ [sample]) : ℤ) =
      round (99 / 100 * (estimateAfter before : ℚ) + 1 / 100 * sample.ratioBps)

/-- A number is not below the least of some values and not above the greatest. -/
def Between (values : List ℤ) (number : ℤ) : Prop :=
  ∃ low ∈ values, ∃ high ∈ values, low ≤ number ∧ number ≤ high

/-- Throughout some samples, the estimate is their moving average, and lies between the rounded
ratios seen so far. -/
structure IsEwma (samples : List Sample) : Prop where
  follows : ∀ before sample after, samples = before ++ sample :: after → FollowsEwma before sample
  between : ∀ before after, samples = before ++ after → realRatios before ≠ [] →
    Between ((realRatios before).map round) (estimateAfter before)

/-- A real sample after some others fits a `u64`, and the estimate before it is not the initial
value by chance, unless the sample comes to the same value. -/
def Regular (before : List Sample) (sample : Sample) : Prop :=
  sample.IsReal →
    if realRatios before = [] then round sample.ratioBps ≤ u64Max
    else
      round (MovingAverage.average DECAY (estimateAfter before) sample.ratioBps) ≤ u64Max ∧
        (estimateAfter before = INITIAL_RATIO_BPS →
          round sample.ratioBps = INITIAL_RATIO_BPS ∨
            round (MovingAverage.average DECAY (estimateAfter before) sample.ratioBps) = u64Max)

theorem estimateAfter_append_singleton (before : List Sample) (sample : Sample) :
    estimateAfter (before ++ [sample]) = update (estimateAfter before) sample := by
  rw [estimateAfter, List.foldl_append]
  rfl

theorem realRatios_append_of_real {before : List Sample} {sample : Sample} (h : sample.IsReal) :
    realRatios (before ++ [sample]) = realRatios before ++ [sample.ratioBps] := by
  simp [realRatios, h]

theorem realRatios_append_of_not_real {before : List Sample} {sample : Sample}
    (h : ¬ sample.IsReal) : realRatios (before ++ [sample]) = realRatios before := by
  simp [realRatios, h]

theorem update_of_not_real {estimate : Nat} {sample : Sample} (h : ¬ sample.IsReal) :
    update estimate sample = estimate := if_pos (not_not.mp h)

theorem update_initial {sample : Sample} (h : sample.IsReal) :
    update INITIAL_RATIO_BPS sample = roundU64 sample.ratioBps := by
  rw [update, if_neg h, if_pos rfl]

theorem update_of_ne {estimate : Nat} {sample : Sample} (h : sample.IsReal)
    (hne : estimate ≠ INITIAL_RATIO_BPS) :
    update estimate sample =
      roundU64 (MovingAverage.average DECAY estimate sample.ratioBps) := by
  rw [update, if_neg h, if_neg hne, MovingAverage.average, ALPHA, Int.cast_natCast]

/-- Without a real sample the estimate is the initial one. -/
theorem estimateAfter_of_realRatios_eq_nil {samples : List Sample} (h : realRatios samples = []) :
    estimateAfter samples = INITIAL_RATIO_BPS := by
  induction samples using List.reverseRecOn with
  | nil => rfl
  | append_singleton front last ih =>
      by_cases hreal : last.IsReal
      · rw [realRatios_append_of_real hreal] at h
        exact absurd h (List.append_ne_nil_of_right_ne_nil _ (List.cons_ne_nil _ _))
      · rw [realRatios_append_of_not_real hreal] at h
        rw [estimateAfter_append_singleton, update_of_not_real hreal, ih h]

theorem ratioBps_nonneg (sample : Sample) : 0 ≤ sample.ratioBps := by
  unfold Sample.ratioBps
  positivity

theorem decay_nonneg : 0 ≤ DECAY := by norm_num [DECAY]

theorem decay_le_one : DECAY ≤ 1 := by norm_num [DECAY]

theorem average_eq (estimate : Nat) (ratio : ℚ) :
    99 / 100 * (estimate : ℚ) + 1 / 100 * ratio = MovingAverage.average DECAY estimate ratio := by
  rw [MovingAverage.average, DECAY, Int.cast_natCast]
  norm_num

theorem average_nonneg (estimate : Nat) (sample : Sample) :
    0 ≤ MovingAverage.average DECAY estimate sample.ratioBps :=
  MovingAverage.le_average decay_nonneg decay_le_one (by positivity)
    (ratioBps_nonneg sample)

/-- A number that is not negative is rounded, and cut off at the largest `u64`. -/
theorem roundU64_eq {x : ℚ} (h : 0 ≤ x) : (roundU64 x : ℤ) = min (round x) u64Max := by
  have hround : 0 ≤ round x := by
    rw [← round_zero (α := ℚ)]
    exact MovingAverage.round_mono h
  rw [roundU64, Nat.cast_min, Int.toNat_of_nonneg hround]

/-- From the initial value, the rounded ratio of a sample is also the rounded average exactly if it
is the initial value itself, or both are cut off. -/
theorem min_round_eq_round_average_iff (ratio : ℚ) :
    min (round ratio) (u64Max : ℤ) =
        round (MovingAverage.average DECAY INITIAL_RATIO_BPS ratio) ↔
      round (MovingAverage.average DECAY INITIAL_RATIO_BPS ratio) ≤ u64Max ∧
        (round ratio = INITIAL_RATIO_BPS ∨
          round (MovingAverage.average DECAY INITIAL_RATIO_BPS ratio) = u64Max) := by
  have hweight : 2 / 3 < DECAY := by norm_num [DECAY]
  have hsame := MovingAverage.round_average_eq_iff hweight decay_le_one INITIAL_RATIO_BPS ratio
  constructor
  · intro heq
    refine ⟨heq ▸ min_le_right _ _, ?_⟩
    rcases le_total (round ratio) (u64Max : ℤ) with hle | hle
    · rw [min_eq_left hle] at heq
      exact Or.inl (hsame.mp heq.symm)
    · rw [min_eq_right hle] at heq
      exact Or.inr heq.symm
  · rintro ⟨hfits, hinitial | hmax⟩
    · rw [hsame.mpr hinitial] at hfits ⊢
      exact min_eq_left hfits
    · rw [hmax]
      refine min_eq_right (not_lt.mp fun hlt => ?_)
      -- a ratio below the largest value has an average below it
      have hle := MovingAverage.round_average_le decay_nonneg decay_le_one
        (by decide : (INITIAL_RATIO_BPS : ℤ) ≤ u64Max - 1) (Int.le_sub_one_of_lt hlt)
      omega

/-- The first real sample sets the estimate exactly if its ratio fits. -/
theorem first_iff {before : List Sample} {sample : Sample} (hreal : sample.IsReal)
    (hnil : realRatios before = []) :
    (estimateAfter (before ++ [sample]) : ℤ) = round sample.ratioBps ↔
      round sample.ratioBps ≤ u64Max := by
  rw [estimateAfter_append_singleton, estimateAfter_of_realRatios_eq_nil hnil,
    update_initial hreal, roundU64_eq (ratioBps_nonneg sample)]
  exact min_eq_left_iff

/-- A further real sample moves the estimate exactly if it is regular. -/
theorem further_iff {before : List Sample} {sample : Sample} (hreal : sample.IsReal) :
    (estimateAfter (before ++ [sample]) : ℤ) =
        round (MovingAverage.average DECAY (estimateAfter before) sample.ratioBps) ↔
      round (MovingAverage.average DECAY (estimateAfter before) sample.ratioBps) ≤ u64Max ∧
        (estimateAfter before = INITIAL_RATIO_BPS →
          round sample.ratioBps = INITIAL_RATIO_BPS ∨
            round (MovingAverage.average DECAY (estimateAfter before) sample.ratioBps) =
              u64Max) := by
  rw [estimateAfter_append_singleton]
  by_cases hinitial : estimateAfter before = INITIAL_RATIO_BPS
  · rw [hinitial, update_initial hreal, roundU64_eq (ratioBps_nonneg sample),
      min_round_eq_round_average_iff, forall_prop_of_true rfl]
  · rw [update_of_ne hreal hinitial, roundU64_eq (average_nonneg _ sample), min_eq_left_iff]
    exact (and_iff_left fun h => absurd h hinitial).symm

/-- The estimate takes a sample as a moving average does exactly if the sample is regular. -/
theorem followsEwma_iff (before : List Sample) (sample : Sample) :
    FollowsEwma before sample ↔ Regular before sample := by
  have haverage := average_eq (estimateAfter before) sample.ratioBps
  constructor
  · intro hfollows hreal
    split
    · next hnil => exact (first_iff hreal hnil).mp (hfollows.first hreal hnil)
    · next hne => exact (further_iff hreal).mp (haverage ▸ hfollows.further hreal hne)
  · intro hregular
    refine ⟨fun hreal => ?_, fun hreal hnil => ?_, fun hreal hne => ?_⟩
    · rw [estimateAfter_append_singleton, update_of_not_real hreal]
    · have h := hregular hreal
      rw [if_pos hnil] at h
      exact (first_iff hreal hnil).mpr h
    · have h := hregular hreal
      rw [if_neg hne] at h
      rw [haverage]
      exact (further_iff hreal).mpr h

/-- While every sample is taken as a moving average does, the estimate is the run of the library
from the first real sample on. -/
theorem estimateAfter_eq_run {samples : List Sample} (hfollows : ∀ before sample after,
      samples = before ++ sample :: after → FollowsEwma before sample)
    {first : ℚ} {rest : List ℚ} (hratios : realRatios samples = first :: rest) :
    (estimateAfter samples : ℤ) = MovingAverage.run DECAY (round first) rest := by
  induction samples using List.reverseRecOn generalizing rest with
  | nil => cases hratios
  | append_singleton front last ih =>
      have hlast := hfollows front last [] rfl
      have hfront : ∀ before sample after, front = before ++ sample :: after →
          FollowsEwma before sample := fun before sample after hsplit =>
        hfollows before sample (after ++ [last]) (by rw [hsplit]; simp)
      by_cases hreal : last.IsReal
      · rw [realRatios_append_of_real hreal] at hratios
        cases hseen : realRatios front with
        | nil =>
            rw [hseen] at hratios
            cases hratios
            exact hlast.first hreal hseen
        | cons other seen =>
            rw [hseen] at hratios
            cases hratios
            have hprevious := ih hfront hseen
            rw [hlast.further hreal (by simp [hseen]), average_eq, hprevious]
            exact (MovingAverage.run_append_singleton seen).symm
      · rw [realRatios_append_of_not_real hreal] at hratios
        rw [hlast.ignored hreal]
        exact ih hfront hratios

/-- A moving average lies between the rounded ratios seen so far. -/
theorem between_of_follows {samples : List Sample} (hfollows : ∀ before sample after,
      samples = before ++ sample :: after → FollowsEwma before sample)
    (hne : realRatios samples ≠ []) :
    Between ((realRatios samples).map round) (estimateAfter samples) := by
  obtain ⟨first, rest, hratios⟩ := List.exists_cons_of_ne_nil hne
  obtain ⟨low, hlowMem, hlow⟩ := MovingAverage.exists_le_run decay_nonneg decay_le_one rest
  obtain ⟨high, hhighMem, hhigh⟩ := MovingAverage.exists_run_le decay_nonneg decay_le_one rest
  rw [hratios, List.map_cons, estimateAfter_eq_run hfollows hratios]
  exact ⟨low, hlowMem, high, hhighMem, hlow, hhigh⟩

/-- The estimate is a moving average exactly if every sample is regular. -/
theorem isEwma_iff (samples : List Sample) :
    IsEwma samples ↔
      ∀ before sample after, samples = before ++ sample :: after → Regular before sample := by
  constructor
  · intro hewma before sample after hsplit
    exact (followsEwma_iff before sample).mp (hewma.follows before sample after hsplit)
  · intro hregular
    have hfollows : ∀ before sample after, samples = before ++ sample :: after →
        FollowsEwma before sample := fun before sample after hsplit =>
      (followsEwma_iff before sample).mpr (hregular before sample after hsplit)
    refine ⟨hfollows, fun before after hsplit hne => between_of_follows ?_ hne⟩
    intro earlier sample later hearlier
    exact hfollows earlier sample (later ++ after) (by rw [hsplit, hearlier]; simp)

/-- 25% and then 50%, with a sample in between that is ignored. -/
example : estimateAfter [⟨1000, 250⟩, ⟨0, 1234⟩, ⟨1000, 500⟩] = 2525 := by decide +kernel

/-- After a first sample of 6800 bps, a second one of 2500 bps counts as the first. -/
theorem second_sample_overrides_at_6800 :
    estimateAfter [⟨1000, 680⟩] = 6800 ∧ estimateAfter [⟨1000, 680⟩, ⟨1000, 250⟩] = 2500 ∧
      ¬ IsEwma [⟨1000, 680⟩, ⟨1000, 250⟩] := by
  have hfirst : estimateAfter [⟨1000, 680⟩] = 6800 := by decide +kernel
  have hsecond : estimateAfter [⟨1000, 680⟩, ⟨1000, 250⟩] = 2500 := by decide +kernel
  refine ⟨hfirst, hsecond, fun hewma => ?_⟩
  have hfurther := (hewma.follows [⟨1000, 680⟩] ⟨1000, 250⟩ [] rfl).further (by decide)
    (by decide +kernel)
  rw [List.singleton_append, hsecond, hfirst] at hfurther
  exact absurd hfurther (by decide +kernel)

/-- `get` never estimates more for fewer bytes. -/
theorem monotone_get (estimate : Nat) : Monotone (get estimate) := by
  intro left right hle
  refine min_le_min_right u64Max (Int.toNat_le_toNat (MovingAverage.round_mono ?_))
  exact mul_le_mul_of_nonneg_right (Nat.cast_le.mpr hle) (by positivity)

/-- A batch whose size is estimated with the average keeps its invariant. -/
theorem wellFormed_applyOps_get (estimate : Nat) {settings : BatchSettings}
    (hcapacity : 1 ≤ settings.capacity) (anchorBlock : Header) (ops : List BatchOp) :
    ((Batch.new anchorBlock settings).applyOps (get estimate) ops).2.WellFormed (get estimate)
      settings :=
  ((Batch.wellFormed_new (get estimate) settings anchorBlock).applyOps (monotone_get estimate)
    hcapacity ops).2

end ZlibCompressionEstimate

end Mk1
