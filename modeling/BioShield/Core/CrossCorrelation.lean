import BioShield.Core.Avx512Math
import Mathlib

/-!
# Core/CrossCorrelation — two channels compared (`core/multi_channel_core.cpp`)

`detect_cross_correlation` sums products of deviations from the means, and divides by the root of
the product of their squares; below `1e-6` it answers zero.  So it is the cosine of the angle
between the two vectors of deviations (`detectCrossCorrelation_of_passes`), and what is true of a
correlation coefficient is true of it: `detectCrossCorrelation_correlation`.
-/

namespace BioShield.MultiChannelProcessor

open Machinery Finset InnerProductGeometry WithLp

open scoped RealInnerProductSpace

/-- One round of the loop, on `(numerator, denom_a, denom_b)`. -/
def accumulate (meanA meanB : ℝ) (channelA channelB : ℕ → ℝ) (i : ℕ) (s : ℝ × ℝ × ℝ) :
    ℝ × ℝ × ℝ :=
  let diffA := channelA i - meanA
  let diffB := channelB i - meanB
  (s.1 + diffA * diffB, s.2.1 + diffA * diffA, s.2.2 + diffB * diffB)

/-- What the loop adds up. -/
noncomputable def sums (channelA channelB : ℕ → ℝ) (numSamples : ℕ) : ℝ × ℝ × ℝ :=
  let meanA := calculateMeanAvx512 channelA numSamples
  let meanB := calculateMeanAvx512 channelB numSamples
  (strided 1 numSamples (accumulate meanA meanB channelA channelB) 0 (0, 0, 0)).2

/-- `std::sqrt(denom_a * denom_b)`. -/
noncomputable def denominator (channelA channelB : ℕ → ℝ) (numSamples : ℕ) : ℝ :=
  let s := sums channelA channelB numSamples
  Real.sqrt (s.2.1 * s.2.2)

/-- `detect_cross_correlation`. -/
noncomputable def detectCrossCorrelation (channelA channelB : ℕ → ℝ) (numSamples : ℕ) : ℝ :=
  if denominator channelA channelB numSamples < 1e-6 then 0
  else (sums channelA channelB numSamples).1 / denominator channelA channelB numSamples

/-- The denominator passes its test. -/
def Passes (channelA channelB : ℕ → ℝ) (numSamples : ℕ) : Prop :=
  ¬ denominator channelA channelB numSamples < 1e-6

/-! ## The vectors of deviations -/

/-- The deviations from the mean; as `toLp 2 (deviation channel n)`, **a vector**. -/
noncomputable def deviation (channel : ℕ → ℝ) (n : ℕ) (i : Fin n) : ℝ :=
  channel i - calculateMeanAvx512 channel n

section Deviations

variable {a b : ℕ → ℝ} {n : ℕ}

/-- The sums are the inner products of the deviations. -/
theorem sums_eq :
    sums a b n = (⟪toLp 2 (deviation a n), toLp 2 (deviation b n)⟫,
      ‖toLp 2 (deviation a n)‖ ^ 2, ‖toLp 2 (deviation b n)‖ ^ 2) := by
  have htail : ∀ i (s : ℝ × ℝ × ℝ),
      accumulate (calculateMeanAvx512 a n) (calculateMeanAvx512 b n) a b i s =
        s + ((a i - calculateMeanAvx512 a n) * (b i - calculateMeanAvx512 b n),
          (a i - calculateMeanAvx512 a n) * (a i - calculateMeanAvx512 a n),
          (b i - calculateMeanAvx512 b n) * (b i - calculateMeanAvx512 b n)) := fun _ _ => rfl
  have hinner : ∀ c d : ℕ → ℝ, ⟪toLp 2 (deviation c n), toLp 2 (deviation d n)⟫ =
      ∑ i ∈ range n, (c i - calculateMeanAvx512 c n) * (d i - calculateMeanAvx512 d n) :=
    fun c d => by
    rw [PiLp.inner_apply, sum_range]
    exact sum_congr rfl fun i _ => mul_comm _ _
  have hsums : sums a b n = _ := strided_one_snd htail (0, 0, 0) (Nat.zero_le n)
  rw [hsums, ← range_eq_Ico, ← real_inner_self_eq_norm_sq, ← real_inner_self_eq_norm_sq, hinner,
    hinner, hinner]
  simp [Prod.ext_iff, Prod.fst_sum, Prod.snd_sum]

/-- Cauchy–Schwarz, on the sums. -/
theorem numerator_sq_le : (sums a b n).1 ^ 2 ≤ (sums a b n).2.1 * (sums a b n).2.2 := by
  rw [sums_eq]
  simp only
  rw [← mul_pow]
  exact sq_le_sq' (neg_le_of_abs_le (abs_real_inner_le_norm _ _)) (real_inner_le_norm _ _)

theorem denominator_eq :
    denominator a b n = ‖toLp 2 (deviation a n)‖ * ‖toLp 2 (deviation b n)‖ := by
  rw [denominator, sums_eq]
  simp only
  rw [← mul_pow, Real.sqrt_sq (by positivity)]

/-- **A correlation is the cosine of an angle.** -/
theorem detectCrossCorrelation_of_passes (h : Passes a b n) :
    detectCrossCorrelation a b n =
      Real.cos (angle (toLp 2 (deviation a n)) (toLp 2 (deviation b n))) := by
  rw [detectCrossCorrelation, if_neg h, denominator_eq, sums_eq, cos_angle]

theorem detectCrossCorrelation_of_not_passes (h : ¬ Passes a b n) :
    detectCrossCorrelation a b n = 0 :=
  if_pos (not_not.mp h)

theorem Passes.comm (h : Passes a b n) : Passes b a n := by
  rwa [Passes, denominator_eq, mul_comm, ← denominator_eq]

/-- Deviations that pass are not zero. -/
theorem Passes.ne_zero (h : Passes a b n) : toLp 2 (deviation a n) ≠ 0 := by
  intro hzero
  refine h ?_
  rw [denominator_eq, hzero, norm_zero, zero_mul]
  norm_num

/-- The deviations of `p * a + q` are `p` times those of `a`. -/
theorem deviation_affine (p q : ℝ) :
    toLp 2 (deviation (fun i => p * a i + q) n) = p • toLp 2 (deviation a n) := by
  ext i
  have hn : (n : ℝ) ≠ 0 := Nat.cast_ne_zero.mpr i.pos.ne'
  have hmean : calculateMeanAvx512 (fun i => p * a i + q) n = p * calculateMeanAvx512 a n + q := by
    rw [calculateMeanAvx512_eq, calculateMeanAvx512_eq, sum_add_distrib, ← mul_sum, sum_const,
      card_range, nsmul_eq_mul, add_div, mul_div_assoc, mul_div_cancel_left₀ _ hn]
  simp only [deviation, PiLp.smul_apply, smul_eq_mul, hmean]
  ring

/-! ## A correlation coefficient -/

theorem detectCrossCorrelation_mem (a b : ℕ → ℝ) (n : ℕ) :
    detectCrossCorrelation a b n ∈ Set.Icc (-1) 1 := by
  by_cases h : Passes a b n
  · rw [detectCrossCorrelation_of_passes h]
    exact ⟨Real.neg_one_le_cos _, Real.cos_le_one _⟩
  · rw [detectCrossCorrelation_of_not_passes h]
    norm_num

theorem detectCrossCorrelation_comm (a b : ℕ → ℝ) (n : ℕ) :
    detectCrossCorrelation b a n = detectCrossCorrelation a b n := by
  by_cases h : Passes a b n
  · rw [detectCrossCorrelation_of_passes h, detectCrossCorrelation_of_passes h.comm, angle_comm]
  · rw [detectCrossCorrelation_of_not_passes h,
      detectCrossCorrelation_of_not_passes fun hba => h hba.comm]

/-- A positive factor keeps the angle… -/
theorem detectCrossCorrelation_of_pos {p : ℝ} (hp : 0 < p) (q : ℝ) (h : Passes a b n)
    (h' : Passes (fun i => p * a i + q) b n) :
    detectCrossCorrelation (fun i => p * a i + q) b n = detectCrossCorrelation a b n := by
  rw [detectCrossCorrelation_of_passes h, detectCrossCorrelation_of_passes h', deviation_affine,
    angle_smul_left_of_pos _ _ hp]

/-- …and a negative one makes it the supplement. -/
theorem detectCrossCorrelation_of_neg {p : ℝ} (hp : p < 0) (q : ℝ) (h : Passes a b n)
    (h' : Passes (fun i => p * a i + q) b n) :
    detectCrossCorrelation (fun i => p * a i + q) b n = -detectCrossCorrelation a b n := by
  rw [detectCrossCorrelation_of_passes h, detectCrossCorrelation_of_passes h', deviation_affine,
    angle_smul_left_of_neg _ _ hp, angle_neg_left, Real.cos_pi_sub]

/-- The angle is flat where the deviations are proportional. -/
theorem abs_detectCrossCorrelation_eq_one_iff (h : Passes a b n) :
    |detectCrossCorrelation a b n| = 1 ↔ ∃ c, ∀ i < n,
      b i - calculateMeanAvx512 b n = c * (a i - calculateMeanAvx512 a n) := by
  have hsmul : ∀ c : ℝ, toLp 2 (deviation b n) = c • toLp 2 (deviation a n) ↔ ∀ i < n,
      b i - calculateMeanAvx512 b n = c * (a i - calculateMeanAvx512 a n) := by
    intro c
    refine ⟨fun heq i hi => congrFun (congrArg (WithLp.ofLp) heq) ⟨i, hi⟩, fun hall => ?_⟩
    ext i
    exact hall i i.isLt
  rw [detectCrossCorrelation_of_passes h, cos_angle, abs_real_inner_div_norm_mul_norm_eq_one_iff,
    and_iff_right h.ne_zero]
  refine exists_congr fun c => ?_
  rw [← hsmul, and_iff_right_iff_imp]
  rintro heq rfl
  exact h.comm.ne_zero (by rw [heq, zero_smul])

/-- **A correlation coefficient**: Cauchy–Schwarz bounds it, it is symmetric, an affine change of a
channel keeps it or flips its sign, and it is extreme exactly for proportional deviations. -/
theorem detectCrossCorrelation_correlation (a b : ℕ → ℝ) (n : ℕ) :
    (sums a b n).1 ^ 2 ≤ (sums a b n).2.1 * (sums a b n).2.2 ∧
      detectCrossCorrelation a b n ∈ Set.Icc (-1) 1 ∧
      detectCrossCorrelation b a n = detectCrossCorrelation a b n ∧
      (∀ p q : ℝ, 0 < p → Passes a b n → Passes (fun i => p * a i + q) b n →
        detectCrossCorrelation (fun i => p * a i + q) b n = detectCrossCorrelation a b n) ∧
      (∀ p q : ℝ, p < 0 → Passes a b n → Passes (fun i => p * a i + q) b n →
        detectCrossCorrelation (fun i => p * a i + q) b n = -detectCrossCorrelation a b n) ∧
      (Passes a b n →
        (|detectCrossCorrelation a b n| = 1 ↔ ∃ c, ∀ i < n,
          b i - calculateMeanAvx512 b n = c * (a i - calculateMeanAvx512 a n))) :=
  ⟨numerator_sq_le, detectCrossCorrelation_mem a b n, detectCrossCorrelation_comm a b n,
    fun _ q hp => detectCrossCorrelation_of_pos hp q,
    fun _ q hp => detectCrossCorrelation_of_neg hp q, abs_detectCrossCorrelation_eq_one_iff⟩

end Deviations

end BioShield.MultiChannelProcessor
