import BioShield.Core.FrequencyAnalyzer

/-!
# Core/Tones — what the spectral features tell (`core/frequency_analyzer.cpp`)

`get_dominant_frequency` reports the first bin of the largest magnitude between the first and the
middle one (`getDominantFrequency_eq_iff`).  On a power of two a sum of tones is taken apart: the
dominant frequency is that of the loudest tone (`getDominantFrequency_tones_iff`), whatever the
phases and the constant under them, and the centroid is the mean of the tones' frequencies, weighted
by how loud they are, with the constant counted twice at frequency zero
(`getSpectralCentroid_tones`).

Neither feature depends on where in a cycle the samples begin (`features_shift`).
-/

namespace BioShield.FrequencyAnalyzer

open Machinery Finset

/-! ## The search -/

/-- `index` is the first place below `n` where `f` is largest. -/
def FirstMax (f : ℕ → ℝ) (n index : ℕ) : Prop :=
  index < n ∧ ∀ i < n, f i ≤ f index ∧ (i < index → f i < f index)

theorem FirstMax.unique {f : ℕ → ℝ} {n index index' : ℕ} (h : FirstMax f n index)
    (h' : FirstMax f n index') : index = index' := by
  obtain ⟨hlt, hmax⟩ := h
  obtain ⟨hlt', hmax'⟩ := h'
  rcases lt_trichotomy index index' with hindex | hindex | hindex
  · exact absurd ((hmax' index hlt).2 hindex) (hmax index' hlt').1.not_gt
  · exact hindex
  · exact absurd ((hmax index' hlt').2 hindex) (hmax' index hlt).1.not_gt

/-- One place more to look at. -/
theorem FirstMax.succ {f : ℕ → ℝ} {n index : ℕ} (h : FirstMax f n index) :
    FirstMax f (n + 1) (if f n > f index then n else index) := by
  obtain ⟨hlt, hmax⟩ := h
  split_ifs with hlarger
  · refine ⟨Nat.lt_succ_self n, fun i hi => ?_⟩
    rcases (Nat.lt_succ_iff.mp hi).lt_or_eq with hi | rfl
    · have hlarger := (hmax i hi).1.trans_lt hlarger
      exact ⟨hlarger.le, fun _ => hlarger⟩
    · exact ⟨le_rfl, fun h => absurd h (lt_irrefl i)⟩
  · refine ⟨by omega, fun i hi => ?_⟩
    rcases (Nat.lt_succ_iff.mp hi).lt_or_eq with hi | rfl
    · exact hmax i hi
    · exact ⟨not_lt.mp hlarger, fun h => absurd hlt h.not_gt⟩

/-- What the search goes by: bin zero counts as silent. -/
noncomputable def magnitude (data : ℕ → ℂ) (i : ℕ) : ℝ := if i = 0 then 0 else ‖data i‖

/-- **The search finds the first of the largest**, and bin zero if all are silent. -/
theorem firstMax_larger (data : ℕ → ℂ) {half : ℕ} (hhalf : 1 ≤ half) :
    FirstMax (magnitude data) half (strided 1 half (larger data) 1 (0, 0)).2.2 := by
  have hsearch : 1 ≤ (strided 1 half (larger data) 1 (0, 0)).1 ∧
      FirstMax (magnitude data) (strided 1 half (larger data) 1 (0, 0)).1
        (strided 1 half (larger data) 1 (0, 0)).2.2 ∧
      (strided 1 half (larger data) 1 (0, 0)).2.1 =
        magnitude data (strided 1 half (larger data) 1 (0, 0)).2.2 := by
    refine strided_invariant
      (I := fun k (s : ℝ × ℕ) => 1 ≤ k ∧ FirstMax (magnitude data) k s.2 ∧
        s.1 = magnitude data s.2)
      (fun k s _ hI => ?_) ⟨le_rfl, ⟨one_pos, fun i hi => ?_⟩, rfl⟩
    · obtain ⟨hk, hmax, hs⟩ := hI
      have hmagnitude : magnitude data k = ‖data k‖ := if_neg (by omega)
      have hsucc := hmax.succ
      rw [hmagnitude] at hsucc
      simp only [larger, hs]
      split_ifs at hsucc ⊢ with hlarger
      · exact ⟨by omega, hsucc, hmagnitude.symm⟩
      · exact ⟨by omega, hsucc, hs⟩
    · obtain rfl : i = 0 := by omega
      exact ⟨le_rfl, fun h => absurd h (lt_irrefl 0)⟩
  rw [strided_one_fst _ _ hhalf] at hsearch
  exact hsearch.2.1

variable {samples : ℕ → ℝ} {n k b : ℕ}

/-- **When a bin is reported**: it is not silent, at least as loud as every bin, and louder than
those below. -/
theorem getDominantFrequency_eq_iff (hb : b ∈ Ico 1 (n / 2)) :
    getDominantFrequency samples n = b / n ↔
      spectrum samples n b ≠ 0 ∧ ∀ i ∈ Ico 1 (n / 2),
        ‖spectrum samples n i‖ ≤ ‖spectrum samples n b‖ ∧
          (i < b → ‖spectrum samples n i‖ < ‖spectrum samples n b‖) := by
  obtain ⟨hpos, hlt⟩ := mem_Ico.mp hb
  have hn : (n : ℝ) ≠ 0 := Nat.cast_ne_zero.mpr (by omega)
  have hmagnitude : ∀ i, 1 ≤ i →
      magnitude (spectrum samples n) i = ‖spectrum samples n i‖ := fun i hi => if_neg (by omega)
  have hfound := firstMax_larger (spectrum samples n) (show 1 ≤ n / 2 by omega)
  have hmax : getDominantFrequency samples n = b / n ↔
      FirstMax (magnitude (spectrum samples n)) (n / 2) b := by
    rw [getDominantFrequency, div_left_inj' hn, Nat.cast_inj]
    exact ⟨fun heq => heq ▸ hfound, fun h => hfound.unique h⟩
  rw [hmax]
  constructor
  · rintro ⟨-, h⟩
    refine ⟨norm_pos_iff.mp ?_, fun i hi => ?_⟩
    · have hzero := (h 0 (by omega)).2 hpos
      rwa [hmagnitude b hpos] at hzero
    · have hi' := mem_Ico.mp hi
      have := h i hi'.2
      rwa [hmagnitude b hpos, hmagnitude i hi'.1] at this
  · rintro ⟨hne, h⟩
    refine ⟨hlt, fun i hi => ?_⟩
    rcases i.eq_zero_or_pos with rfl | hi'
    · rw [hmagnitude b hpos]
      exact ⟨norm_nonneg _, fun _ => norm_pos_iff.mpr hne⟩
    · rw [hmagnitude b hpos, hmagnitude i hi']
      exact h i (mem_Ico.mpr ⟨hi', hi⟩)

/-! ## A sum of tones -/

/-- Tones over a constant: the one of bin `b` goes through `b` cycles in `n` samples. -/
noncomputable def tones (constant : ℝ) (amplitude phase : ℕ → ℝ) (n m : ℕ) : ℝ :=
  constant + ∑ b ∈ Ico 1 (n / 2),
    amplitude b * Real.cos (2.0 * Real.pi * b * m / n + phase b)

/-- The half of a tone that runs with the factor, at bin zero. -/
noncomputable def half (amplitude phase : ℕ → ℝ) (b : ℕ) : ℂ :=
  (0.5 * amplitude b : ℝ) * Complex.exp (phase b * Complex.I)

/-- A tone is two waves. -/
theorem tone_eq (amplitude phase : ℕ → ℝ) (n b m : ℕ) :
    ((amplitude b * Real.cos (2.0 * Real.pi * b * m / n + phase b) : ℝ) : ℂ) =
      half amplitude phase b * factor n false ^ (b * m) +
        half amplitude (fun b => -phase b) b * (factor n false)⁻¹ ^ (b * m) := by
  have hwave : Complex.exp ((2.0 * Real.pi * b * m / n + phase b : ℝ) * Complex.I) =
      Complex.exp (phase b * Complex.I) * factor n false ^ (b * m) := by
    rw [factor_false, ← Complex.exp_nat_mul, ← Complex.exp_add]
    congr 1
    push_cast
    norm_num
    ring
  have hback : Complex.exp (-(2.0 * Real.pi * b * m / n + phase b : ℝ) * Complex.I) =
      Complex.exp (-phase b * Complex.I) * (factor n false)⁻¹ ^ (b * m) := by
    rw [inv_pow, neg_mul, Complex.exp_neg, hwave, mul_inv, neg_mul, Complex.exp_neg]
  rw [Complex.ofReal_mul, Complex.ofReal_cos, Complex.cos, hwave, hback, half, half]
  push_cast
  ring

/-- **The spectrum of tones**: each is in its bin, the constant in the first. -/
theorem spectrum_tones (constant : ℝ) (amplitude phase : ℕ → ℝ) {i : ℕ} (hi : i < 2 ^ k / 2) :
    spectrum (tones constant amplitude phase (2 ^ k)) (2 ^ k) i =
      if i = 0 then 2 ^ k * (constant : ℂ)
      else 2 ^ k * half amplitude (fun b => -phase b) i := by
  have hroot := isPrincipalRoot_factor (Nat.two_pow_pos k).ne'
  have hlt : i < 2 ^ k := hi.trans_le (Nat.div_le_self _ _)
  have hdata : toData (tones constant amplitude phase (2 ^ k)) = fun m =>
      (constant : ℂ) + ∑ b ∈ Ico 1 (2 ^ k / 2),
        (half amplitude phase b * factor (2 ^ k) false ^ (b * m) +
          half amplitude (fun b => -phase b) b * (factor (2 ^ k) false)⁻¹ ^ (b * m)) := by
    funext m
    simp only [← tone_eq, toData, tones]
    rw [← Complex.ofReal_sum, ← Complex.ofReal_add]
    rfl
  -- only the wave that runs against the factor meets bin `i`, and only if it is its own
  have htone : ∀ b ∈ Ico 1 (2 ^ k / 2), dft (factor (2 ^ k) false) (2 ^ k) (fun m =>
      half amplitude phase b * factor (2 ^ k) false ^ (b * m) +
        half amplitude (fun b => -phase b) b * (factor (2 ^ k) false)⁻¹ ^ (b * m)) i =
      if i = b then 2 ^ k * half amplitude (fun b => -phase b) i else 0 := by
    intro b hb
    obtain ⟨hpos, hbk⟩ := mem_Ico.mp hb
    rw [dft_add, dft_mul_left, dft_mul_left, hroot.dft_pow (by omega) (by omega),
      hroot.dft_inv_pow (by omega) hlt, mul_zero, zero_add]
    split_ifs with heq
    · rw [heq, mul_comm]
      push_cast
      rfl
    · exact mul_zero _
  rw [spectrum, simpleFft_eq_dft hroot (fun j _ => factor_sq j) _ hlt, ← dft, hdata, dft_add,
    dft_sum, hroot.dft_const _ hlt, sum_congr rfl htone, sum_ite_eq]
  rcases i.eq_zero_or_pos with rfl | hpos
  · simp
  · rw [if_neg hpos.ne', if_neg hpos.ne', if_pos (mem_Ico.mpr ⟨hpos, hi⟩), zero_add]

theorem norm_half (amplitude phase : ℕ → ℝ) (b : ℕ) :
    ‖half amplitude phase b‖ = |amplitude b| / 2 := by
  rw [half, norm_mul, Complex.norm_exp_ofReal_mul_I, mul_one, Complex.norm_real, norm_mul,
    Real.norm_eq_abs]
  norm_num
  ring

theorem norm_spectrum_tones (constant : ℝ) (amplitude phase : ℕ → ℝ) {i : ℕ}
    (hi : i < 2 ^ k / 2) :
    ‖spectrum (tones constant amplitude phase (2 ^ k)) (2 ^ k) i‖ =
      2 ^ k * if i = 0 then |constant| else |amplitude i| / 2 := by
  rw [spectrum_tones constant amplitude phase hi]
  split_ifs
  · rw [norm_mul, norm_pow, Complex.norm_ofNat, Complex.norm_real, Real.norm_eq_abs]
  · rw [norm_mul, norm_pow, Complex.norm_ofNat, norm_half]

/-- **The dominant frequency is that of the loudest tone**, the lowest if there are several,
whatever the phases and whatever constant they stand on. -/
theorem getDominantFrequency_tones_iff (constant : ℝ) (amplitude phase : ℕ → ℝ)
    (hb : b ∈ Ico 1 (2 ^ k / 2)) :
    getDominantFrequency (tones constant amplitude phase (2 ^ k)) (2 ^ k) = b / (2 ^ k : ℕ) ↔
      amplitude b ≠ 0 ∧ ∀ i ∈ Ico 1 (2 ^ k / 2),
        |amplitude i| ≤ |amplitude b| ∧ (i < b → |amplitude i| < |amplitude b|) := by
  have hnorm : ∀ i ∈ Ico 1 (2 ^ k / 2),
      ‖spectrum (tones constant amplitude phase (2 ^ k)) (2 ^ k) i‖ =
        2 ^ k * (|amplitude i| / 2) := by
    intro i hi
    obtain ⟨hpos, hlt⟩ := mem_Ico.mp hi
    rw [norm_spectrum_tones constant amplitude phase hlt, if_neg (by omega)]
  have hscale : (0 : ℝ) < 2 ^ k := by positivity
  rw [getDominantFrequency_eq_iff hb, ← norm_ne_zero_iff, hnorm b hb]
  refine and_congr (by simp) (forall₂_congr fun i hi => ?_)
  rw [hnorm i hi, mul_le_mul_iff_right₀ hscale, mul_lt_mul_iff_right₀ hscale,
    div_le_div_iff_of_pos_right two_pos, div_lt_div_iff_of_pos_right two_pos]

/-- Two tones in eight samples: the louder one is reported. -/
theorem getDominantFrequency_tones_eight :
    getDominantFrequency (tones 7 (fun b => if b = 3 then -2 else 1) (fun _ => 1) (2 ^ 3))
      (2 ^ 3) = (3 : ℕ) / (2 ^ 3 : ℕ) := by
  refine (getDominantFrequency_tones_iff 7 _ _ (by decide)).mpr ⟨by norm_num, fun i _ => ?_⟩
  by_cases hi : i = 3 <;> norm_num [hi]

/-! ## The centroid -/

/-- The centroid is the mean of the frequencies by their magnitudes, unless there is silence. -/
theorem getSpectralCentroid_eq (samples : ℕ → ℝ) (n : ℕ) :
    getSpectralCentroid samples n =
      if ∑ i ∈ range (n / 2), ‖spectrum samples n i‖ < 1e-6 then 0
      else (∑ i ∈ range (n / 2), i / n * ‖spectrum samples n i‖) /
        ∑ i ∈ range (n / 2), ‖spectrum samples n i‖ := by
  have hweigh : ∀ i s, weigh (spectrum samples n) n i s =
      s + ((i : ℝ) / n * ‖spectrum samples n i‖, ‖spectrum samples n i‖) := fun _ _ => rfl
  have hsums : (strided 1 (n / 2) (weigh (spectrum samples n) n) 0 (0, 0)).2 =
      (0, 0) + ∑ i ∈ Ico 0 (n / 2),
        ((i : ℝ) / n * ‖spectrum samples n i‖, ‖spectrum samples n i‖) :=
    strided_one_snd hweigh _ (Nat.zero_le _)
  rw [range_eq_Ico, getSpectralCentroid]
  simp only [hsums, Prod.fst_add, Prod.snd_add, Prod.fst_sum, Prod.snd_sum, zero_add]

/-- **The centroid of tones**: the mean of their frequencies by their loudness, with the constant
twice at frequency zero. -/
theorem getSpectralCentroid_tones (constant : ℝ) (amplitude phase : ℕ → ℝ) (k : ℕ) :
    getSpectralCentroid (tones constant amplitude phase (2 ^ (k + 1))) (2 ^ (k + 1)) =
      if 2 ^ (k + 1) * (|constant| + ∑ b ∈ Ico 1 (2 ^ k), |amplitude b| / 2) < 1e-6 then 0
      else (∑ b ∈ Ico 1 (2 ^ k), b / (2 ^ (k + 1) : ℕ) * (|amplitude b| / 2)) /
        (|constant| + ∑ b ∈ Ico 1 (2 ^ k), |amplitude b| / 2) := by
  have hhalf : 2 ^ (k + 1) / 2 = 2 ^ k := by rw [pow_succ, Nat.mul_div_cancel _ two_pos]
  have hnorm : ∀ i < 2 ^ k, ‖spectrum (tones constant amplitude phase (2 ^ (k + 1)))
      (2 ^ (k + 1)) i‖ = 2 ^ (k + 1) * if i = 0 then |constant| else |amplitude i| / 2 :=
    fun i hi => norm_spectrum_tones constant amplitude phase (by rwa [hhalf])
  have htone : ∀ i ∈ Ico 1 (2 ^ k), ‖spectrum (tones constant amplitude phase (2 ^ (k + 1)))
      (2 ^ (k + 1)) i‖ = 2 ^ (k + 1) * (|amplitude i| / 2) := by
    intro i hi
    obtain ⟨hpos, hlt⟩ := mem_Ico.mp hi
    rw [hnorm i hlt, if_neg (by omega)]
  have hloud : ∑ i ∈ range (2 ^ k), ‖spectrum (tones constant amplitude phase (2 ^ (k + 1)))
      (2 ^ (k + 1)) i‖ = 2 ^ (k + 1) * (|constant| + ∑ b ∈ Ico 1 (2 ^ k), |amplitude b| / 2) := by
    rw [sum_range_eq_add_Ico _ (Nat.two_pow_pos k), sum_congr rfl htone,
      hnorm 0 (Nat.two_pow_pos k), if_pos rfl, ← mul_sum, mul_add]
  have hweighed : ∑ i ∈ range (2 ^ k), i / (2 ^ (k + 1) : ℕ) *
      ‖spectrum (tones constant amplitude phase (2 ^ (k + 1))) (2 ^ (k + 1)) i‖ =
      2 ^ (k + 1) * ∑ b ∈ Ico 1 (2 ^ k), b / (2 ^ (k + 1) : ℕ) * (|amplitude b| / 2) := by
    rw [sum_range_eq_add_Ico _ (Nat.two_pow_pos k), mul_sum, Nat.cast_zero, zero_div, zero_mul,
      zero_add]
    exact sum_congr rfl fun i hi => by rw [htone i hi, mul_left_comm]
  rw [getSpectralCentroid_eq, hhalf, hloud, hweighed, mul_div_mul_left _ _ (by positivity)]

/-! ## Where the samples begin -/

/-- A scale does not move the largest. -/
theorem FirstMax.of_scale {f g : ℕ → ℝ} {n index : ℕ} {c : ℝ} (hc : 0 < c)
    (hscale : ∀ i < n, g i = c * f i) (h : FirstMax g n index) : FirstMax f n index := by
  refine ⟨h.1, fun i hi => ?_⟩
  have hi' := h.2 i hi
  rwa [hscale i hi, hscale index h.1, mul_le_mul_iff_right₀ hc, mul_lt_mul_iff_right₀ hc] at hi'

/-- Samples shifted around and amplified: so is every bin. -/
theorem norm_spectrum_shift (samples : ℕ → ℝ) (shift : ℕ) (gain constant : ℝ) {i : ℕ}
    (hi : i < 2 ^ k) (hconstant : 0 < i ∨ constant = 0) :
    ‖spectrum (fun m => gain * samples ((m + shift) % 2 ^ k) + constant) (2 ^ k) i‖ =
      |gain| * ‖spectrum samples (2 ^ k) i‖ := by
  have hroot := isPrincipalRoot_factor (Nat.two_pow_pos k).ne'
  have hunit : ‖factor (2 ^ k) false‖ = 1 :=
    Complex.norm_eq_one_of_pow_eq_one hroot.pow_eq_one (Nat.two_pow_pos k).ne'
  have hdata : toData (fun m => gain * samples ((m + shift) % 2 ^ k) + constant) = fun m =>
      (gain : ℂ) * toData samples ((m + shift) % 2 ^ k) + constant := by
    funext m
    exact Complex.ext (by simp [toData]) (by simp [toData])
  have hzero : (if i = 0 then ((2 ^ k : ℕ) : ℂ) * constant else 0) = 0 := by
    rcases hconstant with hpos | rfl
    · exact if_neg hpos.ne'
    · simp
  have hturn := congrArg norm (dft_shift hroot.pow_eq_one (toData samples) shift i)
  rw [norm_mul, norm_pow, hunit, one_pow, one_mul] at hturn
  rw [spectrum, spectrum, simpleFft_eq_dft hroot (fun j _ => factor_sq j) _ hi,
    simpleFft_eq_dft hroot (fun j _ => factor_sq j) _ hi, ← dft, ← dft, hdata, dft_add,
    dft_mul_left, hroot.dft_const _ hi, hzero, add_zero, norm_mul, hturn, Complex.norm_real,
    Real.norm_eq_abs]

/-- **The features do not depend on where the samples begin**: shifted around, they have the same
dominant frequency and the same centroid; and the dominant frequency stays when they are amplified
or lifted too. -/
theorem features_shift (samples : ℕ → ℝ) (k shift : ℕ) {gain : ℝ} (hgain : gain ≠ 0)
    (constant : ℝ) :
    getDominantFrequency (fun m => gain * samples ((m + shift) % 2 ^ k) + constant) (2 ^ k) =
        getDominantFrequency samples (2 ^ k) ∧
      getSpectralCentroid (fun m => samples ((m + shift) % 2 ^ k)) (2 ^ k) =
        getSpectralCentroid samples (2 ^ k) := by
  constructor
  · rcases (2 ^ k / 2).eq_zero_or_pos with hnone | hhalf
    · rw [getDominantFrequency, getDominantFrequency, hnone]
      simp [strided]
    · have hmax := firstMax_larger
        (spectrum (fun m => gain * samples ((m + shift) % 2 ^ k) + constant) (2 ^ k)) hhalf
      have hscale : ∀ i < 2 ^ k / 2, magnitude
          (spectrum (fun m => gain * samples ((m + shift) % 2 ^ k) + constant) (2 ^ k)) i =
          |gain| * magnitude (spectrum samples (2 ^ k)) i := by
        intro i hi
        rcases i.eq_zero_or_pos with rfl | hpos
        · simp [magnitude]
        · rw [magnitude, if_neg hpos.ne', magnitude, if_neg hpos.ne',
            norm_spectrum_shift samples shift gain constant (by omega) (.inl hpos)]
      have hsame := (hmax.of_scale (abs_pos.mpr hgain) hscale).unique
        (firstMax_larger (spectrum samples (2 ^ k)) hhalf)
      rw [getDominantFrequency, getDominantFrequency, hsame]
  · have hnorm : ∀ i ∈ range (2 ^ k / 2),
        ‖spectrum (fun m => samples ((m + shift) % 2 ^ k)) (2 ^ k) i‖ =
          ‖spectrum samples (2 ^ k) i‖ := by
      intro i hi
      have hlt := mem_range.mp hi
      simpa using norm_spectrum_shift (k := k) samples shift 1 0 (i := i) (by omega) (.inr rfl)
    have hweighed : ∀ i ∈ range (2 ^ k / 2), (i : ℝ) / (2 ^ k : ℕ) *
        ‖spectrum (fun m => samples ((m + shift) % 2 ^ k)) (2 ^ k) i‖ =
          i / (2 ^ k : ℕ) * ‖spectrum samples (2 ^ k) i‖ := fun i hi => by rw [hnorm i hi]
    rw [getSpectralCentroid_eq, getSpectralCentroid_eq, sum_congr rfl hnorm,
      sum_congr rfl hweighed]

/-- A ramp, half way around and upside down. -/
theorem features_shift_ramp :
    getDominantFrequency (fun m => -1 * ((m + 4) % 2 ^ 3 : ℕ) + 7) (2 ^ 3) =
      getDominantFrequency (fun m => m) (2 ^ 3) :=
  (features_shift (fun m => m) 3 4 (by norm_num) 7).1

end BioShield.FrequencyAnalyzer
