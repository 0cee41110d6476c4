import BioShield.Core.DeepfakeDetector

/-!
# Core/SpectralFlatness — a ratio of means

Over the reals, with `std::pow` the power, the loop of `calculate_spectral_flatness` leaves the
geometric mean of the magnitudes, each raised by `1e-10`, and their arithmetic mean.  The first is
at most the second raised by as much, and the early return keeps the second from being small, so the
ratio is positive and hardly more than one (`calculateSpectralFlatness_mem_Ioc`).
-/

namespace BioShield

open Machinery

namespace DeepfakeDetector

section Means

variable (samples : ℕ → ℝ) (n : ℕ)

/-- The geometric mean of the magnitudes, each raised by `1e-10`. -/
noncomputable def geometricMean : ℝ :=
  ∏ i ∈ Finset.range n, (|samples i| + 1e-10) ^ (1 / n : ℝ)

/-- Their arithmetic mean. -/
noncomputable def arithmeticMean : ℝ := ∑ i ∈ Finset.range n, |samples i| / n

/-- **The loop computes the two means.** -/
theorem strided_means :
    (strided 1 n (fun i (s : ℝ × ℝ) =>
      (s.1 * (|samples i| + 1e-10) ^ (1 / n : ℝ), s.2 + |samples i| / n)) 0 (1, 0)).2 =
      (geometricMean samples n, arithmeticMean samples n) := by
  set body := fun i (s : ℝ × ℝ) =>
    (s.1 * (|samples i| + 1e-10) ^ (1 / n : ℝ), s.2 + |samples i| / n) with hbody
  have hmeans : (strided 1 n body 0 (1, 0)).2 =
      (∏ i ∈ Finset.range (strided 1 n body 0 (1, 0)).1, (|samples i| + 1e-10) ^ (1 / n : ℝ),
        ∑ i ∈ Finset.range (strided 1 n body 0 (1, 0)).1, |samples i| / n) := by
    refine strided_invariant (I := fun k s => s =
      (∏ i ∈ Finset.range k, (|samples i| + 1e-10) ^ (1 / n : ℝ),
        ∑ i ∈ Finset.range k, |samples i| / n)) (fun k s _ hs => ?_) (by simp)
    rw [hs, hbody, Finset.prod_range_succ, Finset.sum_range_succ]
  rw [hmeans, strided_one_fst body (1, 0) (Nat.zero_le n), geometricMean, arithmeticMean]

theorem calculateSpectralFlatness_eq :
    calculateSpectralFlatness (fun x y => x ^ y) samples n =
      if arithmeticMean samples n < 1 / 10 ^ 6 then 1
      else geometricMean samples n / arithmeticMean samples n := by
  have hraise : (1 / 10 ^ 10 : ℝ) = 1e-10 := by norm_num
  simp only [calculateSpectralFlatness, hraise, strided_means]

theorem geometricMean_pos : 0 < geometricMean samples n :=
  Finset.prod_pos fun i _ => Real.rpow_pos_of_pos (by positivity) _

variable {n}

/-- **The means compare**: the geometric one is at most the arithmetic one of the raised
magnitudes. -/
theorem geometricMean_le (hn : 1 ≤ n) :
    geometricMean samples n ≤ arithmeticMean samples n + 1e-10 := by
  have hpos : (0 : ℝ) < n := by exact_mod_cast hn
  have hweights : ∑ _i ∈ Finset.range n, (1 / n : ℝ) = 1 := by
    rw [Finset.sum_const, Finset.card_range, nsmul_eq_mul, mul_one_div_cancel hpos.ne']
  calc geometricMean samples n
      ≤ ∑ i ∈ Finset.range n, 1 / n * (|samples i| + 1e-10) :=
        Real.geom_mean_le_arith_mean_weighted _ _ _ (fun _ _ => by positivity) hweights
          fun _ _ => by positivity
    _ = arithmeticMean samples n + (∑ _i ∈ Finset.range n, (1 / n : ℝ)) * 1e-10 := by
        rw [arithmeticMean, Finset.sum_mul, ← Finset.sum_add_distrib]
        exact Finset.sum_congr rfl fun i _ => by ring
    _ = arithmeticMean samples n + 1e-10 := by rw [hweights, one_mul]

/-- **The spectral flatness is a ratio of means**: positive, and at most `1 + 1e-4`. -/
theorem calculateSpectralFlatness_mem_Ioc (hn : 1 ≤ n) :
    calculateSpectralFlatness (fun x y => x ^ y) samples n ∈ Set.Ioc 0 (1 + 1e-4) := by
  rw [calculateSpectralFlatness_eq]
  split_ifs with hquiet
  · exact ⟨one_pos, by norm_num⟩
  · have hloud : (1 / 10 ^ 6 : ℝ) ≤ arithmeticMean samples n := not_lt.mp hquiet
    have hpos : 0 < arithmeticMean samples n := lt_of_lt_of_le (by norm_num) hloud
    refine ⟨div_pos (geometricMean_pos samples n) hpos, (div_le_iff₀ hpos).mpr ?_⟩
    have hle := geometricMean_le samples hn
    linarith

end Means

/-- Twenty samples `1, -2, 3, -4, …`. -/
theorem calculateSpectralFlatness_mem_Ioc_alternating :
    calculateSpectralFlatness (fun x y => x ^ y) (fun i => (-1) ^ i * (i + 1 : ℝ)) 20 ∈
      Set.Ioc 0 (1 + 1e-4) :=
  calculateSpectralFlatness_mem_Ioc _ (by norm_num)

end DeepfakeDetector

end BioShield
