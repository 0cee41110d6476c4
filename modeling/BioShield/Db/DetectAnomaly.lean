import BioShield.Machinery.Statistics
import Mathlib

/-!
# Db/DetectAnomaly — outliers by their scores (`db/functions/detect_anomaly.sql`)

`detect_statistical_anomaly` scores an entry by its distance from the mean, in sample standard
deviations; the entry itself is part of both.  So a score is bounded by the number of values alone
(`abs_sub_mean_div_le`), a lone outlier reaches that bound however far out it is (`detect_lone`),
and `2.5` is below the bound from nine values on (`lt_bound_iff`).

`sqrt` is a parameter, the real root in what is proved; `NULL` is `none`.
-/

namespace BioShield

open Machinery Statistics

section Sql

variable {K : Type} [Field K] [LinearOrder K]

/-- `AVG`: `NULL` over no values. -/
def avg (values : List (Option K)) : Option K :=
  if values.reduceOption = [] then none else some (Statistics.mean values.reduceOption)

/-- `STDDEV`: `NULL` over fewer than two values. -/
def stddev (sqrt : K → K) (values : List (Option K)) : Option K :=
  if values.reduceOption.length < 2 then none
  else some (sqrt (sampleVariance values.reduceOption))

/-- `ABS(val - mean_val) / std_dev`. -/
def zScore (val meanVal stdDev : Option K) : Option K := do
  return |(← val) - (← meanVal)| / (← stdDev)

/-- `z_score > threshold`. -/
def exceeds (zScore threshold : Option K) : Option Bool := do
  return decide ((← zScore) > (← threshold))

/-- `DEFAULT 2.5`. -/
def defaultThreshold : K := (25 : ℕ) / (10 : ℕ)

/-- `detect_statistical_anomaly`; `result` is `NULL` at first, and `NULL || x` is `{x}`. -/
def detectStatisticalAnomaly (sqrt : K → K) (values : List (Option K)) (threshold : Option K) :
    List (Option Bool) :=
  let meanVal := avg values
  let stdDev := stddev sqrt values
  if stdDev = none ∨ stdDev = some 0 then values.map fun _ => some true
  else
    values.foldl (fun result val => result ++ [exceeds (zScore val meanVal stdDev) threshold]) []

variable {sqrt : K → K} {values : List (Option K)} {threshold : Option K}

/-- **Entry by entry**: where there is a deviation, every entry is told whether its score is above
the threshold. -/
theorem detect_eq_map {stdDev : K} (hstd : stddev sqrt values = some stdDev) (hne : stdDev ≠ 0) :
    detectStatisticalAnomaly sqrt values threshold =
      values.map fun val => exceeds (zScore val (avg values) (some stdDev)) threshold := by
  have hguard : ¬ (stddev sqrt values = none ∨ stddev sqrt values = some 0) := by
    simp [hstd, hne]
  rw [detectStatisticalAnomaly, if_neg hguard, List.foldl_append_eq_append,
    List.nil_append, ← List.flatMap_def, ← List.map_eq_flatMap, hstd]

end Sql

theorem reduceOption_map_some {α : Type*} (xs : List α) : (xs.map some).reduceOption = xs := by
  rw [List.reduceOption, List.filterMap_map]
  exact List.filterMap_some

/-! ## Scores -/

/-- A score of `(n - 1) / √n` is above `2.5` from nine values on. -/
theorem lt_bound_iff {n : ℕ} (hn : 1 ≤ n) :
    (defaultThreshold : ℝ) < (n - 1) / √n ↔ 9 ≤ n := by
  have hone : (1 : ℝ) ≤ n := by exact_mod_cast hn
  have hsqrt : 0 < √(n : ℝ) := Real.sqrt_pos.mpr (by linarith)
  have hsq : √(n : ℝ) ^ 2 = n := Real.sq_sqrt (by linarith)
  rw [lt_div_iff₀ hsqrt, defaultThreshold]
  constructor
  · intro hlt
    by_contra hsmall
    have hle : (n : ℝ) ≤ 8 := by exact_mod_cast Nat.le_of_lt_succ (not_le.mp hsmall)
    nlinarith
  · intro hle
    have hnine : (9 : ℝ) ≤ n := by exact_mod_cast hle
    nlinarith

/-- **No score is above the bound** that the number of values sets. -/
theorem abs_sub_mean_div_le {xs : List ℝ} {x : ℝ} (hx : x ∈ xs) (hlen : 2 ≤ xs.length)
    (hne : √(sampleVariance xs) ≠ 0) :
    |x - Statistics.mean xs| / √(sampleVariance xs) ≤ (xs.length - 1) / √xs.length := by
  have htwo : (2 : ℝ) ≤ xs.length := by exact_mod_cast hlen
  have hstd : 0 < √(sampleVariance xs) := lt_of_le_of_ne (Real.sqrt_nonneg _) hne.symm
  have hroot : 0 < √(xs.length : ℝ) := Real.sqrt_pos.mpr (by linarith)
  have hle := Real.sqrt_le_sqrt (length_mul_sq_sub_mean_le hx)
  rw [Real.sqrt_mul (by linarith), Real.sqrt_sq_eq_abs, Real.sqrt_mul (sq_nonneg _),
    Real.sqrt_sq (by linarith), mul_comm] at hle
  rwa [div_le_div_iff₀ hstd hroot]

/-- **Up to eight values, none is an outlier**: unless they are all equal, no entry is flagged. -/
theorem some_true_notMem_detect {values : List (Option ℝ)} {stdDev : ℝ}
    (hstd : stddev Real.sqrt values = some stdDev) (hne : stdDev ≠ 0)
    (hfew : values.reduceOption.length ≤ 8) :
    some true ∉ detectStatisticalAnomaly Real.sqrt values (some defaultThreshold) := by
  rw [detect_eq_map hstd hne]
  rw [stddev] at hstd
  split_ifs at hstd with hlen
  obtain rfl := Option.some.inj hstd
  have hlen' : 2 ≤ values.reduceOption.length := not_lt.mp hlen
  have havg : avg values = some (Statistics.mean values.reduceOption) :=
    if_neg (List.ne_nil_of_length_pos (by omega))
  intro hmem
  obtain ⟨val, hval, hflag⟩ := List.mem_map.mp hmem
  cases val with
  | none => cases hflag
  | some x =>
    have hx : x ∈ values.reduceOption := List.reduceOption_mem_iff.mpr hval
    have hle := abs_sub_mean_div_le hx hlen' hne
    have hbound := (lt_bound_iff (by omega)).not.mpr (not_le.mpr (Nat.lt_succ_of_le hfew))
    rw [havg] at hflag
    have hlt := of_decide_eq_true (Option.some.inj hflag)
    exact hbound (hlt.trans_le hle)

/-! ## A lone outlier -/

section Lone

variable {i j : ℕ} {c d t : ℝ}

theorem stddev_lone (h : 1 ≤ i + j) :
    stddev Real.sqrt ((lone i j c d).map some) = some (|d| / √(i + j + 1)) := by
  rw [stddev, reduceOption_map_some, length_lone, if_neg (by omega), sampleVariance_lone h,
    Real.sqrt_div (sq_nonneg d), Real.sqrt_sq_eq_abs]

theorem stddev_lone_ne_zero (hd : d ≠ 0) : |d| / √((i : ℝ) + j + 1) ≠ 0 :=
  div_ne_zero (abs_ne_zero.mpr hd) (Real.sqrt_pos.mpr (by positivity)).ne'

/-- **A lone outlier among `n` values** scores `(n - 1) / √n` and the others `1 / √n`, whatever the
values are. -/
theorem detect_lone (h : 1 ≤ i + j) (hd : d ≠ 0) :
    detectStatisticalAnomaly Real.sqrt ((lone i j c d).map some) (some t) =
      List.replicate i (some (decide (t < 1 / √(i + j + 1)))) ++
        some (decide (t < (i + j) / √(i + j + 1))) ::
        List.replicate j (some (decide (t < 1 / √(i + j + 1)))) := by
  have hpos : (0 : ℝ) < i + j + 1 := by positivity
  have havg : avg ((lone i j c d).map some) = some (c + d / (i + j + 1)) := by
    rw [avg, reduceOption_map_some, if_neg (by simp [lone]), mean_lone]
  have hratio : |d| / (i + j + 1) / (|d| / √(i + j + 1)) = 1 / √((i : ℝ) + j + 1) := by
    rw [div_div_div_cancel_left' _ _ (abs_ne_zero.mpr hd), Real.sqrt_div_self']
  have hother : |c - (c + d / (i + j + 1))| / (|d| / √(i + j + 1)) = 1 / √((i : ℝ) + j + 1) := by
    rw [sub_add_cancel_left, abs_neg, abs_div, abs_of_pos hpos, hratio]
  have hlone : |c + d - (c + d / (i + j + 1))| / (|d| / √(i + j + 1)) =
      (i + j) / √((i : ℝ) + j + 1) := by
    have hsub : c + d - (c + d / (i + j + 1)) = (i + j) * (d / (i + j + 1)) := by
      field_simp
      ring
    rw [hsub, abs_mul, abs_div, abs_of_pos hpos, abs_of_nonneg (by positivity), mul_div_assoc,
      hratio, mul_one_div]
  rw [detect_eq_map (stddev_lone h) (stddev_lone_ne_zero hd), havg, List.map_map, lone,
    List.map_append, List.map_cons, List.map_replicate, List.map_replicate, ← hother, ← hlone]
  rfl

/-- **When a lone outlier is found**: from nine values on, and no other entry is flagged. -/
theorem detect_lone_default (hn : 3 ≤ i + j + 1) (hd : d ≠ 0) :
    detectStatisticalAnomaly Real.sqrt ((lone i j c d).map some) (some defaultThreshold) =
      List.replicate i (some false) ++ some (decide (9 ≤ i + j + 1)) ::
        List.replicate j (some false) := by
  have hcast : ((i + j + 1 : ℕ) : ℝ) = i + j + 1 := by push_cast; rfl
  have hfound : (defaultThreshold : ℝ) < (i + j) / √(i + j + 1) ↔ 9 ≤ i + j + 1 := by
    rw [← lt_bound_iff (by omega), hcast, add_sub_cancel_right]
  have hother : ¬ (defaultThreshold : ℝ) < 1 / √(i + j + 1) := by
    have hnonneg : (0 : ℝ) ≤ i + j := by positivity
    have hone : 1 ≤ √((i : ℝ) + j + 1) := Real.one_le_sqrt.mpr (by linarith)
    have hle : 1 / √((i : ℝ) + j + 1) ≤ 1 := (div_le_one (by linarith)).mpr hone
    rw [defaultThreshold]
    linarith
  rw [detect_lone (by omega) hd]
  simp only [hfound, hother, decide_false]

end Lone

/-- One value apart from two others is not found. -/
theorem not_forall_found : ¬ ∀ (i j : ℕ) (c d : ℝ), 3 ≤ i + j + 1 → d ≠ 0 →
    detectStatisticalAnomaly Real.sqrt ((lone i j c d).map some) (some defaultThreshold) =
      List.replicate i (some false) ++ some true :: List.replicate j (some false) := by
  intro h
  have hfound : some true ∈ detectStatisticalAnomaly Real.sqrt ((lone 0 2 (0 : ℝ) 1).map some)
      (some defaultThreshold) := by
    rw [h 0 2 0 1 le_rfl one_ne_zero]
    simp
  refine some_true_notMem_detect (stddev_lone (by norm_num)) (stddev_lone_ne_zero one_ne_zero) ?_
    hfound
  rw [reduceOption_map_some, length_lone]
  norm_num

/-- One value apart from eight others is. -/
theorem detect_lone_default_nine :
    detectStatisticalAnomaly Real.sqrt ((lone 8 0 0 1).map some) (some (defaultThreshold : ℝ)) =
      List.replicate 8 (some false) ++ [some true] :=
  detect_lone_default (by norm_num) one_ne_zero

end BioShield
