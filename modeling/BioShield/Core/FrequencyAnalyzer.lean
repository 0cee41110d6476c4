import BioShield.Machinery.Fourier
import BioShield.Machinery.StridedLoop
import Mathlib

/-!
# Core/FrequencyAnalyzer — the recursive transform (`core/frequency_analyzer.cpp`)

`simple_fft` splits its data into even and odd entries, transforms both and joins them by
butterflies, whose twiddle factor runs along.  On a power of two that is the discrete Fourier
transform (`simpleFft_eq_dft`).

Two things go wrong.  The division by the length sits in the recursion, so the inverse divides once
at every level (`simpleFft_two_pow`), and undoes the transform at lengths one and two only
(`roundTrip_iff`).  And a length is halved rounding down, so the entries past the largest power of
two drop out of the first bin (`simpleFft_apply_zero`).
-/

namespace BioShield.FrequencyAnalyzer

open Machinery Finset

variable {F : Type*} [Field F]

/-- One round of the butterfly loop, on `data` and the running twiddle factor. -/
def butterfly (even odd : ℕ → F) (wn : F) (half i : ℕ) (s : (ℕ → F) × F) : (ℕ → F) × F :=
  let data := Function.update s.1 i (even i + s.2 * odd i)
  let data := Function.update data (i + half) (even i - s.2 * odd i)
  (data, s.2 * wn)

/-- One round of `data[i] /= n`. -/
def normalize (n i : ℕ) (data : ℕ → F) : ℕ → F := Function.update data i (data i / n)

/-- `simple_fft` on a vector of `n` entries; `wn n invert` is the factor at the angle of that
length. -/
def simpleFft (wn : ℕ → Bool → F) (invert : Bool) (n : ℕ) (data : ℕ → F) : ℕ → F :=
  if n ≤ 1 then data
  else
    let even := simpleFft wn invert (n / 2) fun i => data (i * 2)
    let odd := simpleFft wn invert (n / 2) fun i => data (i * 2 + 1)
    let data := (strided 1 (n / 2) (butterfly even odd (wn n invert) (n / 2)) 0 (data, 1)).2.1
    if invert then (strided 1 n (normalize n) 0 data).2 else data
termination_by n

/-! ## The loops -/

section Loops

variable {even odd data : ℕ → F} {w : F} {half n k : ℕ}

/-- **The invariant of the butterflies**: the twiddle factor is a power, and the first `k` entries
of both halves are joined. -/
def Joined (even odd data : ℕ → F) (w : F) (half k : ℕ) (s : (ℕ → F) × F) : Prop :=
  s.2 = w ^ k ∧ ∀ i, s.1 i =
    if i < k then even i + w ^ i * odd i
    else if half ≤ i ∧ i < half + k then even (i - half) - w ^ (i - half) * odd (i - half)
    else data i

theorem Joined.butterfly {s : (ℕ → F) × F} (h : Joined even odd data w half k s)
    (hk : k + 1 ≤ half) :
    Joined even odd data w half (k + 1) (butterfly even odd w half k s) := by
  obtain ⟨hw, hdata⟩ := h
  refine ⟨by rw [pow_succ, ← hw]; rfl, fun i => ?_⟩
  simp only [FrequencyAnalyzer.butterfly, Function.update_apply, hw]
  by_cases hupper : i = k + half
  · subst hupper
    rw [if_pos rfl, if_neg (by omega), if_pos (by omega), Nat.add_sub_cancel]
  · rw [if_neg hupper]
    by_cases hlower : i = k
    · subst hlower
      rw [if_pos rfl, if_pos (Nat.lt_succ_self i)]
    · rw [if_neg hlower, hdata i]
      have hlt : i < k ↔ i < k + 1 := by omega
      have hhalf : half ≤ i ∧ i < half + k ↔ half ≤ i ∧ i < half + (k + 1) := by omega
      simp only [hlt, hhalf]

/-- **The butterflies** join the halves, each with a power of the twiddle factor. -/
theorem butterflies_apply (i : ℕ) :
    (strided 1 half (butterfly even odd w half) 0 (data, 1)).2.1 i =
      if i < half then even i + w ^ i * odd i
      else if i < half + half then even (i - half) - w ^ (i - half) * odd (i - half)
      else data i := by
  have hjoined : Joined even odd data w half _
      (strided 1 half (butterfly even odd w half) 0 (data, 1)).2 :=
    strided_invariant (I := Joined even odd data w half) (fun _ _ hk h => h.butterfly hk)
      ⟨(pow_zero w).symm, fun i => by simp⟩
  rw [strided_one_fst _ _ (Nat.zero_le half)] at hjoined
  rw [hjoined.2 i]
  split_ifs <;> first | rfl | omega

/-- **The normalization** divides every entry. -/
theorem normalize_apply (i : ℕ) :
    (strided 1 n (normalize n) 0 data).2 i = if i < n then data i / n else data i := by
  have hdone : ∀ i, (strided 1 n (normalize n) 0 data).2 i =
      if i < (strided 1 n (normalize n) 0 data).1 then data i / n else data i := by
    refine strided_invariant
      (I := fun k (d : ℕ → F) => ∀ i, d i = if i < k then data i / n else data i)
      (fun k d _ hd i => ?_) fun i => by simp
    simp only [normalize, Function.update_apply, hd]
    by_cases hi : i = k
    · subst hi
      simp
    · have hlt : i < k ↔ i < k + 1 := by omega
      simp only [if_neg hi, hlt]
  rw [hdone i, strided_one_fst _ _ (Nat.zero_le n)]

end Loops

/-! ## One level of the recursion -/

section Level

variable {wn : ℕ → Bool → F} {invert : Bool} {n half i : ℕ} {data : ℕ → F}

theorem simpleFft_of_le_one (hn : n ≤ 1) : simpleFft wn invert n data = data := by
  rw [simpleFft, if_pos hn]

/-- **One level**: the halves joined, and divided by the length on the way back. -/
theorem simpleFft_apply (hn : 1 < n) :
    simpleFft wn invert n data i =
      (if i < n / 2 then
        simpleFft wn invert (n / 2) (fun i => data (i * 2)) i +
          wn n invert ^ i * simpleFft wn invert (n / 2) (fun i => data (i * 2 + 1)) i
      else if i < n / 2 + n / 2 then
        simpleFft wn invert (n / 2) (fun i => data (i * 2)) (i - n / 2) -
          wn n invert ^ (i - n / 2) *
            simpleFft wn invert (n / 2) (fun i => data (i * 2 + 1)) (i - n / 2)
      else data i) / (if invert ∧ i < n then (n : F) else 1) := by
  rw [simpleFft, if_neg (not_le.mpr hn)]
  cases invert
  · simp only [Bool.false_eq_true, if_false, false_and, div_one, butterflies_apply]
  · simp only [if_true, true_and, normalize_apply, butterflies_apply]
    by_cases hi : i < n
    · rw [if_pos hi, if_pos hi]
    · rw [if_neg hi, if_neg hi, div_one]

/-! ## The first bin, for any length -/

/-- **The first bin** adds up the entries below the largest power of two in the length: halving
rounds down, and what is cut off is never seen again. -/
theorem simpleFft_apply_zero (hn : 1 ≤ n) :
    simpleFft wn false n data 0 = ∑ m ∈ range (2 ^ Nat.log 2 n), data m := by
  induction n using Nat.strong_induction_on generalizing data with
  | h n ih =>
    rcases hn.eq_or_lt with rfl | hlt
    · rw [simpleFft_of_le_one le_rfl, Nat.log_one_right, pow_zero, sum_range_one]
    · have hhalf : 1 ≤ n / 2 := by omega
      have hlog : Nat.log 2 n = Nat.log 2 (n / 2) + 1 := Nat.log_of_one_lt_of_le one_lt_two hlt
      rw [simpleFft_apply hlt, if_pos (show 0 < n / 2 from hhalf), if_neg (by simp), div_one,
        pow_zero, one_mul, ih _ (by omega) hhalf, ih _ (by omega) hhalf, hlog, pow_succ',
        sum_range_two_mul]

/-- So it is the sum of all entries exactly if those from there on add up to nothing. -/
theorem simpleFft_apply_zero_eq_sum_iff (hn : 1 ≤ n) :
    simpleFft wn false n data 0 = ∑ m ∈ range n, data m ↔
      ∑ m ∈ Ico (2 ^ Nat.log 2 n) n, data m = 0 := by
  have hlog : 2 ^ Nat.log 2 n ≤ n := Nat.pow_log_le_self 2 (by omega)
  rw [simpleFft_apply_zero hn, ← sum_range_add_sum_Ico data hlog, left_eq_add]

end Level

/-! ## Powers of two -/

section TwoPow

variable {wn : ℕ → Bool → F} {invert : Bool} {k : ℕ}

/-- **The factors of a transform of length `2 ^ k`**: at every level the square of the factor is
that of the next, and half a turn is a sign. -/
def HalfTurns (root : ℕ → F) (k : ℕ) : Prop :=
  ∀ j < k, root (2 ^ (j + 1)) ^ 2 = root (2 ^ j) ∧ root (2 ^ (j + 1)) ^ 2 ^ j = -1

/-- A principal root and its squares turn so. -/
theorem halfTurns_of_isPrincipalRoot {root : ℕ → F} (hroot : IsPrincipalRoot (root (2 ^ k)) (2 ^ k))
    (hsq : ∀ j < k, root (2 ^ (j + 1)) ^ 2 = root (2 ^ j)) : HalfTurns root k := by
  have hpow : ∀ i j, i + j = k → root (2 ^ j) = root (2 ^ k) ^ 2 ^ i := by
    intro i
    induction i with
    | zero =>
      intro j hj
      rw [pow_zero, pow_one, ← hj, Nat.zero_add]
    | succ i ih =>
      intro j hj
      rw [← hsq j (by omega), ih (j + 1) (by omega), ← pow_mul, ← pow_succ]
  refine fun j hj => ⟨hsq j hj, ?_⟩
  obtain ⟨i, rfl⟩ : ∃ i, k = i + (j + 1) := ⟨k - (j + 1), by omega⟩
  rw [hpow i (j + 1) rfl, ← pow_mul, ← pow_add]
  exact hroot.half

/-- So do their inverses. -/
theorem HalfTurns.inv {root : ℕ → F} (h : HalfTurns root k) :
    HalfTurns (fun n => (root n)⁻¹) k := by
  intro j hj
  obtain ⟨hsq, hturn⟩ := h j hj
  exact ⟨by rw [inv_pow, hsq], by rw [inv_pow, hturn, inv_neg, inv_one]⟩

/-- What an inverse of length `2 ^ k` has divided by: the length, at every level. -/
def divisor (invert : Bool) : ℕ → F
  | 0 => 1
  | k + 1 => divisor invert k * if invert then ((2 ^ (k + 1) : ℕ) : F) else 1

/-- **Every level divides**: the transform of the recursion is the transform over the product of
all the lengths. -/
theorem simpleFft_two_pow (hwn : HalfTurns (fun n => wn n invert) k) (data : ℕ → F) {j : ℕ}
    (hj : j < 2 ^ k) :
    simpleFft wn invert (2 ^ k) data j =
      dft (wn (2 ^ k) invert) (2 ^ k) data j / divisor invert k := by
  induction k generalizing data j with
  | zero =>
    obtain rfl : j = 0 := by omega
    rw [pow_zero, simpleFft_of_le_one le_rfl, divisor, div_one, dft, sum_range_one, zero_mul,
      pow_zero, mul_one]
  | succ k ih =>
    have hsq : wn (2 ^ (k + 1)) invert ^ 2 = wn (2 ^ k) invert := (hwn k k.lt_succ_self).1
    have hturn : wn (2 ^ (k + 1)) invert ^ 2 ^ k = -1 := (hwn k k.lt_succ_self).2
    have hlower : ∀ data {j}, j < 2 ^ k → simpleFft wn invert (2 ^ k) data j =
        dft (wn (2 ^ (k + 1)) invert ^ 2) (2 ^ k) data j / divisor invert k := by
      intro data j hj
      rw [hsq]
      exact ih (fun i hi => hwn i (by omega)) data hj
    have hpos := Nat.two_pow_pos k
    have hdouble : 2 ^ (k + 1) = 2 * 2 ^ k := pow_succ' 2 k
    have hhalf : 2 ^ (k + 1) / 2 = 2 ^ k := by omega
    have hlast : (if invert ∧ j < 2 ^ (k + 1) then ((2 ^ (k + 1) : ℕ) : F) else 1) =
        if invert then ((2 ^ (k + 1) : ℕ) : F) else 1 := by
      simp only [hj, and_true]
    rw [simpleFft_apply (by omega), hhalf, hlast, divisor, div_mul_eq_div_div]
    generalize wn (2 ^ (k + 1)) invert = w at *
    have hperiod : (w ^ 2) ^ 2 ^ k = 1 := by rw [← pow_mul, mul_comm, pow_mul, hturn, neg_one_sq]
    have hsplit := dft_two_mul w (2 ^ k) data
    rw [← hdouble] at hsplit
    congr 1
    by_cases hlow : j < 2 ^ k
    · rw [if_pos hlow, hlower _ hlow, hlower _ hlow, hsplit]
      ring
    · obtain ⟨i, rfl⟩ : ∃ i, j = i + 2 ^ k := ⟨j - 2 ^ k, by omega⟩
      have hi : i < 2 ^ k := by omega
      rw [if_neg hlow, if_pos (by omega), Nat.add_sub_cancel, hlower _ hi, hlower _ hi, hsplit,
        dft_add_period hperiod, dft_add_period hperiod, pow_add, hturn]
      ring

@[simp] theorem divisor_false (k : ℕ) : (divisor false k : F) = 1 := by
  induction k with
  | zero => rfl
  | succ k ih => rw [divisor, ih, if_neg Bool.false_ne_true, mul_one]

/-- The lengths `2`, `4` … `2 ^ k` multiply to this. -/
theorem divisor_true (k : ℕ) : (divisor true k : F) = 2 ^ (k * (k + 1) / 2) := by
  induction k with
  | zero => simp [divisor]
  | succ k ih =>
    have htriangle : (k + 1) * (k + 1 + 1) / 2 = k * (k + 1) / 2 + (k + 1) := by
      rw [show (k + 1) * (k + 1 + 1) = k * (k + 1) + (k + 1) * 2 by ring,
        Nat.add_mul_div_right _ _ two_pos]
    rw [divisor, ih, if_pos rfl, htriangle, Nat.cast_pow, Nat.cast_ofNat, ← pow_add]

/-- **The transform is the discrete Fourier transform**, at every power of two. -/
theorem simpleFft_eq_dft (hroot : IsPrincipalRoot (wn (2 ^ k) false) (2 ^ k))
    (hsq : ∀ j < k, wn (2 ^ (j + 1)) false ^ 2 = wn (2 ^ j) false) (x : ℕ → F) {j : ℕ}
    (hj : j < 2 ^ k) :
    simpleFft wn false (2 ^ k) x j =
      ∑ m ∈ range (2 ^ k), x m * wn (2 ^ k) false ^ (j * m) := by
  rw [simpleFft_two_pow (halfTurns_of_isPrincipalRoot hroot hsq) x hj, divisor_false, div_one, dft]

/-- **There and back**: the inverse divides by every length, not by one. -/
theorem simpleFft_simpleFft (hroot : IsPrincipalRoot (wn (2 ^ k) false) (2 ^ k))
    (hforth : HalfTurns (fun n => wn n false) k) (hback : HalfTurns (fun n => wn n true) k)
    (hinv : wn (2 ^ k) true = (wn (2 ^ k) false)⁻¹) (x : ℕ → F) {j : ℕ} (hj : j < 2 ^ k) :
    simpleFft wn true (2 ^ k) (simpleFft wn false (2 ^ k) x) j =
      2 ^ k * x j / 2 ^ (k * (k + 1) / 2) := by
  have hdft : ∀ m < 2 ^ k, simpleFft wn false (2 ^ k) x m = dft (wn (2 ^ k) false) (2 ^ k) x m :=
    fun m hm => by rw [simpleFft_two_pow hforth x hm, divisor_false, div_one]
  rw [simpleFft_two_pow hback _ hj, divisor_true, hinv, dft_congr hdft, dft_inv_dft hroot x hj,
    Nat.cast_pow, Nat.cast_ofNat]

end TwoPow

/-! ## The complex factors -/

/-- `wn(cos(angle), sin(angle))`. -/
noncomputable def factor (n : ℕ) (invert : Bool) : ℂ :=
  let angle := 2.0 * Real.pi / n * (if invert then -1 else 1)
  ⟨Real.cos angle, Real.sin angle⟩

/-- `data[i] = complex(samples[i], 0)`. -/
noncomputable def toData (samples : ℕ → ℝ) (i : ℕ) : ℂ := ⟨samples i, 0⟩

section Complex

theorem factor_false (n : ℕ) : factor n false = Complex.exp (2 * Real.pi * Complex.I / n) := by
  have hangle : 2 * Real.pi * Complex.I / n =
      ((2.0 * Real.pi / n * (if false then -1 else 1) : ℝ) : ℂ) * Complex.I := by
    push_cast
    norm_num
    ring
  rw [hangle]
  exact Complex.ext (Complex.exp_ofReal_mul_I_re _).symm (Complex.exp_ofReal_mul_I_im _).symm

theorem factor_true (n : ℕ) : factor n true = (factor n false)⁻¹ := by
  have hangle : -(2 * Real.pi * Complex.I / n) =
      ((2.0 * Real.pi / n * (if true then -1 else 1) : ℝ) : ℂ) * Complex.I := by
    push_cast
    norm_num
    ring
  rw [factor_false, ← Complex.exp_neg, hangle]
  exact Complex.ext (Complex.exp_ofReal_mul_I_re _).symm (Complex.exp_ofReal_mul_I_im _).symm

theorem isPrincipalRoot_factor {n : ℕ} (hn : n ≠ 0) : IsPrincipalRoot (factor n false) n := by
  rw [factor_false]
  exact isPrincipalRoot_of_isPrimitiveRoot (Complex.isPrimitiveRoot_exp n hn)

theorem factor_sq (j : ℕ) : factor (2 ^ (j + 1)) false ^ 2 = factor (2 ^ j) false := by
  rw [factor_false, factor_false, ← Complex.exp_nat_mul]
  congr 1
  push_cast
  field_simp
  ring

/-- The factors of the forward transform… -/
theorem halfTurns_factor (k : ℕ) : HalfTurns (fun n => factor n false) k :=
  halfTurns_of_isPrincipalRoot (isPrincipalRoot_factor (Nat.two_pow_pos k).ne') fun j _ =>
    factor_sq j

/-- …and of the inverse. -/
theorem halfTurns_factor_true (k : ℕ) : HalfTurns (fun n => factor n true) k := by
  simp only [factor_true]
  exact (halfTurns_factor k).inv

/-- There and back in the complex numbers. -/
theorem roundTrip_apply (k : ℕ) (x : ℕ → ℂ) {j : ℕ} (hj : j < 2 ^ k) :
    simpleFft factor true (2 ^ k) (simpleFft factor false (2 ^ k) x) j =
      2 ^ k * x j / 2 ^ (k * (k + 1) / 2) :=
  simpleFft_simpleFft (isPrincipalRoot_factor (Nat.two_pow_pos k).ne') (halfTurns_factor k)
    (halfTurns_factor_true k) (factor_true _) x hj

/-- An entry comes back only at lengths one and two, or if it is zero. -/
theorem roundTrip_apply_eq_iff (k : ℕ) (x : ℕ → ℂ) {j : ℕ} (hj : j < 2 ^ k) :
    simpleFft factor true (2 ^ k) (simpleFft factor false (2 ^ k) x) j = x j ↔
      k ≤ 1 ∨ x j = 0 := by
  have hone : (2 : ℂ) ^ k = 2 ^ (k * (k + 1) / 2) ↔ k ≤ 1 := by
    have hcast : ∀ a b : ℕ, (2 : ℂ) ^ a = 2 ^ b ↔ a = b := fun a b => by
      rw [← Nat.pow_right_inj (le_refl 2) (m := a) (n := b)]
      exact_mod_cast Iff.rfl
    rw [hcast]
    refine ⟨fun h => ?_, fun h => by interval_cases k <;> rfl⟩
    by_contra hlt
    have hmul : k * 3 ≤ k * (k + 1) := Nat.mul_le_mul_left k (by omega)
    omega
  rw [roundTrip_apply k x hj, div_eq_iff (pow_ne_zero _ two_ne_zero), mul_comm (x j),
    mul_eq_mul_right_iff, hone]

/-- **When the inverse undoes the transform**: at lengths one and two, and on a vector of
zeros. -/
theorem roundTrip_iff (k : ℕ) (x : ℕ → ℂ) :
    (∀ j < 2 ^ k, simpleFft factor true (2 ^ k) (simpleFft factor false (2 ^ k) x) j = x j) ↔
      k ≤ 1 ∨ ∀ j < 2 ^ k, x j = 0 := by
  constructor
  · intro h
    refine or_iff_not_imp_left.mpr fun hk j hj => ?_
    exact ((roundTrip_apply_eq_iff k x hj).mp (h j hj)).resolve_left hk
  · intro h j hj
    exact (roundTrip_apply_eq_iff k x hj).mpr (h.imp_right fun hx => hx j hj)

/-- **The inverse does not undo the transform** of a unit impulse of length four. -/
theorem not_forall_roundTrip :
    ¬ ∀ (k : ℕ) (x : ℕ → ℂ), ∀ j < 2 ^ k,
      simpleFft factor true (2 ^ k) (simpleFft factor false (2 ^ k) x) j = x j := by
  intro h
  have hback := (roundTrip_apply_eq_iff 2 (Pi.single 0 1) (by decide)).mp
    (h 2 (Pi.single 0 1) 0 (by decide))
  simp at hback

/-- An impulse at the second of eight entries turns once. -/
theorem simpleFft_impulse :
    simpleFft factor false (2 ^ 3) (Pi.single 1 1) 5 =
      ∑ m ∈ range (2 ^ 3), Pi.single (M := fun _ => ℂ) 1 1 m * factor (2 ^ 3) false ^ (5 * m) :=
  simpleFft_eq_dft (isPrincipalRoot_factor (by decide)) (fun j _ => factor_sq j) _ (by decide)

/-- **When no sample is ignored** in the first bin: if those past the largest power of two add up to
nothing. -/
theorem firstBin_eq_sum_iff {n : ℕ} (hn : 1 ≤ n) (samples : ℕ → ℝ) :
    simpleFft factor false n (toData samples) 0 = ((∑ m ∈ range n, samples m : ℝ) : ℂ) ↔
      ∑ m ∈ Ico (2 ^ Nat.log 2 n) n, samples m = 0 := by
  have hcast : ∀ s : Finset ℕ, ((∑ m ∈ s, samples m : ℝ) : ℂ) = ∑ m ∈ s, toData samples m :=
    fun s => Complex.ofReal_sum s samples
  rw [hcast, simpleFft_apply_zero_eq_sum_iff hn, ← hcast, Complex.ofReal_eq_zero]

/-- Four samples are all seen. -/
theorem firstBin_four :
    simpleFft factor false 4 (toData fun i => i) 0 =
      ((∑ m ∈ range 4, (m : ℝ) : ℝ) : ℂ) :=
  (firstBin_eq_sum_iff (by decide) _).mpr
    (by rw [show Nat.log 2 4 = 2 from Nat.log_pow one_lt_two 2]; simp)

/-- **Samples are ignored**: of three ones, the first bin has two. -/
theorem not_forall_firstBin :
    ¬ ∀ (n : ℕ) (samples : ℕ → ℝ), 1 ≤ n →
      simpleFft factor false n (toData samples) 0 = ((∑ m ∈ range n, samples m : ℝ) : ℂ) := by
  intro h
  have hlog : Nat.log 2 3 = 1 := (Nat.log_eq_iff (by decide)).mpr ⟨by decide, by decide⟩
  have hone : ∀ m, toData (fun _ => 1) m = 1 := fun _ => rfl
  have hbin := h 3 (fun _ => 1) (by decide)
  rw [simpleFft_apply_zero (by decide), hlog] at hbin
  norm_num [hone] at hbin

/-! ## The features read off the spectrum -/

/-- The samples' spectrum, as both features compute it. -/
noncomputable def spectrum (samples : ℕ → ℝ) (numSamples : ℕ) : ℕ → ℂ :=
  simpleFft factor false numSamples (toData samples)

/-- One round of the search for the largest magnitude, on `(max_magnitude, max_index)`. -/
noncomputable def larger (data : ℕ → ℂ) (i : ℕ) (s : ℝ × ℕ) : ℝ × ℕ :=
  let magnitude := ‖data i‖
  if magnitude > s.1 then (magnitude, i) else s

/-- `get_dominant_frequency`. -/
noncomputable def getDominantFrequency (samples : ℕ → ℝ) (numSamples : ℕ) : ℝ :=
  let data := spectrum samples numSamples
  (strided 1 (numSamples / 2) (larger data) 1 (0, 0)).2.2 / numSamples

/-- One round of the weighted sum, on `(numerator, denominator)`. -/
noncomputable def weigh (data : ℕ → ℂ) (numSamples i : ℕ) (s : ℝ × ℝ) : ℝ × ℝ :=
  let magnitude := ‖data i‖
  let freq : ℝ := i / numSamples
  (s.1 + freq * magnitude, s.2 + magnitude)

/-- `get_spectral_centroid`. -/
noncomputable def getSpectralCentroid (samples : ℕ → ℝ) (numSamples : ℕ) : ℝ :=
  let data := spectrum samples numSamples
  let sums := (strided 1 (numSamples / 2) (weigh data numSamples) 0 (0, 0)).2
  let numerator := sums.1
  let denominator := sums.2
  if denominator < 1e-6 then 0 else numerator / denominator

variable {samples : ℕ → ℝ} {numSamples : ℕ}

/-- The search ends at the first entry, or below the middle. -/
theorem larger_index (data : ℕ → ℂ) (half : ℕ) :
    (strided 1 half (larger data) 1 (0, 0)).2.2 = 0 ∨
      (strided 1 half (larger data) 1 (0, 0)).2.2 < half := by
  refine strided_invariant (I := fun _ (s : ℝ × ℕ) => s.2 = 0 ∨ s.2 < half) ?_ (.inl rfl)
  intro i s hi hs
  simp only [larger]
  split_ifs
  · exact .inr hi
  · exact hs

/-- **The dominant frequency is normalized**, from 0 to 0.5. -/
theorem getDominantFrequency_mem : getDominantFrequency samples numSamples ∈ Set.Ico 0 (1 / 2) := by
  have hindex := larger_index (spectrum samples numSamples) (numSamples / 2)
  rw [getDominantFrequency]
  rcases hindex with hzero | hlt
  · rw [hzero]
    norm_num
  · have hpos : 0 < numSamples := by omega
    refine ⟨by positivity, ?_⟩
    rw [div_lt_div_iff₀ (by exact_mod_cast hpos) two_pos, one_mul]
    exact_mod_cast (by omega)

/-- The weights of the sum are below the middle; while the magnitudes are zero, both sums are. -/
theorem weigh_sums (data : ℕ → ℂ) (n : ℕ) :
    0 ≤ (strided 1 (n / 2) (weigh data n) 0 (0, 0)).2.1 ∧
      ((strided 1 (n / 2) (weigh data n) 0 (0, 0)).2 = (0, 0) ∨
        (strided 1 (n / 2) (weigh data n) 0 (0, 0)).2.1 * 2 <
          (strided 1 (n / 2) (weigh data n) 0 (0, 0)).2.2) := by
  refine strided_invariant
    (I := fun _ (s : ℝ × ℝ) => 0 ≤ s.1 ∧ (s = (0, 0) ∨ s.1 * 2 < s.2)) ?_ ⟨le_rfl, .inl rfl⟩
  rintro i ⟨numerator, denominator⟩ hi ⟨hpos, hs⟩
  have hn : (0 : ℝ) < n := Nat.cast_pos.mpr (by omega)
  have hfreq : (i : ℝ) / n * 2 < 1 := by
    rw [div_mul_eq_mul_div, div_lt_one hn]
    exact_mod_cast (show i * 2 < n by omega)
  simp only [weigh]
  refine ⟨by positivity, ?_⟩
  rcases (norm_nonneg (data i)).eq_or_lt with hzero | hmagnitude
  · rwa [← hzero, mul_zero, add_zero, add_zero]
  · have hweigh := mul_lt_mul_of_pos_right hfreq hmagnitude
    refine .inr ?_
    rcases hs with hs | hs
    · obtain ⟨rfl, rfl⟩ := Prod.mk.inj hs
      linarith
    · linarith

/-- **So is the centroid**: it is an average of frequencies below the middle. -/
theorem getSpectralCentroid_mem : getSpectralCentroid samples numSamples ∈ Set.Ico 0 (1 / 2) := by
  obtain ⟨hpos, hsums⟩ := weigh_sums (spectrum samples numSamples) numSamples
  simp only [getSpectralCentroid]
  split_ifs with hlow
  · norm_num
  · have hdenominator := lt_of_lt_of_le (show (0 : ℝ) < 1e-6 by norm_num) (not_lt.mp hlow)
    have hlt := hsums.resolve_left fun hzero => hdenominator.ne' (congrArg Prod.snd hzero)
    refine ⟨div_nonneg hpos hdenominator.le, ?_⟩
    rw [div_lt_div_iff₀ hdenominator two_pos, one_mul]
    exact hlt

end Complex

end BioShield.FrequencyAnalyzer
