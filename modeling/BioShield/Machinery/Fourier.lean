import Mathlib.RingTheory.RootsOfUnity.PrimitiveRoots
import Mathlib.Algebra.Field.GeomSum
import Mathlib.Tactic.Ring

/-!
# Machinery/Fourier — the discrete Fourier transform over a field

    dft w n x j = ∑ m < n, x m · w ^ (j m)

at a principal `n`-th root of unity `w`.

* `dft_two_mul` — a transform of even length is made of the transforms of the even and the odd
  entries, at the square of the root; `IsPrincipalRoot.half` turns the sign in the upper half;
* `dft_inv_dft` — transforming back, at the inverse root, multiplies by the length;
* `dft_const`, `dft_pow`, `dft_inv_pow` — the transforms of a constant and of a wave;
* `dft_shift` — a circular shift turns each entry of the transform.
-/

namespace Machinery

open Finset

variable {F : Type*} [Field F]

/-- Even and odd indices. -/
theorem sum_range_two_mul {M : Type*} [AddCommMonoid M] (f : ℕ → M) (n : ℕ) :
    ∑ m ∈ range (2 * n), f m = ∑ i ∈ range n, f (i * 2) + ∑ i ∈ range n, f (i * 2 + 1) := by
  induction n with
  | zero => simp
  | succ n ih =>
    rw [Nat.mul_succ, sum_range_succ, sum_range_succ, ih, sum_range_succ, sum_range_succ,
      Nat.mul_comm 2 n]
    abel

/-- **The discrete Fourier transform** of the first `n` entries, at the root `w`. -/
def dft (w : F) (n : ℕ) (x : ℕ → F) (j : ℕ) : F := ∑ m ∈ range n, x m * w ^ (j * m)

/-- The transform looks at the first `n` entries only. -/
theorem dft_congr {w : F} {n : ℕ} {x y : ℕ → F} (h : ∀ m < n, x m = y m) (j : ℕ) :
    dft w n x j = dft w n y j :=
  sum_congr rfl fun m hm => by rw [h m (mem_range.mp hm)]

/-- **Even and odd entries**: half-length transforms at the square of the root. -/
theorem dft_two_mul (w : F) (n : ℕ) (x : ℕ → F) (j : ℕ) :
    dft w (2 * n) x j = dft (w ^ 2) n (fun i => x (i * 2)) j +
      w ^ j * dft (w ^ 2) n (fun i => x (i * 2 + 1)) j := by
  have heven : ∀ i, w ^ (j * (i * 2)) = (w ^ 2) ^ (j * i) := fun i => by
    rw [← pow_mul]
    ring
  have hodd : ∀ i, w ^ (j * (i * 2 + 1)) = w ^ j * (w ^ 2) ^ (j * i) := fun i => by
    rw [← pow_mul, ← pow_add]
    ring
  simp only [dft, sum_range_two_mul, heven, hodd, mul_sum]
  congr 1
  exact sum_congr rfl fun i _ => mul_left_comm _ _ _

/-- Full turns do not count… -/
theorem pow_add_turn {w : F} {n : ℕ} (hw : w ^ n = 1) (e l : ℕ) :
    w ^ ((e + n) * l) = w ^ (e * l) := by
  rw [add_mul, pow_add, pow_mul w n l, hw, one_pow, mul_one]

/-- …so the transform has the period `n`. -/
theorem dft_add_period {w : F} {n : ℕ} (hw : w ^ n = 1) (x : ℕ → F) (j : ℕ) :
    dft w n x (j + n) = dft w n x j := by
  simp only [dft, pow_add_turn hw]

/-- **A principal `n`-th root of unity**: the powers of each of its first powers add up to zero. -/
structure IsPrincipalRoot (w : F) (n : ℕ) : Prop where
  pow_eq_one : w ^ n = 1
  sum_eq_zero : ∀ m < n, 0 < m → ∑ l ∈ range n, w ^ (l * m) = 0

/-- A primitive root is principal. -/
theorem isPrincipalRoot_of_isPrimitiveRoot {w : F} {n : ℕ} (h : IsPrimitiveRoot w n) :
    IsPrincipalRoot w n := by
  refine ⟨h.pow_eq_one, fun m hm hpos => ?_⟩
  have hne : w ^ m ≠ 1 := h.pow_ne_one_of_pos_of_lt hpos.ne' hm
  have hpow : ∀ l, w ^ (l * m) = (w ^ m) ^ l := fun l => by rw [← pow_mul, mul_comm]
  simp only [hpow]
  rw [geom_sum_eq hne, ← pow_mul, mul_comm, pow_mul, h.pow_eq_one, one_pow, sub_self, zero_div]

namespace IsPrincipalRoot

variable {w : F} {n : ℕ}

/-- **Half a turn is a sign.** -/
theorem half {k : ℕ} (h : IsPrincipalRoot w (2 ^ (k + 1))) : w ^ 2 ^ k = -1 := by
  have hsq : w ^ 2 ^ k * w ^ 2 ^ k = 1 := by
    rw [← pow_add, ← two_mul, ← pow_succ', h.pow_eq_one]
  rcases mul_self_eq_one_iff.mp hsq with hone | hneg
  · -- then the powers of `w ^ 2 ^ k` are all `1`, so that `2` is zero
    have hpow : ∀ l, w ^ (l * 2 ^ k) = 1 := fun l => by rw [mul_comm, pow_mul, hone, one_pow]
    have hsum := h.sum_eq_zero (2 ^ k) (Nat.pow_lt_pow_right one_lt_two k.lt_succ_self)
      (Nat.two_pow_pos k)
    simp only [hpow, sum_const, card_range, nsmul_eq_mul, mul_one, Nat.cast_pow] at hsum
    have htwo : (1 : F) + 1 = 0 := by
      rw [one_add_one_eq_two]
      exact_mod_cast eq_zero_of_pow_eq_zero hsum
    exact hone.trans (eq_neg_of_add_eq_zero_left htwo)
  · exact hneg

theorem ne_zero (h : IsPrincipalRoot w n) (hpos : 0 < n) : w ≠ 0 := by
  rintro rfl
  have hzero := h.pow_eq_one
  rw [zero_pow hpos.ne'] at hzero
  exact zero_ne_one hzero

/-- The exponents `m` and `-j` meet where `m = j`. -/
theorem sum_mul_inv (h : IsPrincipalRoot w n) {m j : ℕ} (hm : m < n) (hj : j < n) :
    ∑ l ∈ range n, w ^ (l * m) * w⁻¹ ^ (j * l) = if m = j then (n : F) else 0 := by
  have hw : w ≠ 0 := h.ne_zero (by omega)
  -- `w⁻¹ ^ j` is `w ^ (n - j)`
  have hterm : ∀ l, w ^ (l * m) * w⁻¹ ^ (j * l) = w ^ ((m + (n - j)) * l) := fun l => by
    have hturn : w ^ ((n - j) * l) * w ^ (j * l) = 1 := by
      rw [← pow_add, ← add_mul, Nat.sub_add_cancel hj.le, pow_mul, h.pow_eq_one, one_pow]
    rw [add_mul, pow_add, inv_pow, eq_inv_of_mul_eq_one_left hturn, mul_comm l m]
  have hzero : ∀ e < n, 0 < e → ∑ l ∈ range n, w ^ (e * l) = 0 := fun e he hpos => by
    simp only [mul_comm e]
    exact h.sum_eq_zero e he hpos
  simp only [hterm]
  rcases lt_trichotomy m j with hlt | rfl | hgt
  · rw [if_neg hlt.ne, hzero _ (by omega) (by omega)]
  · rw [if_pos rfl, show m + (n - m) = 0 + n by omega]
    simp only [pow_add_turn h.pow_eq_one, zero_mul, pow_zero, sum_const, card_range, nsmul_eq_mul,
      mul_one]
  · rw [if_neg hgt.ne', show m + (n - j) = m - j + n by omega]
    simp only [pow_add_turn h.pow_eq_one]
    exact hzero _ (by omega) (by omega)

/-! ### Waves -/

/-- A constant is seen in the first entry only… -/
theorem dft_const (h : IsPrincipalRoot w n) (c : F) {j : ℕ} (hj : j < n) :
    dft w n (fun _ => c) j = if j = 0 then n * c else 0 := by
  have hsum : dft w n (fun _ => c) j = c * ∑ l ∈ range n, w ^ (l * j) := by
    simp only [dft, mul_sum, mul_comm j]
  rcases j.eq_zero_or_pos with rfl | hpos
  · simp [hsum, mul_comm]
  · rw [hsum, h.sum_eq_zero j hj hpos, mul_zero, if_neg hpos.ne']

/-- …a wave that runs with the root in none below the middle… -/
theorem dft_pow (h : IsPrincipalRoot w n) {b j : ℕ} (hpos : 0 < b + j) (hlt : b + j < n) :
    dft w n (fun m => w ^ (b * m)) j = 0 := by
  simp only [dft, ← pow_add, ← add_mul, mul_comm (b + j)]
  exact h.sum_eq_zero (b + j) hlt hpos

/-- …and a wave that runs against it in the entry of its frequency. -/
theorem dft_inv_pow (h : IsPrincipalRoot w n) {b j : ℕ} (hb : b < n) (hj : j < n) :
    dft w n (fun m => w⁻¹ ^ (b * m)) j = if j = b then (n : F) else 0 := by
  simp only [dft, ← h.sum_mul_inv hj hb]
  exact sum_congr rfl fun m _ => by rw [mul_comm, mul_comm j]

end IsPrincipalRoot

/-! ## Sums and shifts -/

section Linear

variable {ι : Type*} (w : F) (n : ℕ) (x y : ℕ → F) (j : ℕ)

theorem dft_add : dft w n (fun m => x m + y m) j = dft w n x j + dft w n y j := by
  simp only [dft, add_mul, sum_add_distrib]

theorem dft_mul_left (c : F) : dft w n (fun m => c * x m) j = c * dft w n x j := by
  simp only [dft, mul_sum, mul_assoc]

theorem dft_sum (s : Finset ι) (x : ι → ℕ → F) :
    dft w n (fun m => ∑ i ∈ s, x i m) j = ∑ i ∈ s, dft w n (x i) j := by
  simp only [dft, sum_mul]
  exact sum_comm

end Linear

/-- A shift by `s` and one by what is missing to a turn are a whole number of turns. -/
theorem add_shift_mod {n m : ℕ} (hm : m < n) (s : ℕ) : (m + s + (n - s % n)) % n = m := by
  have hs : s % n < n := Nat.mod_lt _ (by omega)
  have hdiv := Nat.mod_add_div s n
  rw [show m + s + (n - s % n) = m + n * (s / n + 1) by rw [Nat.mul_add, Nat.mul_one]; omega,
    Nat.add_mul_mod_self_left, Nat.mod_eq_of_lt hm]

/-- **A circular shift** turns each entry of the transform. -/
theorem dft_shift {w : F} {n : ℕ} (hw : w ^ n = 1) (x : ℕ → F) (s j : ℕ) :
    w ^ (j * s) * dft w n (fun m => x ((m + s) % n)) j = dft w n x j := by
  have hturn : ∀ m, w ^ (j * (m % n)) = w ^ (j * m) := fun m => by
    conv_rhs => rw [← Nat.mod_add_div m n, mul_add, pow_add, mul_left_comm, pow_mul w n, hw,
      one_pow, mul_one]
  rw [dft, mul_sum]
  refine sum_nbij' (fun m => (m + s) % n) (fun m => (m + (n - s % n)) % n) ?_ ?_ ?_ ?_ ?_
  · exact fun m hm => mem_range.mpr (Nat.mod_lt _ (by have := mem_range.mp hm; omega))
  · exact fun m hm => mem_range.mpr (Nat.mod_lt _ (by have := mem_range.mp hm; omega))
  · intro m hm
    rw [Nat.mod_add_mod, add_shift_mod (mem_range.mp hm)]
  · intro m hm
    rw [Nat.mod_add_mod, add_right_comm, add_shift_mod (mem_range.mp hm)]
  · intro m hm
    rw [hturn, mul_add, pow_add]
    ring

/-- **There and back**: the transform at the inverse root undoes the transform, up to the
length. -/
theorem dft_inv_dft {w : F} {n : ℕ} (h : IsPrincipalRoot w n) (x : ℕ → F) {j : ℕ} (hj : j < n) :
    dft w⁻¹ n (dft w n x) j = n * x j := by
  have hswap : dft w⁻¹ n (dft w n x) j =
      ∑ m ∈ range n, x m * ∑ l ∈ range n, w ^ (l * m) * w⁻¹ ^ (j * l) := by
    simp only [dft, sum_mul, mul_sum, mul_assoc]
    exact sum_comm
  have hmeet : ∀ m ∈ range n, x m * ∑ l ∈ range n, w ^ (l * m) * w⁻¹ ^ (j * l) =
      if m = j then n * x j else 0 := fun m hm => by
    rw [h.sum_mul_inv (mem_range.mp hm) hj]
    split_ifs with heq
    · rw [heq, mul_comm]
    · exact mul_zero _
  rw [hswap, sum_congr rfl hmeet, sum_ite_eq' (range n) j, if_pos (mem_range.mpr hj)]

end Machinery
