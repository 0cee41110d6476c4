import Mathlib.Algebra.BigOperators.Intervals

/-!
# Machinery/StridedLoop — `for` loops that advance by a fixed stride

A loop over blocks of `stride` indices runs while a whole block fits below the limit, and leaves a
tail shorter than a block to a second loop that goes on from there, one index at a time.

* `strided_invariant` — the invariant rule, on the index and the accumulator;
* `measure_strided` — a loop whose body adds up `f` over its block adds up `f` over all it passed;
* `measure_strided_tail` — the two loops in a row add up `f` over the whole range.
-/

namespace Machinery

variable {σ M : Type*}

/-- **A loop by strides**: from `i` on, while a whole stride fits below `n`.  It returns the index
it stops at and what it accumulated; a stride of zero does not begin. -/
def strided (stride n : ℕ) (body : ℕ → σ → σ) (i : ℕ) (s : σ) : ℕ × σ :=
  if 0 < stride ∧ i + stride ≤ n then strided stride n body (i + stride) (body i s) else (i, s)
termination_by n - i

section Rules

variable {stride n : ℕ} {body : ℕ → σ → σ}

/-- **The invariant rule.** -/
theorem strided_invariant {I : ℕ → σ → Prop}
    (hstep : ∀ i s, i + stride ≤ n → I i s → I (i + stride) (body i s)) {i : ℕ} {s : σ}
    (hI : I i s) : I (strided stride n body i s).1 (strided stride n body i s).2 := by
  fun_induction strided stride n body i s with
  | case1 i s hle ih => exact ih (hstep i s hle.2 hI)
  | case2 i s hlt => exact hI

/-- Where the loop stops: after the whole strides that fit. -/
theorem strided_fst (hpos : 0 < stride) (body : ℕ → σ → σ) {i : ℕ} (s : σ) (hi : i ≤ n) :
    (strided stride n body i s).1 = i + (n - i) / stride * stride := by
  fun_induction strided stride n body i s with
  | case1 i s hle ih =>
    have hsub : n - i = n - (i + stride) + stride := by omega
    rw [ih hle.2, hsub, Nat.add_div_right _ hpos, Nat.succ_mul]
    omega
  | case2 i s hlt =>
    have hshort : n - i < stride := by omega
    rw [Nat.div_eq_of_lt hshort, Nat.zero_mul, Nat.add_zero]

theorem le_strided_fst (body : ℕ → σ → σ) (i : ℕ) (s : σ) :
    i ≤ (strided stride n body i s).1 :=
  strided_invariant (I := fun k _ => i ≤ k) (fun _ _ _ hk => le_add_right hk) le_rfl

theorem strided_fst_le (body : ℕ → σ → σ) {i : ℕ} (s : σ) (hi : i ≤ n) :
    (strided stride n body i s).1 ≤ n :=
  strided_invariant (I := fun k _ => k ≤ n) (fun _ _ hle _ => hle) hi

/-- A loop by ones runs to the end. -/
theorem strided_one_fst (body : ℕ → σ → σ) {i : ℕ} (s : σ) (hi : i ≤ n) :
    (strided 1 n body i s).1 = n := by
  rw [strided_fst one_pos body s hi, Nat.div_one, Nat.mul_one, Nat.add_sub_cancel' hi]

/-- **Blocks add up**: if the body adds `f` over its block to a measure of the accumulator, the loop
adds `f` over all it passed… -/
theorem measure_strided [AddCommMonoid M] {f : ℕ → M} {measure : σ → M} {i : ℕ}
    (hbody : ∀ k s, i ≤ k →
      measure (body k s) = measure s + ∑ j ∈ Finset.Ico k (k + stride), f j) (s : σ) :
    measure (strided stride n body i s).2 =
      measure s + ∑ j ∈ Finset.Ico i (strided stride n body i s).1, f j := by
  refine (strided_invariant (I := fun k t =>
    i ≤ k ∧ measure t = measure s + ∑ j ∈ Finset.Ico i k, f j) ?_ ⟨le_rfl, by simp⟩).2
  rintro k t - ⟨hik, hk⟩
  refine ⟨by omega, ?_⟩
  rw [hbody k t hik, hk, add_assoc,
    Finset.sum_Ico_consecutive f hik (Nat.le_add_right k stride)]

/-- …and a loop by ones adds it over all that is left… -/
theorem strided_one_snd [AddCommMonoid M] {f : ℕ → M} {tail : ℕ → M → M}
    (htail : ∀ k m, tail k m = m + f k) {i : ℕ} (m : M) (hi : i ≤ n) :
    (strided 1 n tail i m).2 = m + ∑ j ∈ Finset.Ico i n, f j := by
  have hone : ∀ k m, i ≤ k → tail k m = m + ∑ j ∈ Finset.Ico k (k + 1), f j := fun k m _ => by
    rw [htail, Nat.Ico_succ_singleton, Finset.sum_singleton]
  have hsum := @measure_strided M M 1 n tail _ f id i hone m
  rwa [strided_one_fst tail m hi] at hsum

/-- …so the two loops in a row add it over the whole range. -/
theorem measure_strided_tail [AddCommMonoid M] {f : ℕ → M} {measure : σ → M} {tail : ℕ → M → M}
    {i : ℕ} (hbody : ∀ k s, i ≤ k →
      measure (body k s) = measure s + ∑ j ∈ Finset.Ico k (k + stride), f j)
    (htail : ∀ k m, tail k m = m + f k) (s : σ) (hi : i ≤ n) :
    (strided 1 n tail (strided stride n body i s).1 (measure (strided stride n body i s).2)).2 =
      measure s + ∑ j ∈ Finset.Ico i n, f j := by
  have hle : (strided stride n body i s).1 ≤ n := strided_fst_le body s hi
  rw [strided_one_snd htail _ hle, measure_strided hbody s, add_assoc,
    Finset.sum_Ico_consecutive f (le_strided_fst body i s) hle]

end Rules

end Machinery
