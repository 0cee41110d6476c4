import Mathlib.Algebra.BigOperators.Fin
import Mathlib.Algebra.Order.BigOperators.Group.List
import Mathlib.Algebra.Order.Chebyshev
import Mathlib.Algebra.Order.Field.Basic
import Mathlib.Tactic.FieldSimp
import Mathlib.Tactic.Linarith
import Mathlib.Tactic.Ring

/-!
# Machinery/Statistics — how far a value can be from the mean

The deviations from the mean add up to zero, so the one of a single value is made up for by the
others, and its square is bounded by theirs: no value of `n` is further than `(n - 1) / √n` sample
deviations from the mean (`length_mul_sq_sub_mean_le`).  One value apart from `n - 1` equal ones is
just as far (`sampleVariance_lone`).
-/

namespace Machinery

namespace Statistics

variable {K : Type*} [Field K]

/-- The mean. -/
def mean (xs : List K) : K := xs.sum / xs.length

/-- **The sample variance**. -/
def sampleVariance (xs : List K) : K :=
  (xs.map fun x => (x - mean xs) ^ 2).sum / (xs.length - 1)

/-- The sample variance by its sum, also of a single value. -/
theorem sq_mul_sampleVariance (xs : List K) :
    ((xs.length : K) - 1) ^ 2 * sampleVariance xs =
      (xs.length - 1) * (xs.map fun y => (y - mean xs) ^ 2).sum := by
  rw [sampleVariance]
  rcases eq_or_ne ((xs.length : K) - 1) 0 with hone | hone
  · rw [hone]
    ring
  · field_simp

/-- `i + j` values equal to `c`, and one further along by `d`. -/
def lone (i j : ℕ) (c d : K) : List K := List.replicate i c ++ (c + d) :: List.replicate j c

theorem length_lone (i j : ℕ) (c d : K) : (lone i j c d).length = i + j + 1 := by
  simp [lone, add_assoc]

theorem sum_map_lone (f : K → K) (i j : ℕ) (c d : K) :
    ((lone i j c d).map f).sum = (i + j) * f c + f (c + d) := by
  simp only [lone, List.map_append, List.map_cons, List.map_replicate, List.sum_append,
    List.sum_cons, List.sum_replicate, nsmul_eq_mul]
  ring

section CharZero

variable [CharZero K] {i j : ℕ} {c d : K}

/-- The mean of all but one equal values… -/
theorem mean_lone : mean (lone i j c d) = c + d / (i + j + 1) := by
  have hlen : (i + j + 1 : K) ≠ 0 := by exact_mod_cast Nat.succ_ne_zero (i + j)
  have hsum := sum_map_lone id i j c d
  rw [List.map_id] at hsum
  rw [mean, hsum, length_lone, eq_comm]
  push_cast
  field_simp
  simp only [id]
  ring

/-- …and their sample variance. -/
theorem sampleVariance_lone (h : 1 ≤ i + j) :
    sampleVariance (lone i j c d) = d ^ 2 / (i + j + 1) := by
  have hlen : (i + j + 1 : K) ≠ 0 := by exact_mod_cast Nat.succ_ne_zero (i + j)
  have hpred : (i + j : K) ≠ 0 := by exact_mod_cast Nat.one_le_iff_ne_zero.mp h
  rw [sampleVariance, sum_map_lone, mean_lone, length_lone]
  push_cast
  rw [add_sub_cancel_right]
  field_simp
  ring

end CharZero

section Bound

variable [LinearOrder K] [IsStrictOrderedRing K] {xs : List K} {x : K}

/-- The deviations from the mean add up to zero. -/
theorem sum_sub_mean (h : xs ≠ []) : (xs.map fun x => x - mean xs).sum = 0 := by
  have hlen : (xs.length : K) ≠ 0 := by exact_mod_cast (List.length_pos_iff.mpr h).ne'
  rw [← Fin.sum_univ_fun_getElem, Finset.sum_sub_distrib, Fin.sum_univ_getElem, Finset.sum_const,
    Finset.card_univ, Fintype.card_fin, nsmul_eq_mul, mean, mul_div_cancel₀ _ hlen, sub_self]

/-- Cauchy–Schwarz: the square of a sum is at most the number of its terms times the sum of their
squares. -/
theorem sq_sum_le (xs : List K) : xs.sum ^ 2 ≤ xs.length * (xs.map (· ^ 2)).sum := by
  have hle := sq_sum_le_card_mul_sum_sq (s := (Finset.univ : Finset (Fin xs.length)))
    (f := fun i => xs[i.1])
  rwa [Finset.card_univ, Fintype.card_fin, Fin.sum_univ_fun_getElem xs (· ^ 2),
    Fin.sum_univ_getElem] at hle

/-- The deviation of one value is made up for by the others. -/
theorem sum_sub_mean_append (pre post : List K) (x : K) :
    ((pre ++ post).map fun y => y - mean (pre ++ x :: post)).sum =
      -(x - mean (pre ++ x :: post)) := by
  have hzero := sum_sub_mean (List.append_ne_nil_of_right_ne_nil pre (List.cons_ne_nil x post))
  simp only [List.map_append, List.map_cons, List.sum_append, List.sum_cons] at hzero ⊢
  linarith

/-- **No value is far from the mean**: of `n` values, none is more than `(n - 1) / √n` sample
deviations away. -/
theorem length_mul_sq_sub_mean_le (hx : x ∈ xs) :
    xs.length * (x - mean xs) ^ 2 ≤ (xs.length - 1) ^ 2 * sampleVariance xs := by
  obtain ⟨pre, post, hsplit⟩ := List.append_of_mem hx
  set rest := (pre ++ post).map fun y => y - mean xs with hrest
  have hlen : (rest.length : K) = xs.length - 1 := by
    rw [hrest, hsplit]
    simp only [List.length_map, List.length_append, List.length_cons]
    push_cast
    ring
  have hsum : rest.sum = -(x - mean xs) := by
    rw [hrest, hsplit]
    exact sum_sub_mean_append pre post x
  have hsq : (xs.map fun y => (y - mean xs) ^ 2).sum =
      (x - mean xs) ^ 2 + (rest.map (· ^ 2)).sum := by
    rw [hrest, hsplit]
    simp only [List.map_append, List.map_cons, List.map_map, List.sum_append, List.sum_cons,
      Function.comp_def]
    ring
  have hle := sq_sum_le rest
  rw [hsum, neg_sq, hlen] at hle
  rw [sq_mul_sampleVariance, hsq]
  linarith

end Bound

end Statistics

end Machinery
