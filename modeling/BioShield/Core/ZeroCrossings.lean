import BioShield.Core.Avx512Math
import Mathlib

/-!
# Core/ZeroCrossings — the rate of zero crossings, by lanes and one by one

Both loops of `calculate_zcr_avx512` are there to count zero crossings.  The plain one does; the
one over whole registers counts every change of value, so the rate is never too low
(`zeroCrossings_le_calculateZcrAvx512`), and it is right exactly where the samples in the registers
change only by crossing zero (`calculateZcrAvx512_eq_iff`).
-/

namespace BioShield

open Finset

variable {K : Type*} [Field K] [LinearOrder K] {data : ℕ → K} {length i : ℕ}

/-- A zero crossing: exactly one of the two neighbours is at least zero. -/
def ZeroCrossing (data : ℕ → K) (i : ℕ) : Prop := Xor (data (i - 1) ≥ 0) (data i ≥ 0)

instance (data : ℕ → K) (i : ℕ) : Decidable (ZeroCrossing data i) :=
  inferInstanceAs (Decidable (_ ∨ _))

/-- The test of the plain loop is for zero crossings. -/
theorem crosses_iff : Crosses data i ↔ ZeroCrossing data i := by
  have hprev : data (i - 1) < 0 ↔ ¬ data (i - 1) ≥ 0 := not_le.symm
  have hcurr : data i < 0 ↔ ¬ data i ≥ 0 := not_le.symm
  rw [Crosses, hprev, hcurr, or_comm, and_comm (a := ¬ data i ≥ 0), ZeroCrossing, Xor]

/-- The two sides of zero are different values. -/
theorem ZeroCrossing.ne (h : ZeroCrossing data i) : data (i - 1) ≠ data i := by
  intro heq
  rw [ZeroCrossing, heq, xor_self] at h
  exact h

/-- A zero crossing counts for as much as a change of value exactly where the change is one. -/
theorem zeroCrossing_eq_change_iff (data : ℕ → K) (i : ℕ) :
    (if ZeroCrossing data i then 1 else 0 : K) = (if data (i - 1) ≠ data i then 1 else 0) ↔
      (data (i - 1) ≠ data i → ZeroCrossing data i) := by
  by_cases hz : ZeroCrossing data i
  · simp [hz, hz.ne]
  · by_cases hne : data (i - 1) = data i <;> simp [hz, hne]

/-- The zero crossings, in the registers and after them. -/
theorem zeroCrossings_eq (hle : 16 ≤ length) :
    (#{i ∈ Ico 1 length | ZeroCrossing data i} : K) =
      ∑ i ∈ Ico 1 (1 + (length - 1) / 16 * 16), (if ZeroCrossing data i then 1 else 0) +
        ∑ i ∈ Ico (1 + (length - 1) / 16 * 16) length, if Crosses data i then 1 else 0 := by
  have hblocks : 1 ≤ 1 + (length - 1) / 16 * 16 := by omega
  have htail : 1 + (length - 1) / 16 * 16 ≤ length := by omega
  simp only [crosses_iff]
  rw [sum_Ico_consecutive _ hblocks htail, sum_boole]

variable [IsStrictOrderedRing K]

/-- A change of value counts for no less than a zero crossing… -/
theorem zeroCrossing_le_change (data : ℕ → K) (i : ℕ) :
    (if ZeroCrossing data i then 1 else 0 : K) ≤ if data (i - 1) ≠ data i then 1 else 0 := by
  by_cases h : ZeroCrossing data i
  · rw [if_pos h, if_pos h.ne]
  · rw [if_neg h]
    split_ifs <;> norm_num

/-- …so **the rate is never too low.** -/
theorem zeroCrossings_le_calculateZcrAvx512 (hle : 16 ≤ length) :
    (#{i ∈ Ico 1 length | ZeroCrossing data i} : K) / length ≤ calculateZcrAvx512 data length := by
  rw [calculateZcrAvx512_of_le hle, zeroCrossings_eq hle]
  gcongr with i
  exact zeroCrossing_le_change data i

/-- **When the rate is one of zero crossings**: if every change of value in the whole registers is
one. -/
theorem calculateZcrAvx512_eq_iff (hle : 16 ≤ length) :
    calculateZcrAvx512 data length = (#{i ∈ Ico 1 length | ZeroCrossing data i} : K) / length ↔
      ∀ i ∈ Ico 1 (1 + (length - 1) / 16 * 16), data (i - 1) ≠ data i → ZeroCrossing data i := by
  have hlen : (length : K) ≠ 0 := Nat.cast_ne_zero.mpr (by omega)
  rw [calculateZcrAvx512_of_le hle, div_left_inj' hlen, zeroCrossings_eq hle, add_left_inj, eq_comm,
    sum_eq_sum_iff_of_le fun i _ => zeroCrossing_le_change data i]
  exact forall₂_congr fun i _ => zeroCrossing_eq_change_iff data i

/-- Alternating samples cross zero at every step. -/
theorem calculateZcrAvx512_alternating :
    calculateZcrAvx512 (fun i => (-1 : ℚ) ^ i) 17 =
      (#{i ∈ Ico 1 17 | ZeroCrossing (fun i => (-1 : ℚ) ^ i) i} : ℚ) / (17 : ℕ) :=
  (calculateZcrAvx512_eq_iff (by decide)).mpr (by decide +kernel)

/-- **Not every rate is one of zero crossings**: seventeen rising positive samples have none, and a
rate of `16 / 17`. -/
theorem not_forall_calculateZcrAvx512_eq :
    ¬ ∀ (data : ℕ → ℚ) (length : ℕ), 16 ≤ length →
      calculateZcrAvx512 data length =
        (#{i ∈ Ico 1 length | ZeroCrossing data i} : ℚ) / length := by
  intro h
  have hzero := h (fun i => i + 1) 17 (by decide)
  rw [calculateZcrAvx512_of_nonneg (by decide) fun i _ => by positivity] at hzero
  revert hzero
  decide +kernel

end BioShield
