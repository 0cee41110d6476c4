import BioShield.Machinery.StridedLoop
import Mathlib.Algebra.BigOperators.Fin
import Mathlib.Algebra.Order.Field.Basic

/-!
# Core/Avx512Math — sums by sixteen lanes (`core/avx512_math.cpp`)

Each function has a loop over whole registers, a loop over the lanes left over, and a plain loop
for arrays shorter than a register.  Floats are the elements of an ordered field, so arithmetic is
exact and the order of a sum does not matter: variance, mean and dot product are the textbook ones
(`calculateVarianceAvx512_eq` and after).

The zero-crossing rate is not: whole registers are compared for *different values*, where the other
two loops look for a change of sign (`calculateZcrAvx512_of_le`).
-/

namespace BioShield

open Machinery Finset

variable {K : Type*}

/-- `__m512`: sixteen lanes. -/
abbrev M512 (K : Type*) := Fin 16 → K

namespace M512

section Intrinsics

variable [Field K] [LinearOrder K]

/-- `_mm512_setzero_ps`. -/
def setzeroPs : M512 K := fun _ => 0

/-- `_mm512_set1_ps`. -/
def set1Ps (x : K) : M512 K := fun _ => x

/-- `_mm512_loadu_ps(&data[i])`. -/
def loaduPs (data : ℕ → K) (i : ℕ) : M512 K := fun lane => data (i + lane)

/-- `_mm512_add_ps`. -/
def addPs (a b : M512 K) : M512 K := fun lane => a lane + b lane

/-- `_mm512_sub_ps`. -/
def subPs (a b : M512 K) : M512 K := fun lane => a lane - b lane

/-- `_mm512_fmadd_ps`. -/
def fmaddPs (a b c : M512 K) : M512 K := fun lane => a lane * b lane + c lane

/-- `_mm512_reduce_add_ps`. -/
def reduceAddPs (a : M512 K) : K := ∑ lane, a lane

/-- `_mm512_sign_ps`, which the sources use and do not declare: `v`, zero or `-v` as `b` is
positive, zero or negative. -/
def signPs (v b : M512 K) : M512 K := fun lane =>
  if 0 < b lane then v lane else if b lane = 0 then 0 else -v lane

/-- `_mm512_cmp_ps_mask` under `_CMP_NEQ_OQ`. -/
def cmpNeqMask (a b : M512 K) : Fin 16 → Bool := fun lane => a lane ≠ b lane

end Intrinsics

/-- `__builtin_popcount`. -/
def popcount (mask : Fin 16 → Bool) : ℕ := ∑ lane, (mask lane).toNat

end M512

open M512

/-! ## The functions

A pointer is the memory it leads to.  With `length >= 16`, the test `i <= length - 16` says that a
whole register fits. -/

section Functions

variable [Field K] [LinearOrder K]

/-- A plain loop over the array. -/
def scalarSum (length : ℕ) (scalar : ℕ → K → K) : K := (strided 1 length scalar 0 0).2

/-- The two loops of a vectorised sum: whole registers first, then the lanes left over. -/
def vectorSum (length : ℕ) (vec : ℕ → M512 K → M512 K) (scalar : ℕ → K → K) : K :=
  let blocks := strided 16 length vec 0 setzeroPs
  (strided 1 length scalar blocks.1 (reduceAddPs blocks.2)).2

/-- `calculate_variance_avx512`. -/
def calculateVarianceAvx512 (data : ℕ → K) (length : ℕ) : K :=
  if length < 16 then
    let mean := scalarSum length (fun i sum => sum + data i) / length
    scalarSum length (fun i variance =>
      let diff := data i - mean
      variance + diff * diff) / length
  else
    let mean := vectorSum length (fun i sumVec => addPs sumVec (loaduPs data i))
      (fun i totalSum => totalSum + data i) / length
    vectorSum length (fun i varianceVec =>
        let diff := subPs (loaduPs data i) (set1Ps mean)
        fmaddPs diff diff varianceVec)
      (fun i totalVariance =>
        let diff := data i - mean
        totalVariance + diff * diff) / length

/-- `calculate_mean_avx512`. -/
def calculateMeanAvx512 (data : ℕ → K) (length : ℕ) : K :=
  if length < 16 then scalarSum length (fun i sum => sum + data i) / length
  else
    vectorSum length (fun i sumVec => addPs sumVec (loaduPs data i))
      (fun i totalSum => totalSum + data i) / length

/-- `dot_product_avx512`. -/
def dotProductAvx512 (a b : ℕ → K) (length : ℕ) : K :=
  if length < 16 then scalarSum length (fun i result => result + a i * b i)
  else
    vectorSum length (fun i sumVec => fmaddPs (loaduPs a i) (loaduPs b i) sumVec)
      (fun i result => result + a i * b i)

/-- The sign changes from `data[i-1]` to `data[i]`. -/
def Crosses (data : ℕ → K) (i : ℕ) : Prop :=
  (data i ≥ 0 ∧ data (i - 1) < 0) ∨ (data i < 0 ∧ data (i - 1) ≥ 0)

instance (data : ℕ → K) (i : ℕ) : Decidable (Crosses data i) :=
  inferInstanceAs (Decidable (_ ∨ _))

/-- One round of a plain loop over the crossings. -/
def countCrossing (data : ℕ → K) (i : ℕ) (crossings : K) : K :=
  if Crosses data i then crossings + 1 else crossings

/-- One round of the loop over whole registers. -/
def countSignChange (data : ℕ → K) (i : ℕ) (crossings : K) : K :=
  let prevSign := signPs (loaduPs data (i - 1)) (set1Ps 1)
  let currSign := signPs (loaduPs data i) (set1Ps 1)
  crossings + popcount (cmpNeqMask prevSign currSign)

/-- `calculate_zcr_avx512`. -/
def calculateZcrAvx512 (data : ℕ → K) (length : ℕ) : K :=
  if length < 16 then (strided 1 length (countCrossing data) 1 0).2 / length
  else
    let blocks := strided 16 length (countSignChange data) 1 0
    (strided 1 length (countCrossing data) blocks.1 blocks.2).2 / length

end Functions

/-! ## Sums -/

section Sums

variable [Field K] {f : ℕ → K} {scalar : ℕ → K → K} {vec : ℕ → M512 K → M512 K} {length : ℕ}

/-- A block of sixteen indices, lane by lane. -/
theorem sum_lanes (f : ℕ → K) (i : ℕ) :
    ∑ lane : Fin 16, f (i + lane) = ∑ j ∈ Ico i (i + 16), f j := by
  rw [Fin.sum_univ_eq_sum_range fun k => f (i + k), sum_Ico_eq_sum_range, Nat.add_sub_cancel_left]

theorem scalarSum_eq (hscalar : ∀ i m, scalar i m = m + f i) :
    scalarSum length scalar = ∑ i ∈ range length, f i := by
  rw [scalarSum, strided_one_snd hscalar 0 (Nat.zero_le length), zero_add, range_eq_Ico]

/-- **A vectorised sum is the sum.** -/
theorem vectorSum_eq (hvec : ∀ i v (lane : Fin 16), vec i v lane = v lane + f (i + lane))
    (hscalar : ∀ i m, scalar i m = m + f i) :
    vectorSum length vec scalar = ∑ i ∈ range length, f i := by
  have hbody : ∀ i v, 0 ≤ i →
      reduceAddPs (vec i v) = reduceAddPs v + ∑ j ∈ Ico i (i + 16), f j := by
    intro i v _
    simp only [reduceAddPs, hvec, sum_add_distrib, sum_lanes]
  have hzero : reduceAddPs (setzeroPs : M512 K) = 0 := sum_const_zero
  rw [vectorSum, measure_strided_tail hbody hscalar setzeroPs (Nat.zero_le length), hzero, zero_add,
    range_eq_Ico]

/-- **The mean.** -/
theorem calculateMeanAvx512_eq (data : ℕ → K) (length : ℕ) :
    calculateMeanAvx512 data length = (∑ i ∈ range length, data i) / length := by
  rw [calculateMeanAvx512]
  split_ifs
  · exact congrArg (· / (length : K)) (scalarSum_eq fun _ _ => rfl)
  · exact congrArg (· / (length : K)) (vectorSum_eq (fun _ _ _ => rfl) fun _ _ => rfl)

/-- **The dot product.** -/
theorem dotProductAvx512_eq (a b : ℕ → K) (length : ℕ) :
    dotProductAvx512 a b length = ∑ i ∈ range length, a i * b i := by
  rw [dotProductAvx512]
  split_ifs
  · exact scalarSum_eq fun _ _ => rfl
  · exact vectorSum_eq (fun _ _ _ => add_comm _ _) fun _ _ => rfl

/-- **The variance**, around the mean. -/
theorem calculateVarianceAvx512_eq (data : ℕ → K) (length : ℕ) :
    calculateVarianceAvx512 data length =
      (∑ i ∈ range length, (data i - calculateMeanAvx512 data length) ^ 2) / length := by
  simp only [calculateVarianceAvx512, calculateMeanAvx512, sq]
  split_ifs
  · exact congrArg (· / (length : K)) (scalarSum_eq fun _ _ => rfl)
  · exact congrArg (· / (length : K)) (vectorSum_eq (fun _ _ _ => add_comm _ _) fun _ _ => rfl)

end Sums

/-! ## Crossings -/

section Crossings

variable [Field K] [LinearOrder K] {data : ℕ → K} {length : ℕ}

theorem countCrossing_eq (data : ℕ → K) (i : ℕ) (crossings : K) :
    countCrossing data i crossings = crossings + if Crosses data i then 1 else 0 := by
  rw [countCrossing]
  split_ifs
  · rfl
  · rw [add_zero]

/-- Below a register, the rate of sign changes. -/
theorem calculateZcrAvx512_of_lt (hpos : 0 < length) (hlt : length < 16) :
    calculateZcrAvx512 data length =
      (∑ i ∈ Ico 1 length, if Crosses data i then 1 else 0) / length := by
  rw [calculateZcrAvx512, if_pos hlt, strided_one_snd (countCrossing_eq data) 0 hpos, zero_add]

theorem popcount_cmpNeqMask (a b : M512 K) :
    (popcount (cmpNeqMask a b) : K) = ∑ lane, if a lane ≠ b lane then 1 else 0 := by
  rw [popcount, Nat.cast_sum]
  refine sum_congr rfl fun lane _ => ?_
  by_cases h : a lane = b lane <;> simp [cmpNeqMask, h]

variable [IsStrictOrderedRing K]

/-- The sign of a value by `1` is the value. -/
theorem signPs_one (v : M512 K) : signPs v (set1Ps 1) = v :=
  funext fun _ => if_pos zero_lt_one

/-- The registers are compared for different values. -/
theorem countSignChange_eq (data : ℕ → K) (i : ℕ) (crossings : K) (hi : 1 ≤ i) :
    countSignChange data i crossings =
      crossings + ∑ j ∈ Ico i (i + 16), if data (j - 1) ≠ data j then 1 else 0 := by
  have hlane : ∀ lane : ℕ, i - 1 + lane = i + lane - 1 := fun lane => by omega
  rw [← sum_lanes fun j => if data (j - 1) ≠ data j then (1 : K) else 0]
  simp only [countSignChange, signPs_one, popcount_cmpNeqMask, loaduPs, hlane]

/-- **From a register on, the rate counts changes of value** in the blocks of sixteen, and sign
changes after them. -/
theorem calculateZcrAvx512_of_le (hle : 16 ≤ length) :
    calculateZcrAvx512 data length =
      (∑ i ∈ Ico 1 (1 + (length - 1) / 16 * 16), (if data (i - 1) ≠ data i then 1 else 0) +
        ∑ i ∈ Ico (1 + (length - 1) / 16 * 16) length, if Crosses data i then 1 else 0) /
      length := by
  have hone : 1 ≤ length := by omega
  have hblocks := @measure_strided K K 16 length (countSignChange data) _
    (fun j => if data (j - 1) ≠ data j then 1 else 0) id 1 (countSignChange_eq data) 0
  simp only [id] at hblocks
  simp only [calculateZcrAvx512, if_neg (not_lt.mpr hle)]
  rw [strided_one_snd (countCrossing_eq data) _ (strided_fst_le _ _ hone), hblocks,
    strided_fst (by decide) _ _ hone, zero_add]

/-- How many of the first `m` steps change the value. -/
def changes {α : Type*} [DecidableEq α] (data : ℕ → α) (m : ℕ) : ℕ :=
  #{i ∈ range m | data i ≠ data (i + 1)}

/-- **On data without a sign, the rate is one of changes**, of the steps that fill whole blocks. -/
theorem calculateZcrAvx512_of_nonneg (hle : 16 ≤ length) (hdata : ∀ i < length, 0 ≤ data i) :
    calculateZcrAvx512 data length = changes data ((length - 1) / 16 * 16) / length := by
  have htail : ∑ i ∈ Ico (1 + (length - 1) / 16 * 16) length,
      (if Crosses data i then 1 else 0 : K) = 0 := by
    refine sum_eq_zero fun i hi => if_neg ?_
    have hi' := (mem_Ico.mp hi).2
    rintro (⟨-, hneg⟩ | ⟨hneg, -⟩)
    · exact absurd hneg (not_lt.mpr (hdata _ (by omega)))
    · exact absurd hneg (not_lt.mpr (hdata i hi'))
  rw [calculateZcrAvx512_of_le hle, htail, add_zero, sum_Ico_eq_sum_range,
    Nat.add_sub_cancel_left, changes, ← sum_boole]
  simp only [Nat.add_comm 1, Nat.add_sub_cancel]

end Crossings

end BioShield
