import BioShield.Core.DeepfakeDetector
import BioShield.Machinery.Reading
import Mathlib

/-!
# Core/KernelReads — which samples the kernels read (`core/avx512_math.cpp`)

The kernels once more, with every access to an array recorded: each computes what its plain version
computes (`result_…`), and reads what it says.  Mean, variance and dot product pass over the array
in order, each index once a pass (`avx512_kernels_eq`).

A verdict on a channel reads nothing from `num_samples` on, and everything below it if there are at
least 32 samples: `mem_reads_analyzeVoiceChannel_iff`.
-/

namespace BioShield

open Machinery Machinery.Reading M512

namespace M512

variable {ι K : Type*}

/-- `_mm512_loadu_ps`, of the sixteen indices from `i` on. -/
def readPs (memory : ι → K) (address : ℕ → ι) (i : ℕ) : Reading ι (M512 K) :=
  ⟨loaduPs (memory ∘ address) i, (List.range' i 16).map address⟩

@[simp] theorem result_readPs (memory : ι → K) (address : ℕ → ι) (i : ℕ) :
    (readPs memory address i).result = loaduPs (memory ∘ address) i := rfl

@[simp] theorem reads_readPs (memory : ι → K) (address : ℕ → ι) (i : ℕ) :
    (readPs memory address i).reads = (List.range' i 16).map address := rfl

end M512

/-! ## Sums -/

section Sums

universe u v

variable {ι : Type u} {K : Type v} [Field K]

/-- A plain loop over the array. -/
def scalarSumReading (length : ℕ) (scalar : ℕ → K → Reading ι K) : Reading ι K := do
  let sum ← Reading.strided 1 length scalar 0 0
  return sum.2

/-- The two loops of a vectorised sum. -/
def vectorSumReading (length : ℕ) (vec : ℕ → M512 K → Reading ι (M512 K))
    (scalar : ℕ → K → Reading ι K) : Reading ι K := do
  let blocks ← Reading.strided 16 length vec 0 setzeroPs
  let sum ← Reading.strided 1 length scalar blocks.1 (reduceAddPs blocks.2)
  return sum.2

variable {length : ℕ} {vec : ℕ → M512 K → Reading ι (M512 K)} {scalar : ℕ → K → Reading ι K}

@[simp] theorem result_scalarSumReading :
    (scalarSumReading length scalar).result =
      scalarSum length fun i sum => (scalar i sum).result := by
  simp [scalarSumReading, scalarSum]

@[simp] theorem result_vectorSumReading :
    (vectorSumReading length vec scalar).result =
      vectorSum length (fun i v => (vec i v).result) fun i sum => (scalar i sum).result := by
  simp [vectorSumReading, vectorSum]

/-- A plain loop passes over the array… -/
theorem reads_scalarSumReading {f : ι → Option ℕ}
    (hscalar : ∀ i sum, (scalar i sum).reads.filterMap f = [i]) :
    (scalarSumReading length scalar).reads.filterMap f = List.range length := by
  simp only [scalarSumReading, reads_bind, reads_pure, List.append_nil]
  rw [reads_strided hscalar, result_strided, strided_one_fst _ _ (Nat.zero_le length),
    List.range_eq_range', Nat.sub_zero]

/-- …and so do the two loops of a vectorised one… -/
theorem reads_vectorSumReading {f : ι → Option ℕ}
    (hvec : ∀ i v, (vec i v).reads.filterMap f = List.range' i 16)
    (hscalar : ∀ i sum, (scalar i sum).reads.filterMap f = [i]) :
    (vectorSumReading length vec scalar).reads.filterMap f = List.range length := by
  simp only [vectorSumReading, reads_bind, reads_pure, List.append_nil]
  rw [reads_strided_tail hvec hscalar _ _ (Nat.zero_le length), List.range_eq_range',
    Nat.sub_zero]

/-- …also where it is the only one. -/
theorem reads_scalarSumReading_self {scalar : ℕ → K → Reading ℕ K}
    (hscalar : ∀ i sum, (scalar i sum).reads = [i]) :
    (scalarSumReading length scalar).reads = List.range length := by
  simpa using reads_scalarSumReading (f := some) fun i sum => by rw [hscalar, List.filterMap_some]

theorem reads_vectorSumReading_self {vec : ℕ → M512 K → Reading ℕ (M512 K)}
    {scalar : ℕ → K → Reading ℕ K} (hvec : ∀ i v, (vec i v).reads = List.range' i 16)
    (hscalar : ∀ i sum, (scalar i sum).reads = [i]) :
    (vectorSumReading length vec scalar).reads = List.range length := by
  simpa using reads_vectorSumReading (f := some)
    (fun i v => by rw [hvec, List.filterMap_some]) fun i sum => by rw [hscalar, List.filterMap_some]

end Sums

/-! ## Mean, variance and dot product -/

section Kernels

variable {K : Type*} [Field K]

/-- `calculate_mean_avx512`. -/
def calculateMeanReading (data : ℕ → K) (length : ℕ) : Reading ℕ K :=
  if length < 16 then do
    let sum ← scalarSumReading length fun i sum => do return sum + (← read data i)
    return sum / length
  else do
    let totalSum ← vectorSumReading length
      (fun i sumVec => do return addPs sumVec (← readPs data id i))
      (fun i totalSum => do return totalSum + (← read data i))
    return totalSum / length

/-- `calculate_variance_avx512`. -/
def calculateVarianceReading (data : ℕ → K) (length : ℕ) : Reading ℕ K :=
  if length < 16 then do
    let sum ← scalarSumReading length fun i sum => do return sum + (← read data i)
    let mean := sum / length
    let variance ← scalarSumReading length fun i variance => do
      let diff := (← read data i) - mean
      return variance + diff * diff
    return variance / length
  else do
    let totalSum ← vectorSumReading length
      (fun i sumVec => do return addPs sumVec (← readPs data id i))
      (fun i totalSum => do return totalSum + (← read data i))
    let mean := totalSum / length
    let totalVariance ← vectorSumReading length
      (fun i varianceVec => do
        let diff := subPs (← readPs data id i) (set1Ps mean)
        return fmaddPs diff diff varianceVec)
      (fun i totalVariance => do
        let diff := (← read data i) - mean
        return totalVariance + diff * diff)
    return totalVariance / length

/-- `dot_product_avx512`; the left addresses are those of `a`, the right ones those of `b`. -/
def dotProductReading (a b : ℕ → K) (length : ℕ) : Reading (ℕ ⊕ ℕ) K :=
  let memory := Sum.elim a b
  if length < 16 then
    scalarSumReading length fun i result => do
      return result + (← read memory (.inl i)) * (← read memory (.inr i))
  else
    vectorSumReading length
      (fun i sumVec => do
        let aVec ← readPs memory .inl i
        let bVec ← readPs memory .inr i
        return fmaddPs aVec bVec sumVec)
      (fun i result => do
        return result + (← read memory (.inl i)) * (← read memory (.inr i)))

variable (data a b : ℕ → K) (length : ℕ)

theorem result_calculateMeanReading :
    (calculateMeanReading data length).result = calculateMeanAvx512 data length := by
  rw [calculateMeanReading, calculateMeanAvx512]
  split_ifs <;> simp

theorem result_calculateVarianceReading :
    (calculateVarianceReading data length).result = calculateVarianceAvx512 data length := by
  rw [calculateVarianceReading, calculateVarianceAvx512]
  split_ifs <;> simp

theorem result_dotProductReading :
    (dotProductReading a b length).result = dotProductAvx512 a b length := by
  simp only [dotProductReading, dotProductAvx512]
  split_ifs <;> simp [Function.comp_def]

/-- The mean is one pass… -/
theorem reads_calculateMeanReading :
    (calculateMeanReading data length).reads = List.range length := by
  rw [calculateMeanReading]
  split_ifs
  · rw [reads_bind, reads_scalarSumReading_self (by simp), reads_pure, List.append_nil]
  · rw [reads_bind, reads_vectorSumReading_self (by simp) (by simp), reads_pure, List.append_nil]

/-- …the variance two… -/
theorem reads_calculateVarianceReading :
    (calculateVarianceReading data length).reads = List.range length ++ List.range length := by
  rw [calculateVarianceReading]
  split_ifs
  · rw [reads_bind, reads_scalarSumReading_self (by simp)]
    rw [reads_bind, reads_scalarSumReading_self (by simp), reads_pure, List.append_nil]
  · rw [reads_bind, reads_vectorSumReading_self (by simp) (by simp)]
    rw [reads_bind, reads_vectorSumReading_self (by simp) (by simp), reads_pure, List.append_nil]

/-- …and the dot product one of each array. -/
theorem reads_dotProductReading :
    (dotProductReading a b length).reads.filterMap Sum.getLeft? = List.range length ∧
      (dotProductReading a b length).reads.filterMap Sum.getRight? = List.range length := by
  have hll : (Sum.getLeft? : ℕ ⊕ ℕ → Option ℕ) ∘ Sum.inl = some := rfl
  have hlr : (Sum.getLeft? : ℕ ⊕ ℕ → Option ℕ) ∘ Sum.inr = fun _ => none := rfl
  have hrl : (Sum.getRight? : ℕ ⊕ ℕ → Option ℕ) ∘ Sum.inl = fun _ => none := rfl
  have hrr : (Sum.getRight? : ℕ ⊕ ℕ → Option ℕ) ∘ Sum.inr = some := rfl
  simp only [dotProductReading]
  split_ifs
  · exact ⟨reads_scalarSumReading fun _ _ => rfl, reads_scalarSumReading fun _ _ => rfl⟩
  · exact ⟨reads_vectorSumReading (by simp [hll, hlr]) fun _ _ => rfl,
      reads_vectorSumReading (by simp [hrl, hrr]) fun _ _ => rfl⟩

/-- **The chunked kernels are the plain ones**: whatever the length, a kernel computes the textbook
value, and passes over its array once for each sum in it, from the first index to the last. -/
theorem avx512_kernels_eq :
    calculateMeanReading data length =
        ⟨(∑ i ∈ Finset.range length, data i) / length, List.range length⟩ ∧
      calculateVarianceReading data length =
        ⟨(∑ i ∈ Finset.range length,
            (data i - (∑ j ∈ Finset.range length, data j) / length) ^ 2) / length,
          List.range length ++ List.range length⟩ ∧
      (dotProductReading a b length).result = ∑ i ∈ Finset.range length, a i * b i ∧
      (dotProductReading a b length).reads.filterMap Sum.getLeft? = List.range length ∧
      (dotProductReading a b length).reads.filterMap Sum.getRight? = List.range length := by
  refine ⟨Reading.ext ?_ (reads_calculateMeanReading data length),
    Reading.ext ?_ (reads_calculateVarianceReading data length), ?_,
    reads_dotProductReading a b length⟩
  · rw [result_calculateMeanReading, calculateMeanAvx512_eq]
  · rw [result_calculateVarianceReading, calculateVarianceAvx512_eq, calculateMeanAvx512_eq]
  · rw [result_dotProductReading, dotProductAvx512_eq]

end Kernels

/-! ## The verdict on a channel -/

section Verdict

variable {K : Type} [Field K] [LinearOrder K]

/-- One round of a plain loop over the crossings: `data[i]` and `data[i-1]`. -/
def countCrossingReading (data : ℕ → K) (i : ℕ) (crossings : K) : Reading ℕ K := do
  let curr ← read data i
  let prev ← read data (i - 1)
  return if (curr ≥ 0 ∧ prev < 0) ∨ (curr < 0 ∧ prev ≥ 0) then crossings + 1 else crossings

/-- One round of the loop over whole registers. -/
def countSignChangeReading (data : ℕ → K) (i : ℕ) (crossings : K) : Reading ℕ K := do
  let prevVec ← readPs data id (i - 1)
  let currVec ← readPs data id i
  let prevSign := signPs prevVec (set1Ps 1)
  let currSign := signPs currVec (set1Ps 1)
  return crossings + popcount (cmpNeqMask prevSign currSign)

/-- `calculate_zcr_avx512`. -/
def calculateZcrReading (data : ℕ → K) (length : ℕ) : Reading ℕ K :=
  if length < 16 then do
    let crossings ← Reading.strided 1 length (countCrossingReading data) 1 0
    return crossings.2 / length
  else do
    let blocks ← Reading.strided 16 length (countSignChangeReading data) 1 0
    let crossings ← Reading.strided 1 length (countCrossingReading data) blocks.1 blocks.2
    return crossings.2 / length

namespace DeepfakeDetector

/-- `calculate_spectral_flatness`. -/
def calculateSpectralFlatnessReading (pow : K → K → K) (samples : ℕ → K) (numSamples : ℕ) :
    Reading ℕ K := do
  let means ← Reading.strided 1 numSamples (fun i (s : K × K) => do
    let absVal := |← read samples i|
    return (s.1 * pow (absVal + 1e-10) (1 / numSamples), s.2 + absVal / numSamples)) 0 (1, 0)
  let geometricMean := means.2.1
  let arithmeticMean := means.2.2
  return if arithmeticMean < 1e-6 then 1 else geometricMean / arithmeticMean

/-- `predict_neural_network`. -/
def predictNeuralNetworkReading (samples : ℕ → K) (numSamples : ℕ) : Reading ℕ K := do
  let sum ← Reading.strided 1 (min numSamples 64) (fun i sum => do
    return sum + (← read samples i)) 0 0
  let mean := sum.2 / (min numSamples 64 : ℕ)
  return if mean < 0.2 then 0.8 else 0.2

/-- `analyze_voice_channel`. -/
def analyzeVoiceChannelReading (pow : K → K → K) (detector : DeepfakeDetector K)
    (samples : ℕ → K) (numSamples : ℕ) : Reading ℕ Bool :=
  if numSamples < 32 then return false
  else do
    let variance ← calculateVarianceReading samples numSamples
    let zcr ← calculateZcrReading samples numSamples
    let spectralFlatness ← calculateSpectralFlatnessReading pow samples numSamples
    let scoreVariance := if variance < detector.mThresholdVariance then 1 else 0
    let scoreZcr := if zcr < detector.mThresholdZcr then 1 else 0
    let scoreSpectral := if spectralFlatness < detector.mThresholdSpectral then 1 else 0
    let ensembleScore := scoreVariance * detector.mWeightVariance +
      scoreZcr * detector.mWeightZcr + scoreSpectral * detector.mWeightSpectral
    let ensembleScore ←
      if detector.mWeightsLoaded then do
        let nnScore ← predictNeuralNetworkReading samples numSamples
        pure (ensembleScore * (1 - detector.mWeightNn) + nnScore * detector.mWeightNn)
      else pure ensembleScore
    return ensembleScore > 0.65

end DeepfakeDetector

section Results

variable {pow : K → K → K} {detector : DeepfakeDetector K} {samples : ℕ → K} {numSamples : ℕ}

theorem result_calculateZcrReading :
    (calculateZcrReading samples numSamples).result = calculateZcrAvx512 samples numSamples := by
  have hcross : ∀ i crossings, (countCrossingReading samples i crossings).result =
      countCrossing samples i crossings := fun _ _ => rfl
  have hsign : ∀ i crossings, (countSignChangeReading samples i crossings).result =
      countSignChange samples i crossings := fun _ _ => rfl
  rw [calculateZcrReading, calculateZcrAvx512]
  split_ifs <;> simp [hcross, hsign]

/-- The crossings are looked for below the length. -/
theorem lt_of_mem_reads_calculateZcrReading :
    ∀ i ∈ (calculateZcrReading samples numSamples).reads, i < numSamples := by
  have hscalar : ∀ (first k : ℕ) (crossings : K), first ≤ k → k + 1 ≤ numSamples →
      ∀ i ∈ (countCrossingReading samples k crossings).reads, i < numSamples := by
    intro first k crossings _ hk i hi
    simp only [countCrossingReading, reads_bind, reads_read, reads_pure, List.append_nil,
      List.mem_append, List.mem_singleton] at hi
    omega
  have hvec : ∀ (k : ℕ) (crossings : K), 1 ≤ k → k + 16 ≤ numSamples →
      ∀ i ∈ (countSignChangeReading samples k crossings).reads, i < numSamples := by
    intro k crossings _ hk i hi
    simp only [countSignChangeReading, reads_bind, reads_readPs, reads_pure, List.map_id,
      List.append_nil, List.mem_append, List.mem_range'_1] at hi
    omega
  rw [calculateZcrReading]
  split_ifs
  · rw [reads_bind, reads_pure, List.append_nil]
    exact forall_mem_reads_strided (hscalar 1) 0
  · rw [reads_bind, reads_bind, reads_pure, List.append_nil, List.forall_mem_append]
    exact ⟨forall_mem_reads_strided hvec 0, forall_mem_reads_strided (hscalar _) _⟩

namespace DeepfakeDetector

theorem lt_of_mem_reads_calculateSpectralFlatnessReading :
    ∀ i ∈ (calculateSpectralFlatnessReading pow samples numSamples).reads, i < numSamples := by
  rw [calculateSpectralFlatnessReading, reads_bind, reads_pure, List.append_nil]
  exact forall_mem_reads_strided (fun k means _ hk i hi => by simp at hi; omega) _

theorem lt_of_mem_reads_predictNeuralNetworkReading :
    ∀ i ∈ (predictNeuralNetworkReading samples numSamples).reads, i < numSamples := by
  rw [predictNeuralNetworkReading, reads_bind, reads_pure, List.append_nil]
  exact forall_mem_reads_strided (fun k sum _ hk i hi => by simp at hi; omega) _

/-- **What a verdict reads**: with enough samples, all of them, and nothing else. -/
theorem mem_reads_analyzeVoiceChannelReading_iff {i : ℕ} :
    i ∈ (detector.analyzeVoiceChannelReading pow samples numSamples).reads ↔
      32 ≤ numSamples ∧ i < numSamples := by
  rw [analyzeVoiceChannelReading]
  by_cases hlen : numSamples < 32
  · rw [if_pos hlen]
    exact iff_of_false List.not_mem_nil fun h => absurd hlen (not_lt.mpr h.1)
  · rw [if_neg hlen, and_iff_right (not_lt.mp hlen), reads_bind, reads_calculateVarianceReading]
    refine ⟨fun hi => ?_, fun hi =>
      List.mem_append_left _ (List.mem_append_left _ (List.mem_range.mpr hi))⟩
    cases hloaded : detector.mWeightsLoaded <;>
      simp only [hloaded, Bool.false_eq_true, if_true, if_false, reads_bind, reads_pure,
        List.append_nil, List.mem_append, List.mem_range, or_self] at hi
    · rcases hi with hi | hi | hi
      · exact hi
      · exact lt_of_mem_reads_calculateZcrReading i hi
      · exact lt_of_mem_reads_calculateSpectralFlatnessReading i hi
    · rcases hi with hi | hi | hi | hi
      · exact hi
      · exact lt_of_mem_reads_calculateZcrReading i hi
      · exact lt_of_mem_reads_calculateSpectralFlatnessReading i hi
      · exact lt_of_mem_reads_predictNeuralNetworkReading i hi

section Exact

variable [IsStrictOrderedRing K]

theorem result_calculateSpectralFlatnessReading :
    (calculateSpectralFlatnessReading pow samples numSamples).result =
      calculateSpectralFlatness pow samples numSamples := by
  have hten : (1e-10 : K) = 1 / 10 ^ 10 := by norm_num
  have hsix : (1e-6 : K) = 1 / 10 ^ 6 := by norm_num
  simp [calculateSpectralFlatnessReading, calculateSpectralFlatness, hten, hsix]

theorem result_predictNeuralNetworkReading :
    (predictNeuralNetworkReading samples numSamples).result =
      predictNeuralNetwork samples numSamples := by
  have hlow : (0.2 : K) = 2 / 10 := by norm_num
  have hhigh : (0.8 : K) = 8 / 10 := by norm_num
  simp [predictNeuralNetworkReading, predictNeuralNetwork, meanOfFirst, hlow, hhigh]

/-- The verdict with its accesses recorded is the verdict. -/
theorem result_analyzeVoiceChannelReading :
    (detector.analyzeVoiceChannelReading pow samples numSamples).result =
      detector.analyzeVoiceChannel pow samples numSamples := by
  have hbound : (0.65 : K) = 65 / 100 := by norm_num
  rw [analyzeVoiceChannelReading, analyzeVoiceChannel]
  by_cases hlen : numSamples < 32
  · rw [if_pos hlen, if_pos hlen]
    rfl
  · rw [if_neg hlen, if_neg hlen]
    cases detector.mWeightsLoaded <;>
      simp [result_calculateVarianceReading, result_calculateZcrReading,
        result_calculateSpectralFlatnessReading, result_predictNeuralNetworkReading, hbound]

end Exact

end DeepfakeDetector

end Results

end Verdict

end BioShield
