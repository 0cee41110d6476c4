import BioShield.Core.Avx512Math
import Mathlib

/-!
# Core/DeepfakeDetector — the native verdict on a channel (`core/deepfake_detector.cpp`)

Three features vote with the weights of `initialize`, `0.40`, `0.35` and `0.25`, and a verdict takes
more than `0.65`.  Variance and zero-crossing rate together have it, variance and flatness together
have `0.65` exactly, so the spectral flatness never decides: `analyzeVoiceChannel_iff`.  With a
weights file the network can tip that balance (`analyzeVoiceChannel_loadWeights_iff`).

Arithmetic is that of an ordered field; `std::pow` is a parameter.
-/

namespace BioShield

open Machinery

variable {K : Type*} [Field K] [LinearOrder K]

/-- The members a verdict on one channel reads. -/
structure DeepfakeDetector (K : Type*) where
  mThresholdVariance : K
  mThresholdZcr : K
  mThresholdSpectral : K
  mWeightVariance : K
  mWeightZcr : K
  mWeightSpectral : K
  mWeightNn : K
  mWeightsLoaded : Bool

namespace DeepfakeDetector

/-- The constructor. -/
def new : DeepfakeDetector K where
  mThresholdVariance := 45 / 1000
  mThresholdZcr := 35 / 100
  mThresholdSpectral := 82 / 100
  mWeightVariance := 35 / 100
  mWeightZcr := 30 / 100
  mWeightSpectral := 20 / 100
  mWeightNn := 15 / 100
  mWeightsLoaded := false

/-- `initialize`. -/
def initializeDetector (detector : DeepfakeDetector K) : DeepfakeDetector K :=
  { detector with
    mWeightVariance := 40 / 100
    mWeightZcr := 35 / 100
    mWeightSpectral := 25 / 100 }

/-- `load_weights`; the weights themselves are never read. -/
def loadWeights (isOpen : Bool) (detector : DeepfakeDetector K) : DeepfakeDetector K :=
  if isOpen then { detector with mWeightsLoaded := true } else detector

/-- `calculate_spectral_flatness`. -/
def calculateSpectralFlatness (pow : K → K → K) (samples : ℕ → K) (numSamples : ℕ) : K :=
  let means := (strided 1 numSamples (fun i (s : K × K) =>
    let absVal := |samples i|
    (s.1 * pow (absVal + 1 / 10 ^ 10) (1 / numSamples), s.2 + absVal / numSamples)) 0 (1, 0)).2
  let geometricMean := means.1
  let arithmeticMean := means.2
  if arithmeticMean < 1 / 10 ^ 6 then 1 else geometricMean / arithmeticMean

/-- `mean` of `predict_neural_network`. -/
def meanOfFirst (samples : ℕ → K) (numSamples : ℕ) : K :=
  (strided 1 (min numSamples 64) (fun i sum => sum + samples i) 0 0).2 / (min numSamples 64 : ℕ)

/-- `predict_neural_network`. -/
def predictNeuralNetwork (samples : ℕ → K) (numSamples : ℕ) : K :=
  if meanOfFirst samples numSamples < 2 / 10 then 8 / 10 else 2 / 10

/-- `analyze_voice_channel`. -/
def analyzeVoiceChannel (pow : K → K → K) (detector : DeepfakeDetector K) (samples : ℕ → K)
    (numSamples : ℕ) : Bool :=
  if numSamples < 32 then false
  else
    let variance := calculateVarianceAvx512 samples numSamples
    let zcr := calculateZcrAvx512 samples numSamples
    let spectralFlatness := calculateSpectralFlatness pow samples numSamples
    let scoreVariance := if variance < detector.mThresholdVariance then 1 else 0
    let scoreZcr := if zcr < detector.mThresholdZcr then 1 else 0
    let scoreSpectral := if spectralFlatness < detector.mThresholdSpectral then 1 else 0
    let ensembleScore := scoreVariance * detector.mWeightVariance +
      scoreZcr * detector.mWeightZcr + scoreSpectral * detector.mWeightSpectral
    let ensembleScore :=
      if detector.mWeightsLoaded then
        ensembleScore * (1 - detector.mWeightNn) +
          predictNeuralNetwork samples numSamples * detector.mWeightNn
      else ensembleScore
    ensembleScore > 65 / 100

section Vote

variable [IsStrictOrderedRing K] {pow : K → K → K} {samples : ℕ → K} {numSamples : ℕ}

/-- **The vote without the network** goes by the first two features… -/
theorem ensembleScore_gt_iff (p q r : Prop) [Decidable p] [Decidable q] [Decidable r] :
    ((if p then 1 else 0) * (40 / 100) + (if q then 1 else 0) * (35 / 100) +
        (if r then 1 else 0) * (25 / 100) : K) > 65 / 100 ↔ p ∧ q := by
  by_cases hp : p <;> by_cases hq : q <;> by_cases hr : r <;> norm_num [hp, hq, hr]

/-- …and with it also by the first and the third, if the network agrees. -/
theorem ensembleScore_nn_gt_iff (p q r n : Prop) [Decidable p] [Decidable q] [Decidable r]
    [Decidable n] :
    ((((if p then 1 else 0) * (40 / 100) + (if q then 1 else 0) * (35 / 100) +
        (if r then 1 else 0) * (25 / 100)) * (1 - 15 / 100) +
        (if n then 8 / 10 else 2 / 10) * (15 / 100) : K)) > 65 / 100 ↔ p ∧ (q ∨ r ∧ n) := by
  by_cases hp : p <;> by_cases hq : q <;> by_cases hr : r <;> by_cases hn : n <;>
    norm_num [hp, hq, hr, hn]

theorem enoughSamples_iff {verdict : Bool} :
    (if numSamples < 32 then false else verdict) = true ↔ 32 ≤ numSamples ∧ verdict = true := by
  split_ifs with hlen
  · exact iff_of_false id fun h => absurd hlen (not_lt.mpr h.1)
  · exact (and_iff_right (not_lt.mp hlen)).symm

/-- **What the initialized detector decides by**: enough samples, a low variance and a low
zero-crossing rate… -/
theorem analyzeVoiceChannel_iff :
    (new (K := K)).initializeDetector.analyzeVoiceChannel pow samples numSamples ↔
      32 ≤ numSamples ∧ calculateVarianceAvx512 samples numSamples < 45 / 1000 ∧
        calculateZcrAvx512 samples numSamples < 35 / 100 := by
  rw [analyzeVoiceChannel, enoughSamples_iff]
  exact and_congr_right fun _ => decide_eq_true_iff.trans (ensembleScore_gt_iff _ _ _)

/-- …or, with a weights file, a flat spectrum in place of the crossings, when the first samples are
low. -/
theorem analyzeVoiceChannel_loadWeights_iff :
    ((new (K := K)).initializeDetector.loadWeights true).analyzeVoiceChannel pow samples
        numSamples ↔
      32 ≤ numSamples ∧ calculateVarianceAvx512 samples numSamples < 45 / 1000 ∧
        (calculateZcrAvx512 samples numSamples < 35 / 100 ∨
          calculateSpectralFlatness pow samples numSamples < 82 / 100 ∧
            meanOfFirst samples numSamples < 2 / 10) := by
  rw [analyzeVoiceChannel, enoughSamples_iff]
  exact and_congr_right fun _ => decide_eq_true_iff.trans (ensembleScore_nn_gt_iff _ _ _ _)

end Vote

end DeepfakeDetector

end BioShield
