import BioShield.Api.MeasuredVerdict
import BioShield.Core.DeepfakeDetector

/-!
# Api/EngineAgreement — does the verdict depend on the library? (`api/services/deepfake_service.py`)

With the native library loaded, `analyze_stream` asks the detector; without it, the variance alone.
Both call a stream a deepfake only on a low variance, and the detector wants more: 32 samples, and
few of them unlike the one before.  So the two agree on the streams of high variance and on those
where the detector gets all it wants (`agree_iff`).  The stream that the unit tests call a deepfake
is not among them.
-/

namespace BioShield

open Finset

/-! ## The engine behind the service -/

section Engine

variable {K : Type*} [Field K] [LinearOrder K]

/-- Finite samples in memory. -/
def samplesAt (qs : List ℚ) : ℕ → K := fun i => (qs.getD i 0 : ℚ)

/-- The initialized detector without a weights file, as the library exports it; what it answers on
data that is not finite is left open. -/
def nativeEngine (pow : K → K → K) (elsewhere : List PyFloat → Bool) (data : List PyFloat) : Bool :=
  match data.mapM PyFloat.toRat? with
  | some qs => DeepfakeDetector.new.initializeDetector.analyzeVoiceChannel pow (samplesAt qs)
      qs.length
  | none => elsewhere data

/-- The service with the native library. -/
def DeepfakeService.native (np : Numpy) (pow : K → K → K) (elsewhere : List PyFloat → Bool) :
    DeepfakeService :=
  ⟨np, some (nativeEngine pow elsewhere)⟩

/-! ## What each of the two decides by -/

/-- A mean, sample by sample. -/
theorem mean_map_eq (f : ℚ → ℚ) (qs : List ℚ) :
    mean (qs.map f) = (∑ i ∈ range qs.length, f (qs.getD i 0)) / qs.length := by
  have hsum : (qs.map f).sum = ∑ i ∈ range qs.length, f (qs.getD i 0) := by
    induction qs with
    | nil => rfl
    | cons q qs ih =>
      rw [List.length_cons, sum_range_succ', List.map_cons, List.sum_cons, ih, add_comm]
      rfl
  rw [mean, hsum, List.length_map]

variable [IsStrictOrderedRing K]

/-- **The native variance is numpy's**, on finite data. -/
theorem calculateVarianceAvx512_samplesAt (qs : List ℚ) :
    calculateVarianceAvx512 (samplesAt qs : ℕ → K) qs.length = (populationVariance qs : ℚ) := by
  have hmean : calculateMeanAvx512 (samplesAt qs : ℕ → K) qs.length = (mean qs : ℚ) := by
    have hqs := mean_map_eq id qs
    rw [List.map_id] at hqs
    rw [calculateMeanAvx512_eq, hqs]
    simp [samplesAt]
  rw [calculateVarianceAvx512_eq, hmean, populationVariance, mean_map_eq]
  simp [samplesAt]

/-- **The native zero-crossing rate counts changes**, on data that is not negative. -/
theorem calculateZcrAvx512_samplesAt {qs : List ℚ} (hlen : 16 ≤ qs.length)
    (hqs : ∀ q ∈ qs, 0 ≤ q) :
    calculateZcrAvx512 (samplesAt qs : ℕ → K) qs.length =
      (changes (fun i => qs.getD i 0) ((qs.length - 1) / 16 * 16) / qs.length : ℚ) := by
  have hchanges : ∀ m, changes (samplesAt qs : ℕ → K) m = changes (fun i => qs.getD i 0) m :=
    fun m => by simp only [changes, samplesAt, ne_eq, Rat.cast_inj]
  have hdata : ∀ i < qs.length, 0 ≤ (samplesAt qs i : K) := fun i hi => by
    rw [samplesAt, Rat.cast_nonneg, List.getD_eq_getElem _ _ hi]
    exact hqs _ (List.getElem_mem hi)
  rw [calculateZcrAvx512_of_nonneg hlen hdata, hchanges]
  push_cast
  rfl

theorem verdict_nativeEvaluation_iff (isDeepfake : Bool) :
    (nativeEvaluation isDeepfake).verdict = .criticalSuspectedDeepfake ↔ isDeepfake = true := by
  cases isDeepfake <;> decide

/-- The native service finds a deepfake where the samples are enough, their variance is low and few
of them are unlike the one before. -/
theorem critical_native_iff {np : Numpy} {pow : K → K → K} {elsewhere : List PyFloat → Bool}
    {draws : Draws} {clientId channelId : String} {qs : List ℚ}
    (harray : np.array (qs.map .finite) = qs.map .finite) (hqs : ∀ q ∈ qs, 0 ≤ q) :
    ((DeepfakeService.native np pow elsewhere).analyzeStream draws (qs.map .finite) clientId
        channelId).evaluationVerdict = .criticalSuspectedDeepfake ↔
      32 ≤ qs.length ∧ populationVariance qs < 45 / 1000 ∧
        (changes (fun i => qs.getD i 0) ((qs.length - 1) / 16 * 16) : ℚ) <
          35 / 100 * qs.length := by
  have hdata : (qs.map PyFloat.finite).mapM PyFloat.toRat? = some qs :=
    PyFloat.mapM_toRat?_eq_some_iff.mpr rfl
  change (nativeEvaluation (nativeEngine pow elsewhere (np.array (qs.map .finite)))).verdict = _ ↔ _
  rw [verdict_nativeEvaluation_iff, harray, nativeEngine, hdata]
  refine DeepfakeDetector.analyzeVoiceChannel_iff.trans (and_congr_right fun hlen => ?_)
  have hpos : (0 : ℚ) < qs.length := Nat.cast_pos.mpr (by omega)
  have hvariance : ((45 / 1000 : ℚ) : K) = 45 / 1000 := by norm_num
  have hzcr : ((35 / 100 : ℚ) : K) = 35 / 100 := by norm_num
  rw [calculateVarianceAvx512_samplesAt, calculateZcrAvx512_samplesAt (by omega) hqs, ← hvariance,
    ← hzcr, Rat.cast_lt, Rat.cast_lt, div_lt_iff₀ hpos]

end Engine

section Fallback

variable {np : Numpy} {draws : Draws} {clientId channelId : String} {qs : List ℚ}

/-- The fallback finds one where the variance is low. -/
theorem critical_fallback_iff (harray : np.array (qs.map .finite) = qs.map .finite)
    (hvar : np.var = ofFinite populationVariance) (hne : qs ≠ []) :
    ((DeepfakeService.fallback np).analyzeStream draws (qs.map .finite) clientId
        channelId).evaluationVerdict = .criticalSuspectedDeepfake ↔
      populationVariance qs < 45 / 1000 := by
  change (fallbackEvaluation (np.var (np.array (qs.map .finite)))).verdict = _ ↔ _
  rw [verdict_eq_critical_iff, harray, hvar, ofFinite_map_finite _ hne]
  exact decide_eq_true_iff

end Fallback

/-! ## Agreement -/

/-- **When the two engines agree**, in exact arithmetic: on an accepted stream of finite samples,
the native library and the fallback both call it a deepfake or both do not, exactly if its variance
is not low, or there are 32 samples at least and, in the blocks of sixteen, few changes. -/
theorem agree_iff {K : Type*} [Field K] [LinearOrder K] [IsStrictOrderedRing K] (np : Numpy)
    (hround : ∀ q : ℚ, 0 ≤ q → q ≤ 10 → np.nearestFloat32 q = q)
    (hvar : np.var = ofFinite populationVariance) (pow : K → K → K)
    (elsewhere : List PyFloat → Bool) (draws draws' : Draws) (clientId channelId : String)
    (payload : AudioStreamPayload) (qs : List ℚ)
    (hqs : payload.frequencyAmplitudeDeltas = qs.map .finite) :
    ((((DeepfakeService.native np pow elsewhere).analyzeStream draws
          payload.frequencyAmplitudeDeltas clientId channelId).evaluationVerdict =
        .criticalSuspectedDeepfake) ↔
      ((DeepfakeService.fallback np).analyzeStream draws'
          payload.frequencyAmplitudeDeltas clientId channelId).evaluationVerdict =
        .criticalSuspectedDeepfake) ↔
      45 / 1000 ≤ populationVariance qs ∨
        (32 ≤ qs.length ∧
          (changes (fun i => qs.getD i 0) ((qs.length - 1) / 16 * 16) : ℚ) <
            35 / 100 * qs.length) := by
  obtain ⟨hlen, hrange⟩ := AudioStreamPayload.finite_samples hqs
  have hne : qs ≠ [] := List.length_pos_iff.mp (by omega)
  have harray := Numpy.array_eq_self hround hrange
  have hhigh : 45 / 1000 ≤ populationVariance qs ↔ ¬ populationVariance qs < 45 / 1000 :=
    not_lt.symm
  rw [hqs, critical_native_iff harray fun q hq => (hrange q hq).1,
    critical_fallback_iff harray hvar hne, hhigh]
  tauto

/-! ## The streams of the unit tests -/

/-- A payload with the names the unit tests use. -/
def testPayload (qs : List ℚ) (hmin : 10 ≤ qs.length) (hmax : qs.length ≤ 1000)
    (hrange : (qs.any fun q => q < 0 || 10 < q) = false) : AudioStreamPayload where
  bankClusterToken := "test_client"
  channelIdentity := "test_channel"
  frequencyAmplitudeDeltas := qs.map .finite
  maxLength_bankClusterToken := by decide +kernel
  maxLength_channelIdentity := by decide +kernel
  minItems := by rwa [List.length_map]
  maxItems := by rwa [List.length_map]
  validateDeltas := by rwa [List.any_map]

/-- The draws of a call. -/
def testDraws : Draws := ⟨1 / 2, "0123456789abcdef", "2024-01-01T00:00:00"⟩

/-- Numpy and the library, in real arithmetic. -/
noncomputable def realNative : DeepfakeService :=
  .native .exact (fun x y : ℝ => x ^ y) fun _ => false

/-- A constant stream, long enough for the detector, is a deepfake to both. -/
theorem agree_replicate :
    (realNative.analyzeStream testDraws ((List.replicate 32 (1 / 2)).map .finite) "test_client"
        "test_channel").evaluationVerdict = .criticalSuspectedDeepfake ↔
      ((DeepfakeService.fallback .exact).analyzeStream testDraws
        ((List.replicate 32 (1 / 2)).map .finite) "test_client" "test_channel").evaluationVerdict =
        .criticalSuspectedDeepfake :=
  (agree_iff .exact (fun _ _ _ => rfl) rfl (fun x y : ℝ => x ^ y) (fun _ => false) testDraws
    testDraws "test_client" "test_channel"
    (testPayload (List.replicate 32 (1 / 2)) (by decide) (by decide) (by decide +kernel)) _
    rfl).mpr (.inr (by decide +kernel))

/-- The stream of `test_deepfake_detection`. -/
def aiVoice : List ℚ :=
  (List.replicate 20 [12 / 100, 12 / 100, 11 / 100, 12 / 100, 12 / 100]).flatten

/-- **The engines do not always agree**: of the stream that the unit tests call a deepfake, 38 of
96 steps change the value, too many for the detector. -/
theorem not_forall_agree :
    ¬ ∀ (draws draws' : Draws) (clientId channelId : String) (payload : AudioStreamPayload)
      (qs : List ℚ), payload.frequencyAmplitudeDeltas = qs.map .finite →
      ((realNative.analyzeStream draws payload.frequencyAmplitudeDeltas clientId
            channelId).evaluationVerdict = .criticalSuspectedDeepfake ↔
        ((DeepfakeService.fallback .exact).analyzeStream draws' payload.frequencyAmplitudeDeltas
            clientId channelId).evaluationVerdict = .criticalSuspectedDeepfake) := by
  intro h
  have hagree := h testDraws testDraws "test_client" "test_channel"
    (testPayload aiVoice (by decide +kernel) (by decide +kernel) (by decide +kernel)) aiVoice rfl
  have hrange : ∀ q ∈ aiVoice, 0 ≤ q ∧ q ≤ 10 := by decide +kernel
  have hne : aiVoice ≠ [] := by decide +kernel
  have hlow : populationVariance aiVoice < 45 / 1000 := by decide +kernel
  have harray := @Numpy.array_eq_self .exact (fun _ _ _ => rfl) aiVoice hrange
  have hnative := (critical_native_iff harray fun q hq => (hrange q hq).1).mp
    (hagree.mpr ((critical_fallback_iff harray rfl hne).mpr hlow))
  exact absurd hnative.2.2 (by decide +kernel)

end BioShield
