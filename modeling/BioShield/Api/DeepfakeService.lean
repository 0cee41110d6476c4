import Mathlib

/-!
# Api/DeepfakeService — `analyze_stream` (`api/services/deepfake_service.py`)

What numpy computes of an array, and the native engine where it is loaded, are parameters, and so is
the rounding of a sample to `float32`, but not its range: a sample beyond it becomes infinite.
Random numbers, fresh ids and the time of day are drawn from outside.
-/

namespace BioShield

/-! ## Floats -/

/-- A Python float; finite ones are exact, and a zero has no sign. -/
inductive PyFloat
  | nan
  | inf (negative : Bool)
  | finite (q : ℚ)
  deriving DecidableEq

namespace PyFloat

/-- `x < y`: false as soon as one side is a NaN. -/
def lt : PyFloat → PyFloat → Bool
  | .finite p, .finite q => p < q
  | .finite _, .inf negative => !negative
  | .inf negative, .finite _ => negative
  | .inf negative, .inf negative' => negative && !negative'
  | .nan, _ | _, .nan => false

/-- The value of a finite float. -/
def toRat? : PyFloat → Option ℚ
  | .finite q => some q
  | _ => none

/-- Neither a NaN nor infinite. -/
def IsFinite (x : PyFloat) : Prop := x.toRat?.isSome

instance (x : PyFloat) : Decidable x.IsFinite := inferInstanceAs (Decidable (_ = true))

theorem lt_finite_of_le {x : PyFloat} {p q : ℚ} (hpq : p ≤ q) (h : x.lt (.finite p)) :
    x.lt (.finite q) := by
  cases x with
  | nan => exact h
  | inf negative => exact h
  | finite r => exact decide_eq_true ((of_decide_eq_true h).trans_le hpq)

end PyFloat

/-- A number written with two decimals, as `f"{x:.2f}"` does. -/
structure TwoDecimals where
  hundredths : ℤ
  deriving DecidableEq

/-- The nearest integer, ties to the even one. -/
def roundHalfEven (x : ℚ) : ℤ :=
  if x - ⌊x⌋ < 1 / 2 ∨ x - ⌊x⌋ = 1 / 2 ∧ ⌊x⌋ % 2 = 0 then ⌊x⌋ else ⌊x⌋ + 1

namespace TwoDecimals

/-- `f"{x:.2f}"`. -/
def format (x : ℚ) : TwoDecimals := ⟨roundHalfEven (100 * x)⟩

/-- `float(s)`. -/
def toRat (s : TwoDecimals) : ℚ := s.hundredths / 100

end TwoDecimals

/-! ## Verdicts -/

/-- `evaluation_verdict`. -/
inductive Verdict
  | verifiedHumanAuthentic | suspiciousPattern | criticalSuspectedDeepfake
  deriving DecidableEq

namespace Verdict

/-- How much evidence of a deepfake a verdict claims. -/
def severity : Verdict → ℕ
  | .verifiedHumanAuthentic => 0
  | .suspiciousPattern => 1
  | .criticalSuspectedDeepfake => 2

theorem severity_injective : Function.Injective severity := by
  intro u v h
  cases u <;> cases v <;> first | rfl | cases h

instance : LinearOrder Verdict := LinearOrder.lift' severity severity_injective

end Verdict

/-- `firewall_action`. -/
inductive FirewallAction
  | allowTransactionProceed | escalateManualReview | terminateVoiceCallBlockTransaction
  deriving DecidableEq

/-- What one branch of the analysis settles: the interval the risk is drawn from, the verdict and
the action. -/
structure Evaluation where
  riskFrom : ℚ
  riskTo : ℚ
  verdict : Verdict
  action : FirewallAction
  deriving DecidableEq

/-- `random.uniform(91.0, 99.9)` and the verdict that goes with it. -/
def Evaluation.deepfake : Evaluation :=
  ⟨91, 999 / 10, .criticalSuspectedDeepfake, .terminateVoiceCallBlockTransaction⟩

def Evaluation.suspicious : Evaluation := ⟨40, 70, .suspiciousPattern, .escalateManualReview⟩

def Evaluation.authentic : Evaluation :=
  ⟨1 / 2, 8, .verifiedHumanAuthentic, .allowTransactionProceed⟩

/-- The Python fallback: two thresholds on the variance. -/
def fallbackEvaluation (variance : PyFloat) : Evaluation :=
  if variance.lt (.finite (45 / 1000)) then .deepfake
  else if variance.lt (.finite (8 / 100)) then .suspicious
  else .authentic

/-- The native engine's answer. -/
def nativeEvaluation (isDeepfake : Bool) : Evaluation :=
  if isDeepfake then .deepfake else .authentic

theorem verdict_eq_critical_iff (x : PyFloat) :
    (fallbackEvaluation x).verdict = .criticalSuspectedDeepfake ↔ x.lt (.finite (45 / 1000)) := by
  simp only [fallbackEvaluation]
  split_ifs with h₁ h₂
  · exact iff_of_true rfl h₁
  · exact iff_of_false nofun h₁
  · exact iff_of_false nofun h₁

theorem verdict_eq_authentic_iff (x : PyFloat) :
    (fallbackEvaluation x).verdict = .verifiedHumanAuthentic ↔ ¬ x.lt (.finite (8 / 100)) := by
  simp only [fallbackEvaluation]
  split_ifs with h₁ h₂
  · exact iff_of_false nofun (not_not.mpr (PyFloat.lt_finite_of_le (by norm_num) h₁))
  · exact iff_of_false nofun (not_not.mpr h₂)
  · exact iff_of_true rfl h₂

/-- Both variances are below `0.045`, or neither is; and likewise for `0.08`. -/
def SameBand (x y : PyFloat) : Prop :=
  x.lt (.finite (45 / 1000)) = y.lt (.finite (45 / 1000)) ∧
    x.lt (.finite (8 / 100)) = y.lt (.finite (8 / 100))

instance (x y : PyFloat) : Decidable (SameBand x y) := inferInstanceAs (Decidable (_ ∧ _))

theorem fallbackEvaluation_eq_of_sameBand {x y : PyFloat} (h : SameBand x y) :
    fallbackEvaluation x = fallbackEvaluation y := by
  rw [fallbackEvaluation, h.1, h.2, ← fallbackEvaluation]

/-- **The fallback's verdicts tell the bands apart.** -/
theorem verdict_fallbackEvaluation_eq_iff (x y : PyFloat) :
    (fallbackEvaluation x).verdict = (fallbackEvaluation y).verdict ↔ SameBand x y := by
  refine ⟨fun h => ⟨?_, ?_⟩, fun h => congrArg Evaluation.verdict
    (fallbackEvaluation_eq_of_sameBand h)⟩
  · rw [Bool.eq_iff_iff, ← verdict_eq_critical_iff, h, verdict_eq_critical_iff]
  · rw [Bool.eq_iff_iff, ← not_iff_not, ← verdict_eq_authentic_iff, h, verdict_eq_authentic_iff]

/-! ## The analysis -/

/-- From here on a number is nearer to `2 ^ 128` than to the largest `float32`. -/
def float32Bound : ℚ := 2 ^ 128 - 2 ^ 103

/-- The `float32` nearest to a number below that bound, ties to the even one. -/
def roundFloat32 (q : ℚ) : ℚ :=
  let spacing : ℚ := 2 ^ max (Int.log 2 |q| - 23) (-149)
  roundHalfEven (q / spacing) * spacing

/-- Numpy: the `float32` nearest to a number in range, and `np.var`, `np.mean` and `np.std` of an
array. -/
structure Numpy where
  nearestFloat32 : ℚ → ℚ
  var : List PyFloat → PyFloat
  mean : List PyFloat → PyFloat
  std : List PyFloat → PyFloat

namespace Numpy

/-- `np.float32`. -/
def float32 (np : Numpy) : PyFloat → PyFloat
  | .finite q =>
      if |q| < float32Bound then .finite (np.nearestFloat32 q) else .inf (q < 0)
  | x => x

/-- `np.array(xs, dtype=np.float32)`. -/
def array (np : Numpy) (xs : List PyFloat) : List PyFloat := xs.map np.float32

end Numpy

/-- A function of the exact values where there are some and all are finite, a NaN elsewhere. -/
def ofFinite (f : List ℚ → ℚ) (xs : List PyFloat) : PyFloat :=
  match xs.mapM PyFloat.toRat? with
  | none | some [] => .nan
  | some qs => .finite (f qs)

/-- The mean of finite data. -/
def mean (qs : List ℚ) : ℚ := qs.sum / qs.length

/-- The population variance of finite data. -/
def populationVariance (qs : List ℚ) : ℚ := mean (qs.map fun q => (q - mean qs) ^ 2)

/-- Numpy in exact arithmetic, on finite data and as far as the square root is rational. -/
def Numpy.exact : Numpy where
  nearestFloat32 := id
  var := ofFinite populationVariance
  mean := ofFinite BioShield.mean
  std := ofFinite fun qs => Rat.sqrt (populationVariance qs)

/-- What a call of `analyze_stream` draws: `random.random()`, the audit id and the time. -/
structure Draws where
  random : ℚ
  auditId : String
  now : String

/-- `random.uniform(a, b)`. -/
def Draws.uniform (draws : Draws) (a b : ℚ) : ℚ := a + (b - a) * draws.random

/-- `result["metadata"]`. -/
structure ResultMetadata where
  clientId : String
  channelId : String
  samplesAnalyzed : ℕ
  variance : PyFloat
  mean : PyFloat
  stdDev : PyFloat
  deriving DecidableEq

/-- What `analyze_stream` returns; the percent sign of `fraud_risk_index` is understood. -/
structure AuditResult where
  securityToken : String
  evaluationVerdict : Verdict
  fraudRiskIndex : TwoDecimals
  firewallAction : FirewallAction
  metadata : ResultMetadata
  timestamp : String
  deriving DecidableEq

/-- The service: numpy, and the native engine if the library was loaded. -/
structure DeepfakeService where
  np : Numpy
  engine : Option (List PyFloat → Bool)

namespace DeepfakeService

/-- The service without the native library. -/
def fallback (np : Numpy) : DeepfakeService := ⟨np, none⟩

/-- The branches on the engine. -/
def evaluate (service : DeepfakeService) (data : List PyFloat) : Evaluation :=
  match service.engine with
  | some analyzeVoiceChannel => nativeEvaluation (analyzeVoiceChannel data)
  | none => fallbackEvaluation (service.np.var data)

/-- `analyze_stream`. -/
def analyzeStream (service : DeepfakeService) (draws : Draws) (frequencyDeltas : List PyFloat)
    (clientId channelId : String) : AuditResult :=
  let data := service.np.array frequencyDeltas
  let evaluation := service.evaluate data
  { securityToken := s!"aud_{draws.auditId}"
    evaluationVerdict := evaluation.verdict
    fraudRiskIndex := .format (draws.uniform evaluation.riskFrom evaluation.riskTo)
    firewallAction := evaluation.action
    metadata :=
      { clientId := clientId
        channelId := channelId
        samplesAnalyzed := frequencyDeltas.length
        variance := service.np.var data
        mean := service.np.mean data
        stdDev := service.np.std data }
    timestamp := draws.now }

end DeepfakeService

end BioShield
