import BioShield.Api.EnsembleVoting

/-!
# Api/MajorityVoters — one vote in three languages

`MultiChannelProcessor::ensemble_vote` (`core/multi_channel_core.cpp`) counts in `size_t`,
`detect_multi_channel_anomaly` (`db/migrations/002_multi_channel.sql`) in `INTEGER` variables, and
`audit_multi_channel` in Python's integers.  A truncating half and an exact one draw the same line
(`half_lt_iff`), so the three agree for as long as the counts fit (`voters_agree`).
-/

namespace BioShield

/-- **The vote**: strictly more than half of the channels are flagged. -/
def Majority (flags : List Bool) : Prop := flags.length < 2 * flags.count true

instance (flags : List Bool) : Decidable (Majority flags) := inferInstanceAs (Decidable (_ < _))

/-- An integer is above the truncated half exactly if its double is above the whole. -/
theorem half_lt_iff {n k : ℕ} : n / 2 < k ↔ n < 2 * k := by
  rw [Nat.div_lt_iff_lt_mul Nat.two_pos, mul_comm]

theorem count_map_true {α : Type} (p : α → Bool) (xs : List α) :
    (xs.map p).count true = xs.countP p := by
  rw [List.count, List.countP_map]
  exact List.countP_congr fun x _ => by simp

/-! ## In C++ -/

/-- A loop that counts into a machine word. -/
theorem foldl_count_eq {α : Type} {w : ℕ} (p : α → Bool) (xs : List α) (c : BitVec w) :
    xs.foldl (fun count x => if p x then count + 1 else count) c = c + .ofNat w (xs.countP p) := by
  induction xs generalizing c with
  | nil => simp
  | cons x xs ih =>
    rw [List.foldl_cons, ih, List.countP_cons]
    split_ifs
    · rw [Nat.add_comm, BitVec.ofNat_add, BitVec.add_assoc]
      rfl
    · rfl

/-- `MultiChannelProcessor::ensemble_vote`, on the first `numChannels` entries of an array. -/
def MultiChannelProcessor.ensembleVote (variances : List PyFloat) (numChannels : BitVec 64)
    (threshold : PyFloat) : Bool :=
  let anomalyCount := (variances.take numChannels.toNat).foldl
    (fun count variance => if variance.lt threshold then count + 1 else count) 0
  numChannels / 2 < anomalyCount

theorem MultiChannelProcessor.ensembleVote_eq {variances : List PyFloat} {threshold : PyFloat}
    (hlen : variances.length < 2 ^ 64) :
    ensembleVote variances (.ofNat 64 variances.length) threshold =
      decide (Majority (variances.map (·.lt threshold))) := by
  have hnum : (BitVec.ofNat 64 variances.length).toNat = variances.length :=
    Nat.mod_eq_of_lt hlen
  have hcount : variances.countP (·.lt threshold) < 2 ^ 64 :=
    (List.countP_le_length).trans_lt hlen
  rw [ensembleVote, hnum, List.take_length, foldl_count_eq]
  refine decide_eq_decide.mpr ?_
  rw [BitVec.lt_def, BitVec.toNat_udiv, hnum, zero_add, BitVec.toNat_ofNat,
    Nat.mod_eq_of_lt hcount, Majority, count_map_true, List.length_map]
  exact half_lt_iff

/-! ## In SQL -/

/-- The columns of `deepfake_channel_telemetry` that the function reads; `is_anomaly` may be
`NULL`. -/
structure ChannelTelemetry where
  auditId : String
  isAnomaly : Option Bool

/-- Assigning a `COUNT(*)` to an `INTEGER` variable; out of range, it raises an error. -/
def toInteger (count : ℕ) : Option ℤ := if count < 2 ^ 31 then some count else none

/-- `detect_multi_channel_anomaly`. -/
def detectMultiChannelAnomaly (telemetry : List ChannelTelemetry) (auditId : String) :
    Option Bool := do
  let channels := telemetry.filter fun row => row.auditId = auditId
  let totalChannels ← toInteger channels.length
  let anomalyChannels ← toInteger (channels.countP fun row => row.isAnomaly = some true)
  return decide (anomalyChannels > totalChannels.tdiv 2)

/-- The flags of one audit. -/
def anomalyFlags (telemetry : List ChannelTelemetry) (auditId : String) : List Bool :=
  (telemetry.filter fun row => row.auditId = auditId).map fun row => row.isAnomaly = some true

theorem detectMultiChannelAnomaly_eq {telemetry : List ChannelTelemetry} {auditId : String}
    (hlen : (anomalyFlags telemetry auditId).length < 2 ^ 31) :
    detectMultiChannelAnomaly telemetry auditId =
      some (decide (Majority (anomalyFlags telemetry auditId))) := by
  simp only [anomalyFlags, List.length_map] at hlen ⊢
  simp only [detectMultiChannelAnomaly, toInteger, if_pos hlen,
    if_pos (List.countP_le_length.trans_lt hlen), Option.bind_eq_bind, Option.bind_some]
  refine congrArg some (decide_eq_decide.mpr ?_)
  rw [Majority, count_map_true, List.length_map, gt_iff_lt, ← half_lt_iff, ← Nat.cast_two,
    ← Int.ofNat_tdiv, Nat.cast_lt]

/-- From `2^31` channels on there is no answer. -/
theorem detectMultiChannelAnomaly_eq_none {telemetry : List ChannelTelemetry} {auditId : String}
    (hlen : 2 ^ 31 ≤ (anomalyFlags telemetry auditId).length) :
    detectMultiChannelAnomaly telemetry auditId = none := by
  simp only [anomalyFlags, List.length_map] at hlen
  simp only [detectMultiChannelAnomaly, toInteger, if_neg (not_lt.mpr hlen), Option.bind_eq_bind,
    Option.bind_none]

/-! ## In Python -/

/-- `is_deepfake` of `audit_multi_channel`. -/
def isDeepfake (channelResults : List AuditResult) : Bool :=
  (deepfakeCount channelResults : ℚ) > channelResults.length / 2

/-- It is what the route's verdict depends on. -/
theorem ensembleVote_verdict_iff (channelResults : List AuditResult) :
    (ensembleVote channelResults).verdict = .criticalSuspectedDeepfake ↔
      isDeepfake channelResults := by
  simp only [ensembleVote, isDeepfake, decide_eq_true_eq]
  split_ifs with h h'
  · exact iff_of_true rfl h
  · exact iff_of_false (by decide) h
  · exact iff_of_false (by decide) h

/-- The channels that count as critical. -/
def criticalFlags (channelResults : List AuditResult) : List Bool :=
  channelResults.map fun r => r.evaluationVerdict = .criticalSuspectedDeepfake

theorem isDeepfake_eq (channelResults : List AuditResult) :
    isDeepfake channelResults = decide (Majority (criticalFlags channelResults)) := by
  refine decide_eq_decide.mpr (gt_half_iff.trans ?_)
  rw [MostCritical, Majority, criticalFlags, count_map_true, List.length_map, deepfakeCount]

/-! ## Agreement -/

/-- **The three voters agree**, on fewer than `2^31` channels: each finds a deepfake exactly if
strictly more than half of them are flagged. -/
theorem voters_agree {flags : List Bool} (hlen : flags.length < 2 ^ 31)
    {variances : List PyFloat} {threshold : PyFloat}
    (hvariances : variances.map (·.lt threshold) = flags)
    {telemetry : List ChannelTelemetry} {auditId : String}
    (htelemetry : anomalyFlags telemetry auditId = flags)
    {channelResults : List AuditResult} (hresults : criticalFlags channelResults = flags) :
    MultiChannelProcessor.ensembleVote variances (.ofNat 64 variances.length) threshold =
        decide (Majority flags) ∧
      detectMultiChannelAnomaly telemetry auditId = some (decide (Majority flags)) ∧
      isDeepfake channelResults = decide (Majority flags) := by
  refine ⟨?_, ?_, ?_⟩
  · rw [← hvariances] at hlen ⊢
    rw [List.length_map] at hlen
    exact MultiChannelProcessor.ensembleVote_eq (hlen.trans (by norm_num))
  · rw [← htelemetry] at hlen ⊢
    exact detectMultiChannelAnomaly_eq hlen
  · rw [isDeepfake_eq, hresults]

/-- Two channels of three. -/
theorem voters_agree_twoCritical :
    MultiChannelProcessor.ensembleVote [.finite 0, .finite 0, .finite 1] 3
        (.finite (45 / 1000)) = true ∧
      detectMultiChannelAnomaly [⟨"aud_0", some true⟩, ⟨"aud_0", some true⟩, ⟨"aud_0", none⟩]
        "aud_0" = some true ∧
      isDeepfake twoCritical = true :=
  voters_agree (show [true, true, false].length < 2 ^ 31 by decide) (by decide +kernel) (by decide)
    (by decide)

/-- Every list of flags is the telemetry of some audit. -/
theorem anomalyFlags_map (auditId : String) (flags : List Bool) :
    anomalyFlags (flags.map fun flag => ⟨auditId, some flag⟩) auditId = flags := by
  induction flags with
  | nil => rfl
  | cons flag flags ih =>
    rw [anomalyFlags] at ih ⊢
    simp [ih]

/-- On `2^31` flagged channels, SQL has no answer. -/
theorem not_forall_voters_agree :
    ¬ ∀ (flags : List Bool) (telemetry : List ChannelTelemetry) (auditId : String),
      anomalyFlags telemetry auditId = flags →
        detectMultiChannelAnomaly telemetry auditId = some (decide (Majority flags)) := by
  intro h
  have hlong : ∀ n : ℕ, 2 ^ 31 ≤ (List.replicate n true).length → False := fun n hn => by
    have hflags := anomalyFlags_map "aud_0" (List.replicate n true)
    have hsome := h _ _ _ hflags
    rw [detectMultiChannelAnomaly_eq_none (by rwa [hflags])] at hsome
    cases hsome
  exact hlong (2 ^ 31) (List.length_replicate).ge

end BioShield
