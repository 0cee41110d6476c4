import BioShield.Api.VoiceAudit

/-!
# Api/EnsembleVoting — the vote of `audit_multi_channel` against the evidence

More severe channels should make a more severe call.  They need not: a channel that turns critical
leaves the suspicious count without any guarantee that the critical one passes its own, higher
threshold.
-/

namespace BioShield

/-- Every channel of the second list is at least as severe as its counterpart in the first. -/
def AtLeastAsSevere (rs rs' : List AuditResult) : Prop :=
  List.Forall₂ (fun r r' => r.evaluationVerdict ≤ r'.evaluationVerdict) rs rs'

namespace Verdict

/-- Nothing is more severe than `CRITICAL_SUSPECTED_DEEPFAKE`… -/
theorem eq_critical_of_le {v : Verdict} (h : .criticalSuspectedDeepfake ≤ v) :
    v = .criticalSuspectedDeepfake := by
  cases v with
  | criticalSuspectedDeepfake => rfl
  | suspiciousPattern => exact absurd h (by decide)
  | verifiedHumanAuthentic => exact absurd h (by decide)

theorem le_critical (v : Verdict) : v ≤ .criticalSuspectedDeepfake := by
  cases v <;> decide

/-- …and nothing less than `VERIFIED_HUMAN_AUTHENTIC`. -/
theorem authentic_le (v : Verdict) : .verifiedHumanAuthentic ≤ v := by
  cases v <;> decide

end Verdict

/-- The critical channels only get more. -/
theorem deepfakeCount_le {rs rs' : List AuditResult} (h : AtLeastAsSevere rs rs') :
    deepfakeCount rs ≤ deepfakeCount rs' := by
  simp only [deepfakeCount]
  induction h with
  | nil => exact le_rfl
  | @cons r r' rs rs' hr _ ih =>
    by_cases hc : r.evaluationVerdict = .criticalSuspectedDeepfake
    · have hc' : r'.evaluationVerdict = .criticalSuspectedDeepfake :=
        Verdict.eq_critical_of_le (hc ▸ hr)
      simpa [hc, hc'] using ih
    · simp only [List.countP_cons, hc, decide_false, Bool.false_eq_true, if_false, Nat.add_zero]
      exact ih.trans (Nat.le_add_right _ _)

/-- More than half of the channels are critical. -/
def MostCritical (rs : List AuditResult) : Prop := rs.length < 2 * deepfakeCount rs

/-- More than a third of the channels are suspicious. -/
def ManySuspicious (rs : List AuditResult) : Prop := rs.length < 3 * suspiciousCount rs

instance (rs : List AuditResult) : Decidable (MostCritical rs) :=
  inferInstanceAs (Decidable (_ < _))

instance (rs : List AuditResult) : Decidable (ManySuspicious rs) :=
  inferInstanceAs (Decidable (_ < _))

section Branches

variable {rs : List AuditResult}

theorem gt_half_iff : (deepfakeCount rs : ℚ) > rs.length / 2 ↔ MostCritical rs := by
  rw [gt_iff_lt, div_lt_iff₀ (by norm_num), mul_comm, MostCritical]
  exact_mod_cast Iff.rfl

theorem gt_third_iff : (suspiciousCount rs : ℚ) > rs.length / 3 ↔ ManySuspicious rs := by
  rw [gt_iff_lt, div_lt_iff₀ (by norm_num), mul_comm, ManySuspicious]
  exact_mod_cast Iff.rfl

theorem verdict_of_mostCritical (h : MostCritical rs) :
    (ensembleVote rs).verdict = .criticalSuspectedDeepfake := by
  rw [ensembleVote, if_pos (gt_half_iff.mpr h)]

theorem verdict_of_manySuspicious (h : ¬ MostCritical rs) (hs : ManySuspicious rs) :
    (ensembleVote rs).verdict = .suspiciousPattern := by
  rw [ensembleVote, if_neg (mt gt_half_iff.mp h), if_pos (gt_third_iff.mpr hs)]

theorem verdict_of_neither (h : ¬ MostCritical rs) (hs : ¬ ManySuspicious rs) :
    (ensembleVote rs).verdict = .verifiedHumanAuthentic := by
  rw [ensembleVote, if_neg (mt gt_half_iff.mp h), if_neg (mt gt_third_iff.mp hs)]

end Branches

/-- **When the vote is monotone**: between two lists of channels, the second at least as severe,
the vote drops exactly if many channels of the first are suspicious, while in the second neither
are many suspicious nor most critical. -/
theorem ensembleVote_le_iff {rs rs' : List AuditResult} (h : AtLeastAsSevere rs rs') :
    (ensembleVote rs).verdict ≤ (ensembleVote rs').verdict ↔
      ¬ ManySuspicious rs ∨ ManySuspicious rs' ∨ MostCritical rs' := by
  by_cases hc' : MostCritical rs'
  · rw [verdict_of_mostCritical hc']
    exact iff_of_true (Verdict.le_critical _) (.inr (.inr hc'))
  have hc : ¬ MostCritical rs := by
    have hle := deepfakeCount_le h
    have hlen := h.length_eq
    simp only [MostCritical] at hc' ⊢
    omega
  by_cases hs : ManySuspicious rs
  · rw [verdict_of_manySuspicious hc hs]
    by_cases hs' : ManySuspicious rs'
    · rw [verdict_of_manySuspicious hc' hs']
      exact iff_of_true le_rfl (.inr (.inl hs'))
    · rw [verdict_of_neither hc' hs']
      exact iff_of_false (by decide) (by tauto)
  · rw [verdict_of_neither hc hs]
    exact iff_of_true (Verdict.authentic_le _) (.inl hs)

/-- A channel result with the given evaluation. -/
def channelResult (e : Evaluation) : AuditResult where
  securityToken := "aud_0"
  evaluationVerdict := e.verdict
  fraudRiskIndex := .format e.riskFrom
  firewallAction := e.action
  metadata := ⟨"bank", "trunk_ch0", 10, .finite 0, .finite 0, .finite 0⟩
  timestamp := "t0"

/-- Two suspicious channels among three. -/
def twoSuspicious : List AuditResult :=
  [channelResult .suspicious, channelResult .suspicious, channelResult .authentic]

/-- Both of them turned critical. -/
def twoCritical : List AuditResult :=
  [channelResult .deepfake, channelResult .deepfake, channelResult .authentic]

theorem ensembleVote_le_twoCritical :
    (ensembleVote twoSuspicious).verdict ≤ (ensembleVote twoCritical).verdict :=
  (ensembleVote_le_iff (.cons (by decide) (.cons (by decide) (.cons le_rfl .nil)))).mpr
    (.inr (.inr (by decide)))

/-- Only one of them turned critical. -/
def oneCritical : List AuditResult :=
  [channelResult .deepfake, channelResult .suspicious, channelResult .authentic]

/-- Worse evidence, a better verdict. -/
theorem not_forall_ensembleVote_le :
    ¬ ∀ rs rs' : List AuditResult, 2 ≤ rs.length → AtLeastAsSevere rs rs' →
      (ensembleVote rs).verdict ≤ (ensembleVote rs').verdict := by
  intro h
  have hle := h twoSuspicious oneCritical (by decide)
    (.cons (by decide) (.cons le_rfl (.cons le_rfl .nil)))
  rw [verdict_of_manySuspicious (by decide) (by decide),
    verdict_of_neither (by decide) (by decide)] at hle
  exact absurd hle (by decide)

end BioShield
