import BioShield.Api.EnsembleVoting

/-!
# Api/RiskRanking — the risk of `audit_multi_channel` against its verdict

Only a critical call averages the risks of its channels; the other two report fixed numbers.  A
strict majority at `91.00` and more keeps the average above `45.75` whatever the other channels say,
so the index ranks requests as their verdicts do (`fraudRiskIndex_ranks`).
-/

namespace BioShield

/-! ## Two decimals -/

theorem le_roundHalfEven {n : ℤ} {x : ℚ} (h : n ≤ x) : n ≤ roundHalfEven x := by
  have hfloor : n ≤ ⌊x⌋ := Int.le_floor.mpr h
  rw [roundHalfEven]
  split_ifs
  · exact hfloor
  · exact hfloor.trans (Int.le_add_one le_rfl)

theorem roundHalfEven_le {n : ℤ} {x : ℚ} (h : x ≤ n) : roundHalfEven x ≤ n := by
  rw [roundHalfEven]
  split_ifs with hround
  · exact_mod_cast (Int.floor_le x).trans h
  · -- Only an `x` off the integers is rounded up.
    have hoff : (⌊x⌋ : ℚ) < x := by
      by_contra hle
      exact hround (.inl (by linarith))
    exact Int.add_one_le_iff.mpr (Int.cast_lt.mp (hoff.trans_le h))

namespace TwoDecimals

/-- **What lies between two numbers with two decimals is written between them.** -/
theorem format_mem_Icc {a b : TwoDecimals} {x : ℚ} (h : x ∈ Set.Icc a.toRat b.toRat) :
    (format x).toRat ∈ Set.Icc a.toRat b.toRat := by
  obtain ⟨hax, hxb⟩ := h
  simp only [toRat] at hax hxb ⊢
  have hlo : a.hundredths ≤ roundHalfEven (100 * x) := le_roundHalfEven (by linarith)
  have hhi : roundHalfEven (100 * x) ≤ b.hundredths := roundHalfEven_le (by linarith)
  exact ⟨by gcongr; exact hlo, by gcongr; exact hhi⟩

/-- A number with two decimals is written as it is. -/
theorem toRat_format_toRat (a : TwoDecimals) : (format a.toRat).toRat = a.toRat := by
  obtain ⟨hlo, hhi⟩ := format_mem_Icc (Set.left_mem_Icc.mpr (le_refl a.toRat))
  exact le_antisymm hhi hlo

end TwoDecimals

/-! ## What `analyze_stream` returns -/

/-- `random.random()` lies between zero and one. -/
def Draws.InRange (draws : Draws) : Prop := draws.random ∈ Set.Icc (0 : ℚ) 1

/-- A result of `analyze_stream`. -/
def AuditResult.Returned (r : AuditResult) : Prop :=
  ∃ (service : DeepfakeService) (draws : Draws) (xs : List PyFloat) (clientId channelId : String),
    draws.InRange ∧ r = service.analyzeStream draws xs clientId channelId

/-- The risks a verdict of `analyze_stream` comes with. -/
def Verdict.channelBand : Verdict → Set ℚ
  | .criticalSuspectedDeepfake => Set.Icc 91 (999 / 10)
  | .suspiciousPattern => Set.Icc 40 70
  | .verifiedHumanAuthentic => Set.Icc (1 / 2) 8

theorem Draws.uniform_mem_Icc {draws : Draws} (h : draws.InRange) {a b : ℚ} (hab : a ≤ b) :
    draws.uniform a b ∈ Set.Icc a b := by
  obtain ⟨hlo, hhi⟩ := h
  have hspan : 0 ≤ b - a := sub_nonneg.mpr hab
  have hnonneg : 0 ≤ (b - a) * draws.random := mul_nonneg hspan hlo
  have hle : (b - a) * draws.random ≤ b - a := mul_le_of_le_one_right hspan hhi
  rw [uniform]
  constructor <;> linarith

/-- The ends of an interval with two decimals bound the risk that is drawn from it and written. -/
theorem Evaluation.risk_mem_Icc {draws : Draws} (h : draws.InRange) (e : Evaluation)
    (a b : TwoDecimals) (ha : a.toRat = e.riskFrom) (hb : b.toRat = e.riskTo)
    (hle : e.riskFrom ≤ e.riskTo) :
    (TwoDecimals.format (draws.uniform e.riskFrom e.riskTo)).toRat ∈
      Set.Icc e.riskFrom e.riskTo := by
  rw [← ha, ← hb] at hle ⊢
  exact TwoDecimals.format_mem_Icc (Draws.uniform_mem_Icc h hle)

/-- Each of the evaluations answers with a risk in the band of its verdict. -/
theorem Evaluation.risk_mem_channelBand {draws : Draws} (h : draws.InRange) {e : Evaluation}
    (he : e = .deepfake ∨ e = .suspicious ∨ e = .authentic) :
    (TwoDecimals.format (draws.uniform e.riskFrom e.riskTo)).toRat ∈ e.verdict.channelBand := by
  obtain rfl | rfl | rfl := he
  · exact risk_mem_Icc h .deepfake ⟨9100⟩ ⟨9990⟩ (by decide +kernel) (by decide +kernel)
      (by decide +kernel)
  · exact risk_mem_Icc h .suspicious ⟨4000⟩ ⟨7000⟩ (by decide +kernel) (by decide +kernel)
      (by decide +kernel)
  · exact risk_mem_Icc h .authentic ⟨50⟩ ⟨800⟩ (by decide +kernel) (by decide +kernel)
      (by decide +kernel)

theorem DeepfakeService.evaluate_cases (service : DeepfakeService) (data : List PyFloat) :
    service.evaluate data = .deepfake ∨ service.evaluate data = .suspicious ∨
      service.evaluate data = .authentic := by
  simp only [evaluate, nativeEvaluation, fallbackEvaluation]
  split <;> split_ifs <;> simp

/-- **A channel's risk is in the band of its verdict.** -/
theorem AuditResult.Returned.mem_channelBand {r : AuditResult} (h : r.Returned) :
    r.fraudRiskIndex.toRat ∈ r.evaluationVerdict.channelBand := by
  obtain ⟨service, draws, xs, clientId, channelId, hdraws, rfl⟩ := h
  exact Evaluation.risk_mem_channelBand hdraws (service.evaluate_cases _)

/-- The bands together reach from `0.50` to `99.90`… -/
theorem Verdict.channelBand_subset (v : Verdict) : v.channelBand ⊆ Set.Icc (1 / 2) (999 / 10) := by
  cases v with
  | verifiedHumanAuthentic => exact Set.Icc_subset_Icc le_rfl (by norm_num)
  | suspiciousPattern => exact Set.Icc_subset_Icc (by norm_num) (by norm_num)
  | criticalSuspectedDeepfake => exact Set.Icc_subset_Icc (by norm_num) le_rfl

theorem AuditResult.Returned.mem_Icc {r : AuditResult} (h : r.Returned) :
    r.fraudRiskIndex.toRat ∈ Set.Icc (1 / 2) (999 / 10) :=
  r.evaluationVerdict.channelBand_subset h.mem_channelBand

/-- …and a critical channel's risk is at the upper end. -/
theorem AuditResult.Returned.le_risk_of_critical {r : AuditResult} (h : r.Returned)
    (hv : r.evaluationVerdict = .criticalSuspectedDeepfake) : 91 ≤ r.fraudRiskIndex.toRat := by
  have hband := h.mem_channelBand
  rw [hv] at hband
  exact hband.1

/-! ## The average -/

/-- A sum is at least what a lower bound for all its terms and a higher one for the marked ones
make of it. -/
theorem le_sum_of_countP {α : Type} (p : α → Bool) (f : α → ℚ) {lo hi : ℚ} (xs : List α)
    (hlo : ∀ x ∈ xs, lo ≤ f x) (hhi : ∀ x ∈ xs, p x → hi ≤ f x) :
    lo * xs.length + (hi - lo) * xs.countP p ≤ (xs.map f).sum := by
  induction xs with
  | nil => simp
  | cons x xs ih =>
    have ih := ih (fun y hy => hlo y (.tail x hy)) (fun y hy => hhi y (.tail x hy))
    rw [List.map_cons, List.sum_cons, List.length_cons, List.countP_cons]
    by_cases hp : p x
    · have hx := hhi x List.mem_cons_self hp
      rw [if_pos hp]
      push_cast
      linarith
    · have hx := hlo x List.mem_cons_self
      rw [if_neg hp]
      push_cast
      linarith

section Critical

variable {rs : List AuditResult}

/-- **A strict majority carries the average**: above `45.75`… -/
theorem lt_average (hrs : ∀ r ∈ rs, r.Returned) (h : MostCritical rs) :
    183 / 4 < (rs.map fun r => r.fraudRiskIndex.toRat).sum / rs.length := by
  have hpos : 0 < rs.length := by
    have := List.countP_le_length (p := fun r : AuditResult =>
      decide (r.evaluationVerdict = .criticalSuspectedDeepfake)) (l := rs)
    simp only [MostCritical, deepfakeCount] at h
    omega
  have hsum := le_sum_of_countP (fun r => r.evaluationVerdict = .criticalSuspectedDeepfake)
    (fun r => r.fraudRiskIndex.toRat) rs (fun r hr => (hrs r hr).mem_Icc.1)
    fun r hr hv => (hrs r hr).le_risk_of_critical (of_decide_eq_true hv)
  have hhalf : (rs.length : ℚ) + 1 ≤ 2 * deepfakeCount rs := by exact_mod_cast h
  simp only [deepfakeCount] at hhalf
  rw [lt_div_iff₀ (by exact_mod_cast hpos)]
  linarith

/-- …and no average passes the highest risk. -/
theorem average_le (hrs : ∀ r ∈ rs, r.Returned) :
    (rs.map fun r => r.fraudRiskIndex.toRat).sum / rs.length ≤ 999 / 10 := by
  have hsum : (rs.map fun r => r.fraudRiskIndex.toRat).sum ≤ rs.length • (999 / 10 : ℚ) := by
    simpa using List.sum_le_card_nsmul (rs.map fun r => r.fraudRiskIndex.toRat) (999 / 10)
      (by simpa using fun r hr => (hrs r hr).mem_Icc.2)
  rw [nsmul_eq_mul, mul_comm] at hsum
  exact div_le_of_le_mul₀ (Nat.cast_nonneg _) (by norm_num) hsum

end Critical

/-! ## The ranking -/

/-- The `fraud_risk_index` reported for the results of the channels. -/
def reportedRisk (channelResults : List AuditResult) : TwoDecimals :=
  .format (ensembleVote channelResults).fraudRisk

/-- The risks a verdict of `audit_multi_channel` comes with. -/
def Verdict.reportBand : Verdict → Set ℚ
  | .criticalSuspectedDeepfake => Set.Icc (183 / 4) (999 / 10)
  | .suspiciousPattern => {45}
  | .verifiedHumanAuthentic => {5 / 2}

/-- The bands are ordered as the verdicts are. -/
theorem Verdict.lt_of_mem_reportBand {u v : Verdict} (huv : u < v) {x y : ℚ}
    (hx : x ∈ u.reportBand) (hy : y ∈ v.reportBand) : x < y := by
  cases u with
  | criticalSuspectedDeepfake => exact absurd (le_critical v) (not_le.mpr huv)
  | suspiciousPattern =>
    cases v with
    | criticalSuspectedDeepfake =>
      obtain rfl := Set.mem_singleton_iff.mp hx
      exact lt_of_lt_of_le (by norm_num) hy.1
    | suspiciousPattern => exact absurd huv (lt_irrefl _)
    | verifiedHumanAuthentic => exact absurd huv (by decide)
  | verifiedHumanAuthentic =>
    obtain rfl := Set.mem_singleton_iff.mp hx
    cases v with
    | criticalSuspectedDeepfake => exact lt_of_lt_of_le (by norm_num) hy.1
    | suspiciousPattern =>
      obtain rfl := Set.mem_singleton_iff.mp hy
      norm_num
    | verifiedHumanAuthentic => exact absurd huv (lt_irrefl _)

section Branches

variable {rs : List AuditResult}

theorem fraudRisk_of_mostCritical (h : MostCritical rs) : (ensembleVote rs).fraudRisk =
    (rs.map fun r => r.fraudRiskIndex.toRat).sum / rs.length := by
  rw [ensembleVote, if_pos (gt_half_iff.mpr h)]

theorem fraudRisk_of_manySuspicious (h : ¬ MostCritical rs) (hs : ManySuspicious rs) :
    (ensembleVote rs).fraudRisk = 45 := by
  rw [ensembleVote, if_neg (mt gt_half_iff.mp h), if_pos (gt_third_iff.mpr hs)]

theorem fraudRisk_of_neither (h : ¬ MostCritical rs) (hs : ¬ ManySuspicious rs) :
    (ensembleVote rs).fraudRisk = 5 / 2 := by
  rw [ensembleVote, if_neg (mt gt_half_iff.mp h), if_neg (mt gt_third_iff.mp hs)]

/-- A fixed risk with two decimals is reported as it is. -/
theorem reportedRisk_eq (a : TwoDecimals) (h : (ensembleVote rs).fraudRisk = a.toRat) :
    (reportedRisk rs).toRat = a.toRat := by
  rw [reportedRisk, h, TwoDecimals.toRat_format_toRat]

/-- **What is reported is in the band of the verdict.** -/
theorem reportedRisk_mem_reportBand (hrs : ∀ r ∈ rs, r.Returned) :
    (reportedRisk rs).toRat ∈ (ensembleVote rs).verdict.reportBand := by
  by_cases hc : MostCritical rs
  · have hlo : (⟨4575⟩ : TwoDecimals).toRat = 183 / 4 := by decide +kernel
    have hhi : (⟨9990⟩ : TwoDecimals).toRat = 999 / 10 := by decide +kernel
    rw [verdict_of_mostCritical hc, reportedRisk, fraudRisk_of_mostCritical hc,
      Verdict.reportBand, ← hlo, ← hhi]
    exact TwoDecimals.format_mem_Icc ⟨hlo ▸ (lt_average hrs hc).le, hhi ▸ average_le hrs⟩
  by_cases hs : ManySuspicious rs
  · have hfixed : (⟨4500⟩ : TwoDecimals).toRat = 45 := by decide +kernel
    rw [verdict_of_manySuspicious hc hs,
      reportedRisk_eq _ ((fraudRisk_of_manySuspicious hc hs).trans hfixed.symm), hfixed]
    exact Set.mem_singleton _
  · have hfixed : (⟨250⟩ : TwoDecimals).toRat = 5 / 2 := by decide +kernel
    rw [verdict_of_neither hc hs,
      reportedRisk_eq _ ((fraudRisk_of_neither hc hs).trans hfixed.symm), hfixed]
    exact Set.mem_singleton _

/-- A critical call reports a risk above that of a suspicious one… -/
theorem reportedRisk_of_critical (hrs : ∀ r ∈ rs, r.Returned)
    (hv : (ensembleVote rs).verdict = .criticalSuspectedDeepfake) :
    45 < (reportedRisk rs).toRat ∧ (reportedRisk rs).toRat ≤ 999 / 10 := by
  have hband := reportedRisk_mem_reportBand hrs
  rw [hv] at hband
  exact ⟨lt_of_lt_of_le (by norm_num) hband.1, hband.2⟩

/-- …and a more severe call always reports the higher risk. -/
theorem reportedRisk_lt {rs' : List AuditResult} (hrs : ∀ r ∈ rs, r.Returned)
    (hrs' : ∀ r ∈ rs', r.Returned)
    (hlt : (ensembleVote rs).verdict < (ensembleVote rs').verdict) :
    (reportedRisk rs).toRat < (reportedRisk rs').toRat :=
  Verdict.lt_of_mem_reportBand hlt (reportedRisk_mem_reportBand hrs)
    (reportedRisk_mem_reportBand hrs')

end Branches

/-! ## Requests -/

/-- The draws of a request are in range. -/
def AuditMultiChannelRequest.InRange (r : AuditMultiChannelRequest) : Prop :=
  ∀ i, (r.draws i).InRange

/-- What a request is told comes from results of `analyze_stream`. -/
theorem report_of_auditMultiChannel {service : DeepfakeService} {r : AuditMultiChannelRequest}
    {result : MultiChannelResult} {tasks : List DeductCredit} (hr : r.InRange)
    (h : auditMultiChannel service r = .ok (result, tasks)) :
    (∀ c ∈ result.channelResults, c.Returned) ∧
      result.evaluationVerdict = (ensembleVote result.channelResults).verdict ∧
      result.fraudRiskIndex = reportedRisk result.channelResults := by
  rw [auditMultiChannel, if_neg (not_lt.mpr r.payload.minItems)] at h
  obtain ⟨rfl, -⟩ := Prod.mk.inj (Except.ok.inj h)
  refine ⟨fun c hc => ?_, rfl, rfl⟩
  obtain ⟨⟨channel, i⟩, -, rfl⟩ := List.mem_map.mp hc
  exact ⟨service, r.draws i, _, _, _, hr i, rfl⟩

/-- **The risk ranks as the verdict does**: of any number of results of `analyze_stream`, and of the
requests that are answered from such results, a critical call reports a risk above `45.00` and at
most `99.90`, and a more severe call a higher risk. -/
theorem fraudRiskIndex_ranks :
    (∀ rs : List AuditResult, 2 ≤ rs.length → (∀ r ∈ rs, r.Returned) →
      (ensembleVote rs).verdict = .criticalSuspectedDeepfake →
        45 < (reportedRisk rs).toRat ∧ (reportedRisk rs).toRat ≤ 999 / 10) ∧
    (∀ rs rs' : List AuditResult, 2 ≤ rs.length → 2 ≤ rs'.length →
      (∀ r ∈ rs, r.Returned) → (∀ r ∈ rs', r.Returned) →
      (ensembleVote rs).verdict < (ensembleVote rs').verdict →
        (reportedRisk rs).toRat < (reportedRisk rs').toRat) ∧
    ∀ (service service' : DeepfakeService) (r r' : AuditMultiChannelRequest)
      (result result' : MultiChannelResult) (tasks tasks' : List DeductCredit),
      r.InRange → r'.InRange → auditMultiChannel service r = .ok (result, tasks) →
      auditMultiChannel service' r' = .ok (result', tasks') →
        (result.evaluationVerdict = .criticalSuspectedDeepfake →
          45 < result.fraudRiskIndex.toRat ∧ result.fraudRiskIndex.toRat ≤ 999 / 10) ∧
        (result.evaluationVerdict < result'.evaluationVerdict →
          result.fraudRiskIndex.toRat < result'.fraudRiskIndex.toRat) := by
  refine ⟨fun rs _ => reportedRisk_of_critical, fun rs rs' _ _ => reportedRisk_lt, ?_⟩
  intro service service' r r' result result' tasks tasks' hr hr' h h'
  obtain ⟨hreturned, hverdict, hrisk⟩ := report_of_auditMultiChannel hr h
  obtain ⟨hreturned', hverdict', hrisk'⟩ := report_of_auditMultiChannel hr' h'
  rw [hverdict, hrisk, hverdict', hrisk']
  exact ⟨reportedRisk_of_critical hreturned, reportedRisk_lt hreturned hreturned'⟩

/-- Ten equal samples. -/
def silentChannel : ChannelData where
  channelIndex := 0
  frequencyDeltas := List.replicate 10 (.finite 1)
  le_channelIndex := by decide
  minItems := by decide
  maxItems := by decide

/-- Ten samples far apart. -/
def loudChannel : ChannelData where
  channelIndex := 1
  frequencyDeltas := List.replicate 5 (.finite 1) ++ List.replicate 5 (.finite 3)
  le_channelIndex := by decide
  minItems := by decide
  maxItems := by decide

/-- A request for a silent channel and for two more that are alike. -/
def threeChannels (channel : ChannelData) : AuditMultiChannelRequest where
  payload := {
    bankClusterToken := "crdb_hq_main"
    channelIdentity := "sip_trunk_01"
    channels := [silentChannel, channel, channel]
    maxLength_bankClusterToken := by decide
    maxLength_channelIdentity := by decide
    minItems := by simp
    maxItems := by simp }
  authorizationToken := "key"
  draws := fun _ => ⟨1 / 2, "0123456789abcdef", "2024-01-01T00:00:00"⟩
  token := "0123456789ab"

theorem threeChannels_inRange (channel : ChannelData) : (threeChannels channel).InRange :=
  fun _ => Set.mem_Icc.mpr (by norm_num [threeChannels])

/-- Three silent channels are told a higher risk than one among loud ones. -/
theorem fraudRiskIndex_ranks_silent : ∃ result result' tasks tasks',
    auditMultiChannel (.fallback .exact) (threeChannels loudChannel) = .ok (result, tasks) ∧
      auditMultiChannel (.fallback .exact) (threeChannels silentChannel) = .ok (result', tasks') ∧
      45 < (reportedRisk result'.channelResults).toRat ∧
      (reportedRisk result.channelResults).toRat < (reportedRisk result'.channelResults).toRat ∧
      result.fraudRiskIndex.toRat < result'.fraudRiskIndex.toRat := by
  obtain ⟨hlist, hlists, hrequests⟩ := fraudRiskIndex_ranks
  have hloud := threeChannels_inRange loudChannel
  have hsilent := threeChannels_inRange silentChannel
  have hreturned := (@report_of_auditMultiChannel (.fallback .exact) _ _ _ hloud rfl).1
  have hreturned' := (@report_of_auditMultiChannel (.fallback .exact) _ _ _ hsilent rfl).1
  refine ⟨_, _, _, _, rfl, rfl, ?_, ?_, ?_⟩
  · exact (hlist _ (by decide) hreturned' (by decide +kernel)).1
  · exact hlists _ _ (by decide) (by decide) hreturned hreturned' (by decide +kernel)
  · exact (hrequests _ _ _ _ _ _ _ _ hloud hsilent rfl rfl).2 (by decide +kernel)

end BioShield
