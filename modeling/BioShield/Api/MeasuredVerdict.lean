import BioShield.Api.VoiceAudit

/-!
# Api/MeasuredVerdict — what an authentic verdict was measured on

The last `else` of the fallback allows whatever failed both comparisons, a NaN included; and the
variance of an array that is empty, or not wholly finite, is a NaN.  Each of the three payload
models lets some such streams through, another kind each (`authentic_imp_measured_iff`): the range
check of `/audit-voice` keeps infinities out but no NaN, `/audit-multi-channel` checks no range, not
even that of `float32`, and `/audit-batch` not even the length.  What is left is the rounding to
`float32`, which may lift a variance over the threshold (`not_keepsLowVariance_edgeSamples`).
-/

namespace BioShield

namespace PyFloat

/-- Finite data is exact. -/
theorem mapM_toRat?_eq_some_iff {xs : List PyFloat} {qs : List ℚ} :
    xs.mapM toRat? = some qs ↔ xs = qs.map .finite := by
  induction xs generalizing qs with
  | nil => cases qs <;> simp
  | cons x xs ih =>
    simp only [List.mapM_cons, bind, Option.bind_eq_some_iff, pure, Option.some.injEq, ih]
    constructor
    · rintro ⟨q, hq, qs, rfl, rfl⟩
      cases x with
      | finite p => rw [toRat?, Option.some.injEq] at hq; rw [hq, List.map_cons]
      | nan => cases hq
      | inf negative => cases hq
    · intro h
      obtain ⟨q, qs, rfl, rfl, rfl⟩ := List.map_eq_cons_iff.mp h.symm
      exact ⟨q, rfl, qs, rfl, rfl⟩

theorem forall_isFinite_iff {xs : List PyFloat} :
    (∀ x ∈ xs, x.IsFinite) ↔ ∃ qs : List ℚ, xs = qs.map .finite := by
  constructor
  · intro h
    induction xs with
    | nil => exact ⟨[], rfl⟩
    | cons x xs ih =>
      obtain ⟨qs, rfl⟩ := ih fun y hy => h y (List.mem_cons_of_mem _ hy)
      obtain ⟨q, hq⟩ := Option.isSome_iff_exists.mp (h x List.mem_cons_self)
      cases x with
      | finite p => exact ⟨p :: qs, rfl⟩
      | nan => cases hq
      | inf negative => cases hq
  · rintro ⟨qs, rfl⟩ x hx
    obtain ⟨q, -, rfl⟩ := List.mem_map.mp hx
    rfl

/-- A range check lets a NaN pass, and nothing else that is not finite. -/
theorem isFinite_iff_of_inRange {x : PyFloat} {p q : ℚ}
    (h : (x.lt (.finite p) || (PyFloat.finite q).lt x) = false) : x.IsFinite ↔ x ≠ .nan := by
  cases x with
  | nan => exact iff_of_false (by decide) (not_not.mpr rfl)
  | inf negative => cases negative <;> simp [lt] at h
  | finite r => exact iff_of_true rfl (by simp)

end PyFloat

theorem ofFinite_map_finite (f : List ℚ → ℚ) {qs : List ℚ} (hne : qs ≠ []) :
    ofFinite f (qs.map .finite) = .finite (f qs) := by
  rw [ofFinite, PyFloat.mapM_toRat?_eq_some_iff.mpr rfl]
  cases qs with
  | nil => exact absurd rfl hne
  | cons q qs => rfl

theorem ofFinite_eq_nan (f : List ℚ → ℚ) {xs : List PyFloat}
    (h : ¬ (xs ≠ [] ∧ ∀ x ∈ xs, x.IsFinite)) : ofFinite f xs = .nan := by
  rw [ofFinite]
  cases hqs : xs.mapM PyFloat.toRat? with
  | none => rfl
  | some qs =>
    have hxs := PyFloat.mapM_toRat?_eq_some_iff.mp hqs
    cases qs with
    | nil => rfl
    | cons q qs =>
      exact absurd ⟨by rw [hxs]; exact List.cons_ne_nil _ _,
        PyFloat.forall_isFinite_iff.mpr ⟨_, hxs⟩⟩ h

/-! ## Verdicts and measurements -/

/-- The result lets the transaction through. -/
structure AuditResult.Authentic (result : AuditResult) : Prop where
  verdict : result.evaluationVerdict = .verifiedHumanAuthentic
  action : result.firewallAction = .allowTransactionProceed

/-- Some samples, all finite, and their population variance is a number of at least `0.08`. -/
def Measured (xs : List PyFloat) : Prop :=
  xs ≠ [] ∧ ∃ qs : List ℚ, xs = qs.map .finite ∧ 8 / 100 ≤ populationVariance qs

/-- If the variance of the samples is below `0.08`, then none is beyond the range of `float32` and
the variance of the rounded ones is below it too. -/
def Numpy.KeepsLowVariance (np : Numpy) (xs : List PyFloat) : Prop :=
  ∀ qs : List ℚ, xs = qs.map .finite → populationVariance qs < 8 / 100 →
    (∀ q ∈ qs, |q| < float32Bound) ∧ populationVariance (qs.map np.nearestFloat32) < 8 / 100

section Array

variable {np : Numpy}

/-- Samples in range are rounded… -/
theorem Numpy.array_map_finite {qs : List ℚ} (h : ∀ q ∈ qs, |q| < float32Bound) :
    np.array (qs.map .finite) = (qs.map np.nearestFloat32).map .finite := by
  simp only [array, List.map_map]
  exact List.map_congr_left fun q hq => if_pos (h q hq)

/-- Where arithmetic is exact, the array of samples between 0 and 10 is the samples. -/
theorem Numpy.array_eq_self
    (hround : ∀ q : ℚ, 0 ≤ q → q ≤ 10 → np.nearestFloat32 q = q) {qs : List ℚ}
    (hqs : ∀ q ∈ qs, 0 ≤ q ∧ q ≤ 10) : np.array (qs.map .finite) = qs.map .finite := by
  have hbound : ∀ q ∈ qs, |q| < float32Bound := fun q hq => by
    rw [abs_of_nonneg (hqs q hq).1]
    exact (hqs q hq).2.trans_lt (by norm_num [float32Bound])
  rw [array_map_finite hbound, List.map_congr_left fun q hq => hround q (hqs q hq).1 (hqs q hq).2,
    List.map_id']

/-- …and no others are finite in the array. -/
theorem Numpy.forall_isFinite_array_iff {xs : List PyFloat} :
    (∀ x ∈ np.array xs, x.IsFinite) ↔
      ∃ qs : List ℚ, xs = qs.map .finite ∧ ∀ q ∈ qs, |q| < float32Bound := by
  constructor
  · intro h
    have hsample : ∀ x ∈ xs, ∃ q, x = .finite q ∧ |q| < float32Bound := by
      intro x hx
      have hcast := h _ (List.mem_map_of_mem hx)
      cases x with
      | finite q =>
        refine ⟨q, rfl, ?_⟩
        by_contra hq
        simp [float32, hq, PyFloat.IsFinite, PyFloat.toRat?] at hcast
      | nan => cases hcast
      | inf negative => cases hcast
    obtain ⟨qs, rfl⟩ := PyFloat.forall_isFinite_iff.mp fun x hx => by
      obtain ⟨q, rfl, -⟩ := hsample x hx
      rfl
    refine ⟨qs, rfl, fun q hq => ?_⟩
    obtain ⟨p, hp, hbound⟩ := hsample _ (List.mem_map_of_mem hq)
    rwa [PyFloat.finite.inj hp]
  · rintro ⟨qs, rfl, hqs⟩
    rw [array_map_finite hqs]
    exact PyFloat.forall_isFinite_iff.mpr ⟨_, rfl⟩

/-- Samples that are `float32` numbers keep their variance. -/
theorem Numpy.keepsLowVariance_of_float32 {xs : List PyFloat} (h : ∀ x ∈ xs, np.float32 x = x) :
    np.KeepsLowVariance xs := by
  rintro qs rfl hlow
  have hsample : ∀ q ∈ qs, |q| < float32Bound ∧ np.nearestFloat32 q = q := by
    intro q hq
    have hcast := h _ (List.mem_map_of_mem hq)
    simp only [float32] at hcast
    split_ifs at hcast with hbound
    exact ⟨hbound, PyFloat.finite.inj hcast⟩
  refine ⟨fun q hq => (hsample q hq).1, ?_⟩
  rwa [List.map_congr_left fun q hq => (hsample q hq).2, List.map_id']

end Array

section Fallback

variable {np : Numpy} {draws : Draws} {xs : List PyFloat} {clientId channelId : String}

theorem authentic_analyzeStream_iff :
    ((DeepfakeService.fallback np).analyzeStream draws xs clientId channelId).Authentic ↔
      ¬ (np.var (np.array xs)).lt (.finite (8 / 100)) := by
  rw [← verdict_eq_authentic_iff]
  refine ⟨fun h => h.verdict, fun h => ⟨h, ?_⟩⟩
  change (fallbackEvaluation (np.var (np.array xs))).action = _
  simp only [fallbackEvaluation] at h ⊢
  split_ifs at h ⊢
  · cases h
  · cases h
  · rfl

/-- The variance is below the threshold where the array is a measurement and says so. -/
theorem var_array_lt_iff (hvar : np.var = ofFinite populationVariance) :
    (np.var (np.array xs)).lt (.finite (8 / 100)) ↔
      xs ≠ [] ∧ ∃ qs : List ℚ, xs = qs.map .finite ∧ (∀ q ∈ qs, |q| < float32Bound) ∧
        populationVariance (qs.map np.nearestFloat32) < 8 / 100 := by
  rw [hvar]
  constructor
  · intro hlt
    have harray : np.array xs ≠ [] ∧ ∀ x ∈ np.array xs, x.IsFinite := by
      by_contra hnot
      rw [ofFinite_eq_nan _ hnot] at hlt
      cases hlt
    obtain ⟨hne, hfinite⟩ := harray
    obtain ⟨qs, rfl, hqs⟩ := Numpy.forall_isFinite_array_iff.mp hfinite
    refine ⟨fun hnil => hne (by rw [hnil]; rfl), qs, rfl, hqs, ?_⟩
    rw [Numpy.array_map_finite hqs] at hne hlt
    rw [ofFinite_map_finite _ (List.map_eq_nil_iff.not.mp hne)] at hlt
    exact of_decide_eq_true hlt
  · rintro ⟨hne, qs, rfl, hqs, hlow⟩
    have hqs' : qs.map np.nearestFloat32 ≠ [] :=
      List.map_eq_nil_iff.not.mpr (List.map_eq_nil_iff.not.mp hne)
    rw [Numpy.array_map_finite hqs, ofFinite_map_finite _ hqs']
    exact decide_eq_true hlow

/-- **What an authentic verdict of the fallback tells**: that the stream was measured, for the
streams of finite samples whose low variance survives the rounding, and nothing for the others. -/
theorem authentic_imp_measured_iff_keeps (hvar : np.var = ofFinite populationVariance) :
    (((DeepfakeService.fallback np).analyzeStream draws xs clientId channelId).Authentic →
      Measured xs) ↔ xs ≠ [] ∧ (∀ x ∈ xs, x.IsFinite) ∧ np.KeepsLowVariance xs := by
  rw [authentic_analyzeStream_iff, var_array_lt_iff hvar]
  constructor
  · intro h
    by_cases hlow : xs ≠ [] ∧ ∃ qs : List ℚ, xs = qs.map .finite ∧
        (∀ q ∈ qs, |q| < float32Bound) ∧ populationVariance (qs.map np.nearestFloat32) < 8 / 100
    · obtain ⟨hne, qs, rfl, hqs⟩ := hlow
      refine ⟨hne, PyFloat.forall_isFinite_iff.mpr ⟨qs, rfl⟩, fun ps hps _ => ?_⟩
      rwa [← List.map_injective_iff.mpr (fun _ _ => PyFloat.finite.inj) hps]
    · obtain ⟨hne, qs, rfl, hhigh⟩ := h hlow
      refine ⟨hne, PyFloat.forall_isFinite_iff.mpr ⟨qs, rfl⟩, fun ps hps hps_low => ?_⟩
      rw [← List.map_injective_iff.mpr (fun _ _ => PyFloat.finite.inj) hps] at hps_low
      exact absurd hhigh (not_le.mpr hps_low)
  · rintro ⟨hne, hfinite, hkeeps⟩ hnot
    obtain ⟨qs, rfl⟩ := PyFloat.forall_isFinite_iff.mp hfinite
    exact ⟨hne, qs, rfl, not_lt.mp fun hlow => hnot ⟨hne, qs, rfl, hkeeps qs rfl hlow⟩⟩

end Fallback

/-! ## The three routes -/

theorem AudioStreamPayload.isFinite_iff (payload : AudioStreamPayload) :
    (payload.frequencyAmplitudeDeltas ≠ [] ∧
        ∀ x ∈ payload.frequencyAmplitudeDeltas, x.IsFinite) ↔
      .nan ∉ payload.frequencyAmplitudeDeltas := by
  have hne : payload.frequencyAmplitudeDeltas ≠ [] :=
    List.length_pos_iff.mp (Nat.lt_of_lt_of_le (by decide) payload.minItems)
  have hrange := List.any_eq_false.mp payload.validateDeltas
  constructor
  · exact fun ⟨_, h⟩ hnan => absurd (h _ hnan) (by decide)
  · exact fun h => ⟨hne, fun x hx => (PyFloat.isFinite_iff_of_inRange
      (Bool.eq_false_iff.mpr (hrange x hx))).mpr fun heq => h (heq ▸ hx)⟩

/-- What the payload model says of finite samples. -/
theorem AudioStreamPayload.finite_samples {payload : AudioStreamPayload} {qs : List ℚ}
    (hqs : payload.frequencyAmplitudeDeltas = qs.map .finite) :
    10 ≤ qs.length ∧ ∀ q ∈ qs, 0 ≤ q ∧ q ≤ 10 := by
  have hlen := payload.minItems
  have hrange := List.any_eq_false.mp payload.validateDeltas
  rw [hqs] at hlen hrange
  refine ⟨by rwa [List.length_map] at hlen, fun q hq => ?_⟩
  have hq := hrange _ (List.mem_map_of_mem hq)
  rw [Bool.or_eq_true, not_or] at hq
  exact ⟨not_lt.mp fun h => hq.1 (decide_eq_true h), not_lt.mp fun h => hq.2 (decide_eq_true h)⟩

theorem ChannelData.isFinite_iff (channel : ChannelData) :
    (channel.frequencyDeltas ≠ [] ∧ ∀ x ∈ channel.frequencyDeltas, x.IsFinite) ↔
      ∀ x ∈ channel.frequencyDeltas, x.IsFinite :=
  and_iff_right (List.length_pos_iff.mp (Nat.lt_of_lt_of_le (by decide) channel.minItems))

/-- What holds of every item of a batch and its own result holds all along the answer. -/
theorem forall₂_zipIdx_map {α β : Type} {R : α → β → Prop} {f : α × ℕ → β} (xs : List α)
    (h : ∀ x i, R x (f (x, i))) : List.Forall₂ R xs (xs.zipIdx.map f) := by
  have hfrom : ∀ (ys : List α) n, List.Forall₂ R ys ((ys.zipIdx n).map f) := by
    intro ys
    induction ys with
    | nil => exact fun _ => .nil
    | cons y ys ih => exact fun n => .cons (h y n) (ih (n + 1))
  exact hfrom xs 0

/-- **Which streams an authentic verdict vouches for**: those whose low variance survives the
rounding to `float32`, at `/audit-voice` if they have no NaN; at `/audit-multi-channel` if neither
NaN nor infinity; at `/audit-batch` if besides they are not empty. -/
theorem authentic_imp_measured_iff (np : Numpy) (hvar : np.var = ofFinite populationVariance) :
    (∀ r : AuditVoiceRequest,
      ((r.analyze (.fallback np)).Authentic → Measured r.payload.frequencyAmplitudeDeltas) ↔
        .nan ∉ r.payload.frequencyAmplitudeDeltas ∧
          np.KeepsLowVariance r.payload.frequencyAmplitudeDeltas) ∧
    (∀ r : AuditMultiChannelRequest, ∃ result tasks,
      auditMultiChannel (.fallback np) r = .ok (result, tasks) ∧
        List.Forall₂ (fun channel analysis =>
          (analysis.Authentic → Measured channel.frequencyDeltas) ↔
            (∀ x ∈ channel.frequencyDeltas, x.IsFinite) ∧
              np.KeepsLowVariance channel.frequencyDeltas)
          r.payload.channels result.channelResults) ∧
    ∀ r : AuditBatchRequest, ∃ result tasks,
      auditBatch (.fallback np) r = .ok (result, tasks) ∧
        List.Forall₂ (fun stream analysis =>
          (analysis.Authentic → Measured stream.frequencyDeltas) ↔
            stream.frequencyDeltas ≠ [] ∧ (∀ x ∈ stream.frequencyDeltas, x.IsFinite) ∧
              np.KeepsLowVariance stream.frequencyDeltas)
          r.payload.streams result.results := by
  refine ⟨fun r => ?_, fun r => ?_, fun r => ?_⟩
  · rw [← r.payload.isFinite_iff, and_assoc]
    exact authentic_imp_measured_iff_keeps hvar
  · rw [auditMultiChannel, if_neg (not_lt.mpr r.payload.minItems)]
    refine ⟨_, _, rfl, forall₂_zipIdx_map _ fun channel i => ?_⟩
    rw [← channel.isFinite_iff, and_assoc]
    exact authentic_imp_measured_iff_keeps hvar
  · have hne : r.payload.streams ≠ [] := List.length_pos_iff.mp r.payload.minItems
    rw [auditBatch, if_neg (not_or.mpr ⟨hne, not_lt.mpr r.payload.maxItems⟩)]
    exact ⟨_, _, rfl, forall₂_zipIdx_map _ fun stream i => authentic_imp_measured_iff_keeps hvar⟩

/-- Numpy as it rounds. -/
def Numpy.rounding : Numpy := { Numpy.exact with nearestFloat32 := roundFloat32 }

/-- A batch of two streams, one without samples, one of two equal samples beyond `float32`. -/
def oddStreamsRequest : AuditBatchRequest where
  payload := {
    streams := [⟨"bank", "sip_trunk_01", []⟩,
      ⟨"bank", "sip_trunk_02", [.finite (10 ^ 39), .finite (10 ^ 39)]⟩]
    minItems := by decide
    maxItems := by decide }
  authorizationToken := "key"
  draws := fun _ => ⟨1 / 2, "0123456789abcdef", "2024-01-01T00:00:00"⟩
  token := "01234567"

/-- The route answers that batch. -/
theorem authentic_imp_measured_iff_oddStreams :
    ∃ result tasks, auditBatch (.fallback .rounding) oddStreamsRequest = .ok (result, tasks) ∧
      List.Forall₂ (fun stream analysis =>
        (analysis.Authentic → Measured stream.frequencyDeltas) ↔
          stream.frequencyDeltas ≠ [] ∧ (∀ x ∈ stream.frequencyDeltas, x.IsFinite) ∧
            Numpy.rounding.KeepsLowVariance stream.frequencyDeltas)
        oddStreamsRequest.payload.streams result.results :=
  (authentic_imp_measured_iff .rounding rfl).2.2 oddStreamsRequest

/-- The stream without samples is let through. -/
theorem not_forall_measured :
    ¬ ∀ (r : AuditBatchRequest) (result : BatchResult) (tasks : List DeductCredit),
      auditBatch (.fallback .rounding) r = .ok (result, tasks) →
        List.Forall₂ (fun stream analysis => analysis.Authentic → Measured stream.frequencyDeltas)
          r.payload.streams result.results := by
  intro h
  have hall := h oddStreamsRequest _ _ rfl
  rw [oddStreamsRequest, List.zipIdx_cons, List.map_cons, List.forall₂_cons] at hall
  exact (hall.1 ⟨by decide, by decide⟩).1 rfl

/-- Ten samples that `/audit-voice` accepts, of a variance just below `0.08`. -/
def edgeSamples : List ℚ := List.replicate 5 0 ++ List.replicate 5 (565685424 / 10 ^ 9)

/-- **Rounding may lift a variance** over the threshold. -/
theorem not_keepsLowVariance_edgeSamples :
    ¬ Numpy.rounding.KeepsLowVariance (edgeSamples.map .finite) := by
  intro h
  have hlow : populationVariance edgeSamples < 8 / 100 := by decide +kernel
  exact absurd (h edgeSamples rfl hlow).2 (by decide +kernel)

end BioShield
