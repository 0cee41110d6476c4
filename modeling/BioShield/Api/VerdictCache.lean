import BioShield.Machinery.Machine
import BioShield.Api.MeasuredVerdict

/-!
# Api/VerdictCache — whose verdict a cached answer is

The key of a stream forgets all samples but the last ten, so a request may find the answer to
another stream: that of the last request which missed under its key, less than a minute before
(`mem_answers_iff`).  It gets the verdict `analyze_stream` would give exactly if the two variances
lie in the same band and the stored result can be sent at all, which one with a NaN cannot
(`ownVerdict_iff`).
-/

namespace BioShield

open Machinery

/-- The audit route as a machine over its cache: each request gets a result or an exception. -/
def auditor (service : DeepfakeService) (hash : List PyFloat → ℤ) :
    Machine CacheService AuditVoiceRequest (AuditVoiceRequest × Except RouteException AuditResult)
    where
  step cache r :=
    let (answer, cache') := auditVoiceStream service hash cache r
    some (cache', [(r, answer.map Prod.fst)])

section Steps

variable {service : DeepfakeService} {hash : List PyFloat → ℤ} {cache : CacheService}
variable {r : AuditVoiceRequest}

/-- A hit is answered from the cache… -/
theorem auditor_step_of_hit {cached : AuditResult}
    (h : cache.get r.readAt (cacheKey hash r.payload) = some cached) :
    (auditor service hash).step cache r = some (cache, [(r, jsonResponse cached)]) := by
  simp only [auditor, auditVoiceStream_eq, h]
  cases jsonResponse cached <;> rfl

/-- …and a miss is analysed and stored. -/
theorem auditor_step_of_miss (h : cache.get r.readAt (cacheKey hash r.payload) = none) :
    (auditor service hash).step cache r =
      some (cache.set r.writtenAt (cacheKey hash r.payload) (r.analyze service) 60,
        [(r, .ok (r.analyze service))]) := by
  simp only [auditor, auditVoiceStream_eq, h, Except.map]

end Steps

/-! ## The history

What a request finds depends on the requests before it alone: on their keys and on when they read
and wrote the cache. -/

/-- The last of the requests `earlier` that missed under the key. -/
def lastMiss (hash : List PyFloat → ℤ) (key : String) (earlier : List AuditVoiceRequest) :
    Option AuditVoiceRequest :=
  earlier.foldl (fun last r =>
    if cacheKey hash r.payload = key ∧ ∀ r₀ ∈ last, r₀.writtenAt + 60 ≤ r.readAt then some r
    else last) none

/-- The request among `earlier` whose result `r` finds, less than a minute old. -/
def foundBy (hash : List PyFloat → ℤ) (initialized : Bool) (earlier : List AuditVoiceRequest)
    (r : AuditVoiceRequest) : Option AuditVoiceRequest :=
  if initialized then
    (lastMiss hash (cacheKey hash r.payload) earlier).filter (r.readAt < ·.writtenAt + 60)
  else none

/-- Every request that finds the result of an earlier one fits that. -/
def EachFits (hash : List PyFloat → ℤ) (initialized : Bool)
    (Fits : AuditVoiceRequest → AuditVoiceRequest → Prop) (es : List AuditVoiceRequest) : Prop :=
  ∀ earlier r later, es = earlier ++ r :: later →
    ∀ r₀, foundBy hash initialized earlier r = some r₀ → Fits r₀ r

/-- What a request gets after the requests `earlier`. -/
def answerAfter (service : DeepfakeService) (hash : List PyFloat → ℤ) (initialized : Bool)
    (earlier : List AuditVoiceRequest) (r : AuditVoiceRequest) :
    Except RouteException AuditResult :=
  match foundBy hash initialized earlier r with
  | some r₀ => jsonResponse (r₀.analyze service)
  | none => .ok (r.analyze service)

section History

variable {service : DeepfakeService} {hash : List PyFloat → ℤ} {initialized : Bool}
variable {key : String} {earlier : List AuditVoiceRequest} {r r₀ : AuditVoiceRequest}

theorem lastMiss_concat : lastMiss hash key (earlier ++ [r]) =
    if cacheKey hash r.payload = key ∧
        ∀ r₀ ∈ lastMiss hash key earlier, r₀.writtenAt + 60 ≤ r.readAt then some r
    else lastMiss hash key earlier := by
  rw [lastMiss, List.foldl_append]
  rfl

theorem cacheKey_of_lastMiss (h : lastMiss hash key earlier = some r₀) :
    cacheKey hash r₀.payload = key := by
  induction earlier using List.reverseRecOn with
  | nil => cases h
  | append_singleton earlier r ih =>
    rw [lastMiss_concat] at h
    split_ifs at h with hmiss
    · exact Option.some.inj h ▸ hmiss.1
    · exact ih h

/-- A request finds what was stored under its own key. -/
theorem cacheKey_of_foundBy (h : foundBy hash initialized earlier r = some r₀) :
    cacheKey hash r₀.payload = cacheKey hash r.payload := by
  simp only [foundBy] at h
  split_ifs at h
  exact cacheKey_of_lastMiss (Option.filter_eq_some_iff.mp h).1

/-- What the cache holds after the requests `earlier`: under each key the result of the last that
missed. -/
structure CacheService.Holds (service : DeepfakeService) (hash : List PyFloat → ℤ)
    (initialized : Bool) (earlier : List AuditVoiceRequest) (cache : CacheService) : Prop where
  ready : cache.initialized = initialized
  redis : initialized = true → ∀ key, cache.redis key =
    (lastMiss hash key earlier).map fun r => ⟨r.analyze service, r.writtenAt + 60⟩

theorem CacheService.holds_fresh :
    (CacheService.fresh initialized).Holds service hash initialized [] :=
  ⟨rfl, fun _ _ => rfl⟩

variable {cache : CacheService}

/-- A request finds what the history says. -/
theorem CacheService.Holds.get (h : cache.Holds service hash initialized earlier) :
    cache.get r.readAt (cacheKey hash r.payload) =
      (foundBy hash initialized earlier r).map (·.analyze service) := by
  by_cases hinit : initialized = true
  · rw [foundBy, if_pos hinit, CacheService.get, if_pos (h.ready.trans hinit), h.redis hinit]
    cases lastMiss hash (cacheKey hash r.payload) earlier with
    | none => rfl
    | some r₀ => by_cases hlive : r.readAt < r₀.writtenAt + 60 <;> simp [Option.filter, hlive]
  · rw [foundBy, if_neg hinit, CacheService.get, if_neg (by rwa [h.ready])]
    rfl

/-- One request: it gets its answer, and the cache holds the longer history. -/
theorem CacheService.Holds.step (h : cache.Holds service hash initialized earlier)
    {cache' : CacheService} {o : List (AuditVoiceRequest × Except RouteException AuditResult)}
    (hs : (auditor service hash).step cache r = some (cache', o)) :
    o = [(r, answerAfter service hash initialized earlier r)] ∧
      cache'.Holds service hash initialized (earlier ++ [r]) := by
  have hget := h.get (r := r)
  cases hfound : foundBy hash initialized earlier r with
  | some r₀ =>
    rw [auditor_step_of_hit (hget.trans (by rw [hfound]; rfl))] at hs
    obtain ⟨rfl, rfl⟩ := Prod.mk.inj (Option.some.inj hs)
    refine ⟨by simp only [answerAfter, hfound], h.ready, fun hinit key => ?_⟩
    -- a hit is no miss
    rw [h.redis hinit, lastMiss_concat, if_neg]
    rintro ⟨rfl, hmiss⟩
    rw [foundBy, if_pos hinit, Option.filter_eq_some_iff] at hfound
    exact (hmiss r₀ hfound.1).not_gt (of_decide_eq_true hfound.2)
  | none =>
    rw [auditor_step_of_miss (hget.trans (by rw [hfound]; rfl))] at hs
    obtain ⟨rfl, rfl⟩ := Prod.mk.inj (Option.some.inj hs)
    refine ⟨by simp only [answerAfter, hfound], ?_, fun hinit key => ?_⟩
    · rw [CacheService.set]
      split_ifs <;> exact h.ready
    · rw [foundBy, if_pos hinit, Option.filter_eq_none_iff] at hfound
      rw [CacheService.set, if_pos (h.ready.trans hinit), lastMiss_concat]
      by_cases hkey : key = cacheKey hash r.payload
      · subst hkey
        rw [if_pos ⟨rfl, fun r₀ hr₀ => not_lt.mp fun hlt => hfound r₀ hr₀ (decide_eq_true hlt)⟩]
        simp
      · rw [if_neg fun hmiss => hkey hmiss.1.symm]
        simp [Function.update_of_ne hkey, h.redis hinit]

/-- Where a list that has grown by one is cut. -/
theorem concat_eq_append_cons_iff {α : Type} {l l₁ l₂ : List α} {x y : α} :
    l ++ [y] = l₁ ++ x :: l₂ ↔
      (l₁ = l ∧ x = y ∧ l₂ = []) ∨ ∃ l₃, l = l₁ ++ x :: l₃ ∧ l₂ = l₃ ++ [y] := by
  rcases List.eq_nil_or_concat' l₂ with rfl | ⟨l₃, z, rfl⟩
  · rw [List.append_singleton_inj]
    refine ⟨fun ⟨hl, hy⟩ => .inl ⟨hl.symm, hy.symm, rfl⟩, ?_⟩
    rintro (⟨rfl, rfl, -⟩ | ⟨l₃, -, hnil⟩)
    · exact ⟨rfl, rfl⟩
    · simp at hnil
  · rw [← List.cons_append, ← List.append_assoc, List.append_singleton_inj]
    constructor
    · rintro ⟨rfl, rfl⟩
      exact .inr ⟨l₃, rfl, rfl⟩
    · rintro (⟨-, -, hnil⟩ | ⟨l₄, rfl, hl₄⟩)
      · simp at hnil
      · obtain ⟨rfl, rfl⟩ := List.append_singleton_inj.mp hl₄
        exact ⟨rfl, rfl⟩

variable {es : List AuditVoiceRequest}
variable {o : List (AuditVoiceRequest × Except RouteException AuditResult)}

/-- **What the requests get**, each after those before it. -/
theorem mem_answers_iff
    (hrun : (auditor service hash).run (.fresh initialized) es = some (cache, o))
    (a : AuditVoiceRequest × Except RouteException AuditResult) :
    a ∈ o ↔ ∃ earlier later, es = earlier ++ a.1 :: later ∧
      a.2 = answerAfter service hash initialized earlier a.1 := by
  refine ((auditor service hash).run_history (I := fun cache es os =>
    cache.Holds service hash initialized es ∧ ∀ a, a ∈ os ↔ ∃ earlier later,
      es = earlier ++ a.1 :: later ∧ a.2 = answerAfter service hash initialized earlier a.1)
    (fun cache es os r cache' o hI hs => ?_) ⟨CacheService.holds_fresh, by simp⟩ hrun).2 a
  obtain ⟨hholds, hanswers⟩ := hI
  obtain ⟨rfl, hholds'⟩ := hholds.step hs
  refine ⟨hholds', fun a => ?_⟩
  simp only [List.mem_append, hanswers, List.mem_singleton, concat_eq_append_cons_iff]
  constructor
  · rintro (⟨earlier, later, rfl, ha⟩ | rfl)
    · exact ⟨earlier, _, .inr ⟨later, rfl, rfl⟩, ha⟩
    · exact ⟨es, _, .inl ⟨rfl, rfl, rfl⟩, rfl⟩
  · rintro ⟨earlier, later, ⟨rfl, hr, -⟩ | ⟨later', rfl, -⟩, ha⟩
    · exact .inr (Prod.ext hr (ha.trans (by rw [hr])))
    · exact .inl ⟨earlier, later', rfl, ha⟩

/-- **Which answers are a request's own**: if fresh results are, all answers from an empty cache are
exactly if every request fits the earlier one whose result it finds. -/
theorem forall_answers_iff
    {Own : AuditVoiceRequest × Except RouteException AuditResult → Prop}
    {Fits : AuditVoiceRequest → AuditVoiceRequest → Prop}
    (hfresh : ∀ r, Own (r, .ok (r.analyze service)))
    (hfits : ∀ r₀ r, cacheKey hash r₀.payload = cacheKey hash r.payload →
      (Own (r, jsonResponse (r₀.analyze service)) ↔ Fits r₀ r))
    (hrun : (auditor service hash).run (.fresh initialized) es = some (cache, o)) :
    (∀ a ∈ o, Own a) ↔ EachFits hash initialized Fits es := by
  constructor
  · intro hown earlier r later hes r₀ hfound
    refine (hfits r₀ r (cacheKey_of_foundBy hfound)).mp (hown _ ((mem_answers_iff hrun _).mpr
      ⟨earlier, later, hes, ?_⟩))
    simp only [answerAfter, hfound]
  · rintro heach ⟨r, answer⟩ ha
    obtain ⟨earlier, later, hes, hanswer⟩ := (mem_answers_iff hrun _).mp ha
    obtain rfl : answer = answerAfter service hash initialized earlier r := hanswer
    cases hfound : foundBy hash initialized earlier r with
    | none => simpa only [answerAfter, hfound] using hfresh r
    | some r₀ =>
      simp only [answerAfter, hfound]
      exact (hfits r₀ r (cacheKey_of_foundBy hfound)).mpr (heach earlier r later hes r₀ hfound)

end History

/-! ## What can be sent -/

/-- Numpy on the samples `/audit-voice` accepts: a NaN makes their variance a NaN, and without one
all three statistics are finite. -/
structure Numpy.PropagatesNan (np : Numpy) : Prop where
  nan : ∀ xs, .nan ∈ xs → np.var (np.array xs) = .nan
  finite : ∀ qs : List ℚ, 10 ≤ qs.length → qs.length ≤ 1000 → (∀ q ∈ qs, 0 ≤ q ∧ q ≤ 10) →
    (np.var (np.array (qs.map .finite))).IsFinite ∧
      (np.mean (np.array (qs.map .finite))).IsFinite ∧
        (np.std (np.array (qs.map .finite))).IsFinite

/-- Numpy in exact arithmetic does. -/
theorem Numpy.propagatesNan_exact : Numpy.exact.PropagatesNan where
  nan := fun xs hnan => ofFinite_eq_nan _ fun hfinite =>
    absurd (hfinite.2 _ (List.mem_map_of_mem hnan)) (by decide)
  finite := fun qs hmin _ hrange => by
    have hne : qs ≠ [] := List.length_pos_iff.mp (Nat.lt_of_lt_of_le (by decide) hmin)
    rw [array_eq_self (fun _ _ _ => rfl) hrange]
    simp only [Numpy.exact, ofFinite_map_finite _ hne]
    exact ⟨rfl, rfl, rfl⟩

section Sent

variable {service : DeepfakeService}

/-- The analysis of accepted samples holds finite floats exactly if no sample is a NaN… -/
theorem isFinite_metadata_iff (hnp : service.np.PropagatesNan) (r : AuditVoiceRequest) :
    (r.analyze service).metadata.IsFinite ↔ .nan ∉ r.payload.frequencyAmplitudeDeltas := by
  change (service.np.var (service.np.array r.payload.frequencyAmplitudeDeltas)).IsFinite ∧
    (service.np.mean (service.np.array r.payload.frequencyAmplitudeDeltas)).IsFinite ∧
      (service.np.std (service.np.array r.payload.frequencyAmplitudeDeltas)).IsFinite ↔ _
  constructor
  · rintro ⟨hvar, -⟩ hnan
    rw [hnp.nan _ hnan] at hvar
    cases hvar
  · intro hnan
    obtain ⟨qs, hqs⟩ := PyFloat.forall_isFinite_iff.mp (r.payload.isFinite_iff.mpr hnan).2
    obtain ⟨hmin, hrange⟩ := AudioStreamPayload.finite_samples hqs
    have hmax := r.payload.maxItems
    rw [hqs, List.length_map] at hmax
    rw [hqs]
    exact hnp.finite qs hmin hmax hrange

/-- …and can be sent then only. -/
theorem jsonResponse_analyze_eq_ok_iff (hnp : service.np.PropagatesNan) (r : AuditVoiceRequest)
    (result : AuditResult) :
    jsonResponse (r.analyze service) = .ok result ↔
      .nan ∉ r.payload.frequencyAmplitudeDeltas ∧ r.analyze service = result := by
  rw [jsonResponse, ← isFinite_metadata_iff hnp]
  split_ifs with h <;> simp [h]

end Sent

/-! ## Verdicts -/

/-- The answer is the verdict and the action of the request's own samples. -/
def OwnVerdict (service : DeepfakeService)
    (o : AuditVoiceRequest × Except RouteException AuditResult) : Prop :=
  ∃ result, o.2 = .ok result ∧
    result.evaluationVerdict = (o.1.analyze service).evaluationVerdict ∧
      result.firewallAction = (o.1.analyze service).firewallAction

/-- The samples of `r₀` hold no NaN, and their variance lies in the band of that of `r`. -/
def SameVerdict (np : Numpy) (r₀ r : AuditVoiceRequest) : Prop :=
  .nan ∉ r₀.payload.frequencyAmplitudeDeltas ∧
    SameBand (np.var (np.array r₀.payload.frequencyAmplitudeDeltas))
      (np.var (np.array r.payload.frequencyAmplitudeDeltas))

section Verdicts

variable {np : Numpy} {hash : List PyFloat → ℤ} {cache : CacheService}
variable {o : List (AuditVoiceRequest × Except RouteException AuditResult)}

/-- A stored result is the request's own verdict exactly if it can be sent and the variances share a
band. -/
theorem ownVerdict_iff_sameVerdict (hnp : np.PropagatesNan) (r₀ r : AuditVoiceRequest) :
    OwnVerdict (.fallback np) (r, jsonResponse (r₀.analyze (.fallback np))) ↔
      SameVerdict np r₀ r := by
  rw [SameVerdict, ← verdict_fallbackEvaluation_eq_iff]
  constructor
  · rintro ⟨result, hresult, hverdict, -⟩
    obtain ⟨hnan, rfl⟩ := (@jsonResponse_analyze_eq_ok_iff (.fallback np) hnp r₀ result).mp hresult
    exact ⟨hnan, hverdict⟩
  · rintro ⟨hnan, hverdict⟩
    have hband := (verdict_fallbackEvaluation_eq_iff _ _).mp hverdict
    exact ⟨_, (@jsonResponse_analyze_eq_ok_iff (.fallback np) hnp r₀ _).mpr ⟨hnan, rfl⟩, hverdict,
      congrArg Evaluation.action (fallbackEvaluation_eq_of_sameBand hband)⟩

/-- **Whose verdict is returned**: in every sequence of requests, all answers are the verdicts of
the requests' own samples exactly if every request that finds the result of an earlier one has a
variance in the band of that one's, whose samples hold no NaN. -/
theorem ownVerdict_iff (hnp : np.PropagatesNan) {initialized : Bool}
    {es : List AuditVoiceRequest}
    (hrun : (auditor (.fallback np) hash).run (.fresh initialized) es = some (cache, o)) :
    (∀ a ∈ o, OwnVerdict (.fallback np) a) ↔
      EachFits hash initialized (SameVerdict np) es :=
  forall_answers_iff (fun _ => ⟨_, rfl, rfl, rfl⟩)
    (fun r₀ r _ => ownVerdict_iff_sameVerdict hnp r₀ r) hrun

end Verdicts

/-! ## A human prefix -/

/-- Ten equal samples: no variance at all. -/
def flat : List PyFloat := List.replicate 10 (.finite 1)

/-- The same ten samples after ten others: variance one. -/
def lively : List PyFloat := List.replicate 10 (.finite 3) ++ flat

/-- A request from the same trunk, at time `now`. -/
def auditRequest (deltas : List PyFloat) (hmin : 10 ≤ deltas.length) (hmax : deltas.length ≤ 1000)
    (hdeltas : (deltas.any fun x => x.lt (.finite 0) || (PyFloat.finite 10).lt x) = false)
    (now : ℚ) : AuditVoiceRequest where
  payload :=
    { bankClusterToken := "bank"
      channelIdentity := "trunk"
      frequencyAmplitudeDeltas := deltas
      maxLength_bankClusterToken := by decide
      maxLength_channelIdentity := by decide
      minItems := hmin
      maxItems := hmax
      validateDeltas := hdeltas }
  authorizationToken := "sk_test_a"
  draws := ⟨0, "0", "t"⟩
  readAt := now
  writtenAt := now

def flatRequest : AuditVoiceRequest :=
  auditRequest flat (by decide) (by decide) (by decide +kernel) 1

def livelyRequest : AuditVoiceRequest :=
  auditRequest lively (by decide) (by decide) (by decide +kernel) 0

/-- Two requests under one key, the second within the minute: it finds the first one's result. -/
theorem run_pair (service : DeepfakeService) (hash : List PyFloat → ℤ) (r r' : AuditVoiceRequest)
    (hkey : cacheKey hash r'.payload = cacheKey hash r.payload)
    (hlive : r'.readAt < r.writtenAt + 60) :
    ∃ cache, (auditor service hash).run (.fresh true) [r, r'] =
      some (cache, [(r, .ok (r.analyze service)), (r', jsonResponse (r.analyze service))]) := by
  have hmiss : (CacheService.fresh true).get r.readAt (cacheKey hash r.payload) = none := rfl
  have hhit : ((CacheService.fresh true).set r.writtenAt (cacheKey hash r.payload)
      (r.analyze service) 60).get r'.readAt (cacheKey hash r'.payload) =
        some (r.analyze service) := by
    rw [hkey]
    exact CacheService.get_set_self rfl hlive
  have hsecond := (auditor service hash).run_singleton (auditor_step_of_hit hhit)
  exact ⟨_, (auditor service hash).run_cons (auditor_step_of_miss hmiss) hsecond⟩

/-- A stream sent twice finds its own answer. -/
theorem ownVerdict_iff_lively :
    EachFits (fun _ => 0) true (SameVerdict .exact) [livelyRequest, livelyRequest] := by
  obtain ⟨cache, hrun⟩ := run_pair (.fallback .exact) (fun _ => 0) livelyRequest
    livelyRequest rfl (by decide +kernel)
  have hsent : jsonResponse (livelyRequest.analyze (.fallback .exact)) =
      .ok (livelyRequest.analyze (.fallback .exact)) := if_pos (by decide +kernel)
  refine (ownVerdict_iff Numpy.propagatesNan_exact hrun).mp fun a ha => ?_
  rw [hsent, List.mem_cons, List.mem_singleton, or_self] at ha
  exact ha ▸ ⟨_, rfl, rfl, rfl⟩

instance : Countable PyFloat := by
  let code : PyFloat → Option (Bool ⊕ ℚ)
    | .nan => none
    | .inf negative => some (.inl negative)
    | .finite q => some (.inr q)
  refine Function.Injective.countable (f := code) fun x y h => ?_
  cases x <;> cases y <;> simp_all [code]

/-- An injective `hash` does not help: a deepfake is let through on the answer for a human. -/
theorem not_forall_ownVerdict :
    ¬ ∀ (np : Numpy) (hash : List PyFloat → ℤ), np.PropagatesNan →
      np.var = ofFinite populationVariance → Function.Injective hash → ∀ es cache o,
        (auditor (.fallback np) hash).run (.fresh true) es = some (cache, o) →
        ∀ a ∈ o, OwnVerdict (.fallback np) a := by
  intro h
  obtain ⟨hash, hhash⟩ := exists_injective_nat (List PyFloat)
  have hinj : Function.Injective fun xs => (hash xs : ℤ) := fun xs ys hxy =>
    hhash (Int.ofNat.inj hxy)
  obtain ⟨cache, hrun⟩ := run_pair (.fallback .exact) (fun xs => (hash xs : ℤ))
    livelyRequest flatRequest rfl (by decide +kernel)
  obtain ⟨result, hresult, hverdict, -⟩ := h .exact _ Numpy.propagatesNan_exact rfl hinj _ _ _ hrun
    _ (List.mem_cons_of_mem _ List.mem_cons_self)
  obtain ⟨-, rfl⟩ :=
    (@jsonResponse_analyze_eq_ok_iff (.fallback .exact) Numpy.propagatesNan_exact _ _).mp hresult
  exact absurd hverdict (by decide +kernel)

end BioShield
