import BioShield.Api.VerdictCache

/-!
# Api/TenantIsolation — whose analysis a cached answer is

The key of a stream names its channel but not the bank that sent it, nor how many samples it has; a
result stored for one bank answers another one's request.  The answers carry the metadata of their
own requests exactly if every request that finds the result of an earlier one comes from the same
bank with the same number of samples, and that one had no NaN (`ownMetadata_iff`).
-/

namespace BioShield

open Machinery

/-! ## What a key tells -/

/-- The last colon of a text is where it is cut, if there is none behind it. -/
theorem eq_of_append_colon {s s' d d' : List Char} (hd : ':' ∉ d) (hd' : ':' ∉ d')
    (h : s ++ ':' :: d = s' ++ ':' :: d') : s = s' := by
  rcases List.append_eq_append_iff.mp h with ⟨t, rfl, ht⟩ | ⟨t, rfl, ht⟩
  · rcases List.cons_eq_append_iff.mp ht with ⟨rfl, -⟩ | ⟨u, rfl, rfl⟩
    · exact (List.append_nil s).symm
    · exact absurd (by simp) hd
  · rcases List.cons_eq_append_iff.mp ht with ⟨rfl, -⟩ | ⟨u, rfl, rfl⟩
    · exact List.append_nil s'
    · exact absurd (by simp) hd'

theorem colon_notMem_toString (n : ℤ) : ':' ∉ (toString n).toList := by
  have hdigit : ∀ m : ℕ, ':' ∉ m.repr.toList := fun m hm => by
    rw [Nat.toList_repr] at hm
    exact absurd (Nat.isDigit_of_mem_toDigits (by decide) (by decide) hm) (by decide)
  rw [Int.toString_eq_repr, Int.repr_eq_if]
  split_ifs
  · exact hdigit _
  · simpa using hdigit _

/-- **A key names its channel**, whatever characters the channel's name has. -/
theorem channelIdentity_of_cacheKey {c d : String} {n m : ℤ}
    (h : s!"voice:{c}:{n}" = s!"voice:{d}:{m}") : c = d := by
  have hlist := congrArg String.toList h
  simp only [String.toList_append, toString, List.append_assoc] at hlist
  have hcut := List.append_cancel_left hlist
  exact String.toList_inj.mp (eq_of_append_colon (colon_notMem_toString n)
    (colon_notMem_toString m) hcut)

/-! ## Whose metadata is returned -/

/-- The answer names the request's own bank and channel, and counts its samples. -/
def OwnMetadata (o : AuditVoiceRequest × Except RouteException AuditResult) : Prop :=
  ∃ result, o.2 = .ok result ∧ result.metadata.clientId = o.1.payload.bankClusterToken ∧
    result.metadata.channelId = o.1.payload.channelIdentity ∧
      result.metadata.samplesAnalyzed = o.1.payload.frequencyAmplitudeDeltas.length

/-- Both requests come from one bank and have the same number of samples, and those of `r₀` hold no
NaN. -/
structure SameTenant (r₀ r : AuditVoiceRequest) : Prop where
  nan : .nan ∉ r₀.payload.frequencyAmplitudeDeltas
  bank : r₀.payload.bankClusterToken = r.payload.bankClusterToken
  samples : r₀.payload.frequencyAmplitudeDeltas.length = r.payload.frequencyAmplitudeDeltas.length

section Tenants

variable {service : DeepfakeService} {hash : List PyFloat → ℤ} {cache : CacheService}

/-- A result found under a request's key is the request's own as soon as it can be sent and bank and
count are. -/
theorem ownMetadata_iff_sameTenant (hnp : service.np.PropagatesNan) {r₀ r : AuditVoiceRequest}
    (hkey : cacheKey hash r₀.payload = cacheKey hash r.payload) :
    OwnMetadata (r, jsonResponse (r₀.analyze service)) ↔ SameTenant r₀ r := by
  constructor
  · rintro ⟨result, hresult, hbank, -, hsamples⟩
    obtain ⟨hnan, rfl⟩ := (jsonResponse_analyze_eq_ok_iff hnp r₀ result).mp hresult
    exact ⟨hnan, hbank, hsamples⟩
  · intro h
    exact ⟨_, (jsonResponse_analyze_eq_ok_iff hnp r₀ _).mpr ⟨h.nan, rfl⟩, h.bank,
      channelIdentity_of_cacheKey hkey, h.samples⟩

/-- **Whose metadata is returned**: in every sequence of requests, all answers carry the metadata of
their own requests exactly if every request that finds the result of an earlier one has the bank and
the number of samples of that one, whose samples hold no NaN. -/
theorem ownMetadata_iff (hnp : service.np.PropagatesNan) {initialized : Bool}
    {es : List AuditVoiceRequest}
    {o : List (AuditVoiceRequest × Except RouteException AuditResult)}
    (hrun : (auditor service hash).run (.fresh initialized) es = some (cache, o)) :
    (∀ a ∈ o, OwnMetadata a) ↔ EachFits hash initialized SameTenant es :=
  forall_answers_iff (fun _ => ⟨_, rfl, rfl, rfl, rfl⟩)
    (fun _ _ hkey => ownMetadata_iff_sameTenant hnp hkey) hrun

end Tenants

/-! ## Two banks on one trunk -/

/-- The request of another bank, with the same samples, a second later. -/
def otherBankRequest : AuditVoiceRequest :=
  { livelyRequest with
    payload := { livelyRequest.payload with
      bankClusterToken := "other_bank"
      maxLength_bankClusterToken := by decide }
    readAt := 1
    writtenAt := 1 }

/-- One bank asking twice gets its own answer twice. -/
theorem ownMetadata_iff_lively :
    EachFits (fun _ => 0) true SameTenant [livelyRequest, livelyRequest] := by
  obtain ⟨cache, hrun⟩ := run_pair (.fallback .exact) (fun _ => 0) livelyRequest
    livelyRequest rfl (by decide +kernel)
  have hsent : jsonResponse (livelyRequest.analyze (.fallback .exact)) =
      .ok (livelyRequest.analyze (.fallback .exact)) := if_pos (by decide +kernel)
  refine (ownMetadata_iff Numpy.propagatesNan_exact hrun).mp fun a ha => ?_
  rw [hsent, List.mem_cons, List.mem_singleton, or_self] at ha
  exact ha ▸ ⟨_, rfl, rfl, rfl, rfl⟩

/-- The other bank gets the first one's analysis. -/
theorem not_forall_ownMetadata :
    ¬ ∀ (service : DeepfakeService) (hash : List PyFloat → ℤ) (es : List AuditVoiceRequest)
      (cache : CacheService) (o : List (AuditVoiceRequest × Except RouteException AuditResult)),
      service.np.PropagatesNan → (auditor service hash).run (.fresh true) es = some (cache, o) →
        ∀ a ∈ o, OwnMetadata a := by
  intro h
  obtain ⟨cache, hrun⟩ := run_pair (.fallback .exact) (fun _ => 0) livelyRequest
    otherBankRequest rfl (by decide +kernel)
  obtain ⟨result, hresult, hbank, -⟩ := h _ _ _ _ _ Numpy.propagatesNan_exact hrun _
    (List.mem_cons_of_mem _ List.mem_cons_self)
  obtain ⟨-, rfl⟩ := (@jsonResponse_analyze_eq_ok_iff (.fallback .exact)
    Numpy.propagatesNan_exact _ _).mp hresult
  exact absurd hbank (by decide)

end BioShield
