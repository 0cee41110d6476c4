import BioShield.Api.AuthMiddleware
import BioShield.Api.VoiceAudit

/-!
# Api/BilledKey — the key that is validated, charged and billed

A dictionary keeps the last of several headers with one name, the framework hands out the first.  So
an audit may be authorised by one key and billed to another (`not_forall_sameKey`).
-/

namespace BioShield

open Machinery

/-- The background tasks of an answer. -/
def Answered.tasks {α : Type} : Answered α → List DeductCredit
  | .ok (_, tasks) => tasks
  | .error _ => []

/-- A cached result is answered without tasks. -/
theorem tasks_map_jsonResponse (cached : AuditResult) :
    Answered.tasks ((jsonResponse cached).map (·, [])) = [] := by
  cases jsonResponse cached <;> rfl

/-- A request to one of the audit endpoints, but for its token. -/
inductive Audit
  | voice (service : DeepfakeService) (hash : List PyFloat → ℤ) (cache : CacheService)
      (r : AuditVoiceRequest)
  | multiChannel (service : DeepfakeService) (r : AuditMultiChannelRequest)
  | batch (service : DeepfakeService) (r : AuditBatchRequest)

/-- The deductions the request causes when its token parameter is `authorizationToken`. -/
def Audit.deductions (authorizationToken : String) : Audit → List DeductCredit
  | .voice service hash cache r =>
      Answered.tasks
        (auditVoiceStream service hash cache { r with authorizationToken := authorizationToken }).1
  | .multiChannel service r =>
      (auditMultiChannel service { r with authorizationToken := authorizationToken }).tasks
  | .batch service r =>
      (auditBatch service { r with authorizationToken := authorizationToken }).tasks

/-- **The routes bill the token they are given.** -/
theorem apiKey_of_mem_deductions {token : String} {audit : Audit} {d : DeductCredit}
    (hd : d ∈ audit.deductions token) : d.apiKey = token := by
  cases audit with
  | voice service hash cache r =>
    simp only [Audit.deductions, auditVoiceStream_eq] at hd
    split at hd
    · rw [tasks_map_jsonResponse] at hd
      exact absurd hd List.not_mem_nil
    · obtain rfl := List.mem_singleton.mp hd
      rfl
  | multiChannel service r =>
    simp only [Audit.deductions, auditMultiChannel] at hd
    split_ifs at hd with hlen
    · exact absurd hd List.not_mem_nil
    · obtain rfl := List.mem_singleton.mp hd
      rfl
  | batch service r =>
    simp only [Audit.deductions, auditBatch] at hd
    split_ifs at hd with hlen
    · exact absurd hd List.not_mem_nil
    · obtain rfl := List.mem_singleton.mp hd
      rfl

/-- A batch of one stream. -/
def oneStream : Audit :=
  .batch (.fallback .exact)
    ⟨⟨[⟨"bank", "trunk", []⟩], le_rfl, by decide⟩, "", fun _ => ⟨0, "0", "t"⟩, "0"⟩

theorem exists_mem_deductions (token : String) : ∃ d, d ∈ oneStream.deductions token := by
  simp [oneStream, Audit.deductions, auditBatch, Answered.tasks]

/-! ## One key for everything -/

/-- The key the request is validated with is the one the rate limiter charges and the one every
audit of the request is billed to. -/
structure SameKey (lower : String → String) (scope : Scope) (apiKey : String) : Prop where
  charged : clientKey lower scope = .ok apiKey
  present : (headerParam scope).isSome
  billed : ∀ token ∈ headerParam scope, ∀ audit : Audit, ∀ d ∈ audit.deductions token,
    d.apiKey = apiKey

/-- Header names arrive in lower case. -/
def LowerCaseNames (lower : String → String) (scope : Scope) : Prop :=
  ∀ p ∈ scope.headers, ∀ name, String.fromUTF8? p.1 = some name → lower name = name

/-- The values of the token header, in the order they arrived. -/
def tokenValues (scope : Scope) : List ByteArray :=
  (scope.headers.filter fun p => p.1 = tokenHeader).map Prod.snd

section Forwarded

variable {lower : String → String} {scope : Scope} {apiKey clientId : String}
variable (hlower : LowerCaseNames lower scope)
variable (hforwarded : authMiddleware lower scope = .ok (.forwarded apiKey clientId))

include hlower hforwarded

/-- The key is the text of the last token header. -/
theorem exists_getLast_tokenValues :
    ∃ last, (tokenValues scope).getLast? = some last ∧ String.fromUTF8? last = some apiKey := by
  obtain ⟨key, value, name, hmem, hkey, hname, hvalue⟩ :=
    exists_of_scanToken lower (findToken_of_forwarded hforwarded).1
  have hget := (Dict.mem_items_iff _ key value).mp hmem
  rw [Dict.get?_ofPairs, ← List.getLast?_map] at hget
  -- the item's key is a header name, so it is the token header as it stands
  have hheader : key = tokenHeader := by
    obtain ⟨p, hp, rfl⟩ := List.mem_map.mp (List.mem_of_getLast? hget)
    obtain ⟨hp, hpkey⟩ := List.mem_filter.mp hp
    have hlow := hlower p hp name (by rwa [of_decide_eq_true hpkey])
    rw [toUTF8_of_fromUTF8? hkey, ← hlow, hname]
    rfl
  subst hheader
  exact ⟨value, hget, hvalue⟩

omit hlower in
theorem clientKey_of_forwarded : clientKey lower scope = .ok apiKey := by
  obtain ⟨hfind, hne⟩ := findToken_of_forwarded hforwarded
  refine bind_eq_ok_iff.mpr ⟨some apiKey, hfind, ?_⟩
  simp only [Option.filter, ne_eq, hne, not_false_eq_true, decide_true, if_true]
  rfl

theorem exists_headerParam :
    ∃ first, (tokenValues scope).head? = some first ∧
      headerParam scope = some (decodeLatin1 first) := by
  obtain ⟨last, hlast, -⟩ := exists_getLast_tokenValues hlower hforwarded
  have hparam : headerParam scope = (tokenValues scope).head?.map decodeLatin1 := by
    rw [headerParam, tokenValues, List.head?_map, List.head?_filter, Option.map_map]
    rfl
  cases hvalues : tokenValues scope with
  | nil => rw [hvalues] at hlast; cases hlast
  | cons first rest => exact ⟨first, rfl, by rw [hparam, hvalues]; rfl⟩

/-- **When one key does everything**: for a request that is forwarded with a key, exactly if the
last token header, read as UTF-8, says what the first one says as Latin-1. -/
theorem sameKey_iff :
    SameKey lower scope apiKey ↔
      ∀ first ∈ (tokenValues scope).head?, ∀ last ∈ (tokenValues scope).getLast?,
        String.fromUTF8? last = some (decodeLatin1 first) := by
  obtain ⟨last, hlast, hkey⟩ := exists_getLast_tokenValues hlower hforwarded
  obtain ⟨first, hfirst, hparam⟩ := exists_headerParam hlower hforwarded
  constructor
  · rintro ⟨-, -, hbilled⟩ first' hfirst' last' hlast'
    obtain rfl := Option.some.inj (hfirst.symm.trans hfirst')
    obtain rfl := Option.some.inj (hlast.symm.trans hlast')
    obtain ⟨d, hd⟩ := exists_mem_deductions (decodeLatin1 first)
    rw [hkey, ← hbilled _ hparam oneStream d hd, apiKey_of_mem_deductions hd]
  · intro hsame
    have htoken : decodeLatin1 first = apiKey :=
      Option.some.inj ((hsame first hfirst last hlast).symm.trans hkey)
    refine ⟨clientKey_of_forwarded hforwarded, by rw [hparam]; rfl, fun token ht audit d hd => ?_⟩
    obtain rfl := Option.some.inj (hparam.symm.trans ht)
    exact (apiKey_of_mem_deductions hd).trans htoken

end Forwarded

/-- A request with two token headers. -/
def twoTokens : Scope where
  path := "/v1/audit-voice"
  headers := [(tokenHeader, "sk_test_a".toUTF8), (tokenHeader, "sk_test_b".toUTF8)]
  client := .address "192.0.2.1" 50000

/-- A request with one token header. -/
def oneToken : Scope where
  path := "/v1/audit-voice"
  headers := [("host".toUTF8, "api".toUTF8), (tokenHeader, "sk_test_a".toUTF8)]
  client := .address "192.0.2.1" 50000

theorem forwarded_oneToken :
    authMiddleware id oneToken = .ok (.forwarded "sk_test_a" "test_client") := by decide +kernel

theorem sameKey_oneToken : SameKey id oneToken "sk_test_a" :=
  (sameKey_iff (fun _ _ _ _ => rfl) forwarded_oneToken).mpr (by decide +kernel)

/-- Authorised by `sk_test_b`, billed to `sk_test_a`. -/
theorem not_forall_sameKey :
    ¬ ∀ (lower : String → String) (scope : Scope) (apiKey clientId : String),
      LowerCaseNames lower scope →
      authMiddleware lower scope = .ok (.forwarded apiKey clientId) →
      SameKey lower scope apiKey := by
  intro h
  have hsame := h id twoTokens "sk_test_b" "test_client" (fun _ _ _ _ => rfl) (by decide +kernel)
  obtain ⟨d, hd⟩ := exists_mem_deductions "sk_test_a"
  have hparam : headerParam twoTokens = some "sk_test_a" := by decide +kernel
  have hbilled := hsame.billed _ hparam oneStream d hd
  rw [apiKey_of_mem_deductions hd] at hbilled
  exact absurd hbilled (by decide)

end BioShield
