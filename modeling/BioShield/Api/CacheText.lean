import BioShield.Machinery.Json
import BioShield.Api.VerdictCache

/-!
# Api/CacheText — the cache as Redis holds it (`api/services/cache_service.py`)

`set` stores the text of `json.dumps`, `get` gives back what `json.loads` makes of it, and an error
of Redis is swallowed by both.  Under these texts the service is a map of values:

* `get_after` — after any calls, failing ones too, `get` finds the last value that was written;
* `auditorText_run` — the audit route answers as it does over the values themselves;
* `auditorText_answers` — each request gets its own analysis, or that of an earlier request under
  its key which found nothing and stored its own less than a minute before.

A stored result that holds a NaN or an infinity is read back, and cannot be sent: the route raises.
-/

namespace BioShield

open Machinery

/-- What Redis holds under a key. -/
structure RedisEntry where
  text : List Char
  expiresAt : ℚ

/-- How a call of Redis turns out: answered, or an exception, the command carried out or not. -/
inductive RedisReply
  | answered
  | raised (applied : Bool)
  deriving DecidableEq

/-- The command was carried out. -/
def RedisReply.applied : RedisReply → Bool
  | .answered => true
  | .raised applied => applied

/-- How `SETEX` turns out: it refuses a time that is not positive. -/
def RedisReply.setex (reply : RedisReply) (ttl : ℤ) : RedisReply :=
  if 0 < ttl then reply else .raised false

theorem RedisReply.setex_of_pos {reply : RedisReply} {ttl : ℤ} (h : 0 < ttl) :
    reply.setex ttl = reply := if_pos h

/-- `CacheService` over the texts in Redis. -/
structure RedisCacheService where
  initialized : Bool
  redis : String → Option RedisEntry

namespace RedisCacheService

variable {F : Type} (ft : FloatText F)

/-- Before the first call, over an empty Redis. -/
def fresh (initialized : Bool) : RedisCacheService := ⟨initialized, fun _ => none⟩

/-- `initialize`, and whether its `PING` was answered. -/
def initializeService (cache : RedisCacheService) (pinged : Bool) : RedisCacheService :=
  { cache with initialized := pinged }

/-- `close`: an exception of the connection skips the last line. -/
def close (cache : RedisCacheService) (raised : Bool) : RedisCacheService :=
  if raised then cache else { cache with initialized := false }

/-- `GET`. -/
def redisGet (cache : RedisCacheService) (now : ℚ) (key : String) : Option (List Char) :=
  match cache.redis key with
  | some entry => if now < entry.expiresAt then some entry.text else none
  | none => none

/-- `get`. -/
def get (cache : RedisCacheService) (now : ℚ) (key : String) (reply : RedisReply) :
    Option (Json F) :=
  if !cache.initialized then none
  else match reply with
    | .raised _ => none
    | .answered =>
        match cache.redisGet now key with
        | none => none
        | some value => if value = [] then none else Json.loads ft value

variable {ft}

theorem get_of_none {cache : RedisCacheService} {key : String} (hentry : cache.redis key = none)
    {now : ℚ} {reply : RedisReply} : cache.get ft now key reply = none := by
  cases reply <;> simp [get, redisGet, hentry]

/-- `get` reads the value whose text it finds, while its time lasts. -/
theorem get_of_dumps {cache : RedisCacheService} {value : Json F} (hvalue : value.Faithful ft)
    {key : String} {expiresAt : ℚ}
    (hentry : cache.redis key = some ⟨Json.dumps ft value, expiresAt⟩) {now : ℚ}
    {reply : RedisReply} : cache.get ft now key reply =
      if cache.initialized = true ∧ reply = .answered ∧ now < expiresAt then some value
      else none := by
  cases reply with
  | raised applied => simp [get]
  | answered =>
    by_cases hinit : cache.initialized = true <;> by_cases hlive : now < expiresAt <;>
      simp [get, redisGet, hentry, hinit, hlive, Json.dumps_ne_nil hvalue, Json.loads_dumps hvalue]

variable (ft)

/-- The service with something else, or nothing, under a key. -/
def store (cache : RedisCacheService) (key : String) (entry : Option RedisEntry) :
    RedisCacheService :=
  { cache with redis := Function.update cache.redis key entry }

theorem redis_store (cache : RedisCacheService) (key key' : String) (entry : Option RedisEntry) :
    (cache.store key entry).redis key' = if key = key' then entry else cache.redis key' := by
  simp [store, Function.update_apply, eq_comm]

/-- `set`: what it returns, and the service after it. -/
def set (cache : RedisCacheService) (now : ℚ) (key : String) (value : Json F) (ttl : ℤ)
    (reply : RedisReply) : Bool × RedisCacheService :=
  if !cache.initialized then (false, cache)
  else (reply.setex ttl = .answered,
    if (reply.setex ttl).applied then cache.store key (some ⟨Json.dumps ft value, now + ttl⟩)
    else cache)

/-- `delete`. -/
def delete (cache : RedisCacheService) (key : String) (reply : RedisReply) :
    Bool × RedisCacheService :=
  if !cache.initialized then (false, cache)
  else (reply = .answered, if reply.applied then cache.store key none else cache)

end RedisCacheService

/-- Whole numbers as Python writes them, `1.0`, and back. -/
def wholeText : FloatText ℚ where
  repr q := JsonText.intText ⌊q⌋ ++ ['.', '0']
  float text := JsonText.readInt (text.takeWhile (· ≠ '.'))

/-! ## Any calls -/

/-- A call of the service. -/
inductive CacheCall (F : Type)
  | initializeService (pinged : Bool)
  | close (raised : Bool)
  | get (now : ℚ) (key : String) (reply : RedisReply)
  | set (now : ℚ) (key : String) (value : Json F) (ttl : ℤ) (reply : RedisReply)
  | delete (key : String) (reply : RedisReply)

namespace CacheCall

variable {F : Type} (ft : FloatText F)

/-- The service after a call. -/
def run (cache : RedisCacheService) : CacheCall F → RedisCacheService
  | .initializeService pinged => cache.initializeService pinged
  | .close raised => cache.close raised
  | .get _ _ _ => cache
  | .set now key value ttl reply => (RedisCacheService.set ft cache now key value ttl reply).2
  | .delete key reply => (cache.delete key reply).2

/-- The service after some calls. -/
def after (calls : List (CacheCall F)) : RedisCacheService :=
  calls.foldl (run ft) (.fresh false)

/-- What a call writes under the key, if it writes there: a value with its time, or nothing. -/
def writes (key : String) : CacheCall F → Option (Option (Json F × ℚ))
  | .set now key' value ttl reply =>
      if key' = key ∧ (reply.setex ttl).applied then some (some (value, now + ttl)) else none
  | .delete key' reply => if key' = key ∧ reply.applied then some none else none
  | _ => none

/-- Whether the service is ready after a call. -/
def ready (initialized : Bool) : CacheCall F → Bool
  | .initializeService pinged => pinged
  | .close raised => raised && initialized
  | _ => initialized

/-- What a call stores survives. -/
def Faithful : CacheCall F → Prop
  | .set _ _ value _ _ => value.Faithful ft
  | _ => True

variable {ft}

theorem after_concat (calls : List (CacheCall F)) (call : CacheCall F) :
    after ft (calls ++ [call]) = call.run ft (after ft calls) := by
  simp [after]

theorem Faithful.writes {call : CacheCall F} (h : call.Faithful ft) {key : String}
    {value : Json F} {expiresAt : ℚ} (hwrites : call.writes key = some (some (value, expiresAt))) :
    value.Faithful ft := by
  cases call with
  | set now key' value' ttl reply =>
    simp only [CacheCall.writes] at hwrites
    split_ifs at hwrites
    cases hwrites
    exact h
  | delete key' reply =>
    simp only [CacheCall.writes] at hwrites
    split_ifs at hwrites
    cases hwrites
  | initializeService pinged => cases hwrites
  | close raised => cases hwrites
  | get now key' reply => cases hwrites

end CacheCall

/-! ## Results as values -/

/-- A float, as `json` sees it. -/
def PyFloat.toJson : PyFloat → Json ℚ
  | .nan => .nan
  | .inf negative => .infinity negative
  | .finite q => .float q

/-- The text of a verdict. -/
def Verdict.text : Verdict → String
  | .verifiedHumanAuthentic => "VERIFIED_HUMAN_AUTHENTIC"
  | .suspiciousPattern => "SUSPICIOUS_PATTERN"
  | .criticalSuspectedDeepfake => "CRITICAL_SUSPECTED_DEEPFAKE"

/-- The text of an action. -/
def FirewallAction.text : FirewallAction → String
  | .allowTransactionProceed => "ALLOW_TRANSACTION_PROCEED"
  | .escalateManualReview => "ESCALATE_MANUAL_REVIEW"
  | .terminateVoiceCallBlockTransaction => "TERMINATE_VOICE_CALL_BLOCK_TRANSACTION"

/-- The text of `f"{x:.2f}%"`. -/
def TwoDecimals.percent (x : TwoDecimals) : String :=
  let hundredths := x.hundredths.natAbs
  (if x.hundredths < 0 then "-" else "") ++
    s!"{hundredths / 100}.{hundredths / 10 % 10}{hundredths % 10}%"

/-- `result["metadata"]`, as a value. -/
def ResultMetadata.toJson (metadata : ResultMetadata) : Json ℚ :=
  .dict [("client_id", .str metadata.clientId), ("channel_id", .str metadata.channelId),
    ("samples_analyzed", .int metadata.samplesAnalyzed), ("variance", metadata.variance.toJson),
    ("mean", metadata.mean.toJson), ("std_dev", metadata.stdDev.toJson)]

/-- `result`, as a value. -/
def AuditResult.toJson (result : AuditResult) : Json ℚ :=
  .dict [("security_token", .str result.securityToken),
    ("evaluation_verdict", .str result.evaluationVerdict.text),
    ("fraud_risk_index", .str result.fraudRiskIndex.percent),
    ("firewall_action", .str result.firewallAction.text), ("metadata", result.metadata.toJson),
    ("timestamp", .str result.timestamp)]

/-- Every finite float among the three that numpy gave is written exactly. -/
def ResultMetadata.Exact (ft : FloatText ℚ) (metadata : ResultMetadata) : Prop :=
  ∀ x ∈ [metadata.variance, metadata.mean, metadata.stdDev], ∀ q, x = .finite q → ft.Exact q

section Faithful

variable {ft : FloatText ℚ}

theorem PyFloat.faithful_toJson {x : PyFloat} (h : ∀ q, x = .finite q → ft.Exact q) :
    x.toJson.Faithful ft := by
  cases x with
  | nan => trivial
  | inf negative => trivial
  | finite q => exact h q rfl

theorem ResultMetadata.Exact.faithful {metadata : ResultMetadata} (h : metadata.Exact ft) :
    metadata.toJson.Faithful ft :=
  ⟨by simp, trivial, trivial, trivial, PyFloat.faithful_toJson (h _ (by simp)),
    PyFloat.faithful_toJson (h _ (by simp)), PyFloat.faithful_toJson (h _ (by simp)), trivial⟩

theorem AuditResult.faithful_toJson {result : AuditResult} (h : result.metadata.Exact ft) :
    result.toJson.Faithful ft :=
  ⟨by simp, trivial, trivial, trivial, trivial, h.faithful, trivial, trivial⟩

end Faithful

theorem PyFloat.compliant_toJson (x : PyFloat) : x.toJson.compliant = decide x.IsFinite := by
  cases x <;> simp [toJson, Json.compliant, IsFinite, toRat?]

/-- A result is JSON if its three floats are finite. -/
theorem AuditResult.compliant_toJson (result : AuditResult) :
    result.toJson.compliant = decide result.metadata.IsFinite := by
  rw [Bool.eq_iff_iff, decide_eq_true_iff]
  simp [toJson, ResultMetadata.toJson, Json.compliant, Json.compliantItems,
    PyFloat.compliant_toJson, ResultMetadata.IsFinite]

/-! ## The route over texts -/

/-- `if value:`. -/
def truthy {F : Type} (isZero : F → Bool) : Json F → Bool
  | .null => false
  | .bool b => b
  | .int n => n ≠ 0
  | .float x => !isZero x
  | .nan | .infinity _ => true
  | .str s => s ≠ ""
  | .list xs => !xs.isEmpty
  | .dict items => !items.isEmpty

/-- `JSONResponse(content=…)`, of a value. -/
def jsonContent (content : Json ℚ) : Except RouteException (Json ℚ) :=
  if content.compliant then .ok content else .error .valueError

theorem jsonContent_toJson (result : AuditResult) :
    jsonContent result.toJson = (jsonResponse result).map AuditResult.toJson := by
  rw [jsonContent, jsonResponse, AuditResult.compliant_toJson]
  by_cases h : result.metadata.IsFinite <;> simp [h, Except.map]

/-- A request, and how Redis answers its `GET` and its `SETEX`. -/
structure AuditTextRequest where
  request : AuditVoiceRequest
  onGet : RedisReply
  onSet : RedisReply

/-- `audit_voice_stream`, over texts. -/
def auditVoiceText (ft : FloatText ℚ) (service : DeepfakeService) (hash : List PyFloat → ℤ)
    (cache : RedisCacheService) (t : AuditTextRequest) :
    Answered (Json ℚ) × RedisCacheService :=
  let r := t.request
  if r.payload.frequencyAmplitudeDeltas = [] then
    (.error (.httpException ⟨400, "Empty frequency data array"⟩), cache)
  else if r.payload.frequencyAmplitudeDeltas.length < 10 then
    (.error (.httpException ⟨400, "Insufficient samples (minimum 10)"⟩), cache)
  else
    match (cache.get ft r.readAt (cacheKey hash r.payload) t.onGet).filter (truthy (· = 0)) with
    | some cachedResult => ((jsonContent cachedResult).map (·, []), cache)
    | none =>
      let result := (r.analyze service).toJson
      (.ok (result, [⟨r.authorizationToken, 10 / 100, "voice_audit"⟩]),
        (cache.set ft r.writtenAt (cacheKey hash r.payload) result 60 t.onSet).2)

namespace AuditTextRequest

variable (ft : FloatText ℚ) (service : DeepfakeService) (hash : List PyFloat → ℤ)
variable (t : AuditTextRequest)

/-- `cache_key`. -/
def key : String := cacheKey hash t.request.payload

/-- `result`. -/
def result : Json ℚ := (t.request.analyze service).toJson

/-- `background_tasks.add_task(BillingService.deduct_credit, …)`. -/
def charge : DeductCredit := ⟨t.request.authorizationToken, 10 / 100, "voice_audit"⟩

/-- `cached_result`, if it is true to Python. -/
def cachedResult (cache : RedisCacheService) : Option (Json ℚ) :=
  (cache.get ft t.request.readAt (t.key hash) t.onGet).filter (truthy (· = 0))

/-- The cache after `CacheService.set`… -/
def cacheSet (cache : RedisCacheService) : RedisCacheService :=
  (cache.set ft t.request.writtenAt (t.key hash) (t.result service) 60 t.onSet).2

/-- …and what it puts into Redis. -/
def entry : RedisEntry := ⟨Json.dumps ft (t.result service), t.request.writtenAt + 60⟩

/-- What the request gets: the cached result, if it can be sent, or its own… -/
def answer (cache : RedisCacheService) : Except RouteException (Json ℚ) :=
  match t.cachedResult ft hash cache with
  | some cachedResult => jsonContent cachedResult
  | none => .ok (t.result service)

/-- …and the cache after it. -/
def cacheAfter (cache : RedisCacheService) : RedisCacheService :=
  match t.cachedResult ft hash cache with
  | some _ => cache
  | none => t.cacheSet ft service hash cache

end AuditTextRequest

/-- **`audit_voice_stream` in two halves**: it looks into the cache, and on a miss it stores. -/
theorem auditVoiceText_eq (ft : FloatText ℚ) (service : DeepfakeService) (hash : List PyFloat → ℤ)
    (cache : RedisCacheService) (t : AuditTextRequest) :
    auditVoiceText ft service hash cache t =
      match t.cachedResult ft hash cache with
      | some cachedResult => ((jsonContent cachedResult).map (·, []), cache)
      | none => (.ok (t.result service, [t.charge]), t.cacheSet ft service hash cache) := by
  have hlen := t.request.payload.minItems
  have hne : t.request.payload.frequencyAmplitudeDeltas ≠ [] := by
    intro h
    rw [h] at hlen
    exact absurd hlen (by decide)
  simp only [auditVoiceText, if_neg hne, if_neg (not_lt.mpr hlen)]
  rfl

/-- What `CacheService.set` does to Redis. -/
theorem AuditTextRequest.redis_cacheSet {ft : FloatText ℚ} {service : DeepfakeService}
    {hash : List PyFloat → ℤ} (t : AuditTextRequest) (cache : RedisCacheService) (key : String) :
    (t.cacheSet ft service hash cache).redis key =
      if cache.initialized = true ∧ t.onSet.applied = true ∧ t.key hash = key then
        some (t.entry ft service)
      else cache.redis key := by
  have hpos : (0 : ℤ) < 60 := by norm_num
  by_cases hinit : cache.initialized = true <;> by_cases happ : t.onSet.applied = true <;>
    by_cases hkey : t.key hash = key <;>
      simp [cacheSet, entry, RedisCacheService.set, RedisReply.setex_of_pos hpos,
        RedisCacheService.redis_store, hinit, happ, hkey]

/-- The route as a machine over the texts in Redis. -/
def auditorText (ft : FloatText ℚ) (service : DeepfakeService) (hash : List PyFloat → ℤ) :
    Machine RedisCacheService AuditTextRequest
      (AuditVoiceRequest × Except RouteException (Json ℚ)) where
  step cache t :=
    let (answer, cache') := auditVoiceText ft service hash cache t
    some (cache', [(t.request, answer.map Prod.fst)])

/-- A request that Redis answers. -/
def AuditVoiceRequest.answered (r : AuditVoiceRequest) : AuditTextRequest :=
  ⟨r, .answered, .answered⟩

/-- `text` holds the results of `cache`, each as its text. -/
structure Represents (ft : FloatText ℚ) (text : RedisCacheService) (cache : CacheService) :
    Prop where
  initialized : text.initialized = cache.initialized
  redis : ∀ key, text.redis key = (cache.redis key).map fun entry =>
    ⟨Json.dumps ft entry.value.toJson, entry.expiresAt⟩
  exact : cache.Stores fun _ result => result.metadata.Exact ft

section Refinement

variable {ft : FloatText ℚ} {text : RedisCacheService} {cache : CacheService}

theorem Represents.get (h : Represents ft text cache) (now : ℚ) (key : String) :
    text.get ft now key .answered = (cache.get now key).map AuditResult.toJson := by
  cases hentry : cache.redis key with
  | none =>
    rw [RedisCacheService.get_of_none (by simp [h.redis, hentry])]
    simp [CacheService.get, hentry]
  | some entry =>
    have hfaithful := AuditResult.faithful_toJson (h.exact key entry hentry)
    rw [RedisCacheService.get_of_dumps hfaithful (by rw [h.redis, hentry]; rfl), h.initialized]
    by_cases hinit : cache.initialized = true <;> by_cases hlive : now < entry.expiresAt <;>
      simp [CacheService.get, hentry, hinit, hlive]

theorem Represents.set (h : Represents ft text cache) (now : ℚ) (key : String)
    {result : AuditResult} (hresult : result.metadata.Exact ft) {ttl : ℤ} (hpos : 0 < ttl) :
    Represents ft (text.set ft now key result.toJson ttl .answered).2
      (cache.set now key result ttl) := by
  refine ⟨?_, fun key' => ?_, h.exact.set hresult⟩
  · by_cases hinit : cache.initialized = true <;>
      simp [RedisCacheService.set, CacheService.set, RedisReply.setex_of_pos hpos,
        RedisReply.applied, RedisCacheService.store, h.initialized, hinit]
  · by_cases hinit : cache.initialized = true <;> by_cases hkey : key' = key <;>
      simp [RedisCacheService.set, CacheService.set, RedisReply.setex_of_pos hpos,
        RedisReply.applied, RedisCacheService.store, h.initialized, h.redis, hinit, hkey]

variable {service : DeepfakeService} {hash : List PyFloat → ℤ}

/-- A step of the route over texts. -/
theorem auditorText_step (t : AuditTextRequest) :
    (auditorText ft service hash).step text t =
      some (t.cacheAfter ft service hash text, [(t.request, t.answer ft service hash text)]) := by
  simp only [auditorText, auditVoiceText_eq, AuditTextRequest.cacheAfter, AuditTextRequest.answer]
  cases t.cachedResult ft hash text with
  | none => rfl
  | some cachedResult =>
    dsimp only
    cases jsonContent cachedResult <;> rfl

/-- A step over values is one over texts. -/
theorem Represents.step (h : Represents ft text cache) {r : AuditVoiceRequest}
    (hr : (r.analyze service).metadata.Exact ft) {cache' : CacheService}
    {o : List (AuditVoiceRequest × Except RouteException AuditResult)}
    (hs : (auditor service hash).step cache r = some (cache', o)) :
    ∃ text', (auditorText ft service hash).step text r.answered =
      some (text', o.map fun a => (a.1, a.2.map AuditResult.toJson)) ∧
        Represents ft text' cache' := by
  have hget : r.answered.cachedResult ft hash text =
      ((cache.get r.readAt (cacheKey hash r.payload)).map AuditResult.toJson).filter
        (truthy (· = 0)) :=
    congrArg _ (h.get r.readAt (cacheKey hash r.payload))
  rw [auditorText_step, AuditTextRequest.answer, AuditTextRequest.cacheAfter, hget]
  cases hcached : cache.get r.readAt (cacheKey hash r.payload) with
  | none =>
    rw [auditor_step_of_miss hcached] at hs
    cases hs
    have hpos : (0 : ℤ) < 60 := by norm_num
    have hset := h.set r.writtenAt (cacheKey hash r.payload) hr hpos
    rw [Int.cast_ofNat] at hset
    exact ⟨_, rfl, hset⟩
  | some cached =>
    rw [auditor_step_of_hit hcached] at hs
    cases hs
    refine ⟨text, ?_, h⟩
    rw [List.map_singleton, ← jsonContent_toJson]
    rfl

theorem represents_fresh (initialized : Bool) :
    Represents ft (.fresh initialized) (.fresh initialized) :=
  ⟨rfl, fun _ => rfl, CacheService.stores_fresh initialized⟩

/-- A run over values is one over texts. -/
theorem Represents.run (h : Represents ft text cache) {es : List AuditVoiceRequest}
    (hexact : ∀ r ∈ es, (r.analyze service).metadata.Exact ft) {cache' : CacheService}
    {o : List (AuditVoiceRequest × Except RouteException AuditResult)}
    (hrun : (auditor service hash).run cache es = some (cache', o)) :
    ∃ text', (auditorText ft service hash).run text (es.map (·.answered)) =
      some (text', o.map fun a => (a.1, a.2.map AuditResult.toJson)) := by
  induction es generalizing text cache o with
  | nil =>
    cases hrun
    exact ⟨text, rfl⟩
  | cons r es ih =>
    obtain ⟨hr, hes⟩ := List.forall_mem_cons.mp hexact
    obtain ⟨cache₁, o₁, o₂, hs, hrest, rfl⟩ := ((auditor service hash).run_cons_iff).mp hrun
    obtain ⟨text₁, hs', h₁⟩ := h.step hr hs
    obtain ⟨text', hrest'⟩ := ih h₁ hes hrest
    refine ⟨text', ?_⟩
    rw [List.map_append]
    exact (auditorText ft service hash).run_cons hs' hrest'

/-- **The route over texts is the route over values**, if numpy's floats are written exactly: it
gives every request of a run the same result, or raises for both. -/
theorem auditorText_run {initialized : Bool} {es : List AuditVoiceRequest}
    (hexact : ∀ r ∈ es, (r.analyze service).metadata.Exact ft) {cache : CacheService}
    {o : List (AuditVoiceRequest × Except RouteException AuditResult)}
    (hrun : (auditor service hash).run (.fresh initialized) es = some (cache, o)) :
    ∃ text, (auditorText ft service hash).run (.fresh initialized) (es.map (·.answered)) =
      some (text, o.map fun a => (a.1, a.2.map AuditResult.toJson)) :=
  (represents_fresh initialized).run hexact hrun

/-- Ten equal samples: their variance, mean and deviation are written exactly. -/
theorem exact_flatRequest :
    (flatRequest.analyze (.fallback .exact)).metadata.Exact wholeText := by
  have hfloats : (flatRequest.analyze (.fallback .exact)).metadata.variance = .finite 0 ∧
      (flatRequest.analyze (.fallback .exact)).metadata.mean = .finite 1 ∧
      (flatRequest.analyze (.fallback .exact)).metadata.stdDev = .finite 0 := by decide +kernel
  have hzero : wholeText.Exact 0 := by
    refine ⟨⟨['0'], ['.', '0'], [], ?_, ?_, ?_⟩, ?_⟩ <;> decide +kernel
  have hone : wholeText.Exact 1 := by
    refine ⟨⟨['1'], ['.', '0'], [], ?_, ?_, ?_⟩, ?_⟩ <;> decide +kernel
  obtain ⟨hvar, hmean, hstd⟩ := hfloats
  intro x hx q hq
  rw [hvar, hmean, hstd] at hx
  simp only [List.mem_cons, List.not_mem_nil, or_false] at hx
  rcases hx with rfl | rfl | rfl <;> cases hq <;> assumption

/-- A request sent twice within the minute. -/
theorem auditorText_run_flat :
    ∃ text, (auditorText wholeText (.fallback .exact) fun _ => 0).run (.fresh true)
      ([flatRequest, flatRequest].map (·.answered)) =
        some (text, [(flatRequest, .ok (flatRequest.analyze (.fallback .exact))),
          (flatRequest, jsonResponse (flatRequest.analyze (.fallback .exact)))].map
            fun a => (a.1, a.2.map AuditResult.toJson)) := by
  obtain ⟨cache, hrun⟩ := run_pair (.fallback .exact) (fun _ => 0) flatRequest flatRequest rfl
    (by decide +kernel)
  exact auditorText_run (by simp [exact_flatRequest]) hrun

/-! ### When Redis fails -/

/-- One of the requests `earlier`, which found nothing itself and stored its result. -/
def StoredBy (ft : FloatText ℚ) (service : DeepfakeService) (hash : List PyFloat → ℤ)
    (initialized : Bool) (earlier : List AuditTextRequest) (t₀ : AuditTextRequest) : Prop :=
  ∃ before after text o, earlier = before ++ t₀ :: after ∧
    (auditorText ft service hash).run (.fresh initialized) before = some (text, o) ∧
      t₀.cachedResult ft hash text = none ∧ t₀.onSet.applied = true

/-- The request gets its own analysis, or that of an earlier one which stored it under the same key
less than a minute before it was read; the latter only if it can be sent. -/
def AnsweredFrom (ft : FloatText ℚ) (service : DeepfakeService) (hash : List PyFloat → ℤ)
    (initialized : Bool) (earlier : List AuditTextRequest) (t : AuditTextRequest)
    (answer : Except RouteException (Json ℚ)) : Prop :=
  answer = .ok (t.result service) ∨
    ∃ t₀, StoredBy ft service hash initialized earlier t₀ ∧ t₀.key hash = t.key hash ∧
      t.request.readAt < t₀.request.writtenAt + 60 ∧ answer = jsonContent (t₀.result service)

/-- Every text in Redis is the analysis of an earlier request that stored it, under its key. -/
def StoredFrom (ft : FloatText ℚ) (service : DeepfakeService) (hash : List PyFloat → ℤ)
    (initialized : Bool) (earlier : List AuditTextRequest) (text : RedisCacheService) : Prop :=
  ∀ key entry, text.redis key = some entry → ∃ t₀,
    StoredBy ft service hash initialized earlier t₀ ∧ t₀.key hash = key ∧
      entry = t₀.entry ft service

variable {initialized : Bool} {earlier : List AuditTextRequest} {t t₀ : AuditTextRequest}

theorem StoredBy.concat (h : StoredBy ft service hash initialized earlier t₀) :
    StoredBy ft service hash initialized (earlier ++ [t]) t₀ := by
  obtain ⟨before, after, text, o, rfl, hrest⟩ := h
  exact ⟨before, after ++ [t], text, o, by simp, hrest⟩

theorem StoredBy.mem (h : StoredBy ft service hash initialized earlier t₀) : t₀ ∈ earlier := by
  obtain ⟨before, after, text, o, rfl, -⟩ := h
  simp

/-- What a request finds is the analysis of an earlier one, less than a minute old. -/
theorem StoredFrom.cachedResult (h : StoredFrom ft service hash initialized earlier text)
    (hexact : ∀ t ∈ earlier, (t.request.analyze service).metadata.Exact ft) {value : Json ℚ}
    (hvalue : t.cachedResult ft hash text = some value) :
    ∃ t₀, StoredBy ft service hash initialized earlier t₀ ∧ t₀.key hash = t.key hash ∧
      t.request.readAt < t₀.request.writtenAt + 60 ∧ value = t₀.result service := by
  have hget := (Option.filter_eq_some_iff.mp hvalue).1
  cases hentry : text.redis (t.key hash) with
  | none =>
    rw [RedisCacheService.get_of_none hentry] at hget
    cases hget
  | some entry =>
    obtain ⟨t₀, hstored, hkey, rfl⟩ := h _ _ hentry
    have hfaithful := AuditResult.faithful_toJson (hexact t₀ hstored.mem)
    rw [RedisCacheService.get_of_dumps hfaithful hentry] at hget
    split_ifs at hget with hlive
    exact ⟨t₀, hstored, hkey, hlive.2.2, (Option.some.inj hget).symm⟩

/-- One request stores its own analysis, or nothing. -/
theorem StoredFrom.cacheAfter (h : StoredFrom ft service hash initialized earlier text)
    {o : List (AuditVoiceRequest × Except RouteException (Json ℚ))}
    (hrun : (auditorText ft service hash).run (.fresh initialized) earlier = some (text, o)) :
    StoredFrom ft service hash initialized (earlier ++ [t])
      (t.cacheAfter ft service hash text) := by
  have hbefore : ∀ {key entry}, text.redis key = some entry → ∃ t₀,
      StoredBy ft service hash initialized (earlier ++ [t]) t₀ ∧ t₀.key hash = key ∧
        entry = t₀.entry ft service := fun hentry => by
    obtain ⟨t₀, hstored, hrest⟩ := h _ _ hentry
    exact ⟨t₀, hstored.concat, hrest⟩
  intro key entry hentry
  rw [AuditTextRequest.cacheAfter] at hentry
  cases hcached : t.cachedResult ft hash text with
  | some cachedResult =>
    rw [hcached] at hentry
    exact hbefore hentry
  | none =>
    simp only [hcached, AuditTextRequest.redis_cacheSet] at hentry
    split_ifs at hentry with hset
    · exact ⟨t, ⟨earlier, [], text, o, rfl, hrun, hcached, hset.2.1⟩, hset.2.2,
        (Option.some.inj hentry).symm⟩
    · exact hbefore hentry

theorem storedFrom_run {ts : List AuditTextRequest}
    {o : List (AuditVoiceRequest × Except RouteException (Json ℚ))}
    (hrun : (auditorText ft service hash).run (.fresh initialized) ts = some (text, o)) :
    StoredFrom ft service hash initialized ts text := by
  refine ((auditorText ft service hash).run_history (I := fun text ts o =>
    (auditorText ft service hash).run (.fresh initialized) ts = some (text, o) ∧
      StoredFrom ft service hash initialized ts text)
    (fun text ts o t text' o' hI hs => ?_) ⟨rfl, ?_⟩ hrun).2
  · refine ⟨((auditorText ft service hash).run_append_iff).mpr
      ⟨text, o, o', hI.1, Machine.run_singleton _ hs, rfl⟩, ?_⟩
    rw [auditorText_step] at hs
    obtain ⟨rfl, -⟩ := Prod.mk.inj (Option.some.inj hs)
    exact hI.2.cacheAfter hI.1
  · intro key entry h
    cases h

/-- Every request gets one answer, in order. -/
theorem map_fst_auditorText_run {ts : List AuditTextRequest}
    {o : List (AuditVoiceRequest × Except RouteException (Json ℚ))}
    (hrun : (auditorText ft service hash).run (.fresh initialized) ts = some (text, o)) :
    o.map Prod.fst = ts.map (·.request) := by
  refine (auditorText ft service hash).run_history
    (I := fun _ ts o => o.map Prod.fst = ts.map (·.request))
    (fun text ts o t text' o' hI hs => ?_) rfl hrun
  rw [auditorText_step] at hs
  obtain ⟨-, rfl⟩ := Prod.mk.inj (Option.some.inj hs)
  simp [hI]

/-- **Whatever Redis fails to do**, each request of a run gets its own analysis, or that of an
earlier one which stored it under the same key less than a minute before it was read. -/
theorem auditorText_answers {ts : List AuditTextRequest}
    (hexact : ∀ t ∈ ts, (t.request.analyze service).metadata.Exact ft)
    {o : List (AuditVoiceRequest × Except RouteException (Json ℚ))}
    (hrun : (auditorText ft service hash).run (.fresh initialized) ts = some (text, o))
    {later : List AuditTextRequest} (hts : ts = earlier ++ t :: later) :
    ∃ answer, o[earlier.length]? = some (t.request, answer) ∧
      AnsweredFrom ft service hash initialized earlier t answer := by
  subst hts
  obtain ⟨text₁, o₁, o', hrun₁, hrest, rfl⟩ :=
    ((auditorText ft service hash).run_append_iff).mp hrun
  obtain ⟨text₂, o₂, o₃, hs, -, rfl⟩ := ((auditorText ft service hash).run_cons_iff).mp hrest
  rw [auditorText_step] at hs
  obtain ⟨-, rfl⟩ := Prod.mk.inj (Option.some.inj hs)
  have hlen : o₁.length = earlier.length := by
    simpa using congrArg List.length (map_fst_auditorText_run hrun₁)
  refine ⟨t.answer ft service hash text₁, ?_, ?_⟩
  · rw [← hlen]
    simp
  · rw [AuditTextRequest.answer]
    cases hcached : t.cachedResult ft hash text₁ with
    | none => exact .inl rfl
    | some value =>
      obtain ⟨t₀, hstored, hkey, hlive, rfl⟩ := (storedFrom_run hrun₁).cachedResult
        (fun t ht => hexact t (List.mem_append_left _ ht)) hcached
      exact .inr ⟨t₀, hstored, hkey, hlive, rfl⟩

/-- The first request cannot read the cache, and its `SETEX` is carried out though it raises. -/
def raisingRequest : AuditTextRequest := ⟨flatRequest, .raised false, .raised true⟩

/-- The second request finds the first one's result. -/
theorem auditorText_answers_raising :
    ∃ text o, (auditorText wholeText (.fallback .exact) fun _ => 0).run (.fresh true)
      [raisingRequest, flatRequest.answered] = some (text, o) ∧
        ∃ answer, o[1]? = some (flatRequest, answer) ∧
          AnsweredFrom wholeText (.fallback .exact) (fun _ => 0) true [raisingRequest]
            flatRequest.answered answer := by
  have hrun : (auditorText wholeText (.fallback .exact) fun _ => 0).run (.fresh true)
      [raisingRequest, flatRequest.answered] = some (_, _) :=
    Machine.run_cons _ (auditorText_step _) (Machine.run_singleton _ (auditorText_step _))
  have hexact : ∀ t ∈ [raisingRequest, flatRequest.answered],
      (t.request.analyze (.fallback .exact)).metadata.Exact wholeText := by
    simp [raisingRequest, AuditVoiceRequest.answered, exact_flatRequest]
  have hts : [raisingRequest, flatRequest.answered] =
      [raisingRequest] ++ flatRequest.answered :: [] := rfl
  exact ⟨_, _, hrun, auditorText_answers hexact hrun hts⟩

end Refinement

end BioShield
