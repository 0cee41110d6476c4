import BioShield.Api.DeepfakeService

/-!
# Api/VoiceAudit — the audit routes (`api/routers/voice_audit.py`)

A payload carries what its model validated as fields.  A route answers with an exception, or with a
result and the tasks it leaves for the background; only `audit_voice_stream` touches the cache.  The
routes end where they return: what they return the framework renders, except for a cached result,
which `audit_voice_stream` renders itself.
-/

namespace BioShield

/-! ## Payloads -/

/-- `AudioStreamPayload`. -/
structure AudioStreamPayload where
  bankClusterToken : String
  channelIdentity : String
  frequencyAmplitudeDeltas : List PyFloat
  maxLength_bankClusterToken : bankClusterToken.length ≤ 100
  maxLength_channelIdentity : channelIdentity.length ≤ 100
  minItems : 10 ≤ frequencyAmplitudeDeltas.length
  maxItems : frequencyAmplitudeDeltas.length ≤ 1000
  /-- `validate_deltas`. -/
  validateDeltas :
    (frequencyAmplitudeDeltas.any fun x => x.lt (.finite 0) || (PyFloat.finite 10).lt x) = false

/-- `ChannelData`. -/
structure ChannelData where
  channelIndex : ℕ
  frequencyDeltas : List PyFloat
  le_channelIndex : channelIndex ≤ 31
  minItems : 10 ≤ frequencyDeltas.length
  maxItems : frequencyDeltas.length ≤ 1000

/-- `MultiChannelPayload`. -/
structure MultiChannelPayload where
  bankClusterToken : String
  channelIdentity : String
  channels : List ChannelData
  maxLength_bankClusterToken : bankClusterToken.length ≤ 100
  maxLength_channelIdentity : channelIdentity.length ≤ 100
  minItems : 2 ≤ channels.length
  maxItems : channels.length ≤ 32

/-- `BatchStreamPayload`. -/
structure BatchStreamPayload where
  bankClusterToken : String
  channelIdentity : String
  frequencyDeltas : List PyFloat

/-- `BatchPayload`; its validator repeats the upper bound. -/
structure BatchPayload where
  streams : List BatchStreamPayload
  minItems : 1 ≤ streams.length
  maxItems : streams.length ≤ 100

/-! ## Answers -/

/-- `HTTPException`. -/
structure HttpException where
  statusCode : ℕ
  detail : String
  deriving DecidableEq

/-- `BillingService.deduct_credit`, to be run after the response. -/
structure DeductCredit where
  apiKey : String
  amount : ℚ
  scanType : String
  deriving DecidableEq

/-- What a route raises; any exception but an `HTTPException` leaves the application as status
500. -/
inductive RouteException
  | httpException (e : HttpException)
  | valueError
  deriving DecidableEq

/-- What a route answers: an exception, or a result and its background tasks. -/
abbrev Answered (α : Type) : Type := Except RouteException (α × List DeductCredit)

/-- The floats of the metadata are finite. -/
def ResultMetadata.IsFinite (metadata : ResultMetadata) : Prop :=
  metadata.variance.IsFinite ∧ metadata.mean.IsFinite ∧ metadata.stdDev.IsFinite

instance (metadata : ResultMetadata) : Decidable metadata.IsFinite :=
  inferInstanceAs (Decidable (_ ∧ _ ∧ _))

/-- `JSONResponse(content=…)`: its `json.dumps` does not allow what JSON does not have. -/
def jsonResponse (content : AuditResult) : Except RouteException AuditResult :=
  if content.metadata.IsFinite then .ok content else .error .valueError

/-! ## The cache -/

/-- A cached result with the time Redis drops it. -/
structure CacheEntry where
  value : AuditResult
  expiresAt : ℚ

/-- `CacheService`: whether Redis was reached, and what it holds. -/
structure CacheService where
  initialized : Bool
  redis : String → Option CacheEntry

namespace CacheService

/-- The service before its first request, Redis reached or not. -/
def fresh (initialized : Bool) : CacheService := ⟨initialized, fun _ => none⟩

/-- `get` at time `now`. -/
def get (cache : CacheService) (now : ℚ) (key : String) : Option AuditResult :=
  if cache.initialized then
    match cache.redis key with
    | some entry => if now < entry.expiresAt then some entry.value else none
    | none => none
  else none

/-- `set` at time `now`. -/
def set (cache : CacheService) (now : ℚ) (key : String) (value : AuditResult) (ttl : ℚ) :
    CacheService :=
  if cache.initialized then
    { cache with redis := Function.update cache.redis key (some ⟨value, now + ttl⟩) }
  else cache

theorem get_set_self {cache : CacheService} (hinit : cache.initialized = true) {now now' ttl : ℚ}
    {key : String} {value : AuditResult} (hlive : now' < now + ttl) :
    (cache.set now key value ttl).get now' key = some value := by
  simp [get, set, hinit, hlive]

/-- Every stored value is a `P` of its key. -/
def Stores (cache : CacheService) (P : String → AuditResult → Prop) : Prop :=
  ∀ key entry, cache.redis key = some entry → P key entry.value

section Stores

variable {P : String → AuditResult → Prop} {cache : CacheService}

theorem stores_fresh (initialized : Bool) : (fresh initialized).Stores P :=
  fun _ _ h => nomatch h

theorem Stores.get (h : cache.Stores P) {now : ℚ} {key : String} {cached : AuditResult}
    (hget : cache.get now key = some cached) : P key cached := by
  simp only [CacheService.get] at hget
  split_ifs at hget
  cases hentry : cache.redis key with
  | none => simp [hentry] at hget
  | some entry =>
    simp only [hentry] at hget
    split_ifs at hget
    exact Option.some.inj hget ▸ h key entry hentry

theorem Stores.set (h : cache.Stores P) {now ttl : ℚ} {key : String} {value : AuditResult}
    (hvalue : P key value) : (cache.set now key value ttl).Stores P := by
  intro key' entry hentry
  simp only [CacheService.set] at hentry
  split_ifs at hentry
  · by_cases hkey : key' = key
    · subst hkey
      simp only [Function.update_self, Option.some.injEq] at hentry
      exact hentry ▸ hvalue
    · simp only [Function.update_of_ne hkey] at hentry
      exact h key' entry hentry
  · exact h key' entry hentry

end Stores

end CacheService

/-! ## One stream -/

/-- `xs[-10:]`. -/
def lastTen (xs : List PyFloat) : List PyFloat := xs.drop (xs.length - 10)

/-- The key of a stream, by Python's `hash` of a tuple of floats. -/
def cacheKey (hash : List PyFloat → ℤ) (payload : AudioStreamPayload) : String :=
  s!"voice:{payload.channelIdentity}:{hash (lastTen payload.frequencyAmplitudeDeltas)}"

/-- A request to `/audit-voice`, with its draws and the times it reads and writes the cache. -/
structure AuditVoiceRequest where
  payload : AudioStreamPayload
  authorizationToken : String
  draws : Draws
  readAt : ℚ
  writtenAt : ℚ

/-- `analyze_stream` of the request's own samples. -/
def AuditVoiceRequest.analyze (r : AuditVoiceRequest) (service : DeepfakeService) : AuditResult :=
  service.analyzeStream r.draws r.payload.frequencyAmplitudeDeltas r.payload.bankClusterToken
    r.payload.channelIdentity

/-- `audit_voice_stream`. -/
def auditVoiceStream (service : DeepfakeService) (hash : List PyFloat → ℤ) (cache : CacheService)
    (r : AuditVoiceRequest) : Answered AuditResult × CacheService :=
  if r.payload.frequencyAmplitudeDeltas = [] then
    (.error (.httpException ⟨400, "Empty frequency data array"⟩), cache)
  else if r.payload.frequencyAmplitudeDeltas.length < 10 then
    (.error (.httpException ⟨400, "Insufficient samples (minimum 10)"⟩), cache)
  else
    match cache.get r.readAt (cacheKey hash r.payload) with
    | some cachedResult => ((jsonResponse cachedResult).map (·, []), cache)
    | none =>
      let result := r.analyze service
      (.ok (result, [⟨r.authorizationToken, 10 / 100, "voice_audit"⟩]),
        cache.set r.writtenAt (cacheKey hash r.payload) result 60)

/-- **`audit_voice_stream` in one line**: the route's own checks repeat the payload's, so every
payload is looked up, and analysed if nothing is found. -/
theorem auditVoiceStream_eq (service : DeepfakeService) (hash : List PyFloat → ℤ)
    (cache : CacheService) (r : AuditVoiceRequest) :
    auditVoiceStream service hash cache r =
      match cache.get r.readAt (cacheKey hash r.payload) with
      | some cachedResult => ((jsonResponse cachedResult).map (·, []), cache)
      | none =>
        (.ok (r.analyze service, [⟨r.authorizationToken, 10 / 100, "voice_audit"⟩]),
          cache.set r.writtenAt (cacheKey hash r.payload) (r.analyze service) 60) := by
  have hlen := r.payload.minItems
  have hne : r.payload.frequencyAmplitudeDeltas ≠ [] := by
    intro h
    rw [h] at hlen
    exact absurd hlen (by decide)
  rw [auditVoiceStream, if_neg hne, if_neg (not_lt.mpr hlen)]

/-! ## Several channels -/

/-- `deepfake_count`. -/
def deepfakeCount (channelResults : List AuditResult) : ℕ :=
  channelResults.countP fun r => r.evaluationVerdict = .criticalSuspectedDeepfake

/-- `suspicious_count`. -/
def suspiciousCount (channelResults : List AuditResult) : ℕ :=
  channelResults.countP fun r => r.evaluationVerdict = .suspiciousPattern

/-- What the vote settles. -/
structure EnsembleVote where
  verdict : Verdict
  action : FirewallAction
  fraudRisk : ℚ

/-- The voting of `audit_multi_channel`, with one result for each channel. -/
def ensembleVote (channelResults : List AuditResult) : EnsembleVote :=
  if (deepfakeCount channelResults : ℚ) > channelResults.length / 2 then
    ⟨.criticalSuspectedDeepfake, .terminateVoiceCallBlockTransaction,
      (channelResults.map fun r => r.fraudRiskIndex.toRat).sum / channelResults.length⟩
  else if (suspiciousCount channelResults : ℚ) > channelResults.length / 3 then
    ⟨.suspiciousPattern, .escalateManualReview, 45⟩
  else ⟨.verifiedHumanAuthentic, .allowTransactionProceed, 5 / 2⟩

/-- `result["ensemble_votes"]`. -/
structure EnsembleVotes where
  totalChannels : ℕ
  deepfakeVotes : ℕ
  suspiciousVotes : ℕ
  threshold : ℚ

/-- What `audit_multi_channel` returns. -/
structure MultiChannelResult where
  securityToken : String
  evaluationVerdict : Verdict
  fraudRiskIndex : TwoDecimals
  firewallAction : FirewallAction
  channelResults : List AuditResult
  ensembleVotes : EnsembleVotes

/-- A request to `/audit-multi-channel`; channel `i` draws `draws i`. -/
structure AuditMultiChannelRequest where
  payload : MultiChannelPayload
  authorizationToken : String
  draws : ℕ → Draws
  token : String

/-- `audit_multi_channel`. -/
def auditMultiChannel (service : DeepfakeService) (r : AuditMultiChannelRequest) :
    Answered MultiChannelResult :=
  if r.payload.channels.length < 2 then
    .error (.httpException ⟨400, "At least 2 channels required"⟩)
  else
    let channelResults := r.payload.channels.zipIdx.map fun (channel, i) =>
      service.analyzeStream (r.draws i) channel.frequencyDeltas r.payload.bankClusterToken
        s!"{r.payload.channelIdentity}_ch{channel.channelIndex}"
    let vote := ensembleVote channelResults
    .ok (
      { securityToken := s!"multi_{r.token}"
        evaluationVerdict := vote.verdict
        fraudRiskIndex := .format vote.fraudRisk
        firewallAction := vote.action
        channelResults := channelResults
        ensembleVotes :=
          { totalChannels := r.payload.channels.length
            deepfakeVotes := deepfakeCount channelResults
            suspiciousVotes := suspiciousCount channelResults
            threshold := r.payload.channels.length / 2 } },
      [⟨r.authorizationToken, 25 / 100, "multi_channel"⟩])

/-! ## Batches -/

/-- What `audit_batch` returns. -/
structure BatchResult where
  batchId : String
  totalStreams : ℕ
  results : List AuditResult
  totalCost : TwoDecimals

/-- A request to `/audit-batch`; stream `i` draws `draws i`. -/
structure AuditBatchRequest where
  payload : BatchPayload
  authorizationToken : String
  draws : ℕ → Draws
  token : String

/-- `audit_batch`. -/
def auditBatch (service : DeepfakeService) (r : AuditBatchRequest) : Answered BatchResult :=
  if r.payload.streams = [] ∨ r.payload.streams.length > 100 then
    .error (.httpException ⟨400, "Batch size must be between 1 and 100"⟩)
  else
    let results := r.payload.streams.zipIdx.map fun (stream, i) =>
      service.analyzeStream (r.draws i) stream.frequencyDeltas stream.bankClusterToken
        stream.channelIdentity
    let totalCost : ℚ := r.payload.streams.length * (8 / 100)
    .ok (⟨s!"batch_{r.token}", r.payload.streams.length, results, .format totalCost⟩,
      [⟨r.authorizationToken, totalCost, "batch"⟩])

end BioShield
