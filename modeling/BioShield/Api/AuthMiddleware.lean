import BioShield.Machinery.Dict
import Mathlib

/-!
# Api/AuthMiddleware — who is calling (`api/middleware/auth.py`, `api/middleware/rate_limiter.py`)

Both middlewares find the token by scanning a dictionary built from the header list; the framework
hands the routes the first entry of that list.  Python's `str.lower` is a parameter.
-/

namespace BioShield

open Machinery

/-- What the middlewares may raise. -/
inductive PyError
  | unicodeDecodeError | attributeError | typeError
  deriving DecidableEq

/-- `scope["client"]`: not there, `None`, or the address the request came from. -/
inductive ScopeClient
  | missing
  | none
  | address (host : String) (port : ℕ)
  deriving DecidableEq

/-- The scope of an HTTP request, as far as the middlewares read it. -/
structure Scope where
  path : String
  headers : List (ByteArray × ByteArray)
  client : ScopeClient

/-- `b.decode()`. -/
def decode (b : ByteArray) : Except PyError String :=
  match String.fromUTF8? b with
  | some s => .ok s
  | none => .error .unicodeDecodeError

/-- `b.decode("latin-1")`. -/
def decodeLatin1 (b : ByteArray) : String :=
  .ofList (b.data.toList.map fun x => .ofNat x.toNat)

/-- `b"x-bioshield-token"`. -/
def tokenHeader : ByteArray := "x-bioshield-token".toUTF8

theorem decode_eq_ok_iff {b : ByteArray} {s : String} :
    decode b = .ok s ↔ String.fromUTF8? b = some s := by
  simp only [decode]
  cases String.fromUTF8? b <;> simp

/-- A computation that may raise returns what its parts return. -/
theorem bind_eq_ok_iff {α β : Type} {x : Except PyError α} {f : α → Except PyError β} {b : β} :
    (x >>= f) = .ok b ↔ ∃ a, x = .ok a ∧ f a = .ok b := by
  cases x with
  | error e => exact ⟨fun h => (nomatch h), fun ⟨_, h, _⟩ => (nomatch h)⟩
  | ok a => exact ⟨fun h => ⟨a, rfl, h⟩, fun ⟨_, ha, h⟩ => Except.ok.inj ha ▸ h⟩

theorem toUTF8_of_fromUTF8? {b : ByteArray} {s : String} (h : String.fromUTF8? b = some s) :
    b = s.toUTF8 := by
  simp only [String.fromUTF8?] at h
  split_ifs at h with hvalid
  obtain rfl := Option.some.inj h
  rfl

section Token

variable (lower : String → String)

/-- The loop over `headers.items()`. -/
def scanToken : List (ByteArray × ByteArray) → Except PyError (Option String)
  | [] => .ok none
  | (key, value) :: items => do
    let name ← decode key
    if lower name = "x-bioshield-token" then
      let apiKey ← decode value
      return some apiKey
    else scanToken items

/-- The `api_key` the middlewares find in `dict(scope["headers"])`. -/
def findToken (headers : List (ByteArray × ByteArray)) : Except PyError (Option String) :=
  scanToken lower (Dict.ofPairs headers).items

/-- A token that is found is the decoded value of an item whose name matches. -/
theorem exists_of_scanToken {items : List (ByteArray × ByteArray)} {apiKey : String}
    (h : scanToken lower items = .ok (some apiKey)) :
    ∃ key value name, (key, value) ∈ items ∧ String.fromUTF8? key = some name ∧
      lower name = "x-bioshield-token" ∧ String.fromUTF8? value = some apiKey := by
  induction items with
  | nil => cases h
  | cons item items ih =>
    obtain ⟨key, value⟩ := item
    obtain ⟨name, hkey, h⟩ := bind_eq_ok_iff.mp h
    split_ifs at h with hname
    · obtain ⟨v, hvalue, hv⟩ := bind_eq_ok_iff.mp h
      cases hv
      exact ⟨key, value, name, List.mem_cons_self, decode_eq_ok_iff.mp hkey, hname,
        decode_eq_ok_iff.mp hvalue⟩
    · obtain ⟨key', value', name', hmem, rest⟩ := ih h
      exact ⟨key', value', name', List.mem_cons_of_mem _ hmem, rest⟩

end Token

/-! ## The middlewares -/

/-- `BillingService.validate_api_key`. -/
def validateApiKey (apiKey : String) : Option String :=
  if "sk_test_".toList.isPrefixOf apiKey.toList then some "test_client"
  else if "sk_live_".toList.isPrefixOf apiKey.toList then some "production_client"
  else none

/-- The paths neither middleware looks at. -/
def exemptPaths : List String :=
  ["/v1/health", "/v1/health/liveness", "/v1/health/readiness", "/metrics"]

/-- What `AuthMiddleware` does with a request. -/
inductive AuthAnswer
  /-- Forward it as it is. -/
  | exempt
  /-- Forward it for a client. -/
  | forwarded (apiKey clientId : String)
  /-- Answer 401. -/
  | refused (detail : String)
  deriving DecidableEq

/-- `AuthMiddleware.__call__`. -/
def authMiddleware (lower : String → String) (scope : Scope) : Except PyError AuthAnswer :=
  if scope.path ∈ exemptPaths then return .exempt
  else do
    match ← findToken lower scope.headers with
    | none => return .refused "Missing API key"
    | some apiKey =>
      if apiKey = "" then return .refused "Missing API key"
      else
        match validateApiKey apiKey with
        | none => return .refused "Invalid API key"
        | some clientId => return .forwarded apiKey clientId

/-- The `client_key` of `RateLimitMiddleware.__call__`; neither `None` nor a pair has a `get`. -/
def clientKey (lower : String → String) (scope : Scope) : Except PyError String := do
  match (← findToken lower scope.headers).filter (· ≠ "") with
  | some apiKey => return apiKey
  | none =>
    match scope.client with
    | .missing => return "unknown"
    | .none | .address .. => .error .attributeError

/-- The scalar parameter `Header(..., alias="X-BioShield-Token")`. -/
def headerParam (scope : Scope) : Option String :=
  (scope.headers.find? fun p => p.1 = tokenHeader).map fun p => decodeLatin1 p.2

/-- A request is forwarded for a client with the token that was found, which is not empty. -/
theorem findToken_of_forwarded {lower : String → String} {scope : Scope} {apiKey clientId : String}
    (h : authMiddleware lower scope = .ok (.forwarded apiKey clientId)) :
    findToken lower scope.headers = .ok (some apiKey) ∧ apiKey ≠ "" := by
  simp only [authMiddleware] at h
  split_ifs at h with hexempt
  · cases h
  · obtain ⟨found, hfind, h⟩ := bind_eq_ok_iff.mp h
    cases found with
    | none => cases h
    | some key =>
      simp only at h
      split_ifs at h with hempty
      · cases h
      · cases hclient : validateApiKey key with
        | none => rw [hclient] at h; cases h
        | some client =>
          rw [hclient] at h
          cases h
          exact ⟨hfind, hempty⟩

end BioShield
