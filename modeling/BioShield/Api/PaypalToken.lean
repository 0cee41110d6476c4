import BioShield.Machinery.Machine
import Mathlib

/-!
# Api/PaypalToken — the cached access token (`PayPalService.get_access_token`)

Calls interleave at their awaits.  Between a call's check of the cache and its answer from PayPal
any number of others may fetch a token of their own, so the pair of token and expiry is written
whole or not at all only because nothing is awaited between the two writes.  What can come between
them is an exception: an expiry that no `datetime` can hold (`tokens_coherent`).
-/

namespace BioShield

open Machinery

namespace PaypalToken

/-- A `datetime`: the microseconds since the start of year 1, up to the end of year 9999. -/
structure Datetime where
  micros : ℤ
  nonneg : 0 ≤ micros
  lt_end : micros < 315537897600000000
  deriving DecidableEq

/-- `t + timedelta(seconds=…)`; an `OverflowError` if there is no such `datetime`. -/
def Datetime.addSeconds (t : Datetime) (seconds : ℤ) : Option Datetime :=
  if h : 0 ≤ t.micros + seconds * 1000000 ∧ t.micros + seconds * 1000000 < 315537897600000000 then
    some ⟨t.micros + seconds * 1000000, h.1, h.2⟩
  else none

theorem Datetime.micros_addSeconds {t e : Datetime} {seconds : ℤ}
    (h : t.addSeconds seconds = some e) : e.micros = t.micros + seconds * 1000000 := by
  simp only [addSeconds] at h
  split_ifs at h
  obtain rfl := Option.some.inj h
  rfl

/-- What `get_access_token` may raise. -/
inductive TokenError
  | authFailed (message : String)
  | transport
  | jsonDecode
  | missingAccessToken
  | overflow
  deriving DecidableEq

/-- The fields read of a token response. -/
structure TokenData where
  accessToken : Option String
  expiresIn : Option ℤ

/-- An HTTP response; no `json` if the body is none. -/
structure HttpResponse where
  statusCode : ℕ
  text : String
  json : Option TokenData

/-- The two fields of `PayPalService` that hold the token. -/
structure CachedToken where
  accessToken : Option String
  tokenExpiry : Option Datetime
  deriving DecidableEq

/-- The token of the cache, if it is there and has not expired. -/
def CachedToken.fresh? (cache : CachedToken) (now : Datetime) : Option String :=
  match cache.accessToken, cache.tokenExpiry with
  | some token, some expiry => if token ≠ "" ∧ now.micros < expiry.micros then some token else none
  | _, _ => none

/-- The `access_token` and the `expires_in` of an answer, if it is a 200 response with a token. -/
def readToken (answer : Except TokenError HttpResponse) : Except TokenError (String × ℤ) := do
  let response ← answer
  if response.statusCode ≠ 200 then .error (.authFailed s!"PayPal auth failed: {response.text}")
  else
    match response.json with
    | none => .error .jsonDecode
    | some data =>
      match data.accessToken with
      | none => .error .missingAccessToken
      | some token => return (token, data.expiresIn.getD 32400)

/-- What `get_access_token` does once the answer is there: it writes the token, and the expiry after
it. -/
def handleResponse (cache : CachedToken) (now : Datetime)
    (answer : Except TokenError HttpResponse) : CachedToken × Except TokenError String :=
  match readToken answer with
  | .error e => (cache, .error e)
  | .ok (token, expiresIn) =>
    let cache := { cache with accessToken := some token }
    match now.addSeconds (expiresIn - 60) with
    | none => (cache, .error .overflow)
    | some expiry => ({ cache with tokenExpiry := some expiry }, .ok token)

/-! ## The event loop -/

/-- Where a call is. -/
inductive Phase
  | idle
  /-- At `await client.post(…)`. -/
  | requesting
  /-- Leaving `async with`, with what it will return or raise. -/
  | closing (outcome : Except TokenError String)
  deriving DecidableEq

/-- The service and its calls. -/
structure Service where
  cache : CachedToken
  calls : ℕ → Phase

/-- A call starts, gets its answer, or leaves. -/
inductive Event
  | start (call : ℕ) (now : Datetime)
  | respond (call : ℕ) (now : Datetime) (answer : Except TokenError HttpResponse)
  | finish (call : ℕ)

/-- A token that arrived with a 200 response. -/
structure Arrived where
  accessToken : String
  expiresIn : ℤ
  now : Datetime

/-- The end of the token's use: its arrival, and `expires_in` seconds less a minute. -/
def Arrived.useUntil (a : Arrived) : ℤ := a.now.micros + (a.expiresIn - 60) * 1000000

/-- What is seen of the calls. -/
inductive Output
  /-- A call returned the cached token without asking PayPal. -/
  | cached (call : ℕ) (now : Datetime) (token : String)
  | arrived (token : Arrived)
  | returned (call : ℕ) (token : String)
  | raised (call : ℕ) (error : TokenError)

/-- The token an answer brings. -/
def arrivedIn (now : Datetime) (answer : Except TokenError HttpResponse) : List Output :=
  match readToken answer with
  | .ok (token, expiresIn) => [.arrived ⟨token, expiresIn, now⟩]
  | .error _ => []

/-- Moving a call on. -/
def Service.setCall (s : Service) (call : ℕ) (phase : Phase) : Service :=
  { s with calls := Function.update s.calls call phase }

/-- The calls of `get_access_token` on one event loop. -/
def tokenService : Machine Service Event Output where
  step s e :=
    match e with
    | .start call now =>
      if s.calls call = .idle then
        match s.cache.fresh? now with
        | some token => some (s, [.cached call now token])
        | none => some (s.setCall call .requesting, [])
      else none
    | .respond call now answer =>
      if s.calls call = .requesting then
        let (cache, outcome) := handleResponse s.cache now answer
        some (({ s with cache := cache }).setCall call (.closing outcome), arrivedIn now answer)
      else none
    | .finish call =>
      match s.calls call with
      | .closing (.ok token) => some (s.setCall call .idle, [.returned call token])
      | .closing (.error e) => some (s.setCall call .idle, [.raised call e])
      | _ => none

/-- `PayPalService()`. -/
def Service.init : Service := ⟨⟨none, none⟩, fun _ => .idle⟩

/-- Every expiry that is computed is a `datetime`. -/
def Representable (_ : Service) : Event → Prop
  | .respond _ now answer => ∀ token expiresIn, readToken answer = .ok (token, expiresIn) →
      (now.addSeconds (expiresIn - 60)).isSome
  | _ => True

/-- Both fields are empty, or both come from one token that arrived. -/
def CachedToken.FromOne (cache : CachedToken) (os : List Output) : Prop :=
  cache.accessToken = none ∧ cache.tokenExpiry = none ∨
    ∃ a, .arrived a ∈ os ∧ cache.accessToken = some a.accessToken ∧
      ∃ expiry, cache.tokenExpiry = some expiry ∧ expiry.micros = a.useUntil

/-- What is returned from the cache had arrived before, and is returned before the end of its
use. -/
def ReturnedInTime (os : List Output) : Prop :=
  ∀ before call now token after, os = before ++ .cached call now token :: after →
    ∃ a, .arrived a ∈ before ∧ token = a.accessToken ∧ now.micros < a.useUntil

/-- The cache is written by the answer to a call that will return, and by nothing else. -/
def WrittenByReturning (s : Service) (e : Event) : Prop :=
  ∀ s' o, tokenService.step s e = some (s', o) → s'.cache ≠ s.cache →
    ∃ call now answer token, e = .respond call now answer ∧
      s'.calls call = .closing (.ok token)

/-! ## One step -/

theorem fresh?_eq_some {cache : CachedToken} {now : Datetime} {token : String}
    (h : cache.fresh? now = some token) : cache.accessToken = some token ∧
      ∃ expiry, cache.tokenExpiry = some expiry ∧ now.micros < expiry.micros := by
  obtain ⟨accessToken, tokenExpiry⟩ := cache
  cases accessToken with
  | none => cases h
  | some t =>
    cases tokenExpiry with
    | none => cases h
    | some expiry =>
      simp only [CachedToken.fresh?] at h
      split_ifs at h with hfresh
      obtain rfl := Option.some.inj h
      exact ⟨rfl, expiry, rfl, hfresh.2⟩

/-- An answer leaves the cache alone, or brings a token that is written whole. -/
theorem handleResponse_cases (cache : CachedToken) {now : Datetime}
    {answer : Except TokenError HttpResponse}
    (h : ∀ token expiresIn, readToken answer = .ok (token, expiresIn) →
      (now.addSeconds (expiresIn - 60)).isSome) :
    (∃ e, handleResponse cache now answer = (cache, .error e) ∧ arrivedIn now answer = []) ∨
      ∃ a expiry, arrivedIn now answer = [.arrived a] ∧ expiry.micros = a.useUntil ∧
        handleResponse cache now answer =
          (⟨some a.accessToken, some expiry⟩, .ok a.accessToken) := by
  cases hread : readToken answer with
  | error e => exact .inl ⟨e, by rw [handleResponse, hread], by rw [arrivedIn, hread]⟩
  | ok data =>
    obtain ⟨token, expiresIn⟩ := data
    obtain ⟨expiry, hexpiry⟩ := Option.isSome_iff_exists.mp (h token expiresIn hread)
    refine .inr ⟨⟨token, expiresIn, now⟩, expiry, by rw [arrivedIn, hread],
      Datetime.micros_addSeconds hexpiry, ?_⟩
    simp only [handleResponse, hread, hexpiry]

/-- **What a step does to the cache**: nothing, or it writes a token that has just arrived, for a
call that will return. -/
theorem step_cases {s s' : Service} {e : Event} {o : List Output} (hG : Representable s e)
    (hs : tokenService.step s e = some (s', o)) :
    (s'.cache = s.cache ∧ (o = [] ∨ ∃ x, o = [x] ∧
      ∀ call now token, x = .cached call now token → s.cache.fresh? now = some token)) ∨
    ∃ call now answer a expiry, e = .respond call now answer ∧ o = [.arrived a] ∧
      expiry.micros = a.useUntil ∧ s'.cache = ⟨some a.accessToken, some expiry⟩ ∧
      s'.calls call = .closing (.ok a.accessToken) := by
  cases e with
  | start call now =>
    simp only [tokenService] at hs
    split_ifs at hs
    cases hfresh : s.cache.fresh? now with
    | none =>
      rw [hfresh] at hs
      obtain ⟨rfl, rfl⟩ := Prod.mk.inj (Option.some.inj hs)
      exact .inl ⟨rfl, .inl rfl⟩
    | some token =>
      rw [hfresh] at hs
      obtain ⟨rfl, rfl⟩ := Prod.mk.inj (Option.some.inj hs)
      refine .inl ⟨rfl, .inr ⟨_, rfl, fun call' now' token' hx => ?_⟩⟩
      cases hx
      exact hfresh
  | respond call now answer =>
    simp only [tokenService] at hs
    split_ifs at hs
    obtain ⟨rfl, rfl⟩ := Prod.mk.inj (Option.some.inj hs)
    rcases handleResponse_cases s.cache hG with
      ⟨error, hcache, harrived⟩ | ⟨a, expiry, harrived, huse, hcache⟩
    · rw [hcache, harrived]
      exact .inl ⟨rfl, .inl rfl⟩
    · rw [hcache, harrived]
      exact .inr ⟨call, now, answer, a, expiry, rfl, rfl, huse, rfl,
        Function.update_self call _ s.calls⟩
  | finish call =>
    cases hphase : s.calls call with
    | idle => simp [tokenService, hphase] at hs
    | requesting => simp [tokenService, hphase] at hs
    | closing outcome =>
      cases outcome with
      | error error =>
        simp only [tokenService, hphase] at hs
        obtain ⟨rfl, rfl⟩ := Prod.mk.inj (Option.some.inj hs)
        exact .inl ⟨rfl, .inr ⟨_, rfl, fun _ _ _ hx => by cases hx⟩⟩
      | ok token =>
        simp only [tokenService, hphase] at hs
        obtain ⟨rfl, rfl⟩ := Prod.mk.inj (Option.some.inj hs)
        exact .inl ⟨rfl, .inr ⟨_, rfl, fun _ _ _ hx => by cases hx⟩⟩

theorem ReturnedInTime.concat {os : List Output} (h : ReturnedInTime os) {x : Output}
    (hx : ∀ call now token, x = .cached call now token →
      ∃ a, .arrived a ∈ os ∧ token = a.accessToken ∧ now.micros < a.useUntil) :
    ReturnedInTime (os ++ [x]) := by
  intro before call now token after heq
  rcases List.eq_nil_or_concat after with rfl | ⟨after', y, rfl⟩
  · obtain ⟨rfl, hlast⟩ := List.append_inj' heq rfl
    exact hx call now token (List.singleton_inj.mp hlast)
  · have hsame : os ++ [x] = (before ++ .cached call now token :: after') ++ [y] := by
      rw [heq]
      simp
    obtain ⟨rfl, -⟩ := List.append_inj' hsame rfl
    exact h before call now token after' rfl

/-! ## A run -/

/-- The two fields and the answers from them, as they are kept. -/
structure Coherent (s : Service) (os : List Output) : Prop where
  fromOne : s.cache.FromOne os
  inTime : ReturnedInTime os

theorem CachedToken.FromOne.append {cache : CachedToken} {os : List Output}
    (h : cache.FromOne os) (o : List Output) : cache.FromOne (os ++ o) := by
  rcases h with hnone | ⟨a, ha, hfields⟩
  · exact .inl hnone
  · exact .inr ⟨a, List.mem_append_left o ha, hfields⟩

theorem Coherent.step {s s' : Service} {os o : List Output} {e : Event} (h : Coherent s os)
    (hG : Representable s e) (hs : tokenService.step s e = some (s', o)) :
    Coherent s' (os ++ o) := by
  rcases step_cases hG hs with
    ⟨hcache, rfl | ⟨x, rfl, hx⟩⟩ | ⟨call, now, answer, a, expiry, -, rfl, huse, hcache, -⟩
  · rw [List.append_nil]
    exact ⟨hcache ▸ h.fromOne, h.inTime⟩
  · refine ⟨hcache ▸ h.fromOne.append _, h.inTime.concat fun call now token heq => ?_⟩
    obtain ⟨htoken, expiry, hexpiry, hlt⟩ := fresh?_eq_some (hx call now token heq)
    rcases h.fromOne with ⟨hnone, -⟩ | ⟨a, ha, htoken', expiry', hexpiry', huse⟩
    · exact absurd (htoken.symm.trans hnone) (Option.some_ne_none _)
    · obtain rfl := Option.some.inj (htoken.symm.trans htoken')
      obtain rfl := Option.some.inj (hexpiry.symm.trans hexpiry')
      exact ⟨a, ha, rfl, huse ▸ hlt⟩
  · refine ⟨.inr ⟨a, List.mem_append_right os (List.mem_singleton_self _), ?_⟩,
      h.inTime.concat fun _ _ _ heq => by cases heq⟩
    rw [hcache]
    exact ⟨rfl, expiry, rfl, huse⟩

theorem writtenByReturning_of_representable {s : Service} {e : Event} (hG : Representable s e) :
    WrittenByReturning s e := by
  intro s' o hs hne
  rcases step_cases hG hs with ⟨hcache, -⟩ | ⟨call, now, answer, a, expiry, rfl, -, -, -, hcall⟩
  · exact absurd hcache hne
  · exact ⟨call, now, answer, a.accessToken, rfl, hcall⟩

/-- **The token cache is coherent** as long as every expiry that is computed is a `datetime`: its
fields come from one and the same token, that token is returned before the end of its use, and a
call that raises writes nothing. -/
theorem tokens_coherent {s : Service} {es : List Event} {os : List Output}
    (hG : tokenService.Along Representable .init es)
    (hrun : tokenService.run .init es = some (s, os)) :
    s.cache.FromOne os ∧ ReturnedInTime os ∧
      tokenService.Along WrittenByReturning .init es := by
  have hcoherent : Coherent s os := tokenService.run_invariant_along (I := Coherent)
    (fun _ _ _ _ _ h hG hs => h.step hG hs) ⟨.inl ⟨rfl, rfl⟩, by simp [ReturnedInTime]⟩ hG hrun
  exact ⟨hcoherent.fromOne, hcoherent.inTime,
    tokenService.along_mono (fun _ _ => writtenByReturning_of_representable) hG⟩

/-- Noon of the first day of 2026. -/
def noon : Datetime := ⟨63902865600000000, by decide, by decide⟩

/-- A 200 response with a token. -/
def tokenResponse (token : String) (expiresIn : ℤ) : Except TokenError HttpResponse :=
  .ok ⟨200, "", some ⟨some token, some expiresIn⟩⟩

/-- A token that is to last for more than thirty thousand years is cached without an expiry. -/
theorem not_forall_coherent :
    ¬ ∀ (s : Service) (es : List Event) (os : List Output),
      tokenService.run .init es = some (s, os) →
      s.cache.FromOne os ∧ ReturnedInTime os ∧
        tokenService.Along WrittenByReturning .init es := by
  intro h
  have hfields := (h _ [.start 0 noon, .respond 0 noon (tokenResponse "a" 1000000000000)] _ rfl).1
  rcases hfields with ⟨hnone, -⟩ | ⟨a, -, -, expiry, hexpiry, -⟩
  · cases hnone
  · cases hexpiry

/-- Two calls fetch a token each, and a third finds the one that came last. -/
def twoFetches : List Event :=
  [.start 0 noon, .start 1 noon, .respond 1 noon (tokenResponse "b" 600),
    .respond 0 noon (tokenResponse "a" 900), .finish 0, .start 2 noon]

theorem tokens_coherent_twoFetches :
    ∃ s os, tokenService.run .init twoFetches = some (s, os) ∧ s.cache.FromOne os ∧
      ReturnedInTime os ∧ tokenService.Along WrittenByReturning .init twoFetches := by
  have hread : ∀ token expiresIn, readToken (tokenResponse token expiresIn) =
      .ok (token, expiresIn) := fun _ _ => rfl
  have hb : (noon.addSeconds 540).isSome := by decide
  have ha : (noon.addSeconds 840).isSome := by decide
  have hrepresentable : ∀ e ∈ twoFetches, ∀ s, Representable s e := by
    simp [twoFetches, Representable, hread, ha, hb]
  exact ⟨_, _, rfl, tokens_coherent (tokenService.along_of_forall hrepresentable) rfl⟩

end PaypalToken

end BioShield
