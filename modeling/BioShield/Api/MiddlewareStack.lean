import BioShield.Api.BilledKey
import BioShield.Api.RetryAfter

/-!
# Api/MiddlewareStack — the middlewares one inside the other (`api/main.py`)

The middleware added last is outermost, so a request meets `AuthMiddleware` before
`RateLimitMiddleware`, and only then the routes.  What is refused for its key never reaches a
limiter, and what reaches one is counted under the key it was let in with: the branch of
`RateLimitMiddleware` that asks for the client's address is dead (`clientKey_of_forwarded`).

Each key has a bucket of its own, which only its requests draw on (`isolated`, `served_window_le`).
But any string with the right prefix is a key, so nothing bounds what one client is served in all
(`exists_run_served`).
-/

namespace BioShield

open Machinery

/-- What the stack does with a request. -/
inductive StackAnswer
  /-- `AuthMiddleware` answers. -/
  | unauthorized (messages : List AsgiMessage)
  /-- `RateLimitMiddleware` answers. -/
  | limited (messages : List AsgiMessage)
  /-- What is inside gets it, the framework's middlewares and the routes, with the `client_id` of
  the scope. -/
  | served (clientId : Option String)

namespace MiddlewareStack

/-- `RateLimitMiddleware` around what is inside. -/
def rated (lower : String → String) (m : RateLimitMiddleware) (a : Arrival)
    (clientId : Option String) : Except PyError (StackAnswer × RateLimitMiddleware) := do
  match ← m.call lower a with
  | (.forwarded, m) => return (.served clientId, m)
  | (.responded messages, m) => return (.limited messages, m)

/-- `AuthMiddleware` around that. -/
def call (lower : String → String) (m : RateLimitMiddleware) (a : Arrival) :
    Except PyError (StackAnswer × RateLimitMiddleware) := do
  match ← authMiddleware lower a.scope with
  | .refused detail => return (.unauthorized (sendErrorResponse 401 detail), m)
  | .exempt => rated lower m a none
  | .forwarded _ clientId => rated lower m a (some clientId)

/-- The stack as a machine that answers requests; one that raises changes nothing. -/
def machine (lower : String → String) :
    Machine RateLimitMiddleware Arrival (Arrival × Except PyError StackAnswer) where
  step m a :=
    match call lower m a with
    | .ok (answer, m') => some (m', [(a, .ok answer)])
    | .error e => some (m, [(a, .error e)])

/-- The key a request is let in with. -/
def keyOf (lower : String → String) (scope : Scope) : Option String :=
  match authMiddleware lower scope with
  | .ok (.forwarded apiKey _) => some apiKey
  | _ => none

/-- The answer to a request that is let in with no key. -/
def unkeyed (lower : String → String) (scope : Scope) : Except PyError StackAnswer :=
  match authMiddleware lower scope with
  | .error e => .error e
  | .ok (.refused detail) => .ok (.unauthorized (sendErrorResponse 401 detail))
  | .ok _ => .ok (.served none)

/-- The answer to a request that is let in with a key, by what its limiter says. -/
def keyed (key : String) (answer : Bool × ℚ) : StackAnswer :=
  if answer.1 then .served (validateApiKey key) else .limited (sendRateLimitResponse answer.2)

/-! ## One request -/

section Request

variable {lower : String → String} {m m' : RateLimitMiddleware} {a : Arrival} {key : String}

/-- **When a request is let in with a key**: it is not exempt, and the key it carries is a
client's. -/
theorem keyOf_eq_some_iff {scope : Scope} : keyOf lower scope = some key ↔
    scope.path ∉ exemptPaths ∧ findToken lower scope.headers = .ok (some key) ∧ key ≠ "" ∧
      ∃ clientId, validateApiKey key = some clientId := by
  by_cases hexempt : scope.path ∈ exemptPaths
  · have hauth : authMiddleware lower scope = .ok .exempt := by
      rw [authMiddleware, if_pos hexempt]
      rfl
    simp [keyOf, hauth, hexempt]
  · rcases hfind : findToken lower scope.headers with e | _ | apiKey
    · have hauth : authMiddleware lower scope = .error e := by
        rw [authMiddleware, if_neg hexempt, hfind]
        rfl
      simp [keyOf, hauth]
    · have hauth : authMiddleware lower scope = .ok (.refused "Missing API key") := by
        rw [authMiddleware, if_neg hexempt, hfind]
        rfl
      simp [keyOf, hauth]
    · by_cases hempty : apiKey = ""
      · have hauth : authMiddleware lower scope = .ok (.refused "Missing API key") := by
          rw [authMiddleware, if_neg hexempt, hfind]
          exact if_pos hempty
        simp only [keyOf, hauth, reduceCtorEq, false_iff]
        rintro ⟨-, hkey, hne, -⟩
        cases hkey
        exact hne hempty
      · cases hclient : validateApiKey apiKey with
        | none =>
          have hauth : authMiddleware lower scope = .ok (.refused "Invalid API key") := by
            rw [authMiddleware, if_neg hexempt, hfind]
            exact (if_neg hempty).trans (by rw [hclient]; rfl)
          simp only [keyOf, hauth, reduceCtorEq, false_iff]
          rintro ⟨-, hkey, -, clientId, hclient'⟩
          cases hkey
          rw [hclient] at hclient'
          cases hclient'
        | some clientId =>
          have hauth : authMiddleware lower scope = .ok (.forwarded apiKey clientId) := by
            rw [authMiddleware, if_neg hexempt, hfind]
            exact (if_neg hempty).trans (by rw [hclient]; rfl)
          simp only [keyOf, hauth, Option.some.injEq]
          constructor
          · rintro rfl
            exact ⟨hexempt, rfl, hempty, clientId, hclient⟩
          · rintro ⟨-, hkey, -⟩
            exact Option.some.inj (Except.ok.inj hkey)

theorem authMiddleware_of_keyOf {scope : Scope} (h : keyOf lower scope = some key) :
    ∃ clientId, authMiddleware lower scope = .ok (.forwarded key clientId) ∧
      validateApiKey key = some clientId := by
  obtain ⟨hexempt, hfind, hne, clientId, hclient⟩ := keyOf_eq_some_iff.mp h
  refine ⟨clientId, ?_, hclient⟩
  rw [authMiddleware, if_neg hexempt, hfind]
  exact (if_neg hne).trans (by rw [hclient]; rfl)

/-- **With a key**, a request takes a token from the key's limiter, and gets through if there is
one… -/
theorem call_of_keyOf (h : keyOf lower a.scope = some key) :
    call lower m a = .ok (keyed key ((m.limiterOf key).consume key 1 a.now).1,
      (m.consumeFor key a.now).2) := by
  obtain ⟨clientId, hauth, hclient⟩ := authMiddleware_of_keyOf h
  have hrate := RateLimitMiddleware.call_of_clientKey (m := m) (keyOf_eq_some_iff.mp h).1
    (clientKey_of_forwarded hauth)
  have hanswer := RateLimitMiddleware.answer_consumeFor m key a.now
  rcases hconsume : m.consumeFor key a.now with ⟨answer, m'⟩
  rw [hconsume] at hrate hanswer
  rw [call, hauth, keyed, hclient]
  obtain rfl : answer = _ := hanswer
  simp only [bind, Except.bind, rated, hrate]
  split_ifs <;> rfl

theorem authMiddleware_eq_exempt_iff {scope : Scope} :
    authMiddleware lower scope = .ok .exempt ↔ scope.path ∈ exemptPaths := by
  by_cases hexempt : scope.path ∈ exemptPaths
  · rw [authMiddleware, if_pos hexempt]
    exact iff_of_true rfl hexempt
  · refine iff_of_false (fun h => ?_) hexempt
    rw [authMiddleware, if_neg hexempt] at h
    obtain ⟨found, -, h⟩ := bind_eq_ok_iff.mp h
    cases found with
    | none => cases h
    | some apiKey =>
      simp only at h
      split_ifs at h
      · cases h
      · cases hclient : validateApiKey apiKey <;> rw [hclient] at h <;> cases h

/-- …and without one it leaves the limiters alone. -/
theorem call_of_unkeyed (h : keyOf lower a.scope = none) :
    call lower m a = (unkeyed lower a.scope).map fun answer => (answer, m) := by
  rcases hauth : authMiddleware lower a.scope with e | _ | ⟨apiKey, clientId⟩ | detail
  · rw [call, unkeyed, hauth]
    rfl
  · have hrate : m.call lower a = .ok (.forwarded, m) :=
      RateLimitMiddleware.call_of_exempt (authMiddleware_eq_exempt_iff.mp hauth)
    rw [call, unkeyed, hauth]
    simp only [bind, Except.bind, rated, hrate]
    rfl
  · rw [keyOf, hauth] at h
    cases h
  · rw [call, unkeyed, hauth]
    rfl

theorem step_of_keyOf (h : keyOf lower a.scope = some key) :
    (machine lower).step m a = some ((m.consumeFor key a.now).2,
      [(a, .ok (keyed key ((m.limiterOf key).consume key 1 a.now).1))]) := by
  simp only [machine, call_of_keyOf h]

theorem step_of_unkeyed (h : keyOf lower a.scope = none) :
    (machine lower).step m a = some (m, [(a, unkeyed lower a.scope)]) := by
  simp only [machine, call_of_unkeyed h]
  cases unkeyed lower a.scope <;> rfl

/-- Every request is answered once. -/
theorem machine_echo (m : RateLimitMiddleware) (a : Arrival) (m' : RateLimitMiddleware)
    (o : List (Arrival × Except PyError StackAnswer))
    (h : (machine lower).step m a = some (m', o)) :
    o.map Prod.fst = [a] := by
  cases hkey : keyOf lower a.scope with
  | none =>
    rw [step_of_unkeyed hkey] at h
    cases h
    rfl
  | some key =>
    rw [step_of_keyOf hkey] at h
    cases h
    rfl

theorem keyOf_oneToken : keyOf id oneToken = some "sk_test_a" := by
  rw [keyOf, forwarded_oneToken]

end Request

/-! ## The bucket of a key -/

section Run

variable (lower : String → String) (key : String)

/-- The request was let in with `key`. -/
def OfKey (o : Arrival × Except PyError StackAnswer) : Prop := keyOf lower o.1.scope = some key

instance : DecidablePred (OfKey lower key) := fun _ => inferInstanceAs (Decidable (_ = _))

/-- A request as one to the bucket of `key`, if it is one. -/
def toTake (a : Arrival) : Option (Take ℚ) :=
  if keyOf lower a.scope = some key then some ⟨1, a.now⟩ else none

/-- An answer of the bucket, and what the stack makes of it. -/
def Answers (taken : Take ℚ × Bool × ℚ) (o : Arrival × Except PyError StackAnswer) : Prop :=
  taken.1 = ⟨1, o.1.now⟩ ∧ o.2 = .ok (keyed key taken.2)

/-- **What a key's requests are answered is what a bucket of its own answers**, in every run… -/
structure Served (rate burst : ℚ) (m : RateLimitMiddleware)
    (os : List (Arrival × Except PyError StackAnswer)) : Prop where
  configured : m.Configured
  defaultRate : m.defaultRate = rate
  defaultBurst : m.defaultBurst = burst
  bucket : ∃ taken, (Bucket.machine burst (rate / 60)).run none
      ((os.map Prod.fst).filterMap (toTake lower key)) =
        some ((m.limiterOf key).bucket key, taken) ∧
    List.Forall₂ (Answers key) taken (os.filter fun o => OfKey lower key o)

variable {lower key}

theorem Served.step {rate burst : ℚ} {m m' : RateLimitMiddleware} {a : Arrival}
    {os o : List (Arrival × Except PyError StackAnswer)} (h : Served lower key rate burst m os)
    (hs : (machine lower).step m a = some (m', o)) :
    Served lower key rate burst m' (os ++ o) := by
  obtain ⟨hconfigured, hrate, hburst, taken, hrun, hanswers⟩ := h
  cases hkey : keyOf lower a.scope with
  | none =>
    rw [step_of_unkeyed hkey] at hs
    cases hs
    refine ⟨hconfigured, hrate, hburst, taken, ?_, ?_⟩
    · simpa [toTake, hkey] using hrun
    · simpa [OfKey, hkey] using hanswers
  | some key' =>
    rw [step_of_keyOf hkey] at hs
    cases hs
    have hdefaults : (m.consumeFor key' a.now).2.defaultRate = m.defaultRate ∧
        (m.consumeFor key' a.now).2.defaultBurst = m.defaultBurst := by
      rw [RateLimitMiddleware.state_consumeFor]
      exact ⟨rfl, rfl⟩
    refine ⟨hconfigured.consumeFor key' a.now, hdefaults.1.trans hrate,
      hdefaults.2.trans hburst, ?_⟩
    by_cases hne : key = key'
    · subst hne
      obtain ⟨hcapacity, hrefill⟩ := hconfigured key
      obtain ⟨hanswer, hbucket⟩ :=
        RateLimiter.consume_eq_take (m.limiterOf key) key 1 a.now
      rw [hcapacity, hrefill, hrate, hburst] at hanswer hbucket
      refine ⟨taken ++ [(⟨1, a.now⟩, ((m.limiterOf key).consume key 1 a.now).1)], ?_, ?_⟩
      · have htake : toTake lower key a = some ⟨1, a.now⟩ := if_pos hkey
        rw [List.map_append, List.filterMap_append, RateLimitMiddleware.limiterOf_consumeFor_self,
          hbucket, hanswer]
        refine (Machine.run_append_iff _).mpr ⟨_, _, _, hrun, ?_, rfl⟩
        simp only [List.map_cons, List.map_nil, List.filterMap_cons, List.filterMap_nil, htake]
        exact Machine.run_singleton _ rfl
      · have hmine : [(a, Except.ok (keyed key ((m.limiterOf key).consume key 1 a.now).1))].filter
            (fun o => OfKey lower key o) = [(a, .ok (keyed key _))] :=
          List.filter_eq_self.mpr fun o ho => by
            rw [List.mem_singleton.mp ho]
            exact decide_eq_true hkey
        rw [List.filter_append, hmine]
        exact List.rel_append hanswers (.cons ⟨rfl, rfl⟩ .nil)
    · refine ⟨taken, ?_, ?_⟩
      · rw [RateLimitMiddleware.limiterOf_consumeFor_of_ne m key' a.now hne]
        simpa [toTake, hkey, Ne.symm hne] using hrun
      · simpa [OfKey, hkey, Ne.symm hne] using hanswers

/-- …from a new middleware on. -/
theorem run_served {rate burst : ℚ} {as : List Arrival} {m : RateLimitMiddleware}
    {os : List (Arrival × Except PyError StackAnswer)}
    (hrun : (machine lower).run (.new rate burst) as = some (m, os)) (key : String) :
    Served lower key rate burst m os :=
  (machine lower).run_invariant (fun _ _ _ _ _ h hs => h.step hs)
    ⟨fun _ => ⟨rfl, rfl⟩, rfl, rfl, [], rfl, .nil⟩ hrun

variable (lower) in
/-- The stack answers every schedule. -/
theorem exists_run (m : RateLimitMiddleware) (as : List Arrival) :
    ∃ m' os, (machine lower).run m as = some (m', os) := by
  induction as generalizing m with
  | nil => exact ⟨m, [], rfl⟩
  | cons a as ih =>
    have hstep : ∃ m₁ o, (machine lower).step m a = some (m₁, o) := by
      cases hkey : keyOf lower a.scope with
      | none => exact ⟨_, _, step_of_unkeyed hkey⟩
      | some key => exact ⟨_, _, step_of_keyOf hkey⟩
    obtain ⟨m₁, o, hs⟩ := hstep
    obtain ⟨m', os, hrun⟩ := ih m₁
    exact ⟨m', o ++ os, (machine lower).run_cons hs hrun⟩

/-- A key's answers are its bucket's. -/
theorem map_snd_of_answers {taken : List (Take ℚ × Bool × ℚ)}
    {os : List (Arrival × Except PyError StackAnswer)} (h : List.Forall₂ (Answers key) taken os) :
    os.map Prod.snd = taken.map fun t => .ok (keyed key t.2) := by
  induction h with
  | nil => rfl
  | cons hab _ ih => rw [List.map_cons, List.map_cons, hab.2, ih]

/-- **Isolation**: in every run, a request without a key is answered by its headers alone, and the
requests with a key are answered as they would have been with no others. -/
theorem isolated {rate burst : ℚ} {as : List Arrival} {m : RateLimitMiddleware}
    {os : List (Arrival × Except PyError StackAnswer)}
    (hrun : (machine lower).run (.new rate burst) as = some (m, os)) :
    (∀ o ∈ os, keyOf lower o.1.scope = none → o.2 = unkeyed lower o.1.scope) ∧
      ∀ key, ∃ m' os', (machine lower).run (.new rate burst)
          (as.filter fun a => keyOf lower a.scope = some key) = some (m', os') ∧
        os'.map Prod.snd = (os.filter fun o => OfKey lower key o).map Prod.snd := by
  constructor
  · refine (machine lower).run_invariant (I := fun _ os => ∀ o ∈ os,
      keyOf lower o.1.scope = none → o.2 = unkeyed lower o.1.scope)
      (fun m os a m' o hI hs => List.forall_mem_append.mpr ⟨hI, fun x hx hkey => ?_⟩)
      (fun o ho => absurd ho List.not_mem_nil) hrun
    obtain rfl : x.1 = a := by
      have hmem := List.mem_map_of_mem (f := Prod.fst) hx
      rw [machine_echo _ _ _ _ hs] at hmem
      exact List.mem_singleton.mp hmem
    rw [step_of_unkeyed hkey] at hs
    obtain ⟨-, rfl⟩ := Prod.mk.inj (Option.some.inj hs)
    rw [List.mem_singleton.mp hx]
  · intro key
    obtain ⟨m', os', hrun'⟩ := exists_run lower (.new rate burst)
      (as.filter fun a => keyOf lower a.scope = some key)
    refine ⟨m', os', hrun', ?_⟩
    obtain ⟨taken, hbucket, hanswers⟩ := (run_served hrun key).bucket
    obtain ⟨taken', hbucket', hanswers'⟩ := (run_served hrun' key).bucket
    have hsame : (as.filter fun a => keyOf lower a.scope = some key).filterMap (toTake lower key) =
        as.filterMap (toTake lower key) := by
      rw [List.filterMap_filter]
      refine List.filterMap_congr fun a _ => ?_
      by_cases h : keyOf lower a.scope = some key <;> simp [toTake, h]
    rw [Machine.run_echo machine_echo hrun] at hbucket
    rw [Machine.run_echo machine_echo hrun', hsame, hbucket] at hbucket'
    obtain ⟨-, rfl⟩ := Prod.mk.inj (Option.some.inj hbucket')
    have hall : os'.filter (fun o => OfKey lower key o) = os' := by
      refine List.filter_eq_self.mpr fun o ho => decide_eq_true ?_
      have hmem := List.mem_map_of_mem (f := Prod.fst) ho
      rw [Machine.run_echo machine_echo hrun'] at hmem
      exact of_decide_eq_true (List.mem_filter.mp hmem).2
    rw [hall] at hanswers'
    rw [map_snd_of_answers hanswers, map_snd_of_answers hanswers']

/-- A request without a key, and one with. -/
theorem isolated_oneToken :
    ∃ m os, (machine id).run (.new 60 1)
        [⟨{ oneToken with headers := [] }, 0⟩, ⟨oneToken, 0⟩] = some (m, os) ∧
      ∃ m' os', (machine id).run (.new 60 1)
          ([⟨{ oneToken with headers := [] }, 0⟩, ⟨oneToken, 0⟩].filter
            fun a => keyOf id a.scope = some "sk_test_a") = some (m', os') ∧
        os'.map Prod.snd = (os.filter fun o => OfKey id "sk_test_a" o).map Prod.snd := by
  obtain ⟨m, os, hrun⟩ := exists_run id (.new 60 1)
    [⟨{ oneToken with headers := [] }, 0⟩, ⟨oneToken, 0⟩]
  exact ⟨m, os, hrun, (isolated hrun).2 "sk_test_a"⟩

/-! ## What a key is served -/

/-- The request got inside. -/
def isServed : Except PyError StackAnswer → Bool
  | .ok (.served _) => true
  | _ => false

variable (lower key) in
/-- How many requests of a key were served. -/
def servedTo (os : List (Arrival × Except PyError StackAnswer)) : ℕ :=
  (os.filter fun o => OfKey lower key o).countP fun o => isServed o.2

theorem isServed_keyed (answer : Bool × ℚ) : isServed (.ok (keyed key answer)) = answer.1 := by
  obtain ⟨_ | _, wait⟩ := answer <;> rfl

/-- A key is served what its bucket grants. -/
theorem granted_of_answers {taken : List (Take ℚ × Bool × ℚ)}
    {os : List (Arrival × Except PyError StackAnswer)} (h : List.Forall₂ (Answers key) taken os) :
    Bucket.granted taken = os.countP fun o => isServed o.2 := by
  induction h with
  | nil => rfl
  | @cons t o taken os hab _ ih =>
    obtain ⟨⟨amount, now⟩, allowed, wait⟩ := t
    obtain ⟨htake, hanswer⟩ := hab
    obtain rfl : amount = 1 := congrArg Take.amount htake
    have hcons : Bucket.granted ((⟨⟨1, now⟩, allowed, wait⟩ : Take ℚ × Bool × ℚ) :: taken) =
        (if allowed then 1 else 0) + Bucket.granted taken := rfl
    rw [hcons, ih, List.countP_cons, hanswer, isServed_keyed]
    cases allowed <;> push_cast <;> simp [add_comm]

/-- The first of a list corresponds to the first. -/
theorem head?_of_answers {taken : List (Take ℚ × Bool × ℚ)}
    {os : List (Arrival × Except PyError StackAnswer)} (h : List.Forall₂ (Answers key) taken os)
    {x : Arrival × Except PyError StackAnswer} (hhead : os.head? = some x) :
    ∃ t, taken.head? = some t ∧ t.1.now = x.1.now := by
  cases h with
  | nil => cases hhead
  | cons hab _ =>
    cases hhead
    exact ⟨_, rfl, congrArg Take.now hab.1⟩

/-- …and the last to the last. -/
theorem getLast?_of_answers {taken : List (Take ℚ × Bool × ℚ)}
    {os : List (Arrival × Except PyError StackAnswer)} (h : List.Forall₂ (Answers key) taken os)
    {y : Arrival × Except PyError StackAnswer} (hlast : os.getLast? = some y) :
    ∃ t, taken.getLast? = some t ∧ t.1.now = y.1.now := by
  rw [← List.head?_reverse] at hlast
  obtain ⟨t, ht, hnow⟩ := head?_of_answers (List.forall₂_reverse_iff.mpr h) hlast
  exact ⟨t, by rwa [← List.head?_reverse], hnow⟩

variable (lower key) in
/-- A key's requests come to its bucket in the order of time. -/
theorem along_toTake {C r : ℚ} {as : List Arrival}
    (hclock : as.Pairwise fun a a' => a.now ≤ a'.now) :
    (Bucket.machine C r).Along Bucket.Clocked none (as.filterMap (toTake lower key)) := by
  have htake : ∀ {a q}, toTake lower key a = some q → q = ⟨1, a.now⟩ := fun h =>
    (Option.some.inj (Option.ite_none_right_eq_some.mp h).2).symm
  refine Bucket.along_clocked (fun q hq => ?_) ?_ fun x hx => absurd hx (Option.not_mem_none _)
  · obtain ⟨a, -, hq⟩ := List.mem_filterMap.mp hq
    rw [htake hq]
    exact zero_le_one
  · refine List.pairwise_filterMap.mpr (hclock.imp fun {a a'} hle q hq q' hq' => ?_)
    rw [htake hq, htake hq']
    exact hle

/-- **The bound for a key**: between two of its requests, both included, no more of them are served
than the burst and what comes in from the first to the second. -/
theorem served_window_le {rate burst : ℚ} {as : List Arrival} {m : RateLimitMiddleware}
    {pre win post : List (Arrival × Except PyError StackAnswer)}
    {x y : Arrival × Except PyError StackAnswer} (hburst : 0 ≤ burst) (hrate : 0 ≤ rate)
    (hclock : as.Pairwise fun a a' => a.now ≤ a'.now)
    (hrun : (machine lower).run (.new rate burst) as = some (m, pre ++ win ++ post))
    (hhead : win.head? = some x) (hlast : win.getLast? = some y) (hx : OfKey lower key x)
    (hy : OfKey lower key y) :
    servedTo lower key win ≤ burst + rate / 60 * (y.1.now - x.1.now) := by
  obtain ⟨taken, hbucket, hanswers⟩ := (run_served hrun key).bucket
  rw [Machine.run_echo machine_echo hrun] at hbucket
  rw [List.append_assoc, List.filter_append, List.filter_append] at hanswers
  have hrest := List.forall₂_drop_append _ _ _ hanswers
  have hwin := List.forall₂_take_append _ _ _ hrest
  have hsplit := List.take_append_drop (pre.filter fun o => OfKey lower key o).length taken
  have hsplit' := List.take_append_drop (win.filter fun o => OfKey lower key o).length
    (taken.drop (pre.filter fun o => OfKey lower key o).length)
  rw [← hsplit, ← hsplit', ← List.append_assoc] at hbucket
  have hhead' : (win.filter fun o => OfKey lower key o).head? = some x := by
    obtain ⟨win', rfl⟩ := List.head?_eq_some_iff.mp hhead
    simp [hx]
  have hlast' : (win.filter fun o => OfKey lower key o).getLast? = some y := by
    obtain ⟨win', rfl⟩ := List.getLast?_eq_some_iff.mp hlast
    simp [hy]
  obtain ⟨t, ht, hxnow⟩ := head?_of_answers hwin hhead'
  obtain ⟨t', ht', hynow⟩ := getLast?_of_answers hwin hlast'
  have hbound := Bucket.granted_window_le hburst (div_nonneg hrate (by norm_num))
    (along_toTake lower key hclock) hbucket ht ht'
  rwa [granted_of_answers hwin, hxnow, hynow] at hbound

/-- One request with a burst of one. -/
theorem served_window_le_oneToken :
    ∃ m x, (machine id).run (.new 60 1) [⟨oneToken, 0⟩] = some (m, [] ++ [x] ++ []) ∧
      servedTo id "sk_test_a" [x] ≤ (1 : ℚ) + 60 / 60 * (x.1.now - x.1.now) := by
  have hrun := (machine id).run_singleton
    (step_of_keyOf (m := .new 60 1) (a := ⟨oneToken, 0⟩) keyOf_oneToken)
  exact ⟨_, _, hrun, @served_window_le id "sk_test_a" 60 1 [⟨oneToken, 0⟩] _ [] [_] [] _ _
    zero_le_one (by norm_num) (List.pairwise_singleton _ _) hrun rfl rfl keyOf_oneToken
    keyOf_oneToken⟩

/-! ## Which requests are served -/

/-- Decoding fails in one way only. -/
theorem findToken_ne_attributeError (headers : List (ByteArray × ByteArray)) :
    findToken lower headers ≠ .error .attributeError := by
  have hdecode : ∀ b : ByteArray, decode b ≠ .error .attributeError := fun b h => by
    rw [decode] at h
    split at h <;> cases h
  rw [findToken]
  induction (Dict.ofPairs headers).items with
  | nil =>
    intro h
    cases h
  | cons item items ih =>
    obtain ⟨name, value⟩ := item
    rw [scanToken]
    intro h
    rcases hname : decode name with e | text
    · rw [hname] at h
      obtain rfl : e = .attributeError := Except.error.inj h
      exact hdecode name hname
    · rw [hname] at h
      simp only [bind, Except.bind] at h
      split_ifs at h
      · rcases hvalue : decode value with e | apiKey
        · rw [hvalue] at h
          obtain rfl : e = .attributeError := Except.error.inj h
          exact hdecode value hvalue
        · rw [hvalue] at h
          cases h
      · exact ih h

/-- **Which requests are served**, after every run: those to the exempt paths, with no client, and
those with a key whose bucket has a token, for the key's client.  The limiter's branch for requests
without a key is never taken. -/
theorem served_iff {rate burst : ℚ} {as : List Arrival} {m : RateLimitMiddleware}
    {os : List (Arrival × Except PyError StackAnswer)}
    (hrun : (machine lower).run (.new rate burst) as = some (m, os)) (a : Arrival) :
    call lower m a ≠ .error .attributeError ∧ ∀ clientId,
      (∃ m', call lower m a = .ok (.served clientId, m')) ↔
        a.scope.path ∈ exemptPaths ∧ clientId = none ∨
          ∃ key, keyOf lower a.scope = some key ∧ clientId = validateApiKey key ∧
            1 ≤ m.available key a.now := by
  cases hkey : keyOf lower a.scope with
  | none =>
    rw [call_of_unkeyed hkey]
    rcases hauth : authMiddleware lower a.scope with e | _ | ⟨apiKey, client⟩ | detail
    · have hexempt : a.scope.path ∉ exemptPaths := fun h => by
        rw [authMiddleware_eq_exempt_iff.mpr h] at hauth
        cases hauth
      have he : e ≠ .attributeError := by
        rintro rfl
        rw [authMiddleware, if_neg hexempt] at hauth
        rcases hfind : findToken lower a.scope.headers with e | found
        · rw [hfind] at hauth
          obtain rfl : e = .attributeError := Except.error.inj hauth
          exact findToken_ne_attributeError _ hfind
        · rw [hfind] at hauth
          simp only [bind, Except.bind] at hauth
          split at hauth
          · cases hauth
          · split_ifs at hauth
            · cases hauth
            · split at hauth <;> cases hauth
      simp [unkeyed, hauth, Except.map, he, hexempt]
    · simp [unkeyed, hauth, Except.map, authMiddleware_eq_exempt_iff.mp hauth, eq_comm]
    · rw [keyOf, hauth] at hkey
      cases hkey
    · have hexempt : a.scope.path ∉ exemptPaths := fun h => by
        rw [authMiddleware_eq_exempt_iff.mpr h] at hauth
        cases hauth
      simp [unkeyed, hauth, Except.map, hexempt]
  | some key =>
    have hm := (run_served hrun key).configured
    have hgrant : ((m.limiterOf key).consume key 1 a.now).1.1 = true ↔
        1 ≤ m.available key a.now := by
      rw [(RateLimiter.consume_eq_take (m.limiterOf key) key 1 a.now).1,
        RateLimitMiddleware.available_eq_refill key a.now hm, Bucket.take]
      split_ifs with h <;> simp [h]
    have hexempt := (keyOf_eq_some_iff.mp hkey).1
    rw [call_of_keyOf hkey]
    refine ⟨by simp, fun clientId => ?_⟩
    simp only [hexempt, false_and, false_or, Option.some.injEq, exists_eq_left', ← hgrant, keyed]
    cases ((m.limiterOf key).consume key 1 a.now).1.1 <;> simp [eq_comm]

/-- A request on a new middleware: with its key, it gets the first token. -/
theorem served_iff_oneToken :
    ∃ m', call id (.new 60 1) ⟨oneToken, 0⟩ = .ok (.served (validateApiKey "sk_test_a"), m') :=
  ((@served_iff id 60 1 [] _ _ rfl ⟨oneToken, 0⟩).2 _).mpr
    (.inr ⟨"sk_test_a", keyOf_oneToken, rfl, le_rfl⟩)

/-! ## What one client is served -/

/-- **New keys have full buckets**: requests whose keys are all different are all served, however
many they are and whenever they come. -/
theorem served_of_nodup {rate burst : ℚ} {as : List Arrival} {m : RateLimitMiddleware}
    {os : List (Arrival × Except PyError StackAnswer)} (hburst : 1 ≤ burst)
    (hnodup : (as.map fun a => keyOf lower a.scope).Nodup)
    (hrun : (machine lower).run (.new rate burst) as = some (m, os)) :
    ∀ o ∈ os, OfKey lower key o → o.2 = .ok (.served (validateApiKey key)) := by
  intro o ho hkey
  have hecho := Machine.run_echo machine_echo hrun
  obtain ⟨taken, hbucket, hanswers⟩ := (run_served hrun key).bucket
  -- the key's bucket gets one request
  have hone : (os.filter fun o => OfKey lower key o) = [o] := by
    have hcount : (os.filter fun o => OfKey lower key o).length ≤ 1 := by
      have hle := List.nodup_iff_count_le_one.mp hnodup (some key)
      rw [← hecho, List.map_map, List.count, List.countP_map, List.countP_eq_length_filter] at hle
      refine le_of_eq_of_le (congrArg List.length (List.filter_congr fun o _ => ?_)) hle
      rw [Function.comp_apply, Function.comp_apply, Bool.eq_iff_iff, decide_eq_true_iff, beq_iff_eq]
      rfl
    have hmem : o ∈ os.filter fun o => OfKey lower key o :=
      List.mem_filter.mpr ⟨ho, decide_eq_true hkey⟩
    obtain ⟨o', ho'⟩ := List.length_eq_one_iff.mp (hcount.antisymm (List.length_pos_of_mem hmem))
    rw [ho', List.mem_singleton] at hmem
    rw [ho', hmem]
  rw [hone] at hanswers
  cases hanswers with
  | @cons t _ taken' _ hab hnil =>
    cases hnil
    have htakes := Machine.run_echo Bucket.machine_echo hbucket
    rw [← htakes] at hbucket
    obtain ⟨-, ht⟩ := Prod.mk.inj (Option.some.inj hbucket)
    have hgranted : t.2 = (true, 0) := by
      rw [← (List.cons.inj ht).1, hab.1]
      exact congrArg Prod.fst (if_pos hburst)
    rw [hab.2, hgranted]
    rfl

/-- A key of one's own making. -/
def madeUp (i : ℕ) : String := "sk_test_" ++ toString i

/-- A request with it. -/
def withKey (apiKey : String) : Scope where
  path := "/v1/audit-voice"
  headers := [(tokenHeader, apiKey.toUTF8)]
  client := .address "192.0.2.1" 50000

theorem decode_toUTF8 (s : String) : decode s.toUTF8 = .ok s := by
  rw [decode_eq_ok_iff, String.fromUTF8?, String.toUTF8_eq_toByteArray, dif_pos s.isValidUTF8]
  rfl

/-- Anything with the prefix is a client's key. -/
theorem validateApiKey_madeUp (i : ℕ) : validateApiKey (madeUp i) = some "test_client" := by
  rw [validateApiKey, madeUp, String.toList_append, if_pos]
  exact List.isPrefixOf_iff_prefix.mpr (List.prefix_append _ _)

theorem keyOf_withKey (hlower : lower "x-bioshield-token" = "x-bioshield-token") (i : ℕ) :
    keyOf lower (withKey (madeUp i)) = some (madeUp i) := by
  refine keyOf_eq_some_iff.mpr ⟨?_, ?_, ?_, "test_client", validateApiKey_madeUp i⟩
  · exact show "/v1/audit-voice" ∉ exemptPaths by decide
  · have hname : decode tokenHeader = .ok "x-bioshield-token" := decode_toUTF8 _
    have hvalue := decode_toUTF8 (madeUp i)
    have hitems : (Dict.ofPairs (withKey (madeUp i)).headers).items =
        [(tokenHeader, (madeUp i).toUTF8)] := rfl
    rw [findToken, hitems, scanToken, hname]
    simp only [bind, Except.bind, hlower, if_true, hvalue]
    rfl
  · intro h
    have hlen := congrArg String.length h
    rw [madeUp, String.length_append] at hlen
    simp at hlen

theorem madeUp_injective : Function.Injective madeUp := by
  intro i i' h
  have happ := congrArg String.toList h
  rw [madeUp, madeUp, String.toList_append, String.toList_append,
    List.append_cancel_left_eq] at happ
  exact Nat.repr_injective (String.toList_inj.mp happ)

/-- **Nothing bounds what one client is served**: at any moment, any number of requests are all
served for the one client, each with a key of its own. -/
theorem exists_run_served (hlower : lower "x-bioshield-token" = "x-bioshield-token")
    {rate burst : ℚ} (hburst : 1 ≤ burst) (now : ℚ) (n : ℕ) :
    ∃ as m os, as.length = n ∧ (∀ a ∈ as, a.now = now) ∧
      (machine lower).run (.new rate burst) as = some (m, os) ∧
      ∀ o ∈ os, o.2 = .ok (.served (some "test_client")) := by
  let as : List Arrival := (List.range n).map fun i => ⟨withKey (madeUp i), now⟩
  have hkeys : as.map (fun a => keyOf lower a.scope) =
      (List.range n).map fun i => some (madeUp i) := by
    rw [List.map_map]
    exact List.map_congr_left fun i _ => keyOf_withKey hlower i
  have hnodup : (as.map fun a => keyOf lower a.scope).Nodup := by
    rw [hkeys]
    exact List.nodup_range.map ((Option.some_injective _).comp madeUp_injective)
  obtain ⟨m, os, hrun⟩ := exists_run lower (.new rate burst) as
  refine ⟨as, m, os, by simp [as], fun a ha => ?_, hrun, fun o ho => ?_⟩
  · obtain ⟨i, -, rfl⟩ := List.mem_map.mp ha
    rfl
  · have hmem := List.mem_map_of_mem (f := Prod.fst) ho
    rw [Machine.run_echo machine_echo hrun] at hmem
    obtain ⟨i, -, hi⟩ := List.mem_map.mp hmem
    have hkey : OfKey lower (madeUp i) o := by
      rw [OfKey, ← hi]
      exact keyOf_withKey hlower i
    rw [served_of_nodup hburst hnodup hrun o ho hkey, validateApiKey_madeUp]

/-- Twenty thousand at once, with the burst of fifteen thousand that is the default. -/
theorem exists_run_served_default :
    ∃ as m os, as.length = 20000 ∧ (∀ a ∈ as, a.now = 0) ∧
      (machine id).run (.new 10000 15000) as = some (m, os) ∧
      ∀ o ∈ os, o.2 = .ok (.served (some "test_client")) :=
  exists_run_served rfl (by norm_num) 0 20000

end Run

end MiddlewareStack

end BioShield
