import BioShield.Machinery.TokenBucket

/-!
# Api/RateLimiter — `RateLimiter.consume` (`api/middleware/rate_limiter.py`)

Two dictionaries, the tokens and the last refill of each key.  What they hold for one key is a token
bucket, and `consume` is a request to it (`bucket_consume_self`) that leaves the buckets of all
other keys alone (`bucket_consume_of_ne`).
-/

namespace BioShield

open Machinery

/-- `RateLimiter`; a key missing from one of its `defaultdict(float)` reads as `0.0`. -/
structure RateLimiter where
  capacity : ℚ
  refillRate : ℚ
  tokens : String → Option ℚ
  lastRefill : String → Option ℚ

namespace RateLimiter

/-- `RateLimiter(capacity, refill_rate)`. -/
def new (capacity refillRate : ℚ) : RateLimiter :=
  ⟨capacity, refillRate, fun _ => none, fun _ => none⟩

/-- `self.tokens[key] = value`. -/
def setTokens (l : RateLimiter) (key : String) (value : ℚ) : RateLimiter :=
  { l with tokens := Function.update l.tokens key (some value) }

/-- `self.last_refill[key] = now`. -/
def setLastRefill (l : RateLimiter) (key : String) (now : ℚ) : RateLimiter :=
  { l with lastRefill := Function.update l.lastRefill key (some now) }

/-- The refill of `consume`. -/
def refill (l : RateLimiter) (key : String) (now : ℚ) : RateLimiter :=
  match l.tokens key with
  | none => (l.setTokens key l.capacity).setLastRefill key now
  | some tokens =>
    let elapsed := now - (l.lastRefill key).getD 0
    let refill := elapsed * l.refillRate
    (l.setTokens key (min l.capacity (tokens + refill))).setLastRefill key now

/-- `consume` at time `now`: whether the tokens are granted, and the time to wait if not. -/
def consume (l : RateLimiter) (key : String) (tokens now : ℚ) : (Bool × ℚ) × RateLimiter :=
  let l := l.refill key now
  let available := (l.tokens key).getD 0
  if available ≥ tokens then ((true, 0), l.setTokens key (available - tokens))
  else
    let waitTime := (tokens - available) / l.refillRate
    ((false, waitTime), l)

/-! ## One bucket for each key -/

/-- The bucket of a key. -/
def bucket (l : RateLimiter) (key : String) : Option (Bucket ℚ) :=
  (l.tokens key).map fun tokens => ⟨tokens, (l.lastRefill key).getD 0⟩

variable (l : RateLimiter) (key : String) (tokens now : ℚ)

theorem tokens_refill_self :
    (l.refill key now).tokens key =
      some (Bucket.refill l.capacity l.refillRate (l.bucket key) now) := by
  cases h : l.tokens key <;>
    simp [refill, h, bucket, setTokens, setLastRefill, Bucket.refill]

theorem lastRefill_refill_self : (l.refill key now).lastRefill key = some now := by
  cases h : l.tokens key <;> simp [refill, h, setTokens, setLastRefill]

@[simp] theorem refillRate_refill : (l.refill key now).refillRate = l.refillRate := by
  cases h : l.tokens key <;> simp [refill, h, setTokens, setLastRefill]

@[simp] theorem capacity_refill : (l.refill key now).capacity = l.capacity := by
  cases h : l.tokens key <;> simp [refill, h, setTokens, setLastRefill]

theorem bucket_refill_of_ne {key' : String} (hne : key' ≠ key) :
    (l.refill key now).bucket key' = l.bucket key' := by
  cases h : l.tokens key <;> simp [refill, h, bucket, setTokens, setLastRefill, hne]

/-- **`consume` is a request to the bucket of its key**… -/
theorem consume_eq_take :
    (l.consume key tokens now).1 =
        (Bucket.take l.capacity l.refillRate (l.bucket key) ⟨tokens, now⟩).1 ∧
      (l.consume key tokens now).2.bucket key =
        some (Bucket.take l.capacity l.refillRate (l.bucket key) ⟨tokens, now⟩).2 := by
  have htokens := tokens_refill_self l key now
  have hlast := lastRefill_refill_self l key now
  simp only [consume, Bucket.take, htokens, Option.getD_some, ge_iff_le, refillRate_refill]
  split_ifs with h
  · exact ⟨rfl, by simp [bucket, setTokens, hlast]⟩
  · exact ⟨rfl, by simp [bucket, htokens, hlast]⟩

/-- …and leaves every other bucket alone. -/
theorem bucket_consume_of_ne {key' : String} (hne : key' ≠ key) :
    (l.consume key tokens now).2.bucket key' = l.bucket key' := by
  have hrefill := bucket_refill_of_ne l key now hne
  simp only [consume]
  split_ifs with h
  · rw [← hrefill]
    simp [bucket, setTokens, hne]
  · exact hrefill

theorem config_consume :
    (l.consume key tokens now).2.capacity = l.capacity ∧
      (l.consume key tokens now).2.refillRate = l.refillRate := by
  simp only [consume]
  split_ifs with h <;> simp [setTokens]

end RateLimiter

/-! ## Sequences of calls -/

/-- A call of `consume`. -/
structure ConsumeCall where
  key : String
  tokens : ℚ
  now : ℚ

/-- The limiter as a machine that answers calls. -/
def limiter : Machine RateLimiter ConsumeCall (ConsumeCall × Bool × ℚ) where
  step l c := some ((l.consume c.key c.tokens c.now).2, [(c, (l.consume c.key c.tokens c.now).1)])

/-- The tokens granted to a key by a list of answers. -/
def grantedTo (key : String) (os : List (ConsumeCall × Bool × ℚ)) : ℚ :=
  ((os.filter fun a => a.1.key = key).map fun a => if a.2.1 then a.1.tokens else 0).sum

/-- The answers given to a key. -/
def answersTo (key : String) (os : List (ConsumeCall × Bool × ℚ)) : List (Bool × ℚ) :=
  (os.filter fun a => a.1.key = key).map Prod.snd

namespace RateLimiter

/-- A call as a request to the bucket of `key`, if it is one. -/
def toTake (key : String) (c : ConsumeCall) : Option (Take ℚ) :=
  if c.key = key then some ⟨c.tokens, c.now⟩ else none

/-- An answer as one of the bucket of `key`, if it is one. -/
def toTaken (key : String) (a : ConsumeCall × Bool × ℚ) : Option (Take ℚ × Bool × ℚ) :=
  if a.1.key = key then some (⟨a.1.tokens, a.1.now⟩, a.2) else none

theorem granted_toTaken (key : String) (os : List (ConsumeCall × Bool × ℚ)) :
    Bucket.granted (os.filterMap (toTaken key)) = grantedTo key os := by
  induction os with
  | nil => rfl
  | cons a os ih =>
    by_cases h : a.1.key = key <;>
      simp_all [toTaken, grantedTo, Bucket.granted, Bucket.grant]

theorem map_snd_toTaken (key : String) (os : List (ConsumeCall × Bool × ℚ)) :
    (os.filterMap (toTaken key)).map Prod.snd = answersTo key os := by
  induction os with
  | nil => rfl
  | cons a os ih =>
    by_cases h : a.1.key = key <;> simp_all [toTaken, answersTo]

/-- **The calls on a key are the run of its bucket.** -/
theorem run_bucket {l l' : RateLimiter} (key : String) {calls : List ConsumeCall}
    {os : List (ConsumeCall × Bool × ℚ)} (hrun : limiter.run l calls = some (l', os)) :
    (Bucket.machine l.capacity l.refillRate).run (l.bucket key) (calls.filterMap (toTake key)) =
      some (l'.bucket key, os.filterMap (toTaken key)) := by
  refine Machine.run_project (fun s => s.bucket key) (toTake key) (toTaken key)
    (I := fun s => s.capacity = l.capacity ∧ s.refillRate = l.refillRate)
    (fun s c s' o hs hstep => ?_) (fun s c q s' o hs hq hstep => ?_)
    (fun s c s' o hq hstep => ?_) ⟨rfl, rfl⟩ hrun
  · obtain ⟨rfl, -⟩ := Prod.mk.inj (Option.some.inj hstep)
    obtain ⟨hcapacity, hrate⟩ := config_consume s c.key c.tokens c.now
    exact ⟨hcapacity.trans hs.1, hrate.trans hs.2⟩
  · obtain ⟨rfl, rfl⟩ := Prod.mk.inj (Option.some.inj hstep)
    obtain ⟨rfl, hq'⟩ := Option.ite_none_right_eq_some.mp hq
    obtain rfl := Option.some.inj hq'
    obtain ⟨hanswer, hbucket⟩ := consume_eq_take s c.key c.tokens c.now
    simp [Bucket.machine, toTaken, hanswer, hbucket, hs.1, hs.2]
  · obtain ⟨rfl, rfl⟩ := Prod.mk.inj (Option.some.inj hstep)
    have hne : c.key ≠ key := fun h => by simp [toTake, h] at hq
    exact ⟨bucket_consume_of_ne s c.key c.tokens c.now hne.symm, by simp [toTaken, hne]⟩

theorem limiter_echo (l : RateLimiter) (c : ConsumeCall) (l' : RateLimiter)
    (o : List (ConsumeCall × Bool × ℚ)) (h : limiter.step l c = some (l', o)) :
    o.map Prod.fst = [c] := by
  obtain ⟨-, rfl⟩ := Prod.mk.inj (Option.some.inj h)
  rfl

theorem config_run {l l' : RateLimiter} {calls : List ConsumeCall}
    {os : List (ConsumeCall × Bool × ℚ)} (hrun : limiter.run l calls = some (l', os)) :
    l'.capacity = l.capacity ∧ l'.refillRate = l.refillRate := by
  refine limiter.run_invariant
    (I := fun s _ => s.capacity = l.capacity ∧ s.refillRate = l.refillRate)
    (fun s _ c s' o hs hstep => ?_) ⟨rfl, rfl⟩ hrun
  obtain ⟨rfl, -⟩ := Prod.mk.inj (Option.some.inj hstep)
  obtain ⟨hcapacity, hrate⟩ := config_consume s c.key c.tokens c.now
  exact ⟨hcapacity.trans hs.1, hrate.trans hs.2⟩

/-- The limiter answers every sequence of calls. -/
theorem exists_run (l : RateLimiter) (calls : List ConsumeCall) :
    ∃ l' os, limiter.run l calls = some (l', os) := by
  induction calls generalizing l with
  | nil => exact ⟨l, [], rfl⟩
  | cons c calls ih =>
    obtain ⟨l', os, hrun⟩ := ih (l.consume c.key c.tokens c.now).2
    exact ⟨l', _, limiter.run_cons rfl hrun⟩

section Calls

variable {C r : ℚ} {calls : List ConsumeCall} {l : RateLimiter}
variable {os : List (ConsumeCall × Bool × ℚ)}

/-- The requests to one bucket come in the order of time. -/
theorem along_toTake (key : String) (htokens : ∀ c ∈ calls, 0 ≤ c.tokens)
    (hclock : calls.Pairwise fun c c' => c.now ≤ c'.now) :
    (Bucket.machine C r).Along Bucket.Clocked none (calls.filterMap (toTake key)) := by
  have htake : ∀ {c q}, toTake key c = some q → q = ⟨c.tokens, c.now⟩ := fun h =>
    (Option.some.inj (Option.ite_none_right_eq_some.mp h).2).symm
  refine Bucket.along_clocked (fun q hq => ?_) ?_ fun x hx => absurd hx (Option.not_mem_none _)
  · obtain ⟨c, hc, hq⟩ := List.mem_filterMap.mp hq
    exact htake hq ▸ htokens c hc
  · refine List.pairwise_filterMap.mpr (hclock.imp fun {c c'} hle q hq q' hq' => ?_)
    rw [htake hq, htake hq']
    exact hle

/-- The answers of a window on a key are a window of its bucket. -/
theorem head_toTaken {key : String} {win : List (ConsumeCall × Bool × ℚ)}
    {x : ConsumeCall × Bool × ℚ} (hx : x.1.key = key) (hhead : win.head? = some x) :
    (win.filterMap (toTaken key)).head? = some (⟨x.1.tokens, x.1.now⟩, x.2) := by
  obtain ⟨win', rfl⟩ := List.head?_eq_some_iff.mp hhead
  simp [toTaken, hx]

theorem getLast_toTaken {key : String} {win : List (ConsumeCall × Bool × ℚ)}
    {y : ConsumeCall × Bool × ℚ} (hy : y.1.key = key) (hlast : win.getLast? = some y) :
    (win.filterMap (toTaken key)).getLast? = some (⟨y.1.tokens, y.1.now⟩, y.2) := by
  obtain ⟨win', rfl⟩ := List.getLast?_eq_some_iff.mp hlast
  simp [toTaken, hy]

/-- A new limiter's calls on a key are the run of a new bucket. -/
theorem run_bucket_new (key : String) (hrun : limiter.run (new C r) calls = some (l, os)) :
    (Bucket.machine C r).run none (calls.filterMap (toTake key)) =
      some (l.bucket key, os.filterMap (toTaken key)) := by
  simpa only [new, bucket, Option.map_none] using run_bucket key hrun

/-- **Bound and isolation**: after any calls in the order of time, the tokens of every key lie
between zero and the capacity; between two calls on a key no more is granted to it than the capacity
and the refill of the time between them; and its answers are those it would have got alone. -/
theorem bounded_and_isolated (hC : 1 ≤ C) (hr : 0 < r) (htokens : ∀ c ∈ calls, 0 ≤ c.tokens)
    (hclock : calls.Pairwise fun c c' => c.now ≤ c'.now)
    (hrun : limiter.run (new C r) calls = some (l, os)) :
    (∀ key t, l.tokens key = some t → 0 ≤ t ∧ t ≤ C) ∧
      (∀ key pre win post x y, os = pre ++ win ++ post → win.head? = some x →
        win.getLast? = some y → x.1.key = key → y.1.key = key →
        grantedTo key win ≤ C + r * (y.1.now - x.1.now)) ∧
      ∀ key, ∃ l' os', limiter.run (new C r) (calls.filter fun c => c.key = key) = some (l', os') ∧
        os'.map Prod.snd = answersTo key os := by
  have hC₀ : 0 ≤ C := zero_le_one.trans hC
  have hG := fun key => along_toTake (C := C) (r := r) key htokens hclock
  have hbucket := fun key => run_bucket_new key hrun
  refine ⟨fun key t ht => ?_, ?_, fun key => ?_⟩
  · have hfilled := Bucket.level_mem hC₀ hr.le (fun _ hx => absurd hx (Option.not_mem_none _))
      (hG key) (hbucket key)
    exact hfilled ⟨t, (l.lastRefill key).getD 0⟩ (by simp [bucket, ht])
  · rintro key pre win post x y rfl hhead hlast hx hy
    have hkey := hbucket key
    rw [List.filterMap_append, List.filterMap_append] at hkey
    rw [← granted_toTaken]
    have hhead' := head_toTaken hx hhead
    have hlast' := getLast_toTaken hy hlast
    have hwindow := Bucket.granted_window_le hC₀ hr.le (hG key) hkey hhead' hlast'
    exact hwindow
  · obtain ⟨l', os', hrun'⟩ := exists_run (new C r) (calls.filter fun c => c.key = key)
    refine ⟨l', os', hrun', ?_⟩
    have hsame : (calls.filter fun c => c.key = key).filterMap (toTake key) =
        calls.filterMap (toTake key) := by
      rw [List.filterMap_filter]
      refine List.filterMap_congr fun c _ => ?_
      by_cases h : c.key = key <;> simp [toTake, h]
    have hmine : ∀ a ∈ os', a.1.key = key := fun a ha => by
      have hmem := List.mem_map_of_mem (f := Prod.fst) ha
      rw [Machine.run_echo limiter_echo hrun'] at hmem
      simpa using (List.mem_filter.mp hmem).2
    have hbucket' := run_bucket_new key hrun'
    rw [hsame] at hbucket'
    obtain ⟨-, hos⟩ := Prod.mk.inj (Option.some.inj ((hbucket key).symm.trans hbucket'))
    have hall : os'.filter (fun a => a.1.key = key) = os' :=
      List.filter_eq_self.mpr (by simpa using hmine)
    rw [← map_snd_toTaken, hos, map_snd_toTaken, answersTo, hall]

end Calls

/-- Two keys and three calls; the second one on `"a"` finds its bucket half full. -/
def threeCalls : List ConsumeCall := [⟨"a", 1, 0⟩, ⟨"b", 1, 0⟩, ⟨"a", 1, 1 / 2⟩]

theorem bounded_and_isolated_threeCalls :
    ∃ l os, limiter.run (new 1 1) threeCalls = some (l, os) ∧
      ∀ key t, l.tokens key = some t → 0 ≤ t ∧ t ≤ 1 := by
  obtain ⟨l, os, hrun⟩ := exists_run (new 1 1) threeCalls
  have hall := bounded_and_isolated (le_refl 1) one_pos (by simp [threeCalls])
    (by simp [threeCalls]) hrun
  exact ⟨l, os, hrun, hall.1⟩

end RateLimiter

end BioShield
