import BioShield.Api.RateLimiter

/-!
# Api/WaitTime — what a refused call reports, and what a clock that steps back does to it

The `wait_time` of a refusal is exact (`waitTime_exact`): whatever is refused to the key meanwhile,
the same request is granted from then on and not before.  The refill has no lower bound, though: a
clock that steps back further than the tokens left would take to refill leaves the bucket in debt,
and the wait it then reports is longer than any bucket takes to gain a token (`stepping_clock_iff`).
-/

namespace BioShield

open Machinery

namespace RateLimiter

/-! ## The wait -/

/-- An answer that takes no tokens of the key is one of its bucket that grants nothing. -/
theorem grant_toTaken {key : String} {os : List (ConsumeCall × Bool × ℚ)}
    (hnone : ∀ a ∈ os, a.1.key = key → a.2.1 → a.1.tokens = 0) :
    ∀ a ∈ os.filterMap (toTaken key), Bucket.grant a = 0 := by
  intro b hb
  obtain ⟨a, ha, hab⟩ := List.mem_filterMap.mp hb
  obtain ⟨hkey, heq⟩ := Option.ite_none_right_eq_some.mp hab
  obtain rfl := Option.some.inj heq
  by_cases hgranted : a.2.1
  · simpa [Bucket.grant, hgranted] using hnone a ha hkey hgranted
  · simp [Bucket.grant, hgranted]

/-- The call is granted if the bucket of its key holds that much. -/
theorem granted_iff (l : RateLimiter) (key : String) (tokens now : ℚ) :
    (l.consume key tokens now).1.1 = true ↔
      tokens ≤ Bucket.refill l.capacity l.refillRate (l.bucket key) now := by
  rw [(consume_eq_take l key tokens now).1, Bucket.take]
  split_ifs with h <;> simp [h]

/-- A request that was refused is granted, once its bucket has been left to refill, if and only if
the wait is over. -/
theorem granted_iff_of_refused {l l₁ l₂ : RateLimiter} {key : String} {tokens t t' wait : ℚ}
    (hr : 0 < l.refillRate) (hfits : tokens ≤ l.capacity)
    (hrefused : l.consume key tokens t = ((false, wait), l₁))
    (hconfig : l₂.capacity = l₁.capacity ∧ l₂.refillRate = l₁.refillRate)
    (hrefill : Bucket.refill l₁.capacity l₁.refillRate (l₂.bucket key) t' =
      Bucket.refill l₁.capacity l₁.refillRate (l₁.bucket key) t') :
    0 < wait ∧ ((l₂.consume key tokens t').1.1 = true ↔ t + wait ≤ t') := by
  obtain ⟨hanswer, hbucket⟩ := consume_eq_take l key tokens t
  obtain ⟨hcapacity, hrate⟩ := config_consume l key tokens t
  simp only [hrefused] at hanswer hbucket hcapacity hrate
  rw [granted_iff, hconfig.1, hconfig.2, hrefill, hbucket, hcapacity, hrate]
  exact Bucket.amount_le_refill_iff (q := ⟨tokens, t⟩) hr hfits hanswer.symm

/-- **The wait is exact**: it is positive, and after any calls up to time `t'` none of which takes a
token of the key, the request that was refused at `t` is granted at `t'` if and only if the wait is
over. -/
theorem waitTime_exact {l l₁ l₂ : RateLimiter} {key : String} {tokens t t' wait : ℚ}
    {calls : List ConsumeCall} {os : List (ConsumeCall × Bool × ℚ)} (hr : 0 < l.refillRate)
    (hfits : tokens ≤ l.capacity) (hrefused : l.consume key tokens t = ((false, wait), l₁))
    (hclock : ∀ c ∈ calls, c.now ≤ t') (hrun : limiter.run l₁ calls = some (l₂, os))
    (hnone : ∀ a ∈ os, a.1.key = key → a.2.1 → a.1.tokens = 0) :
    0 < wait ∧ ((l₂.consume key tokens t').1.1 = true ↔ t + wait ≤ t') := by
  have hnow : ∀ q ∈ calls.filterMap (toTake key), q.now ≤ t' := by
    intro q hq
    obtain ⟨c, hc, hcq⟩ := List.mem_filterMap.mp hq
    obtain rfl := Option.some.inj (Option.ite_none_right_eq_some.mp hcq).2
    exact hclock c hc
  have hrate : 0 ≤ l₁.refillRate := by
    have hsame := (config_consume l key tokens t).2
    rw [hrefused] at hsame
    exact hsame ▸ hr.le
  have hbucket : ∃ x, l₁.bucket key = some x := by
    have hsome := (consume_eq_take l key tokens t).2
    rw [hrefused] at hsome
    exact ⟨_, hsome⟩
  obtain ⟨x, hx⟩ := hbucket
  have hrun' := run_bucket key hrun
  rw [hx] at hrun'
  have hrefill := Bucket.refill_run hrate hnow hrun' (grant_toTaken hnone)
  rw [← hx] at hrefill
  exact granted_iff_of_refused hr hfits hrefused (config_run hrun) hrefill

/-- A bucket of one token, emptied at time zero… -/
def emptied : RateLimiter := ((new 1 1).consume "a" 1 0).2

/-- …half full after half a second, asked again too early, and full after the second half. -/
theorem waitTime_exact_emptied :
    ∃ l₁ l₂ os, emptied.consume "a" 1 (1 / 2) = ((false, 1 / 2), l₁) ∧
      limiter.run l₁ [⟨"a", 1, 3 / 4⟩] = some (l₂, os) ∧
      ((l₂.consume "a" 1 1).1.1 = true ↔ (1 / 2 : ℚ) + 1 / 2 ≤ 1) := by
  have hrefused : (emptied.consume "a" 1 (1 / 2)).1 = (false, 1 / 2) := by
    norm_num [emptied, consume, refill, new, setTokens, setLastRefill]
  have hagain : ((emptied.consume "a" 1 (1 / 2)).2.consume "a" 1 (3 / 4)).1.1 = false := by
    norm_num [emptied, consume, refill, new, setTokens, setLastRefill]
  have hconfig : emptied.capacity = 1 ∧ emptied.refillRate = 1 := config_consume _ _ _ _
  have hclock : ∀ c ∈ [(⟨"a", 1, 3 / 4⟩ : ConsumeCall)], c.now ≤ 1 := by norm_num
  refine ⟨_, _, _, Prod.ext hrefused rfl, rfl, ?_⟩
  refine (waitTime_exact (hconfig.2 ▸ one_pos) hconfig.1.ge (Prod.ext hrefused rfl) hclock rfl
    fun a ha _ hgranted => ?_).2
  obtain rfl := List.mem_singleton.mp ha
  exact absurd (hagain.symm.trans hgranted) Bool.false_ne_true

/-! ## The clock -/

/-- Since the last refill of its key, the clock has stepped back by no more than the time that the
tokens left take to refill. -/
def ClockWithin (l : RateLimiter) (c : ConsumeCall) : Prop :=
  ∀ tokens, l.tokens c.key = some tokens →
    (l.lastRefill c.key).getD 0 - c.now ≤ tokens / l.refillRate

theorem clockWithin_iff {l : RateLimiter} {c : ConsumeCall} (hC : 0 ≤ l.capacity)
    (hr : 0 < l.refillRate) :
    l.ClockWithin c ↔ 0 ≤ Bucket.refill l.capacity l.refillRate (l.bucket c.key) c.now := by
  cases htokens : l.tokens c.key with
  | none => simp [ClockWithin, bucket, htokens, Bucket.refill, hC]
  | some tokens =>
    simp only [ClockWithin, bucket, htokens, Option.map_some, Option.some.injEq, forall_eq',
      Bucket.refill, le_min_iff, and_iff_right hC, le_div_iff₀ hr]
    constructor <;> intro h <;> linarith

/-- The tokens of every key are between nothing and the capacity. -/
def Filled (l : RateLimiter) : Prop :=
  ∀ key tokens, l.tokens key = some tokens → 0 ≤ tokens ∧ tokens ≤ l.capacity

/-- A refusal reports no longer than it takes to gain a token. -/
def WaitBounded (r : ℚ) (a : ConsumeCall × Bool × ℚ) : Prop :=
  a.2.1 = false → 0 < a.2.2 ∧ a.2.2 ≤ 1 / r

theorem filled_bucket_iff {l : RateLimiter} {key : String} :
    Bucket.Filled l.capacity (l.bucket key) ↔
      ∀ tokens, l.tokens key = some tokens → 0 ≤ tokens ∧ tokens ≤ l.capacity := by
  cases htokens : l.tokens key <;> simp [Bucket.Filled, bucket, htokens]

/-- **One call on any clock**: where the tokens were within bounds, they are after it, and so is the
wait it reports, if and only if the clock has not stepped back too far. -/
theorem filled_consume_iff {l : RateLimiter} {key : String} {now : ℚ} (hC : 0 ≤ l.capacity)
    (hr : 0 < l.refillRate) (hfilled : l.Filled) :
    ((l.consume key 1 now).2.Filled ∧
      WaitBounded l.refillRate (⟨key, 1, now⟩, (l.consume key 1 now).1)) ↔
      l.ClockWithin ⟨key, 1, now⟩ := by
  obtain ⟨hanswer, hbucket⟩ := consume_eq_take l key 1 now
  obtain ⟨hcapacity, -⟩ := config_consume l key 1 now
  rw [clockWithin_iff hC hr, ← Bucket.filled_take_iff (q := ⟨1, now⟩) hr zero_le_one, WaitBounded,
    hanswer, ← hbucket, ← hcapacity, filled_bucket_iff]
  refine and_congr_left' ⟨fun h => h key, fun h key' tokens htokens => ?_⟩
  by_cases hne : key' = key
  · exact h tokens (hne ▸ htokens)
  · have hsame := bucket_consume_of_ne l key 1 now hne
    have hkey' := filled_bucket_iff.mpr (hfilled key')
    rw [← hsame, ← hcapacity] at hkey'
    exact filled_bucket_iff.mp hkey' tokens htokens

/-- **A clock that steps back**: from a new limiter on, the tokens of every key stay between nothing
and the capacity, and no refusal reports more than the time a token takes, if and only if no call
comes on a clock that has stepped back further than the tokens left take to refill. -/
theorem stepping_clock_iff {C r : ℚ} {calls : List ConsumeCall} (hC : 1 ≤ C) (hr : 0 < r)
    (hone : ∀ c ∈ calls, c.tokens = 1) :
    (∀ pre post l os, calls = pre ++ post → limiter.run (new C r) pre = some (l, os) →
      (∀ key tokens, l.tokens key = some tokens → 0 ≤ tokens ∧ tokens ≤ C) ∧
        ∀ a ∈ os, a.2.1 = false → 0 < a.2.2 ∧ a.2.2 ≤ 1 / r) ↔
      limiter.Along ClockWithin (new C r) calls := by
  obtain ⟨l, os, hrun⟩ := exists_run (new C r) calls
  have hnew : ∀ key tokens, (new C r).tokens key = some tokens → 0 ≤ tokens ∧ tokens ≤ C :=
    fun key tokens h => absurd h (by simp [new])
  refine (limiter.forall_prefix_iff_along
    (P := fun l => ∀ key tokens, l.tokens key = some tokens → 0 ≤ tokens ∧ tokens ≤ C)
    (Q := WaitBounded r) hnew).trans ?_
  refine limiter.along_iff_of_keeps
    (I := fun l => l.capacity = C ∧ l.refillRate = r ∧
      ∀ key tokens, l.tokens key = some tokens → 0 ≤ tokens ∧ tokens ≤ C)
    (fun c _ l l' o hI hG hs => ?_) (fun c hc l l' o hI _ => ?_) ⟨rfl, rfl, hnew⟩ hrun
  · have hfilled := (hG l' o hs).1
    obtain ⟨rfl, -⟩ := Prod.mk.inj (Option.some.inj hs)
    obtain ⟨hcapacity, hrate⟩ := config_consume l c.key c.tokens c.now
    exact ⟨hcapacity.trans hI.1, hrate.trans hI.2.1, hfilled⟩
  · obtain ⟨rfl, rfl, hfilled⟩ := hI
    obtain ⟨key, tokens, now⟩ := c
    obtain rfl : tokens = 1 := hone _ hc
    rw [← filled_consume_iff (zero_le_one.trans hC) hr hfilled, Filled,
      (config_consume l key 1 now).1]
    simp only [limiter, Option.some.injEq, Prod.mk.injEq, and_imp, forall_apply_eq_imp_iff,
      forall_eq', List.forall_mem_singleton]

/-- A bucket emptied at time zero is asked on a clock that reads ten seconds less. -/
theorem not_forall_stepping_clock :
    ¬ ∀ (C r : ℚ) (calls : List ConsumeCall), 1 ≤ C → 0 < r → (∀ c ∈ calls, c.tokens = 1) →
      ∀ pre post l os, calls = pre ++ post → limiter.run (new C r) pre = some (l, os) →
        (∀ key tokens, l.tokens key = some tokens → 0 ≤ tokens ∧ tokens ≤ C) ∧
          ∀ a ∈ os, a.2.1 = false → 0 < a.2.2 ∧ a.2.2 ≤ 1 / r := by
  intro h
  have hdebt : ((emptied.consume "a" 1 (-10)).2).tokens "a" = some (-10) := by
    norm_num [emptied, consume, refill, new, setTokens, setLastRefill]
  have hfilled := (h 1 1 [⟨"a", 1, 0⟩, ⟨"a", 1, -10⟩] le_rfl one_pos (by simp) _ [] _ _
    (List.append_nil _).symm rfl).1 "a" (-10) hdebt
  exact absurd hfilled.1 (by norm_num)

/-- The clock steps back by half a second on a bucket with one of its two tokens left. -/
theorem stepping_clock_halfSecond :
    ∃ l os, limiter.run (new 2 1) [⟨"a", 1, 0⟩, ⟨"a", 1, -1 / 2⟩] = some (l, os) ∧
      (∀ key tokens, l.tokens key = some tokens → 0 ≤ tokens ∧ tokens ≤ 2) ∧
        ∀ a ∈ os, a.2.1 = false → 0 < a.2.2 ∧ a.2.2 ≤ 1 / 1 := by
  have hclock : limiter.Along ClockWithin (new 2 1) [⟨"a", 1, 0⟩, ⟨"a", 1, -1 / 2⟩] := by
    refine limiter.along_cons rfl (fun tokens h => absurd h (by simp [new])) ?_
    refine limiter.along_cons rfl (fun tokens h => ?_) (limiter.along_nil _ _)
    norm_num [consume, refill, new, setTokens, setLastRefill] at h ⊢
    linarith
  exact ⟨_, _, rfl, (stepping_clock_iff one_le_two one_pos (by simp)).mpr hclock _ [] _ _
    (List.append_nil _).symm rfl⟩

end RateLimiter

end BioShield
