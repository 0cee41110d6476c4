import BioShield.Machinery.Machine
import Mathlib

/-!
# Machinery/TokenBucket — a bucket that refills with time

A bucket of capacity `C` gains `r` tokens per unit of time and never holds more than `C`.  Its level
stays between `0` and `C` (`level_mem`), and what it grants within a window is bounded by what it
can hold and what comes in (`granted_window_le`); the reason is a potential, what was granted plus
what is left, that grows no faster than time.
-/

namespace Machinery

/-- The state of a bucket: what it held when it was last refilled. -/
structure Bucket (K : Type*) where
  level : K
  refilledAt : K

/-- A request for an amount at a time. -/
structure Take (K : Type*) where
  amount : K
  now : K

namespace Bucket

variable {K : Type*} [Field K] [LinearOrder K] (C r : K)

/-- What the bucket holds at a time; a new one is full. -/
def refill : Option (Bucket K) → K → K
  | none, _ => C
  | some b, now => min C (b.level + (now - b.refilledAt) * r)

/-- A request is granted if it fits; if not, the answer is the time until it would. -/
def take (b : Option (Bucket K)) (q : Take K) : (Bool × K) × Bucket K :=
  let level := refill C r b q.now
  if q.amount ≤ level then ((true, 0), ⟨level - q.amount, q.now⟩)
  else ((false, (q.amount - level) / r), ⟨level, q.now⟩)

/-- A bucket as a machine that answers requests. -/
def machine : Machine (Option (Bucket K)) (Take K) (Take K × Bool × K) where
  step b q := some (some (take C r b q).2, [(q, (take C r b q).1)])

/-- The amount an answer grants. -/
def grant (a : Take K × Bool × K) : K := if a.2.1 then a.1.amount else 0

/-- The amount a list of answers grants. -/
def granted (os : List (Take K × Bool × K)) : K := (os.map grant).sum

variable {C r}

theorem machine_echo (b : Option (Bucket K)) (q : Take K) (b' : Option (Bucket K))
    (o : List (Take K × Bool × K)) (h : (machine C r).step b q = some (b', o)) :
    o.map Prod.fst = [q] := by
  obtain ⟨-, rfl⟩ := Prod.mk.inj (Option.some.inj h)
  rfl

@[simp] theorem refilledAt_take (b : Option (Bucket K)) (q : Take K) :
    (take C r b q).2.refilledAt = q.now := by
  simp only [take]
  split_ifs <;> rfl

/-- **What a request is granted, plus what is left, is what was there.** -/
theorem grant_add_level (b : Option (Bucket K)) (q : Take K) :
    grant (q, (take C r b q).1) + (take C r b q).2.level = refill C r b q.now := by
  by_cases h : q.amount ≤ refill C r b q.now
  · simp [take, grant, h]
  · simp [take, grant, h]

theorem refill_le (b : Option (Bucket K)) (now : K) : refill C r b now ≤ C := by
  cases b with
  | none => exact le_rfl
  | some b => exact min_le_left _ _

/-! ## Clocked requests -/

/-- The request is for no negative amount, and not from before the last refill. -/
def Clocked (b : Option (Bucket K)) (q : Take K) : Prop :=
  0 ≤ q.amount ∧ ∀ x ∈ b, x.refilledAt ≤ q.now

/-- Requests in the order of time are clocked. -/
theorem along_clocked {b : Option (Bucket K)} {qs : List (Take K)}
    (hamount : ∀ q ∈ qs, 0 ≤ q.amount) (hclock : qs.Pairwise fun q q' => q.now ≤ q'.now)
    (hb : ∀ x ∈ b, ∀ q ∈ qs, x.refilledAt ≤ q.now) : (machine C r).Along Clocked b qs := by
  induction qs generalizing b with
  | nil => trivial
  | cons q qs ih =>
    obtain ⟨hq, hqs⟩ := List.pairwise_cons.mp hclock
    refine (machine C r).along_cons rfl
      ⟨hamount q List.mem_cons_self, fun x hx => hb x hx q List.mem_cons_self⟩ ?_
    refine ih (fun q' hq' => hamount q' (List.mem_cons_of_mem _ hq')) hqs fun x hx q' hq' => ?_
    obtain rfl := Option.some.inj hx
    rw [refilledAt_take]
    exact hq q' hq'

/-- The bucket was last refilled by the last request. -/
theorem refilledAt_of_getLast {b b' : Option (Bucket K)} {qs : List (Take K)}
    {os : List (Take K × Bool × K)} (hrun : (machine C r).run b qs = some (b', os)) :
    ∀ y, os.getLast? = some y → ∃ x, b' = some x ∧ x.refilledAt = y.1.now := by
  refine (machine C r).run_invariant
    (I := fun b os => ∀ y, os.getLast? = some y → ∃ x, b = some x ∧ x.refilledAt = y.1.now)
    (fun b os q b' o _ hs y hy => ?_) (fun y hy => nomatch hy) hrun
  obtain ⟨rfl, rfl⟩ := Prod.mk.inj (Option.some.inj hs)
  rw [List.getLast?_concat] at hy
  obtain rfl := Option.some.inj hy
  exact ⟨_, rfl, refilledAt_take b q⟩

section Bounds

variable [IsStrictOrderedRing K]

/-- The bucket holds no less than nothing and no more than its capacity. -/
def Filled (C : K) (b : Option (Bucket K)) : Prop := ∀ x ∈ b, 0 ≤ x.level ∧ x.level ≤ C

theorem refill_nonneg (hC : 0 ≤ C) (hr : 0 ≤ r) {b : Option (Bucket K)} {q : Take K}
    (hb : Filled C b) (hq : Clocked b q) : 0 ≤ refill C r b q.now := by
  cases b with
  | none => exact hC
  | some b =>
    have hlevel := (hb b rfl).1
    have hgain := mul_nonneg (sub_nonneg.mpr (hq.2 b rfl)) hr
    exact le_min hC (add_nonneg hlevel hgain)

theorem filled_take (hC : 0 ≤ C) (hr : 0 ≤ r) {b : Option (Bucket K)} {q : Take K}
    (hb : Filled C b) (hq : Clocked b q) : Filled C (some (take C r b q).2) := by
  intro x hx
  obtain rfl := Option.some.inj hx
  have hnonneg := refill_nonneg hC hr hb hq
  have hle := refill_le (C := C) (r := r) b q.now
  simp only [take]
  split_ifs with h
  · exact ⟨sub_nonneg.mpr h, (sub_le_self _ hq.1).trans hle⟩
  · exact ⟨hnonneg, hle⟩

/-- **The level stays between nothing and the capacity.** -/
theorem level_mem (hC : 0 ≤ C) (hr : 0 ≤ r) {b b' : Option (Bucket K)} {qs : List (Take K)}
    {os : List (Take K × Bool × K)} (hb : Filled C b) (hG : (machine C r).Along Clocked b qs)
    (hrun : (machine C r).run b qs = some (b', os)) : Filled C b' := by
  refine (machine C r).run_invariant_along (I := fun b _ => Filled C b)
    (fun b _ q b' o hb hq hs => ?_) hb hG hrun
  obtain ⟨rfl, -⟩ := Prod.mk.inj (Option.some.inj hs)
  exact filled_take hC hr hb hq

/-- **The potential**: from a bucket on, what is granted plus what is left exceeds what was there
by at most what time brought in. -/
theorem granted_add_level_le {x : Bucket K} {b' : Option (Bucket K)}
    {qs : List (Take K)} {os : List (Take K × Bool × K)}
    (hrun : (machine C r).run (some x) qs = some (b', os)) :
    ∃ x', b' = some x' ∧
      granted os + x'.level ≤ x.level + r * (x'.refilledAt - x.refilledAt) := by
  refine (machine C r).run_invariant
    (I := fun b os => ∃ x', b = some x' ∧
      granted os + x'.level ≤ x.level + r * (x'.refilledAt - x.refilledAt))
    (fun b os q b' o hI hs => ?_) ⟨x, rfl, by simp [granted]⟩ hrun
  obtain ⟨x₁, rfl, hle⟩ := hI
  obtain ⟨rfl, rfl⟩ := Prod.mk.inj (Option.some.inj hs)
  refine ⟨_, rfl, ?_⟩
  have hstep : grant (q, (take C r (some x₁) q).1) + (take C r (some x₁) q).2.level ≤
      x₁.level + (q.now - x₁.refilledAt) * r := by
    rw [grant_add_level]
    exact min_le_right _ _
  have hsplit : granted (os ++ [(q, (take C r (some x₁) q).1)]) =
      granted os + grant (q, (take C r (some x₁) q).1) := by
    simp [granted]
  rw [hsplit, refilledAt_take]
  linarith

/-- **The window bound**: between two requests, both included, no more is granted than the capacity
and what comes in from the first to the second. -/
theorem granted_window_le (hC : 0 ≤ C) (hr : 0 ≤ r) {qs : List (Take K)}
    (hG : (machine C r).Along Clocked none qs) {b : Option (Bucket K)}
    {pre win post : List (Take K × Bool × K)}
    (hrun : (machine C r).run none qs = some (b, pre ++ win ++ post)) {x y : Take K × Bool × K}
    (hhead : win.head? = some x) (hlast : win.getLast? = some y) :
    granted win ≤ C + r * (y.1.now - x.1.now) := by
  obtain ⟨b₂, hprewin, -⟩ := Machine.run_split machine_echo hrun
  obtain ⟨b₁, hpre, hwin⟩ := Machine.run_split machine_echo hprewin
  obtain rfl : qs = pre.map Prod.fst ++ (win.map Prod.fst ++ post.map Prod.fst) := by
    simp [← Machine.run_echo machine_echo hrun]
  obtain ⟨hGpre, hGrest⟩ := ((machine C r).along_append_iff hpre).mp hG
  have hGwin := (((machine C r).along_append_iff hwin).mp hGrest).1
  have hfilled₁ : Filled C b₁ :=
    level_mem hC hr (fun _ hx => absurd hx (Option.not_mem_none _)) hGpre hpre
  have hfilled₂ : Filled C b₂ := level_mem hC hr hfilled₁ hGwin hwin
  obtain ⟨x₂, rfl, hx₂⟩ := refilledAt_of_getLast hwin y hlast
  -- the first request of the window leaves a bucket, the others draw on it
  obtain ⟨win', rfl⟩ : ∃ win', win = x :: win' := List.head?_eq_some_iff.mp hhead
  obtain ⟨s, o, o', hs, hrest, happ⟩ := (machine C r).run_cons_iff.mp hwin
  obtain ⟨rfl, rfl⟩ := Prod.mk.inj (Option.some.inj hs)
  obtain ⟨hx, rfl⟩ := List.cons.inj happ
  obtain ⟨x₂', hx₂', hpotential⟩ := granted_add_level_le hrest
  obtain rfl := Option.some.inj hx₂'
  have hfirst : grant x + (take C r b₁ x.1).2.level ≤ C := by
    rw [hx]
    exact (grant_add_level b₁ x.1).trans_le (refill_le b₁ x.1.now)
  have hsplit : granted (x :: win') = grant x + granted win' := by
    simp [granted]
  have hlevel := (hfilled₂ x₂ rfl).1
  rw [refilledAt_take, hx₂] at hpotential
  linarith

/-- **One request on any clock**: it leaves the bucket filled, and reports no wait beyond the time
its amount takes to come in, if and only if the refill before it is not below zero. -/
theorem filled_take_iff (hr : 0 < r) {b : Option (Bucket K)} {q : Take K} (hq : 0 ≤ q.amount) :
    (Filled C (some (take C r b q).2) ∧
      ((take C r b q).1.1 = false → 0 < (take C r b q).1.2 ∧ (take C r b q).1.2 ≤ q.amount / r)) ↔
      0 ≤ refill C r b q.now := by
  have hle := refill_le (C := C) (r := r) b q.now
  have hfilled : ∀ x : Bucket K, Filled C (some x) ↔ 0 ≤ x.level ∧ x.level ≤ C := fun x =>
    ⟨fun h => h x rfl, fun h y hy => Option.some.inj hy ▸ h⟩
  rw [hfilled, take]
  split_ifs with hgrant
  · refine iff_of_true ⟨⟨sub_nonneg.mpr hgrant, ?_⟩, fun h => absurd h (by simp)⟩ (hq.trans hgrant)
    exact (sub_le_self _ hq).trans hle
  · refine ⟨fun h => h.1.1, fun hnonneg => ⟨⟨hnonneg, hle⟩, fun _ => ⟨?_, ?_⟩⟩⟩
    · exact div_pos (sub_pos.mpr (not_le.mp hgrant)) hr
    · exact div_le_div_of_nonneg_right (sub_le_self _ hnonneg) hr.le

/-! ## Requests that get nothing -/

/-- **Refilling in pieces is refilling at once**: a request that gets nothing does not change what
the bucket will hold later… -/
theorem refill_take (hr : 0 ≤ r) {x : Bucket K} {q : Take K} {now : K} (hnow : q.now ≤ now)
    (hnone : grant (q, (take C r (some x) q).1) = 0) :
    refill C r (some (take C r (some x) q).2) now = refill C r (some x) now := by
  have hlevel : (take C r (some x) q).2.level = min C (x.level + (q.now - x.refilledAt) * r) := by
    have hsum := grant_add_level (C := C) (r := r) (some x) q
    rwa [hnone, zero_add] at hsum
  have hgain : 0 ≤ (now - q.now) * r := mul_nonneg (sub_nonneg.mpr hnow) hr
  calc min C ((take C r (some x) q).2.level + (now - (take C r (some x) q).2.refilledAt) * r)
      = min C (min C (x.level + (q.now - x.refilledAt) * r) + (now - q.now) * r) := by
        rw [hlevel, refilledAt_take]
    _ = min C (min (C + (now - q.now) * r)
          (x.level + (q.now - x.refilledAt) * r + (now - q.now) * r)) := by
        rw [min_add_add_right]
    _ = min C (x.level + (q.now - x.refilledAt) * r + (now - q.now) * r) := by
        rw [← min_assoc, min_eq_left (le_add_of_nonneg_right hgain)]
    _ = min C (x.level + (now - x.refilledAt) * r) := by
        congr 1
        ring

/-- …nor do any number of them. -/
theorem refill_run (hr : 0 ≤ r) {x : Bucket K} {b : Option (Bucket K)} {qs : List (Take K)}
    {os : List (Take K × Bool × K)} {now : K} (hnow : ∀ q ∈ qs, q.now ≤ now)
    (hrun : (machine C r).run (some x) qs = some (b, os)) (hnone : ∀ a ∈ os, grant a = 0) :
    refill C r b now = refill C r (some x) now := by
  induction qs generalizing x os with
  | nil =>
    obtain ⟨rfl, -⟩ := Prod.mk.inj (Option.some.inj hrun)
    rfl
  | cons q qs ih =>
    obtain ⟨b₁, o, o', hs, hrest, rfl⟩ := (machine C r).run_cons_iff.mp hrun
    obtain ⟨rfl, rfl⟩ := Prod.mk.inj (Option.some.inj hs)
    obtain ⟨hq, hqs⟩ := List.forall_mem_cons.mp hnow
    rw [ih hqs hrest fun a ha => hnone a (List.mem_append_right _ ha)]
    exact refill_take hr hq (hnone _ (List.mem_append_left _ (List.mem_singleton.mpr rfl)))

/-- **The wait that a refusal reports is exact**: the amount is there from that time on and not
before. -/
theorem amount_le_refill_iff (hr : 0 < r) {b : Option (Bucket K)} {q : Take K} {w now : K}
    (hfits : q.amount ≤ C) (hrefused : (take C r b q).1 = (false, w)) :
    0 < w ∧ (q.amount ≤ refill C r (some (take C r b q).2) now ↔ q.now + w ≤ now) := by
  simp only [take] at hrefused ⊢
  split_ifs at hrefused ⊢ with hgrant
  · exact absurd hrefused (by simp)
  · obtain rfl : (q.amount - refill C r b q.now) / r = w := (Prod.mk.inj hrefused).2
    refine ⟨div_pos (sub_pos.mpr (not_le.mp hgrant)) hr, ?_⟩
    rw [refill, le_min_iff, and_iff_right hfits, ← le_sub_iff_add_le', ← sub_le_iff_le_add',
      div_le_iff₀ hr]

end Bounds

end Bucket

end Machinery
