import BioShield.Api.PaypalCredits

/-!
# Api/PaypalInterleaved — the payment handlers in several workers

Any number of capture and webhook runs, interleaved at their calls.  A capture run pays for its
credit with PayPal's `COMPLETED` (`affords_handler`); a webhook run has nothing to pay with, so it
must not credit — which it does as soon as another worker moves the order off `COMPLETED` between
the webhook's write and its read-back.
-/

namespace BioShield

open Machinery

namespace Paypal

/-- The state of all workers. -/
abbrev Workers : Type := Pool World Request Call Resp Response

/-- The workers as a machine. -/
abbrev workers : Machine Workers (Sched Request Answer) (Done Request Call Resp) :=
  pool handler answer

/-- The order a request is about. -/
def Request.orderId : Request → Option String
  | .capture orderId _ => some orderId
  | .webhook event _ => event.truthyOrderId

/-- PayPal reports the order's capture complete. -/
def reportsCompleted (orderId : String) (_ : Request) : (c : Call) → Resp c → ℕ
  | .captureOrder orderId', .ok result =>
      if orderId' = orderId ∧ result.status = .completed then 1 else 0
  | _, _ => 0

/-- A run for the order calls `add_credits`. -/
def credits (orderId : String) (q : Request) : (c : Call) → Resp c → ℕ
  | .addCredits _ _ _, _ => if q.orderId = some orderId then 1 else 0
  | _, _ => 0

/-- A webhook run for the order that reads it back as denied or refunded, and credits it. -/
def CreditsRevoked (orderId : String) (p : Process Request Call Resp Response) : Prop :=
  (∃ event now, p.request = .webhook event now ∧ event.truthyOrderId = some orderId) ∧
    (∃ o : PaymentOrder, (⟨.getPaymentOrder orderId, .ok (some o)⟩ : Reply Call Resp) ∈ p.history ∧
      (o.status = .denied ∨ o.status = .refunded)) ∧
    ∃ a ∈ p.history, IsCredit a

/-- The order was credited at most once, and by no webhook that saw it denied or refunded. -/
def CreditedOnce (orderId : String) (s : Workers) (os : List (Done Request Call Resp)) : Prop :=
  total (credits orderId) os ≤ 1 ∧ ∀ p ∈ s.runs, ¬ CreditsRevoked orderId p

/-! ## Reading back undisturbed -/

/-- Read back by a webhook run, this row makes it go on without crediting. -/
def Settled (o : PaymentOrder) : Prop := o.status = .completed ∨ o.truthyClientId = none

/-- If the step is a webhook run's read-back of the order, and it returns, then the row stored at
that moment is settled. -/
def Undisturbed (orderId : String) (s : Workers) : Sched Request Answer → Prop
  | .start _ => True
  | .advance i x => ∀ event now hist k,
      s.runs[i]? = some ⟨.webhook event now, hist, .call (.getPaymentOrder orderId) k⟩ →
      x.outcome = .returns →
      ∀ o, s.world.orders.getPaymentOrder orderId = some o → Settled o

/-- An answer an undisturbed webhook run may get. -/
def Expected (orderId : String) : Request → (c : Call) → Resp c → Prop
  | .webhook _ _, .getPaymentOrder orderId', .ok (some o) => orderId' = orderId → Settled o
  | _, _, _ => True

theorem expected_of_undisturbed {orderId : String} {w : World} {s : Workers}
    {es : List (Sched Request Answer)} {os : List (Done Request Call Resp)}
    (hrun : workers.run ⟨w, []⟩ es = some (s, os))
    (hG : workers.Along (Undisturbed orderId) ⟨w, []⟩ es) :
    ∀ d ∈ os, Expected orderId d.request d.call d.answer := by
  refine workers.run_invariant_along
    (I := fun _ os => ∀ d ∈ os, Expected orderId d.request d.call d.answer)
    (fun s os e s' o hI hG hs d hd => ?_) (fun _ hd => absurd hd List.not_mem_nil) hG hrun
  rcases List.mem_append.mp hd with hd | hd
  · exact hI d hd
  cases Pool.moves_of_step hs with
  | start w runs q => cases hd
  | advance w pre post q hist c k x =>
    obtain rfl := List.mem_singleton.mp hd
    cases q with
    | capture orderId' now => trivial
    | webhook event now =>
      cases c with
      | getPaymentOrder orderId' =>
        cases hx : x.outcome with
        | raises message => simp [answer, hx, Expected]
        | lost message => simp [answer, hx, Expected]
        | returns =>
          simp only [answer, hx, effect]
          cases ho : w.orders.getPaymentOrder orderId' with
          | none => trivial
          | some o =>
            rintro rfl
            exact hG event now hist k (by simp) hx o ho
      | _ => trivial

/-! ## What a run may spend -/

/-- What a run earns: a capture run PayPal's report, a webhook run nothing. -/
def earned (orderId : String) (q : Request) (c : Call) (r : Resp c) : ℕ :=
  match q with
  | .capture _ _ => reportsCompleted orderId q c r
  | .webhook _ _ => 0

theorem earned_le_reportsCompleted (orderId : String) (q : Request) (c : Call) (r : Resp c) :
    earned orderId q c r ≤ reportsCompleted orderId q c r := by
  cases q with
  | capture orderId' now => exact le_rfl
  | webhook event now => exact Nat.zero_le _

section Affords

variable {orderId : String} {q : Request} {n : ℕ} {onError : String → Response}

/-- The run of a program affords the credits it makes for the order. -/
abbrev AffordsCredits (orderId : String) (q : Request) (p : Prog Call Resp Response) (n : ℕ) :
    Prop :=
  Affords (Expected orderId) (credits orderId) (earned orderId) q p n

theorem affords_return {response : Response} :
    AffordsCredits orderId q (tryExcept (pure response) onError) n := trivial

/-- A `try` block affords its credits if its first call does and the rest does with what is then
left. -/
theorem affords_await {c : Call} {f : Ret c → Try Response}
    (hc : ∀ r, credits orderId q c r ≤ n + earned orderId q c r)
    (hf : ∀ a, Expected orderId q c (.ok a) →
      AffordsCredits orderId q (tryExcept (f a) onError)
        (n + earned orderId q c (.ok a) - credits orderId q c (.ok a))) :
    AffordsCredits orderId q (tryExcept (await c >>= f) onError) n := by
  rw [tryExcept_await]
  intro r hr
  refine ⟨hc r, ?_⟩
  cases r with
  | ok a => exact hf a hr
  | error e => trivial

theorem affords_capture (orderId' now : String) :
    AffordsCredits orderId (.capture orderId' now) (handler (.capture orderId' now)) 0 := by
  refine affords_await (fun _ => Nat.zero_le _) fun captureResult _ => ?_
  by_cases hs : captureResult.status = .completed
  · rw [if_pos hs]
    refine affords_await (fun _ => Nat.zero_le _) fun order _ => ?_
    cases order with
    | none => exact affords_return
    | some order =>
      refine affords_await (fun _ => Nat.zero_le _) fun _ _ => ?_
      cases order.truthyClientId with
      | none => exact affords_return
      | some clientId =>
        refine affords_await (fun _ => ?_) fun _ _ => affords_return
        by_cases hid : orderId' = orderId <;>
          simp [credits, earned, reportsCompleted, Request.orderId, hid, hs]
  · rw [if_neg hs]
    exact affords_await (fun _ => Nat.zero_le _) fun _ _ => affords_return

theorem affords_captureCompleted {event : WebhookEvent} {now : String} (orderId' : String)
    (captureId : Option String) (hevent : event.truthyOrderId = some orderId') :
    AffordsCredits orderId (.webhook event now)
      (tryExcept (captureCompleted orderId' captureId now) onError) 0 := by
  refine affords_await (fun _ => Nat.zero_le _) fun _ _ => ?_
  refine affords_await (fun _ => Nat.zero_le _) fun order horder => ?_
  cases order with
  | none => exact affords_return
  | some order =>
    by_cases hs : order.status = .completed
    · simp only [hs, ne_eq, not_true_eq_false, if_false]
      exact affords_return
    · simp only [hs, ne_eq, not_false_eq_true, if_true]
      cases hc : order.truthyClientId with
      | none => exact affords_return
      | some clientId =>
        refine affords_await (fun _ => ?_) fun _ _ => affords_return
        have hid : orderId' ≠ orderId := by
          intro hid
          rcases horder hid with h | h
          · exact hs h
          · exact absurd (hc.symm.trans h) (by simp)
        simp [credits, Request.orderId, hevent, hid]

theorem affords_webhook (event : WebhookEvent) (now : String) :
    AffordsCredits orderId (.webhook event now) (handler (.webhook event now)) 0 := by
  refine affords_await (fun _ => Nat.zero_le _) fun isValid _ => ?_
  cases isValid with
  | false => exact affords_return
  | true =>
    simp only [if_true, handleEvent]
    cases event.eventType with
    | captureCompleted =>
      cases hevent : event.truthyOrderId with
      | none => exact affords_return
      | some orderId' => exact affords_captureCompleted orderId' _ hevent
    | captureDenied =>
      cases event.truthyOrderId with
      | none => exact affords_return
      | some orderId' => exact affords_await (fun _ => Nat.zero_le _) fun _ _ => affords_return
    | captureRefunded =>
      refine affords_await (fun _ => Nat.zero_le _) fun order _ => ?_
      cases order with
      | none => exact affords_return
      | some order =>
        refine affords_await (fun _ => Nat.zero_le _) fun _ _ => ?_
        cases order.truthyClientId with
        | none => exact affords_return
        | some clientId => exact affords_await (fun _ => Nat.zero_le _) fun _ _ => affords_return
    | other name => exact affords_return

/-- **Every handler affords the credits it makes for an order**: a capture run with PayPal's
report, a webhook run — as long as it reads what is expected — by making none. -/
theorem affords_handler (orderId : String) (q : Request) :
    AffordsCredits orderId q (handler q) 0 := by
  cases q with
  | capture orderId' now => exact affords_capture orderId' now
  | webhook event now => exact affords_webhook event now

end Affords

/-- A webhook run that spends nothing makes no credit for its order. -/
theorem not_isCredit_of_spent {orderId : String} {event : WebhookEvent} {now : String}
    {hist : List (Reply Call Resp)} (hevent : event.truthyOrderId = some orderId)
    (hspent : spent (credits orderId) (.webhook event now) hist = 0) :
    ∀ a ∈ hist, ¬ IsCredit a := by
  rintro ⟨c, r⟩ ha hcredit
  have hzero : credits orderId (.webhook event now) c r = 0 :=
    List.sum_eq_zero_iff.mp hspent _ (List.mem_map.mpr ⟨_, ha, rfl⟩)
  cases c <;> simp_all [IsCredit, credits, Request.orderId]

/-- **Crediting once**: as long as nobody moves the order off `COMPLETED` between a webhook's write
and its read-back, and PayPal reports its capture complete at most once, the order is credited at
most once, and never by a webhook that read it back as denied or refunded. -/
theorem creditedOnce_of_undisturbed {orderId : String} {w : World} {s : Workers}
    {es : List (Sched Request Answer)} {os : List (Done Request Call Resp)}
    (hrun : workers.run ⟨w, []⟩ es = some (s, os))
    (hpaypal : total (reportsCompleted orderId) os ≤ 1)
    (hG : workers.Along (Undisturbed orderId) ⟨w, []⟩ es) : CreditedOnce orderId s os := by
  have hok := expected_of_undisturbed hrun hG
  refine ⟨?_, ?_⟩
  · calc total (credits orderId) os
        ≤ total (earned orderId) os := total_cost_le_gain (affords_handler orderId) hrun hok
      _ ≤ total (reportsCompleted orderId) os :=
        List.sum_le_sum fun d _ => earned_le_reportsCompleted orderId _ _ _
      _ ≤ 1 := hpaypal
  · rintro ⟨q, hist, rest⟩ hp ⟨⟨event, now, rfl, hevent⟩, -, a, ha, hcredit⟩
    have hspent := spent_cost_le_gain (affords_handler orderId) hrun hok _ hp
    have hnothing : spent (earned orderId) (.webhook event now) hist = 0 := by
      simp [spent, earned]
    exact not_isCredit_of_spent hevent (Nat.le_zero.mp (hnothing ▸ hspent)) a ha hcredit

/-- Everything returns. -/
def returned : Answer := ⟨.returns, ⟨.completed, some "CAP-1"⟩, true⟩

/-- A capture run and the webhook for it, step by step in turn. -/
def undisturbed : List (Sched Request Answer) :=
  [.start (.capture "O-1" "t1"), .advance 0 returned,
    .start completedWebhook.request, .advance 1 returned, .advance 0 returned,
    .advance 1 returned, .advance 0 returned, .advance 1 returned, .advance 0 returned]

/-- The order is credited, by the capture run. -/
theorem creditedOnce_undisturbed :
    ∃ s os, workers.run ⟨openWorld, []⟩ undisturbed = some (s, os) ∧
      total (credits "O-1") os = 1 ∧ CreditedOnce "O-1" s os := by
  have hG : workers.Along (Undisturbed "O-1") ⟨openWorld, []⟩ undisturbed := by
    refine workers.along_cons rfl trivial ?_
    refine workers.along_cons rfl (fun _ _ _ _ h => nomatch h) ?_
    refine workers.along_cons rfl trivial ?_
    refine workers.along_cons rfl (fun _ _ _ _ h => nomatch h) ?_
    refine workers.along_cons rfl (fun _ _ _ _ h => nomatch h) ?_
    refine workers.along_cons rfl (fun _ _ _ _ h => nomatch h) ?_
    refine workers.along_cons rfl (fun _ _ _ _ h => nomatch h) ?_
    -- the webhook reads back what it and the capture run have written
    refine workers.along_cons rfl (fun _ _ _ _ _ _ o ho => ?_) ?_
    · cases ho
      exact .inl rfl
    · exact workers.along_cons rfl (fun _ _ _ _ h => nomatch h) trivial
  have hrun : workers.run ⟨openWorld, []⟩ undisturbed = some (_, _) := rfl
  exact ⟨_, _, hrun, by decide, creditedOnce_of_undisturbed hrun (by decide) hG⟩

/-- A capture run credits the order; while PayPal's webhook for it is processed, a refund comes
in. -/
def refundedMeanwhile : List (Sched Request Answer) :=
  [.start (.capture "O-1" "t1"), .advance 0 returned, .advance 0 returned, .advance 0 returned,
    .advance 0 returned,
    .start completedWebhook.request, .advance 1 returned, .advance 1 returned,
    .start (.webhook ⟨.captureRefunded, some "CAP-1", none⟩ "t3"), .advance 2 returned,
    .advance 2 returned, .advance 2 returned, .advance 2 returned,
    .advance 1 returned, .advance 1 returned]

/-- Orders are credited twice, and credited although seen refunded. -/
theorem not_forall_creditedOnce :
    ¬ ∀ (orderId : String) (w : World) (s : Workers) (es : List (Sched Request Answer))
      (os : List (Done Request Call Resp)), workers.run ⟨w, []⟩ es = some (s, os) →
      total (reportsCompleted orderId) os ≤ 1 → CreditedOnce orderId s os := by
  intro h
  have hall := h "O-1" openWorld _ refundedMeanwhile _ rfl (by decide)
  exact absurd hall.1 (by decide)

end Paypal

end BioShield
