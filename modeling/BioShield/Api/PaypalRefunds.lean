import BioShield.Api.PaypalFinality
import BioShield.Api.VoiceAudit

/-!
# Api/PaypalRefunds — what refunds deduct (`api/routers/paypal.py`, `api/services`)

The webhook deducts the whole amount of the order, whatever was refunded, and does so again with
each delivery.  So refunds balance exactly if there are none, or a single one of the whole amount
whose event gets as far as its deduction once (`refundsBalance_iff`).
-/

namespace BioShield

open Machinery

namespace Paypal

/-! ## Refunding -/

/-- The `amount` of `refund_data`. -/
structure RefundAmount where
  value : TwoDecimals
  currencyCode : String
  deriving DecidableEq

/-- `refund_data` of `PayPalService.refund_payment`: no amount, or a zero, asks for everything. -/
def refundData (amount : Option ℚ) : Option RefundAmount :=
  (amount.filter (· ≠ 0)).map fun amount => ⟨.format amount, "USD"⟩

/-- The route `refund_payment`, up to its call to PayPal; its `except` catches its own 403. -/
def refundPayment (authorizationToken : String) (amount : Option ℚ) :
    Except HttpException (Option RefundAmount) :=
  if authorizationToken ≠ "sk_admin_master_2026" then
    .error ⟨500, "403: Admin access required"⟩
  else .ok (refundData amount)

/-- A refund PayPal made: what the route was asked for, what PayPal refunded, and its event. -/
structure Refund where
  authorizationToken : String
  requested : Option ℚ
  amount : ℚ
  event : WebhookEvent

/-- PayPal refunds some of what is left of the capture: all of it, unless an amount is asked for. -/
def Refund.Answers (r : Refund) (left : ℚ) : Prop :=
  0 < r.amount ∧ r.amount ≤ left ∧
    (refundPayment r.authorizationToken r.requested = .ok none ∧ r.amount = left ∨
      ∃ data, refundPayment r.authorizationToken r.requested = .ok (some data) ∧
        r.amount = data.value.toRat)

/-- The refunds PayPal makes, one after another, of a capture with so much left. -/
def RefundsOf : ℚ → List Refund → Prop
  | _, [] => True
  | left, r :: refunds => r.Answers left ∧ RefundsOf (left - r.amount) refunds

/-- PayPal refunds something with each refund, and no more than was captured. -/
theorem RefundsOf.sum_bounds {left : ℚ} {refunds : List Refund} (h : RefundsOf left refunds)
    (hne : refunds ≠ []) :
    0 < (refunds.map Refund.amount).sum ∧ (refunds.map Refund.amount).sum ≤ left := by
  induction refunds generalizing left with
  | nil => exact absurd rfl hne
  | cons r refunds ih =>
    obtain ⟨⟨hpos, hle, -⟩, hrest⟩ := h
    rw [List.map_cons, List.sum_cons]
    by_cases hnil : refunds = []
    · subst hnil
      simpa using ⟨hpos, hle⟩
    · obtain ⟨hpos', hle'⟩ := ih hrest hnil
      exact ⟨add_pos hpos hpos', by linarith⟩

/-! ## Deducting -/

/-- The text `deduct_credits` is called with. -/
def refundText (orderId : String) : String := s!"PayPal refund - Order: {orderId}"

/-- What the webhook writes for a refund. -/
def refundedUpdate (now : String) : OrderUpdate := { status := .refunded, refundedAt := some now }

/-- All that was deducted for the order. -/
def deducted (ledger : List LedgerEntry) (orderId : String) : ℚ :=
  ((ledger.filter fun e => e.kind = .deduct ∧ e.description = refundText orderId).map
    LedgerEntry.amount).sum

theorem deducted_append (ledger ledger' : List LedgerEntry) (orderId : String) :
    deducted (ledger ++ ledger') orderId = deducted ledger orderId + deducted ledger' orderId := by
  rw [deducted, List.filter_append, List.map_append, List.sum_append, deducted, deducted]

/-- The transaction is found to be one of the order. -/
def ResolvesTo (t : PaymentOrders) (transactionId : Option String) (o : PaymentOrder) : Prop :=
  ∃ o', t.getPaymentOrderByTransaction transactionId = some o' ∧ o'.orderId = o.orderId ∧
    o'.truthyClientId = o.truthyClientId ∧ o'.amount = o.amount

/-- An update that leaves the transactions alone. -/
def KeepsTransactions : Call → Prop
  | .updatePaymentOrder _ u => u.transactionId = none
  | _ => True

section Deduct

variable {env : Environment} {w : World} {o : PaymentOrder} {clientId now : String}
  {event : WebhookEvent}

theorem resolvesTo_update {t : PaymentOrders} {transactionId : Option String} {orderId : String}
    {u : OrderUpdate} (hu : u.transactionId = none) (h : ResolvesTo t transactionId o) :
    ResolvesTo (t.updatePaymentOrder orderId u) transactionId o := by
  obtain ⟨o', ho', hid, hclient, hamount⟩ := h
  refine ⟨_, by rw [PaymentOrders.getPaymentOrderByTransaction_updatePaymentOrder t _ _ hu, ho',
    Option.map_some], ?_⟩
  split_ifs
  · exact ⟨hid, hclient, hamount⟩
  · exact ⟨hid, hclient, hamount⟩

theorem resolvesTo_effect {c : Call} (hc : KeepsTransactions c) (x : Answer)
    {transactionId : Option String} (h : ResolvesTo w.orders transactionId o) :
    ResolvesTo (effect x w c).2.orders transactionId o := by
  cases c with
  | updatePaymentOrder id u => exact resolvesTo_update hc h
  | _ => exact h

/-- A call that books nothing leaves the ledger to the rest of its block, should it return. -/
theorem ledger_await {c : Call} (hc : booking c = []) (f : Ret c → Try Response)
    (onError : String → Response) :
    ((tryExcept (await c >>= f) onError).exec env.meet w).2.ledger =
      if (env c).outcome = .returns then
        ((tryExcept (f (effect (env c) w c).1) onError).exec env.meet
          (effect (env c) w c).2).2.ledger
      else w.ledger := by
  cases ho : (env c).outcome with
  | returns => rw [exec_await_returns _ _ ho, if_pos rfl]
  | raises message =>
    rw [exec_await_raises _ _ ho]
    rfl
  | lost message =>
    rw [exec_await_lost _ _ ho, ledger_effect, hc, List.append_nil]
    rfl

/-- The run of a refund's webhook gets as far as its deduction. -/
def Environment.Deducts (env : Environment) (o : PaymentOrder) (clientId : String)
    (event : WebhookEvent) (now : String) : Prop :=
  (env (.verifyWebhookSignature event)).outcome = .returns ∧
  (env (.verifyWebhookSignature event)).verified = true ∧
  (env (.getPaymentOrderByTransaction event.resourceId)).outcome = .returns ∧
  (env (.updatePaymentOrder o.orderId (refundedUpdate now))).outcome = .returns ∧
  env.TakesEffect (.deductCredits clientId o.amount (refundText o.orderId))

instance : Decidable (env.Deducts o clientId event now) := inferInstanceAs (Decidable (_ ∧ _))

/-- A call that is the last of its block books what it books. -/
theorem ledger_last (c : Call) (response : Response) (onError : String → Response) :
    ((tryExcept (await c >>= fun _ => pure response) onError).exec env.meet w).2.ledger =
      w.ledger ++ if env.TakesEffect c then booking c else [] := by
  rw [tryExcept_await, Prog.exec_call]
  have hledger : (env.meet w c).2.ledger =
      w.ledger ++ if env.TakesEffect c then booking c else [] := by
    rw [ledger_meet, Environment.booked]
    cases ho : (env c).outcome <;> simp [Environment.TakesEffect, ho]
  cases (env.meet w c).1 <;> exact hledger

/-- **Every delivery that gets as far as its deduction deducts the whole amount of the order.** -/
theorem ledger_respond_refund (htype : event.eventType = .captureRefunded)
    (horder : w.orders.getPaymentOrderByTransaction event.resourceId = some o)
    (hclient : o.truthyClientId = some clientId) :
    ((⟨.webhook event now, env⟩ : HandlerRun).respond w).2.ledger =
      w.ledger ++ if env.Deducts o clientId event now then
        [⟨.deduct, clientId, o.amount, refundText o.orderId⟩] else [] := by
  simp only [HandlerRun.respond, handler, paypalWebhook, Environment.Deducts]
  rw [ledger_await (c := .verifyWebhookSignature event) rfl]
  by_cases hverify : (env (.verifyWebhookSignature event)).outcome = .returns
  · by_cases hverified : (env (.verifyWebhookSignature event)).verified = true
    · simp only [effect, hverify, hverified, if_true, true_and, handleEvent, htype,
        captureRefunded]
      rw [ledger_await (c := .getPaymentOrderByTransaction event.resourceId) rfl]
      by_cases hget : (env (.getPaymentOrderByTransaction event.resourceId)).outcome = .returns
      · simp only [effect, hget, if_true, true_and, horder, hclient]
        refine (ledger_await (c := .updatePaymentOrder o.orderId (refundedUpdate now)) rfl
          _ _).trans ?_
        by_cases hupdate :
            (env (.updatePaymentOrder o.orderId (refundedUpdate now))).outcome = .returns
        · simp only [hupdate, if_true, true_and, effect]
          exact ledger_last _ _ _
        · simp [hupdate]
      · simp [hget]
    · simp [hverify, hverified, effect]
  · simp [hverify]

/-- No delivery of a refund's event changes what transactions resolve to. -/
theorem resolvesTo_respond_refund (htype : event.eventType = .captureRefunded)
    {transactionId : Option String} (h : ResolvesTo w.orders transactionId o) :
    ResolvesTo ((⟨.webhook event now, env⟩ : HandlerRun).respond w).2.orders transactionId o := by
  have hcalls : ∀ b ∈ (handler (.webhook event now)).calls env.meet w, KeepsTransactions b.1 := by
    refine forall_calls_await env (fun _ => trivial) fun isValid _ _ => ?_
    cases isValid with
    | false => exact forall_calls_return env
    | true =>
      simp only [if_true, handleEvent, htype]
      exact forall_calls_captureRefunded env (fun _ => trivial) (fun _ _ => rfl)
        fun _ _ _ _ => trivial
  exact Prog.exec_keeps (Q := fun w : World => ResolvesTo w.orders transactionId o) env.meet
    (fun b hb _ h => meet_keeps (Q := fun w : World => ResolvesTo w.orders transactionId o) h
      (resolvesTo_effect (hcalls b hb) _ h)) h

end Deduct

/-! ## Every delivery of every refund -/

/-- A delivery of one of `n` events. -/
structure Delivery (n : ℕ) where
  index : Fin n
  now : String
  env : Environment

section Balance

variable {refunds : List Refund} {o : PaymentOrder} {clientId : String}

/-- The event delivered. -/
def Delivery.event (d : Delivery refunds.length) : WebhookEvent := (refunds.get d.index).event

/-- The run of the webhook. -/
def Delivery.run (d : Delivery refunds.length) : HandlerRun := ⟨.webhook d.event d.now, d.env⟩

/-- The delivery gets as far as its deduction. -/
def Delivery.Deducts (o : PaymentOrder) (clientId : String) (d : Delivery refunds.length) : Prop :=
  d.env.Deducts o clientId d.event d.now

instance (d : Delivery refunds.length) : Decidable (d.Deducts o clientId) :=
  inferInstanceAs (Decidable (Environment.Deducts _ _ _ _ _))

/-- The order is captured and credited, and nothing was deducted for it yet; `create_payment_order`
takes no negative amounts. -/
structure CapturedAndCredited (w : World) (o : PaymentOrder) (clientId : String) : Prop where
  stored : w.orders.getPaymentOrder o.orderId = some o
  captured : o.status = .completed
  nonneg : 0 ≤ o.amount
  client : o.truthyClientId = some clientId
  credited : ⟨.add, clientId, o.amount, s!"PayPal payment - Order: {o.orderId}"⟩ ∈ w.ledger
  undeducted : deducted w.ledger o.orderId = 0

/-- The events of the refunds, found to be about the order. -/
def EventsResolve (w : World) (o : PaymentOrder) (refunds : List Refund) : Prop :=
  ∀ r ∈ refunds, r.event.eventType = .captureRefunded ∧
    w.orders.getPaymentOrderByTransaction r.event.resourceId = some o

/-- Every event is delivered, and processed to its end, at least once. -/
def AllProcessed (deliveries : List (Delivery refunds.length)) : Prop :=
  ∀ i, ∃ d ∈ deliveries, d.index = i ∧ d.env.Smooth

/-- What is deducted for the order is what PayPal refunded on it, and no more than its amount. -/
structure RefundsBalance (o : PaymentOrder) (refunds : List Refund) (w : World) : Prop where
  total : deducted w.ledger o.orderId = (refunds.map Refund.amount).sum
  bounded : deducted w.ledger o.orderId ≤ o.amount

/-- What one delivery deducts. -/
theorem deducted_respond {w : World} {d : Delivery refunds.length}
    (htype : d.event.eventType = .captureRefunded) (hclient : o.truthyClientId = some clientId)
    (hresolves : ResolvesTo w.orders d.event.resourceId o) :
    deducted (d.run.respond w).2.ledger o.orderId =
      deducted w.ledger o.orderId + if d.Deducts o clientId then o.amount else 0 := by
  obtain ⟨o', horder, hid, hclient', hamount⟩ := hresolves
  have hsame : d.env.Deducts o' clientId d.event d.now ↔ d.Deducts o clientId := by
    rw [Delivery.Deducts, Environment.Deducts, Environment.Deducts, hid, hamount]
  have hledger : (d.run.respond w).2.ledger =
      w.ledger ++ if d.env.Deducts o' clientId d.event d.now then
        [⟨.deduct, clientId, o'.amount, refundText o'.orderId⟩] else [] :=
    ledger_respond_refund htype horder (hclient'.trans hclient)
  simp only [hsame, hid, hamount] at hledger
  rw [hledger, deducted_append]
  split_ifs
  · simp [deducted]
  · simp [deducted]

/-- **What a sequence of deliveries deducts**: the order's amount, once for each delivery that gets
as far. -/
theorem deducted_run (htypes : ∀ r ∈ refunds, r.event.eventType = .captureRefunded)
    (hclient : o.truthyClientId = some clientId) {deliveries : List (Delivery refunds.length)}
    {w w' : World} {os : List (HandlerRun × Response)}
    (hresolves : ∀ r ∈ refunds, ResolvesTo w.orders r.event.resourceId o)
    (hrun : server.run w (deliveries.map Delivery.run) = some (w', os)) :
    deducted w'.ledger o.orderId =
      deducted w.ledger o.orderId + deliveries.countP (·.Deducts o clientId) * o.amount := by
  induction deliveries generalizing w os with
  | nil =>
    obtain ⟨rfl, -⟩ := Prod.mk.inj (Option.some.inj hrun)
    simp
  | cons d deliveries ih =>
    obtain ⟨w₁, o₁, o₂, hstep, hrest, -⟩ := (Machine.run_cons_iff server).mp hrun
    obtain ⟨rfl, -⟩ := Prod.mk.inj (Option.some.inj hstep)
    have hmem := List.get_mem refunds d.index
    have htype := htypes _ hmem
    have hresolves' : ∀ r ∈ refunds,
        ResolvesTo (d.run.respond w).2.orders r.event.resourceId o :=
      fun r hr => resolvesTo_respond_refund htype (hresolves r hr)
    rw [ih hresolves' hrest, deducted_respond htype hclient (hresolves _ hmem), List.countP_cons]
    split_ifs with hdeducts hcount hcount
    · push_cast
      ring
    · exact absurd (decide_eq_true hdeducts) hcount
    · exact absurd (of_decide_eq_true hcount) hdeducts
    · simp

/-- Processed events are deducted for, each at least once. -/
theorem length_le_countP (o : PaymentOrder) (clientId : String)
    {deliveries : List (Delivery refunds.length)} (hall : AllProcessed deliveries) :
    refunds.length ≤ deliveries.countP (·.Deducts o clientId) := by
  have hsmooth : ∀ d : Delivery refunds.length, d.env.Smooth → d.Deducts o clientId := fun d h =>
    ⟨(h _).1, (h _).2, (h _).1, (h _).1, .of_returns (h _).1⟩
  have hcover : (Finset.univ : Finset (Fin refunds.length)) ⊆
      ((deliveries.filter (·.Deducts o clientId)).map Delivery.index).toFinset := by
    intro i _
    obtain ⟨d, hd, rfl, h⟩ := hall i
    exact List.mem_toFinset.mpr (List.mem_map_of_mem
      (List.mem_filter.mpr ⟨hd, decide_eq_true (hsmooth d h)⟩))
  calc refunds.length = (Finset.univ : Finset (Fin refunds.length)).card := by simp
    _ ≤ _ := Finset.card_le_card hcover
    _ ≤ _ := List.toFinset_card_le _
    _ = deliveries.countP (·.Deducts o clientId) := by
      rw [List.length_map, List.countP_eq_length_filter]

/-- **When refunds balance**: once every event has been processed, exactly if there was no refund,
or a single one of the order's whole amount, of whose deliveries one deducts. -/
theorem refundsBalance_iff {w w' : World} (h : CapturedAndCredited w o clientId)
    (hrefunds : RefundsOf o.amount refunds) (hresolve : EventsResolve w o refunds)
    {deliveries : List (Delivery refunds.length)} (hall : AllProcessed deliveries)
    {os : List (HandlerRun × Response)}
    (hrun : server.run w (deliveries.map Delivery.run) = some (w', os)) :
    RefundsBalance o refunds w' ↔ refunds = [] ∨
      (∃ r, refunds = [r] ∧ r.amount = o.amount) ∧
        deliveries.countP (·.Deducts o clientId) = 1 := by
  have hdeducted := deducted_run (fun r hr => (hresolve r hr).1) h.client
    (fun r hr => ⟨o, (hresolve r hr).2, rfl, rfl, rfl⟩) hrun
  rw [h.undeducted, zero_add] at hdeducted
  have hcount := length_le_countP o clientId hall
  constructor
  · rintro ⟨htotal, hbounded⟩
    by_cases hne : refunds = []
    · exact .inl hne
    · obtain ⟨hpos, hle⟩ := hrefunds.sum_bounds hne
      have hamount : 0 < o.amount := hpos.trans_le hle
      -- one deduction fits into the order's amount, and each refund causes one
      have hone : deliveries.countP (·.Deducts o clientId) ≤ 1 := by
        rw [hdeducted] at hbounded
        exact_mod_cast le_of_mul_le_mul_right (hbounded.trans (one_mul _).ge) hamount
      have hlen : refunds.length = 1 :=
        le_antisymm (hcount.trans hone) (List.length_pos_iff.mpr hne)
      obtain ⟨r, rfl⟩ := List.length_eq_one_iff.mp hlen
      have hcount' : deliveries.countP (·.Deducts o clientId) = 1 := le_antisymm hone hcount
      refine .inr ⟨⟨r, rfl, ?_⟩, hcount'⟩
      rw [hdeducted, hcount', Nat.cast_one, one_mul, List.map_singleton,
        List.sum_singleton] at htotal
      exact htotal.symm
  · rintro (rfl | ⟨⟨r, rfl, hr⟩, hone⟩)
    · have hnil : deliveries = [] := List.eq_nil_iff_forall_not_mem.mpr fun d _ => d.index.elim0
      have hdeduct : deducted w'.ledger o.orderId = 0 := by simpa [hnil] using hdeducted
      exact ⟨hdeduct, hdeduct.trans_le h.nonneg⟩
    · have hdeduct : deducted w'.ledger o.orderId = o.amount := by
        rw [hdeducted, hone, Nat.cast_one, one_mul]
      exact ⟨by rw [hdeduct, List.map_singleton, List.sum_singleton, hr], hdeduct.le⟩

end Balance

/-! ## A refund of four dollars out of ten -/

/-- The open order, captured. -/
def capturedOrder : PaymentOrder := openOrder.update (captureUpdate (some "CAP-1") "t1")

/-- The world its capture leaves. -/
def capturedWorld : World := ((⟨.capture "O-1" "t1", smooth⟩ : HandlerRun).respond openWorld).2

theorem capturedAndCredited_capturedOrder :
    CapturedAndCredited capturedWorld capturedOrder "test_client" where
  stored := rfl
  captured := rfl
  nonneg := by decide +kernel
  client := rfl
  credited := List.mem_singleton.mpr rfl
  undeducted := rfl

/-- The refund's event. -/
def refundEvent : WebhookEvent := ⟨.captureRefunded, some "CAP-1", none⟩

/-- A refund of everything. -/
def wholeRefund : Refund := ⟨"sk_admin_master_2026", none, 10, refundEvent⟩

/-- A refund of four dollars. -/
def partialRefund : Refund := ⟨"sk_admin_master_2026", some 4, 4, refundEvent⟩

theorem eventsResolve_refundEvent {r : Refund} (h : r.event = refundEvent) :
    EventsResolve capturedWorld capturedOrder [r] := by
  intro r' hr'
  obtain rfl := List.mem_singleton.mp hr'
  rw [h]
  exact ⟨rfl, rfl⟩

theorem allProcessed_once {r : Refund} :
    AllProcessed ([⟨0, "t2", smooth⟩] : List (Delivery [r].length)) := fun i =>
  ⟨_, List.mem_singleton_self _, (Fin.fin_one_eq_zero i).symm, fun _ => ⟨rfl, rfl⟩⟩

theorem refundsOf_wholeRefund : RefundsOf capturedOrder.amount [wholeRefund] :=
  ⟨⟨by decide +kernel, by decide +kernel, .inl ⟨rfl, rfl⟩⟩, trivial⟩

theorem refundsOf_partialRefund : RefundsOf capturedOrder.amount [partialRefund] :=
  ⟨⟨by decide +kernel, by decide +kernel, .inr ⟨_, rfl, by decide +kernel⟩⟩, trivial⟩

/-- The whole refund, delivered once, balances. -/
theorem refundsBalance_wholeRefund :
    ∃ w' os, server.run capturedWorld
        (([⟨0, "t2", smooth⟩] : List (Delivery [wholeRefund].length)).map Delivery.run) =
          some (w', os) ∧
      RefundsBalance capturedOrder [wholeRefund] w' :=
  ⟨_, _, rfl, (refundsBalance_iff capturedAndCredited_capturedOrder refundsOf_wholeRefund
    (eventsResolve_refundEvent rfl) allProcessed_once rfl).mpr
      (.inr ⟨⟨_, rfl, rfl⟩, by decide +kernel⟩)⟩

/-- The refund of four dollars deducts ten. -/
theorem not_forall_refundsBalance :
    ¬ ∀ (w w' : World) (o : PaymentOrder) (clientId : String) (refunds : List Refund)
      (deliveries : List (Delivery refunds.length)) (os : List (HandlerRun × Response)),
      CapturedAndCredited w o clientId → RefundsOf o.amount refunds → EventsResolve w o refunds →
      AllProcessed deliveries → server.run w (deliveries.map Delivery.run) = some (w', os) →
      RefundsBalance o refunds w' := by
  intro h
  have hbalance := h capturedWorld _ capturedOrder "test_client" [partialRefund]
    [⟨0, "t2", smooth⟩] _ capturedAndCredited_capturedOrder
    refundsOf_partialRefund (eventsResolve_refundEvent rfl) allProcessed_once rfl
  exact absurd hbalance.total (by decide +kernel)

end Paypal

end BioShield
