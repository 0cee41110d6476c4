import BioShield.Api.Paypal

/-!
# Api/PaypalCredits — what one run after another books

Handler runs one at a time, each in an environment of its own that says how every call of the run
goes.  The webhook writes `COMPLETED` before it reads the status it decides on, so run on its own
it never reaches `add_credits` (`not_isCredit_webhook`): whatever a capture run left undone, no
later webhook makes up for it.
-/

namespace BioShield

open Machinery

namespace Paypal

/-- How the calls of one run go. -/
abbrev Environment : Type := Call → Answer

namespace Environment

/-- The world as the run meets it. -/
def meet (env : Environment) (w : World) (c : Call) : Resp c × World := answer (env c) w c

/-- Every call returns, and the signature is valid. -/
def Smooth (env : Environment) : Prop := ∀ c, (env c).outcome = .returns ∧ (env c).verified = true

end Environment

/-- One run of a handler. -/
structure HandlerRun where
  request : Request
  env : Environment

namespace HandlerRun

/-- What the handler responds, and the world it leaves. -/
def respond (run : HandlerRun) (w : World) : Response × World :=
  (handler run.request).exec run.env.meet w

/-- The calls the handler makes. -/
def calls (run : HandlerRun) (w : World) : List (Reply Call Resp) :=
  (handler run.request).calls run.env.meet w

end HandlerRun

/-- The calls of a sequence of runs, each with the request it served. -/
def history : World → List HandlerRun → List (Request × Reply Call Resp)
  | _, [] => []
  | w, run :: runs => (run.calls w).map (Prod.mk run.request) ++ history (run.respond w).2 runs

theorem mem_history {w : World} {runs : List HandlerRun} {a : Request × Reply Call Resp}
    (h : a ∈ history w runs) :
    ∃ run ∈ runs, ∃ w', a.1 = run.request ∧ a.2 ∈ run.calls w' := by
  induction runs generalizing w with
  | nil => cases h
  | cons run runs ih =>
    rcases List.mem_append.mp h with h | h
    · obtain ⟨r, hr, rfl⟩ := List.mem_map.mp h
      exact ⟨run, List.mem_cons_self, w, rfl, hr⟩
    · obtain ⟨run', hrun', rest⟩ := ih h
      exact ⟨run', List.mem_cons_of_mem _ hrun', rest⟩

/-! ## The calls of a `try` block -/

/-- A call of `add_credits`. -/
def IsCredit : Reply Call Resp → Prop
  | ⟨.addCredits _ _ _, _⟩ => True
  | _ => False

/-- A call of `add_credits` that books the order's amount for its client, with the text one of the
two handlers gives it. -/
def IsCreditFor (o : PaymentOrder) (a : Reply Call Resp) : Prop :=
  ∃ clientId description, a.1 = .addCredits clientId o.amount description ∧
    o.clientId = some clientId ∧
    (description = s!"PayPal payment - Order: {o.orderId}" ∨
      description = s!"PayPal payment (webhook) - Order: {o.orderId}")

theorem IsCreditFor.isCredit {o : PaymentOrder} {a : Reply Call Resp} (h : IsCreditFor o a) :
    IsCredit a := by
  obtain ⟨c, r⟩ := a
  obtain ⟨clientId, description, rfl, -⟩ := h
  trivial

section Calls

variable (env : Environment) {P : Reply Call Resp → Prop}

/-- **What holds of the calls of a `try` block**: of its first call and, if that answers, of those
of the rest. -/
theorem forall_calls_await {c : Call} {f : Ret c → Try Response} {onError : String → Response}
    {w : World} (hc : ∀ r, P ⟨c, r⟩)
    (hf : ∀ a w', env.meet w c = (.ok a, w') →
      ∀ b ∈ (tryExcept (f a) onError).calls env.meet w', P b) :
    ∀ b ∈ (tryExcept (await c >>= f) onError).calls env.meet w, P b := by
  intro b hb
  rw [tryExcept_await, Prog.calls_call] at hb
  rcases List.mem_cons.mp hb with rfl | hb
  · exact hc _
  · cases hr : env.meet w c with
    | mk r w' =>
      rw [hr] at hb
      cases r with
      | ok a => exact hf a w' hr b hb
      | error e => cases hb

theorem forall_calls_return {response : Response} {onError : String → Response} {w : World} :
    ∀ b ∈ (tryExcept (pure response) onError).calls env.meet w, P b :=
  fun _ hb => absurd hb List.not_mem_nil

/-- The calls of the refund branch: a lookup, the update of what it found, and the deduction. -/
theorem forall_calls_captureRefunded {captureId : Option String} {now : String}
    {onError : String → Response} {w : World}
    (hlookup : ∀ r, P ⟨.getPaymentOrderByTransaction captureId, r⟩)
    (hupdate : ∀ orderId r,
      P ⟨.updatePaymentOrder orderId { status := .refunded, refundedAt := some now }, r⟩)
    (hdeduct : ∀ clientId amount description r, P ⟨.deductCredits clientId amount description, r⟩) :
    ∀ b ∈ (tryExcept (captureRefunded captureId now) onError).calls env.meet w, P b := by
  refine forall_calls_await env hlookup fun order _ _ => ?_
  cases order with
  | none => exact forall_calls_return env
  | some order =>
    refine forall_calls_await env (hupdate order.orderId) fun _ _ _ => ?_
    cases order.truthyClientId with
    | none => exact forall_calls_return env
    | some clientId =>
      exact forall_calls_await env (hdeduct clientId _ _) fun _ _ _ => forall_calls_return env

/-- A call that answers took its effect. -/
theorem eq_effect_of_meet {w w' : World} {c : Call} {a : Ret c}
    (h : env.meet w c = (.ok a, w')) : effect (env c) w c = (a, w') := by
  simp only [Environment.meet, answer] at h
  cases ho : (env c).outcome with
  | returns =>
    simp only [ho, Prod.mk.injEq, Except.ok.injEq] at h
    exact Prod.ext h.1 h.2
  | raises message => simp [ho] at h
  | lost message => simp [ho] at h

/-- The calls of a capture run: PayPal's, a lookup and the updates of its order, and the credit of
the row that was looked up. -/
theorem forall_calls_capture {orderId now : String} {w : World}
    (hcapture : ∀ r, P ⟨.captureOrder orderId, r⟩) (hlookup : ∀ r, P ⟨.getPaymentOrder orderId, r⟩)
    (hupdate : ∀ u r, P ⟨.updatePaymentOrder orderId u, r⟩)
    (hcredit : ∀ order clientId r,
      (env.meet w (.captureOrder orderId)).2.orders.getPaymentOrder orderId = some order →
      P ⟨.addCredits clientId order.amount s!"PayPal payment - Order: {orderId}", r⟩) :
    ∀ b ∈ (handler (.capture orderId now)).calls env.meet w, P b := by
  refine forall_calls_await env hcapture fun captureResult w₁ h₁ => ?_
  by_cases hstatus : captureResult.status = .completed
  · rw [if_pos hstatus]
    refine forall_calls_await env hlookup fun found w₂ h₂ => ?_
    have hfound : w₁.orders.getPaymentOrder orderId = found :=
      congrArg Prod.fst (eq_effect_of_meet env h₂)
    cases found with
    | none => exact forall_calls_return env
    | some order =>
      refine forall_calls_await env (hupdate _) fun _ _ _ => ?_
      rw [h₁] at hcredit
      cases order.truthyClientId with
      | none => exact forall_calls_return env
      | some clientId =>
        exact forall_calls_await env (fun r => hcredit order clientId r hfound)
          fun _ _ _ => forall_calls_return env
  · rw [if_neg hstatus]
    exact forall_calls_await env (hupdate _) fun _ _ _ => forall_calls_return env

/-! ## The webhook alone never credits -/

theorem not_isCredit_captureCompleted (orderId : String) (captureId : Option String)
    (now : String) (onError : String → Response) (w : World) :
    ∀ b ∈ (tryExcept (captureCompleted orderId captureId now) onError).calls env.meet w,
      ¬ IsCredit b := by
  refine forall_calls_await env (fun _ h => h) fun _ w₁ h₁ => ?_
  refine forall_calls_await env (fun _ h => h) fun order w₂ h₂ => ?_
  have hw₁ : w₁ = { w with
      orders := w.orders.updatePaymentOrder orderId (webhookUpdate captureId now) } :=
    (congrArg Prod.snd (eq_effect_of_meet env h₁)).symm
  have horder : order = w₁.orders.getPaymentOrder orderId :=
    (congrArg Prod.fst (eq_effect_of_meet env h₂)).symm
  -- the row read back is the one just written
  rw [hw₁, PaymentOrders.getPaymentOrder_updatePaymentOrder, if_pos rfl] at horder
  cases hrow : w.orders.getPaymentOrder orderId with
  | none =>
    rw [hrow] at horder
    subst horder
    exact forall_calls_return env
  | some o =>
    rw [hrow] at horder
    subst horder
    exact forall_calls_return env

/-- **The webhook never credits an order on its own**, whatever the event, the order and the way
its calls go. -/
theorem not_isCredit_webhook (event : WebhookEvent) (now : String) (w : World) :
    ∀ b ∈ (handler (.webhook event now)).calls env.meet w, ¬ IsCredit b := by
  refine forall_calls_await env (fun _ h => h) fun isValid w₁ h₁ => ?_
  cases isValid with
  | false => exact forall_calls_return env
  | true =>
    simp only [if_true, handleEvent]
    cases event.eventType with
    | captureCompleted =>
      cases event.truthyOrderId with
      | none => exact forall_calls_return env
      | some orderId => exact not_isCredit_captureCompleted env _ _ _ _ _
    | captureDenied =>
      cases event.truthyOrderId with
      | none => exact forall_calls_return env
      | some orderId =>
        exact forall_calls_await env (fun _ h => h) fun _ _ _ => forall_calls_return env
    | captureRefunded =>
      exact forall_calls_captureRefunded env (fun _ h => h) (fun _ _ h => h) fun _ _ _ _ h => h
    | other name => exact forall_calls_return env

/-- The only credit of a capture run carries the run's own order id. -/
theorem eq_of_isCredit_capture (orderId now : String) (w : World) :
    ∀ b ∈ (handler (.capture orderId now)).calls env.meet w, IsCredit b →
      ∃ clientId amount,
        b.1 = .addCredits clientId amount s!"PayPal payment - Order: {orderId}" := by
  exact forall_calls_capture env (fun _ h => h.elim) (fun _ h => h.elim) (fun _ _ h => h.elim)
    fun order clientId _ _ _ => ⟨clientId, order.amount, rfl⟩

end Calls

/-! ## Paid orders -/

/-- The run is a signature-verified `PAYMENT.CAPTURE.COMPLETED` webhook for the order, processed to
its end. -/
def HandlerRun.CompletesWebhook (run : HandlerRun) (orderId : String) : Prop :=
  ∃ event now, run.request = .webhook event now ∧ event.eventType = .captureCompleted ∧
    event.truthyOrderId = some orderId ∧ run.env.Smooth

/-- A stored order of a client, not completed at first, whose payment the last run's webhook
reports, while no capture run books it. -/
structure PaidByWebhook (w : World) (o : PaymentOrder) (runs : List HandlerRun)
    (last : HandlerRun) : Prop where
  stored : w.orders.getPaymentOrder o.orderId = some o
  client : o.clientId ≠ none
  notCompleted : o.status ≠ .completed
  paid : last.CompletesWebhook o.orderId
  uncaptured : ∀ a ∈ history w (runs ++ [last]),
    (∃ now, a.1 = .capture o.orderId now) → ¬ IsCredit a.2

/-- `add_credits` was called for the order with its amount. -/
def CreditedIn (w : World) (o : PaymentOrder) (runs : List HandlerRun) : Prop :=
  ∃ a ∈ history w runs, IsCreditFor o a.2

/-- A credit of the order is made by a capture run of that order. -/
theorem isCapture_of_isCreditFor {w : World} {o : PaymentOrder} {runs : List HandlerRun}
    {a : Request × Reply Call Resp} (ha : a ∈ history w runs) (hcredit : IsCreditFor o a.2) :
    ∃ now, a.1 = .capture o.orderId now := by
  obtain ⟨⟨request, env⟩, -, w', hreq, hcall⟩ := mem_history ha
  cases request with
  | webhook event now =>
    exact absurd hcredit.isCredit (not_isCredit_webhook env event now w' _ hcall)
  | capture orderId now =>
    obtain ⟨clientId, amount, hc⟩ :=
      eq_of_isCredit_capture env orderId now w' _ hcall hcredit.isCredit
    obtain ⟨clientId', description, hc', -, htext⟩ := hcredit
    rw [hc'] at hc
    injection hc with _ _ hdescription
    refine ⟨now, hreq.trans (congrArg (Request.capture · now) ?_)⟩
    rcases htext with rfl | rfl
    · have h := congrArg String.toList hdescription
      simp only [String.toList_append, toString] at h
      exact (String.toList_inj.mp (List.append_inj_right h rfl)).symm
    · exact absurd (congrArg String.toList hdescription) (by simp [toString])

/-- **A payment only the webhook reports is never credited.** -/
theorem not_creditedIn_of_paidByWebhook {w : World} {o : PaymentOrder} {runs : List HandlerRun}
    {last : HandlerRun} (h : PaidByWebhook w o runs last) : ¬ CreditedIn w o (runs ++ [last]) :=
  fun ⟨a, ha, hcredit⟩ =>
    h.uncaptured a ha (isCapture_of_isCreditFor ha hcredit) hcredit.isCredit

/-! ### An order whose capture response got lost -/

/-- An order of ten dollars that PayPal has not captured yet. -/
def openOrder : PaymentOrder where
  orderId := "O-1"
  clientId := some "test_client"
  amount := 10
  currency := "USD"
  status := .pending
  transactionId := none
  webhookVerified := false
  createdAt := "t0"
  completedAt := none
  failedAt := none
  refundedAt := none

/-- A world with the open order only. -/
def openWorld : World where
  orders := ⟨[openOrder], List.nodup_singleton _⟩
  ledger := []

/-- Everything returns; PayPal reports the capture complete and the signature valid. -/
def smooth : Environment := fun _ => ⟨.returns, ⟨.completed, some "CAP-1"⟩, true⟩

/-- PayPal captures the order, but its response never arrives. -/
def lostCapture : HandlerRun where
  request := .capture "O-1" "t1"
  env := fun c => match c with
    | .captureOrder _ => ⟨.lost "timeout", ⟨.completed, some "CAP-1"⟩, true⟩
    | _ => smooth c

/-- PayPal's webhook for that capture. -/
def completedWebhook : HandlerRun where
  request := .webhook ⟨.captureCompleted, some "CAP-1", some "O-1"⟩ "t2"
  env := smooth

theorem completesWebhook_completedWebhook : completedWebhook.CompletesWebhook "O-1" :=
  ⟨_, _, rfl, rfl, rfl, fun _ => ⟨rfl, rfl⟩⟩

theorem paidByWebhook_lostCapture :
    PaidByWebhook openWorld openOrder [lostCapture] completedWebhook where
  stored := rfl
  client := by decide
  notCompleted := by decide
  paid := completesWebhook_completedWebhook
  uncaptured := by
    intro a ha
    have hhistory : history openWorld ([lostCapture] ++ [completedWebhook]) =
        [(lostCapture.request, ⟨.captureOrder "O-1", .error "timeout"⟩),
          (completedWebhook.request,
            ⟨.verifyWebhookSignature ⟨.captureCompleted, some "CAP-1", some "O-1"⟩, .ok true⟩),
          (completedWebhook.request,
            ⟨.updatePaymentOrder "O-1" (webhookUpdate (some "CAP-1") "t2"),
              .ok (some (openOrder.update (webhookUpdate (some "CAP-1") "t2")))⟩),
          (completedWebhook.request,
            ⟨.getPaymentOrder "O-1",
              .ok (some (openOrder.update (webhookUpdate (some "CAP-1") "t2")))⟩)] := rfl
    rw [hhistory] at ha
    rcases a with ⟨request, reply⟩
    simp only [List.mem_cons, List.not_mem_nil, or_false, Prod.mk.injEq] at ha
    rcases ha with ⟨-, rfl⟩ | ⟨-, rfl⟩ | ⟨-, rfl⟩ | ⟨-, rfl⟩ <;> exact fun _ h => h

/-- The client paid ten dollars and gets nothing. -/
theorem not_creditedIn_lostCapture :
    ¬ CreditedIn openWorld openOrder ([lostCapture] ++ [completedWebhook]) :=
  not_creditedIn_of_paidByWebhook paidByWebhook_lostCapture

/-- Paid orders do lose their credits. -/
theorem not_forall_creditedIn :
    ¬ ∀ (w : World) (o : PaymentOrder) (runs : List HandlerRun) (last : HandlerRun),
      PaidByWebhook w o runs last → CreditedIn w o (runs ++ [last]) := by
  intro h
  have hpaid := paidByWebhook_lostCapture
  obtain ⟨a, ha, hcredit⟩ := h _ _ _ _ hpaid
  exact hpaid.uncaptured a ha (isCapture_of_isCreditFor ha hcredit) hcredit.isCredit

/-! ## A capture that fails midway -/

/-- What a call that takes effect adds to the ledger. -/
def booking : Call → List LedgerEntry
  | .addCredits clientId amount description => [⟨.add, clientId, amount, description⟩]
  | .deductCredits clientId amount description => [⟨.deduct, clientId, amount, description⟩]
  | _ => []

theorem ledger_effect (x : Answer) (w : World) (c : Call) :
    (effect x w c).2.ledger = w.ledger ++ booking c := by
  cases c <;> simp [effect, booking]

section Ledger

variable (env : Environment)

/-- What a call adds to the ledger, as the environment lets it go. -/
def Environment.booked (c : Call) : List LedgerEntry :=
  match (env c).outcome with
  | .raises _ => []
  | _ => booking c

theorem ledger_meet (w : World) (c : Call) :
    (env.meet w c).2.ledger = w.ledger ++ env.booked c := by
  simp only [Environment.meet, answer, Environment.booked]
  cases (env c).outcome with
  | returns => exact ledger_effect _ w c
  | raises message => exact (List.append_nil _).symm
  | lost message => exact ledger_effect _ w c

/-- **The ledger grows by what the calls book.** -/
theorem ledger_exec {α : Type} (p : Prog Call Resp α) (w : World) :
    (p.exec env.meet w).2.ledger =
      w.ledger ++ (p.calls env.meet w).flatMap fun a => env.booked a.1 := by
  induction p generalizing w with
  | ret a => exact (List.append_nil _).symm
  | call c k ih =>
    rw [Prog.exec_call, Prog.calls_call, ih, ledger_meet, List.flatMap_cons, List.append_assoc]

/-- What a call books, it would book. -/
theorem mem_booking_of_mem_booked {c : Call} {e : LedgerEntry} (he : e ∈ env.booked c) :
    e ∈ booking c := by
  simp only [Environment.booked] at he
  split at he
  · exact absurd he List.not_mem_nil
  · exact he

/-- Only `add_credits` adds. -/
theorem isCredit_of_mem_booked {a : Reply Call Resp} {e : LedgerEntry} (he : e ∈ env.booked a.1)
    (hkind : e.kind = .add) : IsCredit a := by
  obtain ⟨c, r⟩ := a
  have hbooking := mem_booking_of_mem_booked env he
  cases c <;> simp_all [booking, IsCredit]

end Ledger

/-- The run books the order's amount for its client. -/
def HandlerRun.Books (run : HandlerRun) (w : World) (o : PaymentOrder) : Prop :=
  ∃ clientId description, o.clientId = some clientId ∧
    (run.respond w).2.ledger = w.ledger ++ [⟨.add, clientId, o.amount, description⟩]

theorem not_books_webhook (env : Environment) (event : WebhookEvent) (now : String) (w : World)
    (o : PaymentOrder) : ¬ (⟨.webhook event now, env⟩ : HandlerRun).Books w o := by
  rintro ⟨clientId, description, -, hledger⟩
  rw [HandlerRun.respond, ledger_exec] at hledger
  have hbooked := List.append_cancel_left hledger
  obtain ⟨a, ha, he⟩ := List.mem_flatMap.mp (hbooked ▸ List.mem_singleton_self _)
  exact not_isCredit_webhook env event now w a ha (isCredit_of_mem_booked env he rfl)

/-- A capture run of the order either books it, or leaves a world in which a later webhook for the
order does. -/
def Recoverable (w : World) (o : PaymentOrder) (env : Environment) (now : String) : Prop :=
  (⟨.capture o.orderId now, env⟩ : HandlerRun).Books w o ∨
    ∃ later : HandlerRun, later.CompletesWebhook o.orderId ∧
      later.Books ((⟨.capture o.orderId now, env⟩ : HandlerRun).respond w).2 o

theorem recoverable_iff_books (w : World) (o : PaymentOrder) (env : Environment) (now : String) :
    Recoverable w o env now ↔ (⟨.capture o.orderId now, env⟩ : HandlerRun).Books w o := by
  refine or_iff_left ?_
  rintro ⟨⟨request, env'⟩, ⟨event, now', rfl, -⟩, hbooks⟩
  exact not_books_webhook env' event now' _ o hbooks

section Await

variable {env : Environment} {c : Call} {w : World} (f : Ret c → Try Response)
  (onError : String → Response)

/-- A `try` block whose first call returns goes on… -/
theorem exec_await_returns (h : (env c).outcome = .returns) :
    (tryExcept (await c >>= f) onError).exec env.meet w =
      (tryExcept (f (effect (env c) w c).1) onError).exec env.meet (effect (env c) w c).2 := by
  rw [tryExcept_await, Prog.exec_call, Environment.meet, answer, h]

/-- …and is over if that call raises, without… -/
theorem exec_await_raises {message : String} (h : (env c).outcome = .raises message) :
    (tryExcept (await c >>= f) onError).exec env.meet w = (onError message, w) := by
  rw [tryExcept_await, Prog.exec_call, Environment.meet, answer, h]
  rfl

/-- …or with effect. -/
theorem exec_await_lost {message : String} (h : (env c).outcome = .lost message) :
    (tryExcept (await c >>= f) onError).exec env.meet w =
      (onError message, (effect (env c) w c).2) := by
  rw [tryExcept_await, Prog.exec_call, Environment.meet, answer, h]
  rfl

end Await

section Capture

variable {w : World} {o : PaymentOrder} {env : Environment} {clientId now : String}
variable (hstored : w.orders.getPaymentOrder o.orderId = some o)
variable (hclient : o.truthyClientId = some clientId)
variable (hcaptured : (env (.captureOrder o.orderId)).outcome = .returns)
variable (hcompleted : (env (.captureOrder o.orderId)).capture.status = .completed)

/-- No call after the capture call fails: the order is read and updated, and `add_credits` takes
effect. -/
def Unfailing (env : Environment) (o : PaymentOrder) (clientId now : String) : Prop :=
  (env (.getPaymentOrder o.orderId)).outcome = .returns ∧
    (env (.updatePaymentOrder o.orderId
      (captureUpdate (env (.captureOrder o.orderId)).capture.transactionId now))).outcome =
        .returns ∧
    ∀ message, (env (.addCredits clientId o.amount
      s!"PayPal payment - Order: {o.orderId}")).outcome ≠ .raises message

include hstored hclient hcaptured hcompleted

/-- **A capture run books its order exactly if none of its calls fails.** -/
theorem books_capture_iff :
    (⟨.capture o.orderId now, env⟩ : HandlerRun).Books w o ↔ Unfailing env o clientId now := by
  have hid : o.clientId = some clientId := (Option.filter_eq_some_iff.mp hclient).1
  simp only [HandlerRun.Books, HandlerRun.respond, handler, capturePaymentOrder, Unfailing]
  rw [exec_await_returns _ _ hcaptured]
  simp only [effect, hcompleted, if_true]
  cases hget : (env (.getPaymentOrder o.orderId)).outcome with
  | raises message =>
    rw [exec_await_raises _ _ hget]
    simp
  | lost message =>
    rw [exec_await_lost _ _ hget]
    simp [effect]
  | returns =>
    rw [exec_await_returns _ _ hget]
    simp only [effect, hstored]
    cases hupdate : (env (.updatePaymentOrder o.orderId
        (captureUpdate (env (.captureOrder o.orderId)).capture.transactionId now))).outcome with
    | raises message =>
      rw [exec_await_raises _ _ hupdate]
      simp
    | lost message =>
      rw [exec_await_lost _ _ hupdate]
      simp [effect]
    | returns =>
      rw [exec_await_returns _ _ hupdate]
      simp only [effect, hclient]
      cases hadd : (env (.addCredits clientId o.amount
          s!"PayPal payment - Order: {o.orderId}")).outcome with
      | raises message =>
        rw [exec_await_raises _ _ hadd]
        simp
      | lost message =>
        rw [exec_await_lost _ _ hadd]
        simp [effect, hid]
      | returns =>
        rw [exec_await_returns _ _ hadd]
        simp [effect, hid]

/-- **A failure midway through a capture is never made up for**: the order can be recovered exactly
if there is nothing to recover from. -/
theorem recoverable_iff_unfailing :
    Recoverable w o env now ↔ Unfailing env o clientId now :=
  (recoverable_iff_books w o env now).trans
    (books_capture_iff hstored hclient hcaptured hcompleted)

end Capture

/-- With no failure, the open order is credited. -/
theorem recoverable_smooth : Recoverable openWorld openOrder smooth "t1" :=
  (recoverable_iff_unfailing rfl (rfl : openOrder.truthyClientId = some "test_client") rfl rfl).mpr
    ⟨rfl, rfl, fun _ h => nomatch h⟩

/-- `add_credits` is not defined in `BillingService`, so calling it raises. -/
def noAddCredits : Environment := fun c => match c with
  | .addCredits _ _ _ => ⟨.raises "no attribute 'add_credits'", ⟨.created, none⟩, true⟩
  | _ => smooth c

/-- A failed credit is not recoverable. -/
theorem not_forall_recoverable :
    ¬ ∀ (w : World) (o : PaymentOrder) (env : Environment) (clientId now : String),
      w.orders.getPaymentOrder o.orderId = some o → o.truthyClientId = some clientId →
      (env (.captureOrder o.orderId)).outcome = .returns →
      (env (.captureOrder o.orderId)).capture.status = .completed →
      Recoverable w o env now := by
  intro h
  have hbooks := (recoverable_iff_books _ _ _ _).mp
    (h openWorld openOrder noAddCredits "test_client" "t1" rfl rfl rfl rfl)
  obtain ⟨-, -, hadd⟩ := (books_capture_iff rfl rfl rfl rfl).mp hbooks
  exact hadd _ rfl

end Paypal

end BioShield
