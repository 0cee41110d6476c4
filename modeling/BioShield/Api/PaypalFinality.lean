import BioShield.Api.PaypalCredits

/-!
# Api/PaypalFinality — whether `REFUNDED` is final

Every branch of the handlers writes its status whatever the order's is, so an event that arrives
late, or twice, takes a refunded order back.  `REFUNDED` is final in exactly those sequences of runs
in which, while the order is refunded, no capture of it and no webhook about its capture gets as far
as its update (`refundedIsFinal_iff_along`).
-/

namespace BioShield

open Machinery

namespace Paypal

/-- The handlers, one run after another; each run is answered. -/
def server : Machine World HandlerRun (HandlerRun × Response) where
  step w run := some ((run.respond w).2, [(run, (run.respond w).1)])

/-- From any moment of the runs at which the order is refunded, it is refunded at every later one,
and the statistics are those of a table without it. -/
def RefundedIsFinal (orderId : String) (w : World) (runs : List HandlerRun) : Prop :=
  ∀ pre mid post w₁ w₂ o o', runs = pre ++ mid ++ post → server.run w pre = some (w₁, o) →
    server.run w₁ mid = some (w₂, o') → w₁.orders.IsRefunded orderId →
      w₂.orders.IsRefunded orderId ∧
        ∀ days, w₂.orders.getTransactionStats days =
          (w₂.orders.without orderId).getTransactionStats days

theorem refundedIsFinal_iff_stays {orderId : String} {w : World} {runs : List HandlerRun} :
    RefundedIsFinal orderId w runs ↔
      server.Stays (fun w => w.orders.IsRefunded orderId) w runs := by
  refine forall₅_congr fun _ _ _ _ _ => forall₂_congr fun _ _ => ?_
  exact forall₄_congr fun _ _ _ _ =>
    ⟨And.left, fun h => ⟨h, PaymentOrders.getTransactionStats_without h⟩⟩

/-! ## The runs that overwrite -/

/-- The call has its effect, whatever its caller hears of it. -/
def Environment.TakesEffect (env : Environment) (c : Call) : Prop :=
  ∀ message, (env c).outcome ≠ .raises message

instance (env : Environment) (c : Call) : Decidable (env.TakesEffect c) :=
  match h : (env c).outcome with
  | .returns => isTrue fun _ hm => nomatch h.symm.trans hm
  | .lost _ => isTrue fun _ hm => nomatch h.symm.trans hm
  | .raises message => isFalse fun hm => hm message h

theorem Environment.TakesEffect.of_returns {env : Environment} {c : Call}
    (h : (env c).outcome = .returns) : env.TakesEffect c := fun _ hm => nomatch h.symm.trans hm

/-- What the capture route writes when PayPal reports anything but a complete capture. -/
def failedUpdate (now : String) : OrderUpdate := { status := .failed, failedAt := some now }

/-- What the webhook writes for a denied capture. -/
def deniedUpdate (now : String) : OrderUpdate := { status := .denied, failedAt := some now }

/-- The event is about the order's capture, and the update it leads to takes effect. -/
def Environment.EventOverwrites (env : Environment) (orderId : String) (event : WebhookEvent)
    (now : String) : Prop :=
  event.truthyOrderId = some orderId ∧
    match event.eventType with
    | .captureCompleted =>
      env.TakesEffect (.updatePaymentOrder orderId (webhookUpdate event.resourceId now))
    | .captureDenied => env.TakesEffect (.updatePaymentOrder orderId (deniedUpdate now))
    | .captureRefunded | .other _ => False

/-- The run gets as far as writing `COMPLETED`, `FAILED` or `DENIED` to the order: it is a capture
of the order that PayPal answers, or a verified webhook about the order's capture, and its update
takes effect. -/
def HandlerRun.Overwrites (orderId : String) : HandlerRun → Prop
  | ⟨.capture id now, env⟩ =>
    id = orderId ∧ (env (.captureOrder id)).outcome = .returns ∧
      if (env (.captureOrder id)).capture.status = .completed then
        (env (.getPaymentOrder id)).outcome = .returns ∧ env.TakesEffect (.updatePaymentOrder id
          (captureUpdate (env (.captureOrder id)).capture.transactionId now))
      else env.TakesEffect (.updatePaymentOrder id (failedUpdate now))
  | ⟨.webhook event now, env⟩ =>
    (env (.verifyWebhookSignature event)).outcome = .returns ∧
      (env (.verifyWebhookSignature event)).verified = true ∧
        env.EventOverwrites orderId event now

section Await

variable {env : Environment} {orderId : String} {w : World}

/-- Whichever way a call goes, it has its effect or none. -/
theorem meet_keeps {Q : World → Prop} {c : Call} (hw : Q w) (heffect : Q (effect (env c) w c).2) :
    Q (env.meet w c).2 := by
  simp only [Environment.meet, answer]
  cases (env c).outcome with
  | returns => exact heffect
  | raises message => exact hw
  | lost message => exact heffect

/-- A call that leaves the order refunded, if it is. -/
def KeepsRefunded (orderId : String) : Call → Prop
  | .updatePaymentOrder id u => id = orderId → u.status = .refunded
  | _ => True

theorem isRefunded_effect {c : Call} (hc : KeepsRefunded orderId c) (x : Answer)
    (hw : w.orders.IsRefunded orderId) : (effect x w c).2.orders.IsRefunded orderId := by
  cases c with
  | updatePaymentOrder id u =>
    exact (PaymentOrders.isRefunded_updatePaymentOrder_iff _ hw).mpr hc
  | _ => exact hw

/-- A call that updates no order. -/
def UpdatesNothing : Call → Prop
  | .updatePaymentOrder _ _ => False
  | _ => True

theorem UpdatesNothing.keepsRefunded {c : Call} (hc : UpdatesNothing c) :
    KeepsRefunded orderId c := by
  cases c with
  | updatePaymentOrder id u => exact hc.elim
  | _ => trivial

theorem orders_meet {c : Call} (hc : UpdatesNothing c) : (env.meet w c).2.orders = w.orders := by
  refine meet_keeps (Q := fun w' => w'.orders = w.orders) rfl ?_
  cases c with
  | updatePaymentOrder id u => exact hc.elim
  | _ => rfl

/-- A `try` block that starts with a call that is no threat leaves the order refunded exactly if its
rest does, should that call return… -/
theorem isRefunded_await_iff {c : Call} (hc : KeepsRefunded orderId c) (f : Ret c → Try Response)
    (onError : String → Response) (hw : w.orders.IsRefunded orderId) :
    ((tryExcept (await c >>= f) onError).exec env.meet w).2.orders.IsRefunded orderId ↔
      ((env c).outcome = .returns →
        ((tryExcept (f (effect (env c) w c).1) onError).exec env.meet
          (effect (env c) w c).2).2.orders.IsRefunded orderId) := by
  cases ho : (env c).outcome with
  | returns => rw [exec_await_returns _ _ ho, forall_prop_of_true rfl]
  | raises message =>
    rw [exec_await_raises _ _ ho]
    exact iff_of_true hw nofun
  | lost message =>
    rw [exec_await_lost _ _ ho]
    exact iff_of_true (isRefunded_effect hc _ hw) nofun

/-- What every call of a program keeps, it keeps. -/
theorem isRefunded_exec {p : Prog Call Resp Response}
    (hcalls : ∀ b ∈ p.calls env.meet w, KeepsRefunded orderId b.1)
    (hw : w.orders.IsRefunded orderId) : (p.exec env.meet w).2.orders.IsRefunded orderId :=
  Prog.exec_keeps (Q := fun w : World => w.orders.IsRefunded orderId) env.meet
    (fun b hb _ h => meet_keeps (Q := fun w : World => w.orders.IsRefunded orderId) h
      (isRefunded_effect (hcalls b hb) _ h)) hw

/-- …and one that starts by writing another status, exactly unless that takes effect on the order,
should it write nothing after. -/
theorem isRefunded_await_update_iff {id : String} {u : OrderUpdate} (hu : u.status ≠ .refunded)
    (f : Option PaymentOrder → Try Response) (onError : String → Response)
    (hrest : ∀ a w', ∀ b ∈ (tryExcept (f a) onError).calls env.meet w', UpdatesNothing b.1)
    (hw : w.orders.IsRefunded orderId) :
    ((tryExcept (await (.updatePaymentOrder id u) >>= f) onError).exec env.meet
        w).2.orders.IsRefunded orderId ↔
      ¬ (id = orderId ∧ env.TakesEffect (.updatePaymentOrder id u)) := by
  by_cases hid : id = orderId
  · subst hid
    have hlost : ¬ (w.orders.updatePaymentOrder id u).IsRefunded id := fun h =>
      hu ((PaymentOrders.isRefunded_updatePaymentOrder_iff _ hw).mp h rfl)
    simp only [Environment.TakesEffect, true_and]
    cases ho : (env (.updatePaymentOrder id u)).outcome with
    | returns =>
      rw [exec_await_returns _ _ ho]
      refine iff_of_false (fun h => hlost ?_) fun h => h nofun
      refine Eq.subst (motive := fun orders : PaymentOrders => orders.IsRefunded id) ?_ h
      exact Prog.exec_keeps (Q := fun w' : World =>
        w'.orders = w.orders.updatePaymentOrder id u) env.meet
        (fun b hb w' hw' => (orders_meet (hrest _ _ b hb)).trans hw') rfl
    | raises message =>
      rw [exec_await_raises _ _ ho]
      exact iff_of_true hw fun h => h message rfl
    | lost message =>
      rw [exec_await_lost _ _ ho]
      exact iff_of_false hlost fun h => h nofun
  · refine iff_of_true (isRefunded_exec ?_ hw) fun h => hid h.1
    exact forall_calls_await env (fun _ h => absurd h hid) fun a w' _ b hb =>
      (hrest a w' b hb).keepsRefunded

end Await

/-! ## One run -/

section Runs

variable {env : Environment} {orderId : String} {w : World} (hw : w.orders.IsRefunded orderId)

include hw

/-- **A capture run takes the refund back exactly if it overwrites**… -/
theorem isRefunded_capture_iff (id now : String) :
    ((⟨.capture id now, env⟩ : HandlerRun).respond w).2.orders.IsRefunded orderId ↔
      ¬ (⟨.capture id now, env⟩ : HandlerRun).Overwrites orderId := by
  simp only [HandlerRun.respond, handler, capturePaymentOrder, HandlerRun.Overwrites]
  rw [isRefunded_await_iff (c := .captureOrder id) trivial _ _ hw, and_left_comm, not_and]
  refine imp_congr_right fun _ => ?_
  by_cases hstatus : (env (.captureOrder id)).capture.status = .completed
  · simp only [effect, hstatus, if_true]
    rw [isRefunded_await_iff (c := .getPaymentOrder id) trivial _ _ hw, and_left_comm, not_and]
    refine imp_congr_right fun _ => ?_
    simp only [effect]
    cases horder : w.orders.getPaymentOrder id with
    | none =>
      refine iff_of_true hw fun h => ?_
      obtain ⟨o, ho, -⟩ := Option.map_eq_some_iff.mp hw
      rw [← h.1, horder] at ho
      cases ho
    | some o =>
      refine isRefunded_await_update_iff (show OrderStatus.completed ≠ .refunded by decide) _ _
        (fun _ w' => ?_) hw
      cases o.truthyClientId with
      | none => exact forall_calls_return env
      | some clientId =>
        exact forall_calls_await env (fun _ => trivial) fun _ _ _ => forall_calls_return env
  · simp only [effect, hstatus, if_false]
    exact isRefunded_await_update_iff (show OrderStatus.failed ≠ .refunded by decide) _ _
      (fun _ _ => forall_calls_return env) hw

omit hw in
/-- After its update, the branch of a completed capture writes nothing. -/
theorem exists_captureCompleted_eq (id : String) (captureId : Option String) (now : String)
    (onError : String → Response) :
    ∃ f, captureCompleted id captureId now =
        (await (.updatePaymentOrder id (webhookUpdate captureId now)) >>= f) ∧
      ∀ a w', ∀ b ∈ (tryExcept (f a) onError).calls env.meet w', UpdatesNothing b.1 := by
  refine ⟨_, rfl, fun _ w' => ?_⟩
  refine forall_calls_await env (fun _ => trivial) fun order _ _ => ?_
  cases order with
  | none => exact forall_calls_return env
  | some order =>
    by_cases hstatus : order.status ≠ .completed
    · dsimp only
      rw [if_pos hstatus]
      cases order.truthyClientId with
      | none => exact forall_calls_return env
      | some clientId =>
        exact forall_calls_await env (fun _ => trivial) fun _ _ _ => forall_calls_return env
    · dsimp only
      rw [if_neg hstatus]
      exact forall_calls_return env

theorem isRefunded_handleEvent_iff (event : WebhookEvent) (now : String)
    (onError : String → Response) :
    ((tryExcept (handleEvent event now) onError).exec env.meet w).2.orders.IsRefunded orderId ↔
      ¬ env.EventOverwrites orderId event now := by
  have hsame : ∀ (id : String) (u : OrderUpdate),
      (id = orderId ∧ env.TakesEffect (.updatePaymentOrder id u)) ↔
        (some id = some orderId ∧ env.TakesEffect (.updatePaymentOrder orderId u)) := fun id u => by
    rw [Option.some.injEq]
    exact and_congr_right fun h => by rw [h]
  simp only [handleEvent, Environment.EventOverwrites]
  cases event.eventType with
  | captureCompleted =>
    cases event.truthyOrderId with
    | none => exact iff_of_true hw nofun
    | some id =>
      obtain ⟨f, hf, hrest⟩ := exists_captureCompleted_eq id event.resourceId now onError
      simp only [hf]
      rw [isRefunded_await_update_iff (show OrderStatus.completed ≠ .refunded by decide) f _ hrest
        hw, hsame]
  | captureDenied =>
    cases event.truthyOrderId with
    | none => exact iff_of_true hw nofun
    | some id =>
      rw [← hsame]
      exact isRefunded_await_update_iff (show OrderStatus.denied ≠ .refunded by decide) _ _
        (fun _ _ => forall_calls_return env) hw
  | captureRefunded =>
    refine iff_of_true (isRefunded_exec ?_ hw) fun h => h.2
    exact forall_calls_captureRefunded env (fun _ => trivial) (fun _ _ _ => rfl)
      fun _ _ _ _ => trivial
  | other name => exact iff_of_true hw fun h => h.2

/-- …and so does a webhook run. -/
theorem isRefunded_webhook_iff (event : WebhookEvent) (now : String) :
    ((⟨.webhook event now, env⟩ : HandlerRun).respond w).2.orders.IsRefunded orderId ↔
      ¬ (⟨.webhook event now, env⟩ : HandlerRun).Overwrites orderId := by
  simp only [HandlerRun.respond, handler, paypalWebhook, HandlerRun.Overwrites]
  rw [isRefunded_await_iff (c := .verifyWebhookSignature event) trivial _ _ hw, not_and]
  refine imp_congr_right fun _ => ?_
  by_cases hverified : (env (.verifyWebhookSignature event)).verified = true
  · simp only [effect, hverified, if_true, true_and]
    exact isRefunded_handleEvent_iff hw event now _
  · simp only [effect, hverified]
    exact iff_of_true hw fun h => Bool.false_ne_true h.1

end Runs

theorem isRefunded_respond_iff {orderId : String} {w : World} (hw : w.orders.IsRefunded orderId)
    (run : HandlerRun) :
    (run.respond w).2.orders.IsRefunded orderId ↔ ¬ run.Overwrites orderId := by
  obtain ⟨request, env⟩ := run
  cases request with
  | capture id now => exact isRefunded_capture_iff hw id now
  | webhook event now => exact isRefunded_webhook_iff hw event now

/-- **When `REFUNDED` is final**: in a sequence of runs, exactly if none that is made while the
order is refunded gets as far as writing another status to it. -/
theorem refundedIsFinal_iff_along (orderId : String) (w : World) (runs : List HandlerRun) :
    RefundedIsFinal orderId w runs ↔
      server.Along (fun w run => w.orders.IsRefunded orderId → ¬ run.Overwrites orderId) w
        runs := by
  rw [refundedIsFinal_iff_stays, Machine.stays_iff_along]
  refine iff_of_eq (congrArg (server.Along · w runs) (funext₂ fun w run => propext ?_))
  constructor
  · exact fun h hw => (isRefunded_respond_iff hw run).mp (h _ _ rfl hw)
  · rintro h w' o hstep hw
    obtain ⟨rfl, -⟩ := Prod.mk.inj (Option.some.inj hstep)
    exact (isRefunded_respond_iff hw run).mpr (h hw)

/-! ## A late webhook -/

/-- The order is captured, and PayPal reports a refund. -/
def refundedRuns : List HandlerRun :=
  [⟨.capture "O-1" "t1", smooth⟩, ⟨.webhook ⟨.captureRefunded, some "CAP-1", none⟩ "t2", smooth⟩]

/-- The webhook about the capture is delivered after the refund. -/
theorem not_forall_refundedIsFinal :
    ¬ ∀ (orderId : String) (w : World) (runs : List HandlerRun),
      RefundedIsFinal orderId w runs := by
  intro h
  have hfinal := h "O-1" openWorld (refundedRuns ++ [completedWebhook]) refundedRuns
    [completedWebhook] [] _ _ _ _ (List.append_nil _).symm rfl rfl (by decide)
  exact absurd hfinal.1 (by decide)

end Paypal

end BioShield
