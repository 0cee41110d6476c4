import BioShield.Machinery.Process
import BioShield.Api.PaymentOrders

/-!
# Api/Paypal — the capture route and the webhook (`api/routers/paypal.py`)

The two handlers are programs over the calls they await: PayPal's own, those of `DatabaseService`
and those of `BillingService`.  Any call may raise, with or without having taken effect, and a
handler's `except` turns whatever was raised into a response.

`add_credits` and `deduct_credits` have no body in `api/services/billing_service.py`; they append
to a ledger here.
-/

namespace BioShield

open Machinery

namespace Paypal

/-- The status of a PayPal order, as its capture call reports it. -/
inductive CaptureStatus
  | created | saved | approved | voided | completed | payerActionRequired
  deriving DecidableEq

/-- What `paypal_service.capture_order` returns. -/
structure CaptureResult where
  status : CaptureStatus
  transactionId : Option String
  deriving DecidableEq

/-- `event_type` of a webhook event. -/
inductive EventType
  | captureCompleted | captureDenied | captureRefunded
  | other (name : String)
  deriving DecidableEq

/-- A webhook event: its type, its resource's id and the order id among the related ids. -/
structure WebhookEvent where
  eventType : EventType
  resourceId : Option String
  orderId : Option String
  deriving DecidableEq

namespace WebhookEvent

/-- `if order_id:` — the order the event names, unless that is empty. -/
def truthyOrderId (event : WebhookEvent) : Option String := event.orderId.filter (· ≠ "")

end WebhookEvent

/-! ## The calls -/

/-- The calls a handler awaits. -/
inductive Call
  | captureOrder (orderId : String)
  | verifyWebhookSignature (event : WebhookEvent)
  | getPaymentOrder (orderId : String)
  | getPaymentOrderByTransaction (transactionId : Option String)
  | updatePaymentOrder (orderId : String) (updates : OrderUpdate)
  | addCredits (clientId : String) (amount : ℚ) (description : String)
  | deductCredits (clientId : String) (amount : ℚ) (description : String)
  deriving DecidableEq

/-- What a call returns. -/
abbrev Ret : Call → Type
  | .captureOrder _ => CaptureResult
  | .verifyWebhookSignature _ => Bool
  | .getPaymentOrder _ | .getPaymentOrderByTransaction _ | .updatePaymentOrder _ _ =>
      Option PaymentOrder
  | .addCredits _ _ _ | .deductCredits _ _ _ => Unit

/-- A call answers, or raises with a message. -/
abbrev Resp (c : Call) : Type := Except String (Ret c)

/-- The two kinds of ledger entry. -/
inductive LedgerKind
  | add | deduct
  deriving DecidableEq

/-- A booking on a client's credit account. -/
structure LedgerEntry where
  kind : LedgerKind
  clientId : String
  amount : ℚ
  description : String
  deriving DecidableEq

/-- The state all workers share: the orders and the credit ledger. -/
structure World where
  orders : PaymentOrders
  ledger : List LedgerEntry

/-- How a call goes. -/
inductive Outcome
  /-- It takes effect and returns. -/
  | returns
  /-- It raises without effect. -/
  | raises (message : String)
  /-- It takes effect, but the caller gets an exception. -/
  | lost (message : String)
  deriving DecidableEq

/-- How the environment meets a call; the last two fields are PayPal's answers, if it is asked. -/
structure Answer where
  outcome : Outcome
  capture : CaptureResult
  verified : Bool

/-- A call that takes effect. -/
def effect (x : Answer) (w : World) : (c : Call) → Ret c × World
  | .captureOrder _ => (x.capture, w)
  | .verifyWebhookSignature _ => (x.verified, w)
  | .getPaymentOrder orderId => (w.orders.getPaymentOrder orderId, w)
  | .getPaymentOrderByTransaction transactionId =>
      (w.orders.getPaymentOrderByTransaction transactionId, w)
  | .updatePaymentOrder orderId updates =>
      let orders := w.orders.updatePaymentOrder orderId updates
      (orders.getPaymentOrder orderId, { w with orders := orders })
  | .addCredits clientId amount description =>
      ((), { w with ledger := w.ledger ++ [⟨.add, clientId, amount, description⟩] })
  | .deductCredits clientId amount description =>
      ((), { w with ledger := w.ledger ++ [⟨.deduct, clientId, amount, description⟩] })

/-- A call as the environment lets it go. -/
def answer (x : Answer) (w : World) (c : Call) : Resp c × World :=
  match x.outcome with
  | .returns => (.ok (effect x w c).1, (effect x w c).2)
  | .raises message => (.error message, w)
  | .lost message => (.error message, (effect x w c).2)

/-! ## The handlers -/

/-- The body of a `try` block. -/
abbrev Try : Type → Type := ExceptT String (Prog Call Resp)

/-- Awaiting a call. -/
def await (c : Call) : Try (Ret c) := ExceptT.mk (Prog.perform c)

/-- What the handlers respond: the redirects of the capture route, the JSON of the webhook. -/
inductive Response
  /-- To `/payment/success?order_id=…&amount=…`. -/
  | success (orderId : String) (amount : ℚ)
  /-- To `/payment/failed?order_id=…`. -/
  | failed (orderId : String)
  /-- To `/payment/error?message=…`. -/
  | error (message : String)
  /-- 200, `{"status": "received"}`. -/
  | received
  /-- 401, `{"error": "Invalid signature"}`. -/
  | invalidSignature
  /-- 500, `{"error": …}`. -/
  | webhookError (message : String)
  deriving DecidableEq

/-- `try: … except Exception as e: …`. -/
def tryExcept (body : Try Response) (onError : String → Response) : Prog Call Resp Response := do
  match ← body.run with
  | .ok response => return response
  | .error e => return onError e

/-- **A `try` block call by call**: an answer goes on with the block, an exception leaves it. -/
theorem tryExcept_await {c : Call} (f : Ret c → Try Response) (onError : String → Response) :
    tryExcept (await c >>= f) onError =
      .call c fun r => match r with
        | .ok a => tryExcept (f a) onError
        | .error e => .ret (onError e) := by
  simp only [tryExcept, await, Prog.perform]
  refine congrArg (Prog.call c) (funext fun r => ?_)
  cases r <;> rfl

@[simp] theorem tryExcept_return (response : Response) (onError : String → Response) :
    tryExcept (pure response) onError = .ret response := rfl

/-- What the capture route writes once PayPal reported the capture complete. -/
def captureUpdate (transactionId : Option String) (now : String) : OrderUpdate where
  status := .completed
  transactionId := some transactionId
  completedAt := some now

/-- `capture_payment_order`, at time `now`. -/
def capturePaymentOrder (orderId now : String) : Prog Call Resp Response :=
  tryExcept (do
    let captureResult ← await (.captureOrder orderId)
    if captureResult.status = .completed then
      let order ← await (.getPaymentOrder orderId)
      match order with
      | some order => do
        let _ ← await (.updatePaymentOrder orderId
          (captureUpdate captureResult.transactionId now))
        match order.truthyClientId with
        | some clientId =>
          await (.addCredits clientId order.amount s!"PayPal payment - Order: {orderId}")
          return .success orderId order.amount
        | none => return .success orderId order.amount
      | none => return .success orderId 0
    else
      let _ ← await (.updatePaymentOrder orderId { status := .failed, failedAt := some now })
      return .failed orderId) .error

/-- What the webhook writes for a completed capture. -/
def webhookUpdate (captureId : Option String) (now : String) : OrderUpdate where
  status := .completed
  transactionId := some captureId
  webhookVerified := some true
  completedAt := some now

/-- `PAYMENT.CAPTURE.COMPLETED`. -/
def captureCompleted (orderId : String) (captureId : Option String) (now : String) :
    Try Response := do
  let _ ← await (.updatePaymentOrder orderId (webhookUpdate captureId now))
  -- Add credits (if not already added)
  let order ← await (.getPaymentOrder orderId)
  match order with
  | some order =>
    if order.status ≠ .completed then
      match order.truthyClientId with
      | some clientId =>
        await (.addCredits clientId order.amount s!"PayPal payment (webhook) - Order: {orderId}")
        return .received
      | none => return .received
    else return .received
  | none => return .received

/-- `PAYMENT.CAPTURE.DENIED`. -/
def captureDenied (orderId : String) (now : String) : Try Response := do
  let _ ← await (.updatePaymentOrder orderId { status := .denied, failedAt := some now })
  return .received

/-- `PAYMENT.CAPTURE.REFUNDED`. -/
def captureRefunded (captureId : Option String) (now : String) : Try Response := do
  let order ← await (.getPaymentOrderByTransaction captureId)
  match order with
  | some order => do
    let _ ← await (.updatePaymentOrder order.orderId
      { status := .refunded, refundedAt := some now })
    match order.truthyClientId with
    | some clientId =>
      await (.deductCredits clientId order.amount s!"PayPal refund - Order: {order.orderId}")
      return .received
    | none => return .received
  | none => return .received

/-- The branches of the webhook on the event type. -/
def handleEvent (event : WebhookEvent) (now : String) : Try Response :=
  match event.eventType with
  | .captureCompleted =>
    match event.truthyOrderId with
    | some orderId => captureCompleted orderId event.resourceId now
    | none => return .received
  | .captureDenied =>
    match event.truthyOrderId with
    | some orderId => captureDenied orderId now
    | none => return .received
  | .captureRefunded => captureRefunded event.resourceId now
  | .other _ => return .received

/-- `paypal_webhook`, at time `now`. -/
def paypalWebhook (event : WebhookEvent) (now : String) : Prog Call Resp Response :=
  tryExcept (do
    let isValid ← await (.verifyWebhookSignature event)
    if isValid then handleEvent event now else return .invalidSignature) .webhookError

/-- A request one of the two handlers serves. -/
inductive Request
  | capture (orderId now : String)
  | webhook (event : WebhookEvent) (now : String)
  deriving DecidableEq

/-- The handler of a request. -/
def handler : Request → Prog Call Resp Response
  | .capture orderId now => capturePaymentOrder orderId now
  | .webhook event now => paypalWebhook event now

end Paypal

end BioShield
