import BioShield.Api.PaypalFinality
import BioShield.Api.VoiceAudit
import BioShield.Api.AuthMiddleware

/-!
# Api/PaypalCheckout — what is charged and what is credited

An amount goes two ways: PayPal is told it with two decimals, ties to the even cent, while the
`DECIMAL(10,2)` column rounds ties away from zero; and the currency goes to PayPal and into its
column, where nobody reads it.  What is credited is what was charged exactly for orders in dollars
whose amount is no tie above an even cent (`chargedIsCredited_iff`).
-/

namespace BioShield

open Machinery

/-! ## Two ways to round -/

/-- The nearest integer, ties away from zero. -/
def roundHalfAway (x : ℚ) : ℤ := if 0 ≤ x then ⌊x + 1 / 2⌋ else ⌈x - 1 / 2⌉

theorem roundHalfAway_eq {x : ℚ} (hx : 0 ≤ x) :
    roundHalfAway x = if x - ⌊x⌋ < 1 / 2 then ⌊x⌋ else ⌊x⌋ + 1 := by
  have hlo := Int.floor_le x
  have hhi := Int.lt_floor_add_one x
  rw [roundHalfAway, if_pos hx]
  split_ifs with h
  · exact Int.floor_eq_iff.mpr ⟨by linarith, by linarith⟩
  · exact Int.floor_eq_iff.mpr ⟨by push_cast; linarith, by push_cast; linarith⟩

/-- **The two ways differ on the ties above an even integer**, and nowhere else. -/
theorem roundHalfAway_eq_roundHalfEven_iff {x : ℚ} (hx : 0 ≤ x) :
    roundHalfAway x = roundHalfEven x ↔ ¬ ∃ m : ℤ, x = 2 * m + 1 / 2 := by
  rw [roundHalfAway_eq hx, roundHalfEven]
  constructor
  · rintro h ⟨m, rfl⟩
    have hfloor : ⌊(2 * m + 1 / 2 : ℚ)⌋ = 2 * m :=
      Int.floor_eq_iff.mpr ⟨by push_cast; linarith, by push_cast; linarith⟩
    rw [hfloor] at h
    norm_num at h
  · intro h
    by_cases hlt : x - ⌊x⌋ < 1 / 2
    · rw [if_pos hlt, if_pos (.inl hlt)]
    · rw [if_neg hlt, if_neg]
      rintro (hlt' | ⟨htie, heven⟩)
      · exact hlt hlt'
      · refine h ⟨⌊x⌋ / 2, ?_⟩
        have htwo : 2 * (⌊x⌋ / 2) = ⌊x⌋ := Int.mul_ediv_cancel' (Int.dvd_of_emod_eq_zero heven)
        have hcast : (2 * (⌊x⌋ / 2 : ℤ) : ℚ) = ⌊x⌋ := by exact_mod_cast htwo
        rw [hcast]
        linarith

/-! ## Storing an order -/

/-- Assigning to a `DECIMAL(10,2)` column; out of range, it raises an error.  Only its equation
unfolds it: comparing with `10 ^ 10` by evaluation is slow. -/
@[irreducible] def toDecimal (x : ℚ) : Option ℚ :=
  if |roundHalfAway (100 * x)| < 10 ^ 10 then some (roundHalfAway (100 * x) / 100) else none

/-- Assigning to a `VARCHAR(n)` column: what is too long is an error, unless it is all blanks. -/
def toVarchar (n : ℕ) (s : String) : Option String :=
  if s.length ≤ n then some s
  else if (s.toList.drop n).all (· = ' ') then some (.ofList (s.toList.take n)) else none

namespace PaymentOrders

/-- `DatabaseService.create_payment_order`; `none` if the insertion raises an error. -/
def createPaymentOrder (t : PaymentOrders) (orderId : String) (clientId : Option String)
    (amount : ℚ) (currency createdAt : String) : Option PaymentOrders :=
  match toDecimal amount, toVarchar 3 currency with
  | some amount, some currency =>
    if h : orderId ∈ t.rows.map PaymentOrder.orderId then none
    else
      some {
        rows := t.rows ++ [{
          orderId := orderId
          clientId := clientId
          amount := amount
          currency := currency
          status := .pending
          transactionId := none
          webhookVerified := false
          createdAt := createdAt
          completedAt := none
          failedAt := none
          refundedAt := none }]
        unique := by
          rw [List.map_append]
          exact t.unique.append (List.nodup_singleton _) (List.disjoint_singleton.mpr h) }
  | _, _ => none

/-- **A new order is stored with the amount the column makes of it.** -/
theorem amount_createPaymentOrder {t t' : PaymentOrders} {orderId : String}
    {clientId : Option String} {amount : ℚ} {currency createdAt : String}
    (h : t.createPaymentOrder orderId clientId amount currency createdAt = some t') :
    (t'.getPaymentOrder orderId).map PaymentOrder.amount =
      some (roundHalfAway (100 * amount) / 100 : ℚ) := by
  rw [createPaymentOrder] at h
  split at h
  · next decimal varchar hdecimal hvarchar =>
    split_ifs at h with hnew
    obtain rfl := Option.some.inj h
    have hamount : (roundHalfAway (100 * amount) / 100 : ℚ) = decimal := by
      unfold toDecimal at hdecimal
      split_ifs at hdecimal
      exact Option.some.inj hdecimal
    rw [hamount]
    exact Option.map_eq_some_iff.mpr ⟨_, (getPaymentOrder_eq_some_iff _).mpr
      ⟨List.mem_append_right _ (List.mem_singleton_self _), rfl⟩, rfl⟩
  · cases h

end PaymentOrders

namespace Paypal

/-! ## Creating an order -/

/-- `CreatePaymentRequest`. -/
structure CreatePaymentRequest where
  amount : ℚ
  currency : String

/-- The `amount` and `custom_id` of `order_data`. -/
structure OrderBody where
  currencyCode : String
  value : TwoDecimals
  customId : String
  deriving DecidableEq

/-- What `PayPalService.create_order` tells PayPal. -/
def orderBody (amount : ℚ) (currency : String) (clientId : Option String) : OrderBody :=
  ⟨currency, .format amount, (clientId.filter (· ≠ "")).getD "anonymous"⟩

/-- What PayPal answers. -/
structure CreatedOrder where
  orderId : String
  approvalUrl : Option String

/-- How the calls of the route go: PayPal's answer, how the insertion goes, and what the database
says of a row it does not take. -/
structure CreateEnvironment where
  paypal : OrderBody → Except String CreatedOrder
  insert : Outcome
  rejection : String

/-- What the route returns. -/
structure CreatePaymentResponse where
  orderId : String
  approvalUrl : Option String
  amount : ℚ
  currency : String

/-- The client of a token, if there is one. -/
def clientOfToken (authorizationToken : Option String) : Option String :=
  (authorizationToken.filter (· ≠ "")).bind validateApiKey

/-- `create_payment_order`; its `except` catches its own 400. -/
def createPaymentOrder (env : CreateEnvironment) (request : CreatePaymentRequest)
    (authorizationToken : Option String) (now : String) (w : World) :
    Except HttpException CreatePaymentResponse × World :=
  let failed (message : String) : Except HttpException CreatePaymentResponse :=
    .error ⟨500, s!"Payment creation failed: {message}"⟩
  if request.amount ≤ 0 then (failed "400: Amount must be greater than 0", w)
  else
    let clientId := clientOfToken authorizationToken
    match env.paypal (orderBody request.amount request.currency clientId) with
    | .error message => (failed message, w)
    | .ok order =>
      match env.insert, w.orders.createPaymentOrder order.orderId clientId request.amount
        request.currency now with
      | .raises message, _ => (failed message, w)
      | _, none => (failed env.rejection, w)
      | .lost message, some orders => (failed message, { w with orders := orders })
      | .returns, some orders =>
        (.ok ⟨order.orderId, order.approvalUrl, request.amount, request.currency⟩,
          { w with orders := orders })

/-- The order is stored with this amount. -/
def StoredAmount (orderId : String) (amount : ℚ) (w : World) : Prop :=
  (w.orders.getPaymentOrder orderId).map PaymentOrder.amount = some amount

/-- An accepted order has a positive amount and is stored with it, rounded. -/
theorem storedAmount_of_accepted {env : CreateEnvironment} {request : CreatePaymentRequest}
    {authorizationToken : Option String} {now : String} {w w' : World}
    {response : CreatePaymentResponse}
    (h : createPaymentOrder env request authorizationToken now w = (.ok response, w')) :
    0 < request.amount ∧
      StoredAmount response.orderId (roundHalfAway (100 * request.amount) / 100) w' := by
  simp only [createPaymentOrder] at h
  split_ifs at h with hpos
  · simp at h
  · refine ⟨not_le.mp hpos, ?_⟩
    split at h
    · simp at h
    · split at h
      · simp at h
      · simp at h
      · simp at h
      · next hinsert =>
        simp only [Prod.mk.injEq, Except.ok.injEq] at h
        obtain ⟨rfl, rfl⟩ := h
        exact PaymentOrders.amount_createPaymentOrder hinsert

/-! ## From the order to its credit -/

section Credit

variable {orderId : String} {amount : ℚ} {w : World}

/-- No call changes a stored amount… -/
theorem storedAmount_effect (c : Call) (x : Answer) (h : StoredAmount orderId amount w) :
    StoredAmount orderId amount (effect x w c).2 := by
  cases c with
  | updatePaymentOrder id u =>
    simp only [StoredAmount, effect, PaymentOrders.getPaymentOrder_updatePaymentOrder] at h ⊢
    split_ifs with hid
    · subst hid
      rw [Option.map_map]
      exact h
    · exact h
  | _ => exact h

/-- …so no run of a handler does… -/
theorem storedAmount_respond (run : HandlerRun) (h : StoredAmount orderId amount w) :
    StoredAmount orderId amount (run.respond w).2 :=
  Prog.exec_keeps (Q := StoredAmount orderId amount) run.env.meet
    (fun b _ _ h => meet_keeps h (storedAmount_effect b.1 _ h)) h

/-- …and no sequence of them. -/
theorem storedAmount_run {w' : World} {runs : List HandlerRun} {os : List (HandlerRun × Response)}
    (h : StoredAmount orderId amount w) (hrun : server.run w runs = some (w', os)) :
    StoredAmount orderId amount w' := by
  refine server.run_invariant (I := fun w _ => StoredAmount orderId amount w)
    (fun w _ run w' o h hstep => ?_) h hrun
  obtain ⟨rfl, -⟩ := Prod.mk.inj (Option.some.inj hstep)
  exact storedAmount_respond run h

variable {env : Environment} {now : String}

/-- A credit of a capture run is of the amount stored for its order. -/
theorem eq_of_isCredit_of_storedAmount (h : StoredAmount orderId amount w) :
    ∀ b ∈ (handler (.capture orderId now)).calls env.meet w, IsCredit b →
      ∃ clientId description, b.1 = .addCredits clientId amount description := by
  have hstored : StoredAmount orderId amount (env.meet w (.captureOrder orderId)).2 :=
    meet_keeps h (storedAmount_effect _ _ h)
  refine forall_calls_capture env (fun _ h => h.elim) (fun _ h => h.elim) (fun _ _ h => h.elim)
    fun order clientId _ horder _ => ?_
  rw [StoredAmount, horder] at hstored
  exact ⟨clientId, _, by rw [Option.some.inj hstored]⟩

/-- **What a capture run credits is the amount stored for its order.** -/
theorem amount_of_credit {entries : List LedgerEntry} {e : LedgerEntry}
    (h : StoredAmount orderId amount w)
    (hledger : ((⟨.capture orderId now, env⟩ : HandlerRun).respond w).2.ledger =
      w.ledger ++ entries) (he : e ∈ entries) (hkind : e.kind = .add) : e.amount = amount := by
  rw [HandlerRun.respond, ledger_exec] at hledger
  rw [← List.append_cancel_left hledger] at he
  obtain ⟨b, hb, hbooked⟩ := List.mem_flatMap.mp he
  obtain ⟨clientId, description, hcall⟩ := eq_of_isCredit_of_storedAmount h b hb
    (isCredit_of_mem_booked env hbooked hkind)
  have hentry := mem_booking_of_mem_booked env hbooked
  rw [hcall, booking, List.mem_singleton] at hentry
  rw [hentry]

end Credit

/-- **From the order to its credit**: the route accepts a request, the handlers run for a while, and
a capture run of the new order credits it. -/
structure Checkout (request : CreatePaymentRequest) where
  createEnv : CreateEnvironment
  authorizationToken : Option String
  createdAt : String
  before : World
  response : CreatePaymentResponse
  created : World
  accepted : createPaymentOrder createEnv request authorizationToken createdAt before =
    (.ok response, created)
  runs : List HandlerRun
  later : World
  responses : List (HandlerRun × Response)
  reached : server.run created runs = some (later, responses)
  captureEnv : Environment
  capturedAt : String
  entries : List LedgerEntry
  booked :
    ((⟨.capture response.orderId capturedAt, captureEnv⟩ : HandlerRun).respond later).2.ledger =
      later.ledger ++ entries
  credit : LedgerEntry
  mem_entries : credit ∈ entries
  kind : credit.kind = .add

namespace Checkout

variable {request : CreatePaymentRequest}

/-- What PayPal was told to charge. -/
def charged (checkout : Checkout request) : OrderBody :=
  orderBody request.amount request.currency (clientOfToken checkout.authorizationToken)

theorem amount_credit (checkout : Checkout request) :
    checkout.credit.amount = roundHalfAway (100 * request.amount) / 100 :=
  amount_of_credit (storedAmount_run (storedAmount_of_accepted checkout.accepted).2
    checkout.reached) checkout.booked checkout.mem_entries checkout.kind

/-- The value charged is the one stored; charged in dollars, it is the one credited; charged in
anything else, it is not. -/
structure ChargedIsCredited (checkout : Checkout request) : Prop where
  stored : StoredAmount checkout.response.orderId checkout.charged.value.toRat checkout.created
  dollars : checkout.charged.currencyCode = "USD" →
    checkout.credit.amount = checkout.charged.value.toRat
  foreign : checkout.charged.currencyCode ≠ "USD" →
    checkout.credit.amount ≠ checkout.charged.value.toRat

/-- **When what is charged is what is credited**: exactly if the order is in dollars and its amount,
in cents, is not halfway above an even number. -/
theorem chargedIsCredited_iff (checkout : Checkout request) :
    checkout.ChargedIsCredited ↔
      request.currency = "USD" ∧ ¬ ∃ m : ℤ, 100 * request.amount = 2 * m + 1 / 2 := by
  obtain ⟨hpos, hstored⟩ := storedAmount_of_accepted checkout.accepted
  have hcredit := checkout.amount_credit
  have hsame : (roundHalfAway (100 * request.amount) / 100 : ℚ) = checkout.charged.value.toRat ↔
      ¬ ∃ m : ℤ, 100 * request.amount = 2 * m + 1 / 2 := by
    rw [← roundHalfAway_eq_roundHalfEven_iff (by positivity)]
    simp only [charged, orderBody, TwoDecimals.format, TwoDecimals.toRat]
    rw [div_left_inj' (by norm_num)]
    exact_mod_cast Iff.rfl
  rw [← hsame, ← hcredit]
  constructor
  · intro h
    have heq := Option.some.inj (hstored.symm.trans h.stored)
    rw [← hcredit] at heq
    exact ⟨by_contra fun hforeign => h.foreign hforeign heq, heq⟩
  · rintro ⟨hdollars, heq⟩
    refine ⟨?_, fun _ => heq, fun hforeign => absurd hdollars hforeign⟩
    rw [← heq, hcredit]
    exact hstored

end Checkout

/-! ## A package in shillings -/

/-- The starter package at its price in shillings. -/
def shillingRequest : CreatePaymentRequest := ⟨125000, "TZS"⟩

/-- Its order, as it is stored. -/
def shillingOrder : PaymentOrder where
  orderId := "O-2"
  clientId := some "test_client"
  amount := 125000
  currency := "TZS"
  status := .pending
  transactionId := none
  webhookVerified := false
  createdAt := "t0"
  completedAt := none
  failedAt := none
  refundedAt := none

theorem toDecimal_shillings : toDecimal 125000 = some 125000 := by
  have hround : roundHalfAway (100 * 125000) = 12500000 := by
    norm_num [roundHalfAway]
  unfold toDecimal
  rw [hround]
  norm_num

/-- The order is created, captured and credited. -/
def shillingCheckout : Checkout shillingRequest where
  createEnv := ⟨fun _ => .ok ⟨"O-2", none⟩, .returns, ""⟩
  authorizationToken := some "sk_test_a"
  createdAt := "t0"
  before := ⟨⟨[], List.nodup_nil⟩, []⟩
  response := ⟨"O-2", none, 125000, "TZS"⟩
  created := ⟨⟨[shillingOrder], List.nodup_singleton _⟩, []⟩
  accepted := by
    have hclient : clientOfToken (some "sk_test_a") = some "test_client" := by decide +kernel
    have hcurrency : toVarchar 3 "TZS" = some "TZS" := by decide +kernel
    simp [createPaymentOrder, shillingRequest, PaymentOrders.createPaymentOrder,
      toDecimal_shillings, hclient, hcurrency, shillingOrder]
  runs := []
  later := ⟨⟨[shillingOrder], List.nodup_singleton _⟩, []⟩
  responses := []
  reached := rfl
  captureEnv := smooth
  capturedAt := "t1"
  entries := [⟨.add, "test_client", 125000, "PayPal payment - Order: O-2"⟩]
  booked := rfl
  credit := ⟨.add, "test_client", 125000, "PayPal payment - Order: O-2"⟩
  mem_entries := List.mem_singleton_self _
  kind := rfl

/-- The shillings are credited as dollars. -/
theorem not_forall_chargedIsCredited :
    ¬ ∀ (request : CreatePaymentRequest) (checkout : Checkout request),
      checkout.ChargedIsCredited := by
  intro h
  have hforeign := (h _ shillingCheckout).foreign (by decide)
  rw [shillingCheckout.amount_credit] at hforeign
  exact hforeign (by decide +kernel)

end Paypal

end BioShield
