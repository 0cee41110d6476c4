import Mathlib

/-!
# Api/PaymentOrders — the `payment_orders` table (`api/services/database_service.py`)

The table is a list of rows with distinct order ids, as its `UNIQUE` constraint demands; the
service's four calls read or write it atomically.  An update is the dictionary of the columns a
handler sets, so a column it leaves out keeps its value.
-/

namespace BioShield

/-- The values the handlers write to `payment_orders.status`. -/
inductive OrderStatus
  | pending | completed | failed | denied | refunded
  deriving DecidableEq

/-- A row of `payment_orders`, with the columns the payment handlers read or write. -/
structure PaymentOrder where
  orderId : String
  clientId : Option String
  amount : ℚ
  currency : String
  status : OrderStatus
  transactionId : Option String
  webhookVerified : Bool
  createdAt : String
  completedAt : Option String
  failedAt : Option String
  refundedAt : Option String
  deriving DecidableEq

/-- The dictionary passed to `update_payment_order`; a column left out is `none`. -/
structure OrderUpdate where
  status : OrderStatus
  transactionId : Option (Option String) := none
  webhookVerified : Option Bool := none
  completedAt : Option String := none
  failedAt : Option String := none
  refundedAt : Option String := none
  deriving DecidableEq

namespace PaymentOrder

/-- `if order.get('client_id')`: neither null nor empty. -/
def truthyClientId (o : PaymentOrder) : Option String := o.clientId.filter (· ≠ "")

/-- The row after an update. -/
def update (o : PaymentOrder) (u : OrderUpdate) : PaymentOrder :=
  { o with
    status := u.status
    transactionId := u.transactionId.getD o.transactionId
    webhookVerified := u.webhookVerified.getD o.webhookVerified
    completedAt := u.completedAt.orElse fun _ => o.completedAt
    failedAt := u.failedAt.orElse fun _ => o.failedAt
    refundedAt := u.refundedAt.orElse fun _ => o.refundedAt }

@[simp] theorem update_orderId (o : PaymentOrder) (u : OrderUpdate) :
    (o.update u).orderId = o.orderId := rfl

@[simp] theorem update_status (o : PaymentOrder) (u : OrderUpdate) :
    (o.update u).status = u.status := rfl

@[simp] theorem update_amount (o : PaymentOrder) (u : OrderUpdate) :
    (o.update u).amount = o.amount := rfl

@[simp] theorem update_truthyClientId (o : PaymentOrder) (u : OrderUpdate) :
    (o.update u).truthyClientId = o.truthyClientId := rfl

end PaymentOrder

/-- The `payment_orders` table: at most one row for an order id. -/
structure PaymentOrders where
  rows : List PaymentOrder
  unique : (rows.map PaymentOrder.orderId).Nodup

namespace PaymentOrders

/-- `DatabaseService.get_payment_order`. -/
def getPaymentOrder (t : PaymentOrders) (orderId : String) : Option PaymentOrder :=
  t.rows.find? fun o => o.orderId = orderId

/-- `DatabaseService.get_payment_order_by_transaction`; a null column equals nothing. -/
def getPaymentOrderByTransaction (t : PaymentOrders) (transactionId : Option String) :
    Option PaymentOrder :=
  t.rows.find? fun o => o.transactionId.isSome && o.transactionId = transactionId

/-- The rows an update leaves. -/
def updateRows (rows : List PaymentOrder) (orderId : String) (u : OrderUpdate) :
    List PaymentOrder :=
  rows.map fun o => if o.orderId = orderId then o.update u else o

theorem map_orderId_updateRows (rows : List PaymentOrder) (orderId : String) (u : OrderUpdate) :
    (updateRows rows orderId u).map PaymentOrder.orderId = rows.map PaymentOrder.orderId := by
  rw [updateRows, List.map_map]
  refine List.map_congr_left fun o _ => ?_
  by_cases h : o.orderId = orderId <;> simp [h]

/-- `DatabaseService.update_payment_order`: an update writes no order id, so ids stay distinct. -/
def updatePaymentOrder (t : PaymentOrders) (orderId : String) (u : OrderUpdate) :
    PaymentOrders where
  rows := updateRows t.rows orderId u
  unique := by rw [map_orderId_updateRows]; exact t.unique

/-- **Reading an order back after an update**: its own row is updated, any other is as before. -/
theorem getPaymentOrder_updatePaymentOrder (t : PaymentOrders) (orderId orderId' : String)
    (u : OrderUpdate) :
    (t.updatePaymentOrder orderId u).getPaymentOrder orderId' =
      if orderId' = orderId then (t.getPaymentOrder orderId').map (·.update u)
      else t.getPaymentOrder orderId' := by
  have hrow : ∀ o : PaymentOrder,
      (if o.orderId = orderId then o.update u else o).orderId = o.orderId := fun o => by
    by_cases h : o.orderId = orderId <;> simp [h]
  simp only [getPaymentOrder, updatePaymentOrder, updateRows, List.find?_map, Function.comp_def,
    hrow]
  cases hf : t.rows.find? fun o => o.orderId = orderId' with
  | none => simp
  | some o =>
    have ho : o.orderId = orderId' := by simpa using List.find?_some hf
    by_cases h : orderId' = orderId <;> simp [h, ho]

/-- **Finding an order by its transaction after an update that leaves transactions alone.** -/
theorem getPaymentOrderByTransaction_updatePaymentOrder (t : PaymentOrders)
    (transactionId : Option String) (orderId : String) {u : OrderUpdate}
    (hu : u.transactionId = none) :
    (t.updatePaymentOrder orderId u).getPaymentOrderByTransaction transactionId =
      (t.getPaymentOrderByTransaction transactionId).map fun o =>
        if o.orderId = orderId then o.update u else o := by
  have hrow : ∀ o : PaymentOrder,
      (if o.orderId = orderId then o.update u else o).transactionId = o.transactionId := fun o => by
    by_cases h : o.orderId = orderId <;> simp [h, PaymentOrder.update, hu]
  simp only [getPaymentOrderByTransaction, updatePaymentOrder, updateRows, List.find?_map,
    Function.comp_def, hrow]

theorem getPaymentOrder_eq_some_iff (t : PaymentOrders) {orderId : String} {o : PaymentOrder} :
    t.getPaymentOrder orderId = some o ↔ o ∈ t.rows ∧ o.orderId = orderId := by
  constructor
  · intro h
    exact ⟨List.mem_of_find?_eq_some h, by simpa using List.find?_some h⟩
  · rintro ⟨hmem, rfl⟩
    cases hfind : t.rows.find? fun p => p.orderId = o.orderId with
    | none => exact absurd (List.find?_eq_none.mp hfind o hmem) (by simp)
    | some p =>
      have hp : p.orderId = o.orderId := by simpa using List.find?_some hfind
      rw [getPaymentOrder, hfind,
        List.inj_on_of_nodup_map t.unique (List.mem_of_find?_eq_some hfind) hmem hp]

/-! ## Refunds and statistics -/

/-- The order is there, with status `REFUNDED`. -/
def IsRefunded (t : PaymentOrders) (orderId : String) : Prop :=
  (t.getPaymentOrder orderId).map PaymentOrder.status = some .refunded

instance (t : PaymentOrders) (orderId : String) : Decidable (t.IsRefunded orderId) :=
  inferInstanceAs (Decidable (_ = _))

/-- **A refunded order stays one through every update but one that sets another status on it.** -/
theorem isRefunded_updatePaymentOrder_iff (t : PaymentOrders) {orderId orderId' : String}
    {u : OrderUpdate} (h : t.IsRefunded orderId) :
    (t.updatePaymentOrder orderId' u).IsRefunded orderId ↔
      (orderId' = orderId → u.status = .refunded) := by
  simp only [IsRefunded, getPaymentOrder_updatePaymentOrder] at h ⊢
  split_ifs with hid
  · subst hid
    obtain ⟨o, ho, -⟩ := Option.map_eq_some_iff.mp h
    simp [ho]
  · exact iff_of_true h fun h' => absurd h'.symm hid

/-- What `get_transaction_stats` returns. -/
structure TransactionStats where
  totalTransactions : ℕ
  totalAmountUsd : ℚ
  averageTransaction : ℚ
  periodDays : ℤ
  deriving DecidableEq

/-- `DatabaseService.get_transaction_stats`; the days only label the answer. -/
def getTransactionStats (t : PaymentOrders) (days : ℤ) : TransactionStats :=
  let payments := t.rows.filter fun o => o.status = .completed
  let totalAmount := (payments.map PaymentOrder.amount).sum
  { totalTransactions := payments.length
    totalAmountUsd := totalAmount
    averageTransaction := if 0 < payments.length then totalAmount / payments.length else 0
    periodDays := days }

/-- The table without an order. -/
def without (t : PaymentOrders) (orderId : String) : PaymentOrders where
  rows := t.rows.filter fun o => o.orderId ≠ orderId
  unique := List.Nodup.sublist (List.filter_sublist.map _) t.unique

/-- **The statistics leave refunded orders out.** -/
theorem getTransactionStats_without {t : PaymentOrders} {orderId : String}
    (h : t.IsRefunded orderId) (days : ℤ) :
    t.getTransactionStats days = (t.without orderId).getTransactionStats days := by
  obtain ⟨o, ho, hstatus⟩ := Option.map_eq_some_iff.mp h
  have hrows : (t.rows.filter fun o => o.status = .completed) =
      (t.without orderId).rows.filter fun o => o.status = .completed := by
    rw [without, List.filter_filter]
    refine List.filter_congr fun p hp => ?_
    by_cases hid : p.orderId = orderId
    · have hpo := Option.some.inj (ho.symm.trans (t.getPaymentOrder_eq_some_iff.mpr ⟨hp, hid⟩))
      simp [← hpo, hstatus]
    · simp [hid]
  simp only [getTransactionStats, hrows]

end PaymentOrders

end BioShield
