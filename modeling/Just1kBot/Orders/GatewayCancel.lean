import Just1kBot.Orders.Refund
import Just1kBot.Orders.Settlement

/-! Orders the gateway canceled.

    Three places learn from the gateway that a payment was canceled: the webhook, the reconciliation
    of stale orders in `services/workers/cleanup.py`, and the check a user asks for in
    `bot/handlers/payment/purchase_routes.py`. All of them go through `mark_order_canceled`, and a
    later payment is refused by comparing the stored reason with one text. The webhook stores that
    text; the other two store whatever reason the gateway gives. -/

namespace Just1kBot

variable (wi : WhiteInternetApi)

/-! ### Asking the gateway -/

/-- A payment object, as far as `check_payment_status` reads it. -/
structure GatewayPayment where
  status : String := ""
  amountValue : Option ℚ := none
  currency : Option String := none
  cancellationReason : Option String := none
  deriving DecidableEq, Repr

/-- What a status call comes to: the payment, or the kind of the error. -/
inductive GatewayAnswer
  | payment (p : GatewayPayment)
  | failed (statusStr : String) (temporary : Bool)
  deriving DecidableEq, Repr

structure PaymentStatusResult where
  isPaid : Bool := false
  isRefunded : Bool := false
  isCanceled : Bool := false
  statusStr : String
  amountRub : Option ℚ := none
  cancellationReason : Option String := none
  isTemporaryError : Bool := false
  deriving DecidableEq, Repr

/-- `check_payment_status`. -/
def checkPaymentStatus : GatewayAnswer → PaymentStatusResult
  | .failed statusStr temporary => { statusStr := statusStr, isTemporaryError := temporary }
  | .payment p =>
    let amountRub := if p.currency = some "RUB" then p.amountValue.filter (0 < ·) else none
    { isPaid := decide (p.status = "succeeded") && amountRub.isSome
      isCanceled := decide (p.status = "canceled")
      statusStr := p.status
      amountRub := amountRub
      cancellationReason := p.cancellationReason }

/-- `status_res.cancellation_reason or "gateway_canceled"`. -/
def PaymentStatusResult.cancelReason (st : PaymentStatusResult) : String :=
  (st.cancellationReason.filter (· ≠ "")).getD "gateway_canceled"

/-- `mark_notified`. -/
def markNotified (order : Order) : Order :=
  { order with
    metadata := { order.metadata with lateNotifyPending := false, lateNotifyAttempts := none } }

/-- The transaction of `_reconcile_stale_pending_orders` for one candidate. -/
def reconcileStalePendingOrder (db : Db) (now : Time) (orderId : OrderId) (externalId : String)
    (st : PaymentStatusResult) : Except Err (Option Order × Db) :=
  if ¬ (st.isPaid ∨ st.isCanceled) then .ok (none, db)
  else
    match db.order orderId with
    | none => .ok (none, db)
    | some order =>
      if order.status ≠ .pending then .ok (none, db)
      else if st.isPaid then markOrderPaid wi db now order.id (some externalId) st.amountRub
      else .ok (none, db.putOrder (markOrderCanceled order st.cancelReason))

/-- The user sees the settled order, so nothing is owed to them; a payment that is held or short
    leaves the order as it is. -/
def showSettled (r : Option Order × Db) : Option Order × Db :=
  match r.1 with
  | none => r
  | some o =>
    if o.status ≠ .paid ∨ o.metadata.settlementHeld then r
    else (some (markNotified o), r.2.putOrder (markNotified o))

/-- `handle_order_check`, which asks the gateway about orders that are not settled. -/
def handleOrderCheck (db : Db) (now : Time) (userId : UserId) (orderId : OrderId)
    (st : PaymentStatusResult) : Except Err (Option Order × Db) :=
  match (db.order orderId).filter (·.userId = userId) with
  | none => .ok (none, db)
  | some order =>
    match order.status with
    | .refunded => .ok (none, db)
    | .paid =>
      if order.metadata.settlementHeld then (markOrderPaid wi db now order.id).map showSettled
      else .ok (showSettled (some order, db))
    | .pending | .canceled =>
      match order.externalId.filter (· ≠ "") with
      | none => .ok (none, db)
      | some ext =>
        if st.isPaid then
          (markOrderPaid wi db now order.id (some ext) st.amountRub).map showSettled
        else if st.isCanceled then
          .ok (none, db.putOrder (markOrderCanceled order st.cancelReason))
        else .ok (none, db)

/-! ### The three paths -/

inductive CancelPath
  | webhook (payload : WebhookPayload)
  | reconciliation (answer : GatewayAnswer)
  | orderCheck (answer : GatewayAnswer)
  deriving DecidableEq, Repr

namespace CancelPath

/-- The gateway reports along this path that the payment of the order is canceled. -/
def Reports (db : Db) (order : Order) : CancelPath → Prop
  | .webhook payload => payload.event = "payment.canceled" ∧
      (payload.orderId.isSome ∨ payload.objectId ≠ "") ∧
      db.webhookOrder (parseWebhook payload) = some order
  | .reconciliation answer | .orderCheck answer =>
      ∃ p, answer = .payment p ∧ p.status = "canceled"

/-- The database after the report. -/
def apply (db : Db) (now : Time) (order : Order) : CancelPath → Db
  | .webhook payload => Lib.commit db (processWebhookEvent wi db now payload)
  | .reconciliation answer => Lib.commit db (reconcileStalePendingOrder wi db now order.id
      (order.externalId.getD "") (checkPaymentStatus answer))
  | .orderCheck answer => Lib.commit db (handleOrderCheck wi db now order.userId order.id
      (checkPaymentStatus answer))

/-- The reason this path hands to `mark_order_canceled`. -/
def reason : CancelPath → String
  | .webhook _ => "gateway_canceled"
  | .reconciliation answer | .orderCheck answer => (checkPaymentStatus answer).cancelReason

/-- The gateway gives no reason text of its own along this path. -/
def Reasonless : CancelPath → Prop
  | .webhook _ => True
  | .reconciliation answer | .orderCheck answer =>
    ∀ p, answer = .payment p → ∀ r ∈ p.cancellationReason, r = "" ∨ r = "gateway_canceled"

end CancelPath

/-- Nothing stands in the way of crediting the order. -/
def Creditable (l : Ledger) (o : OrderId) : Prop :=
  ∀ e ∈ l.entries, e.idempotencyKey ≠ .orderCredit o ∧
    ¬ (e.entryType = .paymentCredit ∧ e.orderId = some o)

/-- A pending order that waits for a payment of the gateway: it has the id of the payment to itself,
    and was not credited. -/
structure AwaitingPayment (db : Db) (order : Order) : Prop where
  unique : UniqueOrders db
  row : db.order order.id = some order
  pending : order.status = .pending
  external : ∃ ext, ext ≠ "" ∧ order.externalId = some ext
  single : ∀ o ∈ db.orders, o.id ≠ order.id → o.externalId ≠ order.externalId
  amount : 0 < order.amountRub
  uncredited : Creditable db.ledger order.id

/-- A payment webhook in its own transaction. -/
def paymentStep (db : Db) (e : Time × WebhookPayload) : Db :=
  Lib.commit db (processWebhookEvent wi db e.1 e.2)

/-- Whatever payments are reported later, the order stays canceled, and nothing is credited or
    fulfilled for it. -/
def NeverRevived (db : Db) (o : OrderId) : Prop :=
  ∀ (wi : WhiteInternetApi) (es : List (Time × WebhookPayload)),
    (∀ e ∈ es, e.2.event = "payment.succeeded") →
      (∃ a, (Lib.run (paymentStep wi) db es).order o = some a ∧ a.status = .canceled) ∧
        ∀ k, (Lib.run (paymentStep wi) db es).produced k o = db.produced k o

/-- The order has no reason yet and the gateway gives none of its own, or the reason is the one
    text. -/
def StoresGatewayReason (order : Order) (path : CancelPath) : Prop :=
  match order.metadata.cancellationReason with
  | some r => r = "gateway_canceled"
  | none => path.Reasonless

/-! ### What a path writes -/

theorem markOrderCanceled_pending {order : Order} (h : order.status = .pending) (reason : String) :
    markOrderCanceled order reason = { order with
      status := .canceled
      metadata := { order.metadata with
        cancellationReason := order.metadata.cancellationReason.or (some reason) } } := by
  simp only [markOrderCanceled, h]

theorem CancelPath.reason_eq_iff {path : CancelPath} {db : Db} {order : Order}
    (h : path.Reports db order) : path.reason = "gateway_canceled" ↔ path.Reasonless := by
  have htext : ∀ r : Option String, (r.filter (· ≠ "")).getD "gateway_canceled" =
      "gateway_canceled" ↔ ∀ s ∈ r, s = "" ∨ s = "gateway_canceled" := by
    intro r
    cases r with
    | none => simp
    | some s =>
      rw [Option.filter_some]
      by_cases hs : s = ""
      · simp [hs]
      · simp [hs]
  cases path with
  | webhook payload => exact iff_of_true rfl trivial
  | reconciliation answer =>
    obtain ⟨p, rfl, -⟩ := h
    simpa [reason, Reasonless, checkPaymentStatus, PaymentStatusResult.cancelReason] using
      htext p.cancellationReason
  | orderCheck answer =>
    obtain ⟨p, rfl, -⟩ := h
    simpa [reason, Reasonless, checkPaymentStatus, PaymentStatusResult.cancelReason] using
      htext p.cancellationReason

/-- What is stored is the one text exactly under the condition. -/
theorem storedReason_iff {path : CancelPath} {db : Db} {order : Order}
    (h : path.Reports db order) :
    order.metadata.cancellationReason.or (some path.reason) = some "gateway_canceled" ↔
      StoresGatewayReason order path := by
  rw [StoresGatewayReason]
  cases order.metadata.cancellationReason with
  | some r => simp
  | none => simpa using path.reason_eq_iff h

theorem checkPaymentStatus_canceled {p : GatewayPayment} (h : p.status = "canceled") :
    (checkPaymentStatus (.payment p)).isPaid = false ∧
      (checkPaymentStatus (.payment p)).isCanceled = true := by
  simp [checkPaymentStatus, h]

/-- Every path cancels the order, with its reason. -/
theorem CancelPath.apply_eq {db : Db} {order : Order} {path : CancelPath} (now : Time)
    (hdb : AwaitingPayment db order) (h : path.Reports db order) :
    path.apply wi db now order = db.putOrder (markOrderCanceled order path.reason) := by
  cases path with
  | webhook payload =>
    obtain ⟨hevent, hid, hfound⟩ := h
    have hid' : ¬ ((parseWebhook payload).orderId.isNone ∧
        (parseWebhook payload).externalId = "") := by
      rintro ⟨hnone, hempty⟩
      rcases hid with hsome | hobj
      · exact absurd hsome (by simpa [parseWebhook] using hnone)
      · exact hobj hempty
    have hmatch : ¬ IdentityMismatch order (parseWebhook payload) := by
      rw [IdentityMismatch]
      split
      · exact not_false
      · simp [parseWebhook, hevent]
    have hpaid : ¬ (parseWebhook payload).isPaid = true := by simp [parseWebhook, hevent]
    have hcanceled : (parseWebhook payload).isCanceled = true := by simp [parseWebhook, hevent]
    simp only [apply, processWebhookEvent]
    rw [if_neg hid', hfound]
    simp only
    rw [if_neg hmatch, if_neg hpaid, if_pos hcanceled, processCanceled, if_pos hdb.pending]
    rfl
  | reconciliation answer =>
    obtain ⟨p, rfl, hstatus⟩ := h
    obtain ⟨hpaid, hcanceled⟩ := checkPaymentStatus_canceled hstatus
    simp [apply, reconcileStalePendingOrder, hpaid, hcanceled, hdb.row, hdb.pending, reason,
      Lib.commit]
  | orderCheck answer =>
    obtain ⟨p, rfl, hstatus⟩ := h
    obtain ⟨hpaid, hcanceled⟩ := checkPaymentStatus_canceled hstatus
    obtain ⟨ext, hne, hext⟩ := hdb.external
    simp [apply, handleOrderCheck, Option.filter_some, hpaid, hcanceled, hdb.row, hdb.pending, hext,
      hne, reason, Lib.commit]

/-! ### Later payments -/

/-- A payment webhook about an order is refused for its identity or amount, or reaches
    `mark_order_paid`. -/
theorem processWebhookEvent_payment {db db' : Db} {now : Time} {payload : WebhookPayload}
    {r : Option Order} (hevent : payload.event = "payment.succeeded")
    (h : processWebhookEvent wi db now payload = .ok (r, db')) :
    db' = db ∨ ∃ a, db.webhookOrder (parseWebhook payload) = some a ∧
      processPaid wi db now (parseWebhook payload) a = .ok (r, db') := by
  have hcanceled : ¬ (parseWebhook payload).isCanceled = true := by simp [parseWebhook, hevent]
  have hrefunded : ¬ (parseWebhook payload).isRefunded = true := by simp [parseWebhook, hevent]
  simp only [processWebhookEvent] at h
  split at h
  · cases h
    exact .inl rfl
  · split at h
    · cases h
      exact .inl rfl
    · rename_i a ha
      split_ifs at h
      · cases h
        exact .inl rfl
      · exact .inr ⟨a, ha, h⟩
      · cases h
        exact .inl rfl

/-- The order is canceled for the reason that no payment overrides. -/
def RefusesPayments (order : Order) : Prop :=
  order.status = .canceled ∧ order.metadata.cancellationReason = some "gateway_canceled"

/-- A payment of such an order leaves a note on it and nothing else. -/
theorem RefusesPayments.processPaid_eq {db : Db} {a : Order} (ha : RefusesPayments a)
    (hrow : db.order a.id = some a) (now : Time) (w : WebhookResult) :
    processPaid wi db now w a =
      .ok (some (lateAttemptRow w a), db.putOrder (lateAttemptRow w a)) := by
  have hpay : markOrderPaid wi db now a.id (some w.externalId) w.amountRub = .ok (none, db) := by
    simp only [markOrderPaid, hrow, ha.1]
    exact if_pos ha
  rw [processPaid, hpay]
  show (if a.metadata.cancellationReason = some "gateway_canceled" then _ else _) = _
  rw [if_pos ha.2]
  rfl

/-- What later payments preserve. -/
structure StaysCanceled (db₀ : Db) (o : OrderId) (db : Db) : Prop where
  unique : UniqueOrders db
  row : ∃ a, db.order o = some a ∧ RefusesPayments a
  produced : ∀ k, db.produced k o = db₀.produced k o

theorem StaysCanceled.payment {db₀ db : Db} {o : OrderId} (hdb : StaysCanceled db₀ o db)
    {e : Time × WebhookPayload} (he : e.2.event = "payment.succeeded") :
    StaysCanceled db₀ o (paymentStep wi db e) := by
  refine Lib.commit_inv (I := StaysCanceled db₀ o) hdb fun r db' h => ?_
  obtain ⟨hu, ⟨c, hc, hrefuses⟩, hprod⟩ := hdb
  obtain rfl : c.id = o := Lib.Table.key_of_lookup Order.id hc
  rcases processWebhookEvent_payment wi he h with rfl | ⟨a, ha, hpaid⟩
  · exact ⟨hu, ⟨c, hc, hrefuses⟩, hprod⟩
  · have hrow := order_of_webhookOrder hu ha
    have hcall := processPaid_call wi hrow hpaid
    by_cases hid : a.id = c.id
    · obtain rfl : a = c := Option.some.inj (by rw [← hrow, hid, hc])
      rw [hrefuses.processPaid_eq wi hrow] at hpaid
      cases hpaid
      refine ⟨hcall.frame.unique hu, ⟨lateAttemptRow (parseWebhook e.2) a, ?_, hrefuses⟩,
        fun k => ?_⟩
      · exact Db.order_putOrder_self (by exact hrow ▸ rfl)
      · exact (Db.produced_congr rfl rfl k a.id).trans (hprod k)
    · refine ⟨hcall.frame.unique hu, ⟨c, ?_, hrefuses⟩, fun k => ?_⟩
      · rw [hcall.frame.others c.id (Ne.symm hid), hc]
      · rw [hcall.others c.id (Ne.symm hid), hprod]

theorem neverRevived_of_refuses {db : Db} {a : Order} (hu : UniqueOrders db)
    (hrow : db.order a.id = some a) (ha : RefusesPayments a) : NeverRevived db a.id := by
  intro wi es hes
  have hstart : StaysCanceled db a.id db := ⟨hu, ⟨a, hrow, ha⟩, fun _ => rfl⟩
  obtain ⟨-, ⟨b, hb, hst, -⟩, hprod⟩ := Lib.run_inv_of_forall (paymentStep wi)
    (fun _ _ hdb he => hdb.payment wi he) es db hstart hes
  exact ⟨⟨b, hb, hst⟩, hprod⟩

/-! ### A revival -/

/-- A White Internet service that delivers everything. -/
def openService : WhiteInternetApi where
  purchaseSubscription db _ _ := .ok ({ ok := true, msg := "" }, db.whiteInternet)
  renewSubscription db _ _ := .ok ({ ok := true, msg := "" }, db.whiteInternet)
  purchaseDeviceSlot db _ _ := .ok ({ ok := true, msg := "" }, db.whiteInternet)
  topupQuota _ db _ _ := .ok ({ ok := true, msg := "" }, db.whiteInternet)

theorem fulfillOrder_openService (db : Db) (now : Time) (order : Order) :
    ∃ r, fulfillOrder openService db now order = .ok r := by
  rw [fulfillOrder]
  cases db.user order.userId with
  | none => exact ⟨_, rfl⟩
  | some user =>
    have hdel : ∃ r, deliver openService db now order user = .ok r := by
      rw [deliver]
      split
      · exact ⟨_, rfl⟩
      · exact ⟨_, rfl⟩
      · rw [fulfillWhiteInternet]
        split_ifs
        · exact ⟨_, rfl⟩
        · exact ⟨_, rfl⟩
        · simp only [openService, ite_self]
          exact ⟨_, rfl⟩
      · exact ⟨_, rfl⟩
    obtain ⟨r, hr⟩ := hdel
    simp only [hr]
    exact ⟨_, rfl⟩

theorem createOrderCredit_creditable {db : Db} {o : OrderId} (h : Creditable db.ledger o)
    (now : Time) (u : UserId) {amount : ℕ} (hamount : 0 < amount) :
    ∃ r, db.createOrderCredit now u (.decimal amount) o = .ok r := by
  have hwhole : ∃ a, wholeRubles false (.decimal amount) = .ok a := by
    unfold wholeRubles
    dsimp only
    split
    · rename_i hden
      exact absurd (Rat.den_natCast amount) hden
    · split
      · exact ⟨_, rfl⟩
      · rename_i hpos
        rw [Rat.num_natCast] at hpos
        omega
  obtain ⟨a, ha⟩ := hwhole
  simp only [Db.createOrderCredit, ha]
  have hadmits : ∀ v : EntryValues, v.entryType = .paymentCredit → v.paymentId = none →
      v.orderId = some o → v.idempotencyKey = .orderCredit o → db.ledger.Admits v := by
    rintro v htype hpay horder hkey e he (hk | ⟨ht, hunique⟩)
    · exact (h e he).1 (hk.trans hkey)
    · rw [htype] at ht hunique
      have horders : e.orderId = some o := by simpa [hpay, horder] using hunique
      exact (h e he).2 ⟨ht, horders⟩
  simp only [bind, Except.bind, Ledger.insertOrGetEntry]
  rw [if_pos (hadmits _ rfl rfl rfl rfl)]
  exact ⟨_, rfl⟩

/-- A granted bonus is under a key that was not taken, so its row goes in. -/
theorem grantReferralBonusForTopup_isOk (db : Db) (now : Time) (u : UserId)
    (payment : Option PaymentId) (order : Option OrderId) (amount : ℚ) :
    ∃ r, db.grantReferralBonusForTopup now u payment order amount = .ok r := by
  rw [Db.grantReferralBonusForTopup]
  split
  · exact ⟨_, rfl⟩
  · split
    · exact ⟨_, rfl⟩
    · rename_i referrer _
      extract_lets tierInfo bonus key
      split
      · exact ⟨_, rfl⟩
      · rename_i hbonus
        split
        · exact ⟨_, rfl⟩
        · rename_i hnone
          have hadmits : db.ledger.Admits (Db.bonusEntry referrer payment order bonus hbonus) := by
            rintro e he (hk | ⟨-, hunique⟩)
            · have hfree : e.idempotencyKey ≠ key := by
                simpa using List.find?_eq_none.mp hnone e he
              exact hfree hk
            · simp [Db.bonusEntry] at hunique
          simp only [Ledger.insert, bind, Except.bind, if_pos hadmits]
          exact ⟨_, rfl⟩

theorem grantBonus_isOk (db : Db) (now : Time) (order : Order) :
    ∃ r, grantBonus db now order = .ok r := by
  rw [grantBonus]
  split_ifs
  · obtain ⟨⟨g, db'⟩, hg⟩ := grantReferralBonusForTopup_isOk db now order.userId none
      (some order.id) order.amountRub
    simp only [hg, bind, Except.bind]
    split
    · exact ⟨_, rfl⟩
    · exact ⟨_, rfl⟩
  · exact ⟨_, rfl⟩

theorem creditTopup_isOk (db : Db) (now : Time) (order : Order)
    (h : Creditable db.ledger order.id) (hamount : 0 < order.amountRub) :
    ∃ db', creditTopup db now order = .ok db' := by
  rw [creditTopup]
  split_ifs
  · obtain ⟨r, hr⟩ := createOrderCredit_creditable h now order.userId hamount
    exact ⟨r.2, by rw [hr]; rfl⟩
  · exact ⟨_, rfl⟩

/-- Where everything is delivered, only the credit of a top-up could fail. -/
theorem settleBenefits_openService {db : Db} {order : Order} (h : Creditable db.ledger order.id)
    (hamount : 0 < order.amountRub) (now : Time) :
    ∃ r, settleBenefits openService db now order = .ok r := by
  obtain ⟨db₁, h₁⟩ := creditTopup_isOk (db.putOrder (markNotifyPending order)) now
    (markNotifyPending order) h hamount
  obtain ⟨⟨order₂, db₂⟩, h₂⟩ := grantBonus_isOk db₁ now (markNotifyPending order)
  simp only [settleBenefits, bind, Except.bind, h₁, h₂]
  split_ifs
  · exact fulfillOrder_openService db₂ now order₂
  · exact ⟨_, rfl⟩

/-- The payment of the order, as the gateway reports it. -/
def orderPayment (order : Order) : WebhookPayload where
  event := "payment.succeeded"
  objectId := order.externalId.getD ""
  orderId := some (.uuid order.id)
  amountValue := some order.amountRub
  currency := some "RUB"

/-- An order that was canceled for another reason is settled, or held, when it is paid. -/
theorem payOrder_revives {db : Db} {a : Order} {ext : String} (hext : a.externalId = some ext)
    (hrow : db.order a.id = some a)
    (hreason : a.metadata.cancellationReason ≠ some "gateway_canceled")
    (hsingle : ∀ o ∈ db.orders, o.id ≠ a.id → o.externalId ≠ a.externalId)
    (hcredit : Creditable db.ledger a.id) (hamount : 0 < a.amountRub) (now : Time) :
    ∃ b db', payOrder openService db now a (some ext) (some a.amountRub) = .ok (some b, db') ∧
      db'.order a.id = some b ∧ b.status = .paid := by
  have hflush : db.flushOrder (paidRow now (withExternalId (some ext) a)) =
      .ok (db.putOrder (paidRow now (withExternalId (some ext) a))) := by
    refine if_neg ?_
    rintro ⟨-, o, ho, hne, heq⟩
    refine hsingle o ho hne (heq.trans ?_)
    simp only [paidRow, withExternalId, hext, Option.filter_some]
    split_ifs <;> rfl
  have hsome : ((db.putOrder (paidRow now (withExternalId (some ext) a))).order
      (paidRow now (withExternalId (some ext) a)).id).isSome := by
    show ((db.putOrder (paidRow now (withExternalId (some ext) a))).order a.id).isSome
    rw [(OrderFrame.of_put (paidRow now (withExternalId (some ext) a)) rfl rfl :
      OrderFrame a.id db _).order_isSome, hrow]
    rfl
  simp only [payOrder, hreason, and_false, if_false, Option.filter_some, lt_self_iff_false,
    decide_false, bind, Except.bind, hflush, Bool.false_eq_true, settleFresh]
  split
  · rename_i user _
    exact ⟨_, _, rfl, Db.order_putOrder_self hsome, rfl⟩
  · have hledger : Creditable (db.putOrder (paidRow now (withExternalId (some ext) a))).ledger
        (paidRow now (withExternalId (some ext) a)).id := hcredit
    obtain ⟨⟨b, db'⟩, hb⟩ := settleBenefits_openService hledger hamount now
    obtain ⟨-, -, hsame, hb'⟩ := settleBenefits_effects openService hsome hb
    rw [hb]
    exact ⟨b, db', rfl, hb', hsame.2.2.1⟩

/-- The payment of an order reaches `mark_order_paid`. -/
theorem processWebhookEvent_orderPayment {db : Db} {a : Order} {ext : String} (hne : ext ≠ "")
    (hext : a.externalId = some ext) (hrow : db.order a.id = some a) (hamount : 0 < a.amountRub)
    (now : Time) : processWebhookEvent wi db now (orderPayment a) =
      processPaid wi db now (parseWebhook (orderPayment a)) a := by
  have hpos : (0 : ℚ) < a.amountRub := by exact_mod_cast hamount
  have hpaid : (parseWebhook (orderPayment a)).isPaid = true := by
    simp [parseWebhook, orderPayment, Option.filter_some, hpos]
  have hfound : db.webhookOrder (parseWebhook (orderPayment a)) = some a := by
    simp [Db.webhookOrder, parseWebhook, orderPayment, hrow]
  have hmatch : ¬ IdentityMismatch a (parseWebhook (orderPayment a)) := by
    simp [IdentityMismatch, parseWebhook, orderPayment, hext, Option.filter_some, hne]
  simp only [processWebhookEvent]
  rw [if_neg (by simp [parseWebhook, orderPayment]), hfound]
  simp only
  rw [if_neg hmatch, if_pos hpaid]

/-- Learning of a cancellation is final along the three paths exactly when the reason stored is the
    one text: no reason was stored before, and the gateway gives none of its own. -/
theorem never_revived_iff (wi : WhiteInternetApi) (db : Db) (now : Time) (order : Order)
    (path : CancelPath) (hdb : AwaitingPayment db order) (hpath : path.Reports db order) :
    NeverRevived (path.apply wi db now order) order.id ↔ StoresGatewayReason order path := by
  rw [path.apply_eq wi now hdb hpath, ← storedReason_iff hpath]
  have hc := markOrderCanceled_pending hdb.pending path.reason
  set c := markOrderCanceled order path.reason with hcdef
  have hid : c.id = order.id := by rw [hc]
  have hstatus : c.status = .canceled := by rw [hc]
  have hreason : c.metadata.cancellationReason =
      order.metadata.cancellationReason.or (some path.reason) := by rw [hc]
  have hframe : OrderFrame order.id db (db.putOrder c) := .of_put c hid rfl
  have hrow : (db.putOrder c).order c.id = some c :=
    Db.order_putOrder_self (by rw [hid, hdb.row]; rfl)
  rw [← hid, ← hreason]
  refine ⟨fun hnever => ?_, fun h => ?_⟩
  · by_contra hne
    obtain ⟨ext, hextne, hext⟩ := hdb.external
    have hcext : c.externalId = some ext := by rw [hc]; exact hext
    have hcamount : 0 < c.amountRub := by rw [hc]; exact hdb.amount
    have hsingle : ∀ o ∈ (db.putOrder c).orders, o.id ≠ c.id → o.externalId ≠ c.externalId := by
      intro o ho hoc
      rcases Lib.Table.mem_put Order.id ho with rfl | ho
      · exact absurd rfl hoc
      · rw [hc]
        exact hdb.single o ho (by rwa [hid] at hoc)
    obtain ⟨b, db', hpay, hb, hpaid⟩ := payOrder_revives hcext hrow hne
      hsingle (by rw [hid]; exact hdb.uncredited) hcamount now
    have hstep : paymentStep openService (db.putOrder c) (now, orderPayment c) = db' := by
      have hmark : markOrderPaid openService (db.putOrder c) now c.id (some ext)
          (some c.amountRub) = .ok (some b, db') := by
        simp only [markOrderPaid, hrow, hstatus, hpay]
      simp only [paymentStep, processWebhookEvent_orderPayment openService hextne hcext hrow
        hcamount, processPaid]
      have hw : (parseWebhook (orderPayment c)).externalId = ext ∧
          (parseWebhook (orderPayment c)).amountRub = some (c.amountRub : ℚ) := by
        have hpos : (0 : ℚ) < c.amountRub := by exact_mod_cast hcamount
        simp [parseWebhook, orderPayment, hcext, Option.filter_some, hpos]
      rw [hw.1, hw.2, hmark]
      rfl
    obtain ⟨⟨a, ha, hst⟩, -⟩ := hnever openService [(now, orderPayment c)] (by simp [orderPayment])
    rw [Lib.run_cons, Lib.run_nil, hstep, hb] at ha
    cases ha
    rw [hpaid] at hst
    cases hst
  · exact neverRevived_of_refuses (hframe.unique hdb.unique) hrow ⟨hstatus, h⟩

/-- The reconciliation finds the payment canceled because it was not confirmed in time. -/
def expiredOnConfirmation : CancelPath := .reconciliation
  (.payment { status := "canceled", cancellationReason := some "expired_on_confirmation" })

def topupOrder : Order :=
  { id := 1, userId := 1, serviceType := .topup, amountRub := 100, externalId := some "pay" }

theorem topupOrder_awaiting : AwaitingPayment topupOrdered topupOrder where
  unique := List.nodup_singleton _
  row := rfl
  pending := rfl
  external := ⟨"pay", by decide, rfl⟩
  single := by decide
  amount := by decide
  uncredited := by simp [Creditable, topupOrdered]

/-- The reason of the gateway itself is stored, so the order can be revived. -/
theorem never_revived_iff_expired :
    NeverRevived (expiredOnConfirmation.apply closedService topupOrdered 0 topupOrder) 1 ↔
      StoresGatewayReason topupOrder expiredOnConfirmation :=
  never_revived_iff closedService topupOrdered 0 topupOrder expiredOnConfirmation
    topupOrder_awaiting ⟨_, rfl, rfl⟩

/-- Canceled by the reconciliation with the reason of the gateway, a top-up is credited when its
    payment is reported after all. -/
theorem canceled_order_revived : ¬ ∀ (wi : WhiteInternetApi) (db : Db) (now : Time) (order : Order)
    (path : CancelPath), AwaitingPayment db order → path.Reports db order →
      NeverRevived (path.apply wi db now order) order.id := by
  intro h
  have hnever := h closedService topupOrdered 0 topupOrder expiredOnConfirmation
    topupOrder_awaiting ⟨_, rfl, rfl⟩
  have hcredit := (hnever closedService [(1, topupPayment)] (by decide)).2 .credit
  exact absurd hcredit (by decide +kernel)

end Just1kBot
