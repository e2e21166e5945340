import Just1kBot.Orders.OrderService

/-! Refunds of credited top-ups.

    The refund branch books the refund debit, books the referral bonus back, and then reads the
    balance to see whether the refund left a debt. That read passes the user by position to a
    function that takes it by keyword only, so the call raises and the whole refund is rolled back:
    a top-up whose credit was booked is never refunded. -/

namespace Just1kBot
open Lib (sumWhere)
open Lib.Python (not_binds_of_positional)

/-- The webhook refunds a credited top-up in full, and every check of the branch passes. -/
structure RefundCase (db : Db) (payload : WebhookPayload) (order : Order) : Prop where
  event : payload.event = "refund.succeeded"
  identified : payload.orderId.isSome ∨ payload.objectId ≠ ""
  found : db.webhookOrder (parseWebhook payload) = some order
  topup : order.serviceType = .topup
  paid : order.status = .paid
  /-- The top-up owns the credit of its amount. -/
  credited : ∃ e ∈ db.ledger.entries, e.orderId = some order.id ∧ e.entryType = .paymentCredit ∧
    e.amount = order.amountRub
  /-- The refund is of the payment the order was paid with. -/
  payment : ∃ p, p ≠ "" ∧ order.externalId = some p ∧ payload.paymentId = some p
  amount : payload.currency = some "RUB" ∧ payload.amountValue = some (order.amountRub : ℚ)
  new : ∀ e ∈ db.ledger.entries,
    e.idempotencyKey ≠ .orderRefund order.id (refundRef (parseWebhook payload) order)

/-- The entries that book the refund of this webhook on the order. -/
def refundDebits (l : Ledger) (payload : WebhookPayload) (order : Order) :
    List AccountLedgerEntry :=
  l.entries.filter fun e => e.entryType = .refundDebit ∧ e.orderId = some order.id ∧
    e.amount = -order.amountRub ∧
    e.idempotencyKey = .orderRefund order.id (refundRef (parseWebhook payload) order)

/-- A complete refund: the call returns, the order is refunded, one entry books the amount back,
    and nothing of a bonus granted for the top-up is left to reverse. -/
def RefundCompletes (payload : WebhookPayload) (order : Order) :
    Except Err (Option Order × Db) → Prop
  | .error _ => False
  | .ok (_, db) => ((db.order order.id).any fun o => o.status = .refunded) ∧
      (refundDebits db.ledger payload order).length = 1 ∧
      ∀ c ∈ db.ledger.bonusCredits none (some order.id), db.ledger.maxCanReverse c = 0

instance (p : WebhookPayload) (o : Order) (r : Except Err (Option Order × Db)) :
    Decidable (RefundCompletes p o r) := by
  simp only [RefundCompletes]
  split <;> infer_instance

/-- The balance is not read: two positional arguments for one positional parameter. -/
theorem callGetAccountBalance_positional (db : Db) (u : UserId) :
    callGetAccountBalance db { positional := 2, keywords := [] } u =
      .error (.typeError "get_account_balance() takes 1 positional argument but 2 were given") :=
  if_neg (not_binds_of_positional (by decide))

/-- The debt check raises whatever the balance is. -/
theorem refundDebtCheck_error (db : Db) (order : Order) :
    refundDebtCheck db order =
      .error (.typeError "get_account_balance() takes 1 positional argument but 2 were given") := by
  rw [refundDebtCheck]
  rw [callGetAccountBalance_positional]
  rfl

/-- A top-up that owns a credit is refunded by no call, whatever else its ledger holds. -/
theorem refundTopup_ne_ok (db : Db) (now : Time) (r : WebhookResult) (order : Order)
    (hcredit : ∃ e ∈ db.ledger.entries, e.orderId = some order.id ∧ e.entryType = .paymentCredit)
    (db' : Db) : refundTopup db now r order ≠ .ok db' := by
  intro h
  unfold refundTopup at h
  rw [if_pos (by simpa using hcredit)] at h
  obtain ⟨⟨_, db₁⟩, -, h⟩ := Lib.bind_ok h
  obtain ⟨⟨_, db₂⟩, -, h⟩ := Lib.bind_ok h
  obtain ⟨_, hcheck, -⟩ := Lib.bind_ok h
  rw [refundDebtCheck_error] at hcheck
  cases hcheck

namespace RefundCase
variable {db : Db} {payload : WebhookPayload} {order : Order}

theorem amountRub (h : RefundCase db payload order) :
    (parseWebhook payload).amountRub = some (order.amountRub : ℚ) := by
  obtain ⟨e, -, -, htype, hamount⟩ := h.credited
  have hpos : 0 < e.amount := by
    have := e.shape
    rw [htype] at this
    exact this.1
  have hq : (0 : ℚ) < order.amountRub := by exact_mod_cast hamount ▸ hpos
  simp [parseWebhook, h.amount.1, h.amount.2, hq]

theorem not_identityMismatch (h : RefundCase db payload order) :
    ¬ IdentityMismatch order (parseWebhook payload) := by
  obtain ⟨p, hp, hext, hpay⟩ := h.payment
  have hfilter : order.externalId.filter (fun x => decide (x ≠ "")) = some p := by
    rw [hext, Option.filter_some, if_pos (by simpa using hp)]
  rw [IdentityMismatch]
  rw [hfilter]
  simp [parseWebhook, h.event, hpay]

/-- The checks of the event pass, and it reaches the refund branch. -/
theorem processWebhookEvent_eq (h : RefundCase db payload order) (wi : WhiteInternetApi)
    (now : Time) : processWebhookEvent wi db now payload =
      processRefund db now (parseWebhook payload) order := by
  have hid : ¬ ((parseWebhook payload).orderId.isNone ∧
      (parseWebhook payload).externalId = "") := by
    rintro ⟨hnone, hempty⟩
    rcases h.identified with hsome | hobj
    · exact absurd hsome (by simpa [parseWebhook] using hnone)
    · exact hobj hempty
  have hpaid : ¬ (parseWebhook payload).isPaid = true := by simp [parseWebhook, h.event]
  have hcanceled : ¬ (parseWebhook payload).isCanceled = true := by simp [parseWebhook, h.event]
  have hrefunded : (parseWebhook payload).isRefunded = true := by simp [parseWebhook, h.event]
  rw [processWebhookEvent]
  rw [if_neg hid, h.found]
  simp only
  rw [if_neg h.not_identityMismatch, if_neg hpaid, if_neg hcanceled, if_pos hrefunded]

/-- The checks of the branch pass, and what is left is the refund of a top-up. -/
theorem processRefund_eq (h : RefundCase db payload order) (now : Time) :
    processRefund db now (parseWebhook payload) order =
      (refundTopup (db.putOrder (refundedRow now (parseWebhook payload) order)) now
          (parseWebhook payload) (refundedRow now (parseWebhook payload) order)).map
        fun db => (some (refundedRow now (parseWebhook payload) order), db) := by
  have hpaid : ¬ order.status ≠ .paid := not_not_intro h.paid
  have htopup : (refundedRow now (parseWebhook payload) order).serviceType = .topup := h.topup
  rw [processRefund]
  rw [if_neg (by rw [h.paid]; decide), if_neg hpaid, if_neg (not_not_intro h.amountRub)]
  simp only
  rw [takeBack, if_pos htopup]

/-- The event leaves with an exception, so its transaction is rolled back. -/
theorem processWebhookEvent_error (h : RefundCase db payload order) (wi : WhiteInternetApi)
    (now : Time) : ∃ e, processWebhookEvent wi db now payload = .error e := by
  rw [h.processWebhookEvent_eq wi now, h.processRefund_eq now]
  obtain ⟨e, he, hid, htype, -⟩ := h.credited
  generalize parseWebhook payload = r
  have hne := refundTopup_ne_ok (db.putOrder (refundedRow now r order)) now r
    (refundedRow now r order) ⟨e, he, hid, htype⟩
  cases hres : refundTopup (db.putOrder (refundedRow now r order)) now r
      (refundedRow now r order) with
  | error err => exact ⟨err, rfl⟩
  | ok db' => exact absurd hres (hne db')

end RefundCase

/-! ### A refused refund -/

/-- A White Internet service that refuses everything. -/
def closedService : WhiteInternetApi where
  purchaseSubscription _ _ _ := .error (.runtimeError "closed")
  renewSubscription _ _ _ := .error (.runtimeError "closed")
  purchaseDeviceSlot _ _ _ := .error (.runtimeError "closed")
  topupQuota _ _ _ _ := .error (.runtimeError "closed")

/-- A pending top-up of 100 by a referred user. -/
def topupOrdered : Db where
  users := [{ id := 1, telegramId := 1, referredBy := some 2 }, { id := 2, telegramId := 2 }]
  orders := [{ id := 1, userId := 1, serviceType := .topup, amountRub := 100
               externalId := some "pay" }]

def topupPayment : WebhookPayload where
  event := "payment.succeeded"
  objectId := "pay"
  orderId := some (.uuid 1)
  amountValue := some 100
  currency := some "RUB"

def topupRefund : WebhookPayload where
  event := "refund.succeeded"
  objectId := "refund"
  paymentId := some "pay"
  amountValue := some 100
  currency := some "RUB"

/-- The database after the payment of the top-up. -/
def topupPaid : Db :=
  Lib.commit topupOrdered (processWebhookEvent closedService topupOrdered 0 topupPayment)

/-- The order of the top-up after its payment. -/
def topupPaidOrder : Order :=
  { id := 1, userId := 1, serviceType := .topup, amountRub := 100
    externalId := some "pay", status := .paid, paidAt := some 0
    metadata := { lateNotifyPending := true
                  referrerNotifyPending := some ⟨2, some 2, 15, 15, false, none, none⟩ } }

theorem topupRefund_case : RefundCase topupPaid topupRefund topupPaidOrder where
  event := rfl
  identified := by decide
  found := by decide +kernel
  topup := rfl
  paid := rfl
  credited := by decide +kernel
  payment := ⟨"pay", by decide, rfl, rfl⟩
  amount := by decide +kernel
  new := by decide +kernel

/-- No refund of a credited top-up completes. -/
theorem refund_never_completes (wi : WhiteInternetApi) (db : Db) (now : Time)
    (payload : WebhookPayload) (order : Order) (h : RefundCase db payload order) :
    ¬ RefundCompletes payload order (processWebhookEvent wi db now payload) := by
  obtain ⟨err, herr⟩ := h.processWebhookEvent_error wi now
  rw [herr]
  exact not_false

/-- The refund of the paid top-up. -/
theorem refund_never_completes_topup :
    ¬ RefundCompletes topupRefund topupPaidOrder
      (processWebhookEvent closedService topupPaid 1 topupRefund) :=
  refund_never_completes closedService topupPaid 1 topupRefund topupPaidOrder topupRefund_case

/-- The refund of the paid top-up raises, and the order stays paid. -/
theorem refund_raises_on_credited_topup :
    ¬ ∀ (wi : WhiteInternetApi) (db : Db) (now : Time) (payload : WebhookPayload) (order : Order),
      RefundCase db payload order →
        RefundCompletes payload order (processWebhookEvent wi db now payload) :=
  fun h => absurd (h closedService topupPaid 1 topupRefund topupPaidOrder topupRefund_case)
    (by decide +kernel)

end Just1kBot
