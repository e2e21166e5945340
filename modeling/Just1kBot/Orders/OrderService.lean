import Just1kBot.Billing.Referral
import Just1kBot.Orders.Fulfillment

/-! The life of an order: `services/order_service.py`, with the payload parser of
    `integrations/payment_gateways/yookassa.py` and the debt marks of
    `services/order_notifications.py`.

    Every function works on the order row it locked and returns it with the next database, or fails
    and is rolled back as a whole. A purchase of the White Internet service commits on the way; it
    is here part of its call, which nothing after it can undo. -/

namespace Just1kBot
open Lib (sumWhere)
open Lib.Python (Number Signature Args strip)

variable (wi : WhiteInternetApi)

/-! ### Settling -/

/-- `mark_notify_pending`. -/
def markNotifyPending (order : Order) : Order :=
  { order with
    metadata := { order.metadata with lateNotifyPending := true, lateNotifyAttempts := none } }

/-- The wallet credit of `_settle_benefits`: only a top-up has one. -/
def creditTopup (db : Db) (now : Time) (order : Order) : Except Err Db :=
  if order.serviceType = .topup then
    (db.createOrderCredit now order.userId (.decimal order.amountRub) order.id).map (·.2)
  else .ok db

/-- The debt towards the referrer that a granted bonus leaves on the order. -/
def referrerNotify (g : ReferralBonusGrantResult) : Option ReferrerNotify :=
  if 0 < g.referrerBonus then
    g.referrerUserId.map fun u =>
      ⟨u, g.referrerTelegramId, g.referrerBonus, g.bonusRatePct, g.tierUpgraded, g.newTierName,
        g.newRatePct⟩
  else none

/-- The referral bonus of `_settle_benefits`: top-ups and purchases paid outside the wallet. -/
def grantBonus (db : Db) (now : Time) (order : Order) : Except Err (Order × Db) :=
  if order.serviceType = .topup ∨ order.paymentMethod ≠ .wallet then do
    let (g, db) ← db.grantReferralBonusForTopup now order.userId none (some order.id)
      order.amountRub
    match referrerNotify g with
    | none => return (order, db)
    | some n =>
      let order := { order with
        metadata := { order.metadata with referrerNotifyPending := some n } }
      return (order, db.putOrder order)
  else .ok (order, db)

/-- `_settle_benefits`. -/
def settleBenefits (db : Db) (now : Time) (order : Order) : Except Err (Order × Db) := do
  let order := markNotifyPending order
  let db ← creditTopup (db.putOrder order) now order
  let (order, db) ← grantBonus db now order
  if order.status ≠ .refunded then fulfillOrder wi db now order else return (order, db)

/-- `mark_order_canceled`. -/
def markOrderCanceled (order : Order) (reason : String) : Order :=
  match order.status with
  | .pending =>
    { order with
      status := .canceled
      metadata := { order.metadata with
        cancellationReason := order.metadata.cancellationReason.or (some reason) } }
  | .canceled =>
    { order with metadata := { order.metadata with
        cancellationReason := order.metadata.cancellationReason.or (some reason) } }
  | _ => order

/-- The user may not receive a held order yet. -/
def StillHeld (user : User) (order : Order) : Prop :=
  user.isBanned = true ∨ user.financialHold = true ∨
    (order.serviceType = .topup ∧ user.topupBlocked = true)

instance (u : User) (o : Order) : Decidable (StillHeld u o) := by unfold StillHeld; infer_instance

/-- The benefits of a payment that arrives now are withheld. -/
def Withheld (user : User) (order : Order) : Prop :=
  user.isBanned = true ∨
    (order.serviceType = .topup ∧ (user.financialHold = true ∨ user.topupBlocked = true)) ∨
    (order.serviceType ≠ .topup ∧ user.financialHold = true)

instance (u : User) (o : Order) : Decidable (Withheld u o) := by unfold Withheld; infer_instance

/-- The two spellings of the hold agree, so a hold is released exactly when it would not be made. -/
theorem withheld_iff_stillHeld (u : User) (o : Order) : Withheld u o ↔ StillHeld u o := by
  rw [Withheld, StillHeld]
  by_cases ht : o.serviceType = .topup <;> simp [ht]

def holdReason (user : User) : String :=
  if user.isBanned then "user_banned"
  else if user.financialHold then "financial_hold"
  else "topup_blocked"

/-- Flushing an order row: its external id is unique. -/
def Db.flushOrder (db : Db) (order : Order) : Except Err Db :=
  if order.externalId.isSome ∧
      ∃ o ∈ db.orders, o.id ≠ order.id ∧ o.externalId = order.externalId then
    .error (.integrityError "ix_orders_external_id")
  else .ok (db.putOrder order)

/-- The metadata of an order that was paid short. -/
def underpaidMeta (order : Order) (received : ℚ) : OrderMeta :=
  { order.metadata with
    underpaid := true
    underpaidExpected := some order.amountRub
    underpaidReceived := some received
    requiresManualReview := true
    manualReviewReason := some "underpayment"
    refundAmountMismatch :=
      some s!"Underpaid: expected {order.amountRub} RUB, received {received} RUB" }

/-- The settled row of an order whose payment arrived. -/
def paidRow (now : Time) (order : Order) : Order :=
  { order with
    status := .paid
    paidAt := some now
    metadata := { order.metadata with
      revivedFromCanceled := order.status = .canceled ∨ order.metadata.revivedFromCanceled } }

def heldRow (user : User) (order : Order) : Order :=
  { order with metadata := { order.metadata with
      settlementHeld := true, settlementHoldReason := some (holdReason user) } }

def releasedRow (order : Order) : Order :=
  { order with metadata := { order.metadata with
      settlementHeld := false, settlementHoldReason := none } }

/-- `external_id` replaces the stored one when it is not empty. -/
def withExternalId (externalId : Option String) (order : Order) : Order :=
  { order with externalId := (externalId.filter (· ≠ "")).or order.externalId }

/-- The end of `mark_order_paid`, for an order whose payment counts. -/
def settleFresh (db : Db) (now : Time) (order : Order) : Except Err (Option Order × Db) :=
  match (db.user order.userId).filter fun user => Withheld user order with
  | some user => .ok (some (heldRow user order), db.putOrder (heldRow user order))
  | none => (settleBenefits wi db now order).map fun r => (some r.1, r.2)

/-- `mark_order_paid` of an order that is pending or canceled. -/
def payOrder (db : Db) (now : Time) (order : Order) (externalId : Option String)
    (paidAmountRub : Option ℚ) : Except Err (Option Order × Db) :=
  if order.status = .canceled ∧
      order.metadata.cancellationReason = some "gateway_canceled" then .ok (none, db)
  else
    let order' := withExternalId externalId order
    match paidAmountRub.filter (· < (order.amountRub : ℚ)) with
    | some received => do
      let order'' := { order' with metadata := underpaidMeta order' received }
      let db ← db.flushOrder order''
      return (some order'', db)
    | none => do
      let db ← db.flushOrder (paidRow now order')
      settleFresh wi db now (paidRow now order')

/-- `mark_order_paid`. -/
def markOrderPaid (db : Db) (now : Time) (orderId : OrderId) (externalId : Option String := none)
    (paidAmountRub : Option ℚ := none) : Except Err (Option Order × Db) :=
  match db.order orderId with
  | none => .ok (none, db)
  | some order =>
    match order.status with
    | .paid =>
      if order.metadata.settlementHeld then
        if (db.user order.userId).any fun user => StillHeld user order then .ok (some order, db)
        else (settleBenefits wi db now (releasedRow order)).map fun r => (some r.1, r.2)
      else .ok (some order, db)
    | .refunded => .ok (some order, db)
    | .pending | .canceled => payOrder wi db now order externalId paidAmountRub

/-! ### Webhooks -/

/-- What the `metadata.order_id` of a payload spells: an order id, or nothing that parses as one. -/
inductive OrderRef
  | uuid (id : OrderId)
  | malformed
  deriving DecidableEq, Repr

/-- A webhook payload: an amount that does not read as a finite number is `none`. -/
structure WebhookPayload where
  event : String
  objectId : String := ""
  status : String := ""
  paymentId : Option String := none
  orderId : Option OrderRef := none
  amountValue : Option ℚ := none
  currency : Option String := none
  deriving DecidableEq, Repr

structure WebhookResult where
  orderId : Option OrderRef
  isPaid : Bool
  isRefunded : Bool
  isCanceled : Bool
  externalId : String
  amountRub : Option ℚ
  eventType : String
  relatedExternalId : Option String
  deriving DecidableEq, Repr

/-- `parse_webhook`. -/
def parseWebhook (p : WebhookPayload) : WebhookResult :=
  let amountRub := if p.currency = some "RUB" then p.amountValue.filter (0 < ·) else none
  let isRefunded := decide (p.event = "refund.succeeded")
  { orderId := p.orderId
    isPaid := decide (p.event = "payment.succeeded") && amountRub.isSome
    isRefunded := isRefunded
    isCanceled := decide (p.event = "payment.canceled")
    externalId := p.objectId
    amountRub := amountRub
    eventType := if p.event = "" then p.status else p.event
    relatedExternalId := if isRefunded then p.paymentId else none }

namespace Db

def orderByExternalId (db : Db) (externalId : String) : Option Order :=
  db.orders.find? fun o => o.externalId = some externalId

/-- The order a webhook is about: by its id, by the payment it refers to, or by its own id. -/
def webhookOrder (db : Db) (r : WebhookResult) : Option Order :=
  let byId := match r.orderId with
    | some (.uuid id) => db.order id
    | _ => none
  let related := r.relatedExternalId.filter (· ≠ "")
  (byId.or (related.bind db.orderByExternalId)).or
    (if r.externalId ≠ "" then db.orderByExternalId r.externalId else none)

end Db

/-- The stored payment id of the order contradicts the webhook. -/
def IdentityMismatch (order : Order) (r : WebhookResult) : Prop :=
  match order.externalId.filter (· ≠ "") with
  | none => False
  | some ext =>
    (r.isPaid = true ∧ r.externalId ≠ "" ∧ ext ≠ r.externalId) ∨
      (r.isRefunded = true ∧ ∃ related ∈ r.relatedExternalId, related ≠ "" ∧ ext ≠ related)

instance (o : Order) (r : WebhookResult) : Decidable (IdentityMismatch o r) := by
  rw [IdentityMismatch]
  split <;> infer_instance

/-- `def get_account_balance(session, *, user_id, for_update=False, locked_user=None)`. -/
def getAccountBalanceSignature : Signature :=
  { positional := [("session", true)]
    keywordOnly := [("user_id", true), ("for_update", false), ("locked_user", false)] }

/-- A call of `get_account_balance` with these arguments. -/
def callGetAccountBalance (db : Db) (a : Args) (u : UserId) : Except Err AccountBalanceSnapshot :=
  if getAccountBalanceSignature.Binds a then .ok (db.ledger.getAccountBalance u)
  else .error (.typeError "get_account_balance() takes 1 positional argument but 2 were given")

/-- The debt check after a refund debit: `balance_after = await get_account_balance(session,
    order.user_id)` and then `if balance_after < 0`. A snapshot has no order, so the comparison
    raises too, and the branch under it is never entered. -/
def refundDebtCheck (db : Db) (order : Order) : Except Err Unit := do
  let _ ← callGetAccountBalance db { positional := 2, keywords := [] } order.userId
  throw (.typeError "'<' not supported between instances of 'AccountBalanceSnapshot' and 'int'")

/-- `(result.external_id or "").strip() or f"refund_{order.id}"`. -/
def refundRef (r : WebhookResult) (order : Order) : String :=
  if strip r.externalId = "" then s!"refund_{order.id}" else strip r.externalId

/-- The row of a refunded order. -/
def refundedRow (now : Time) (r : WebhookResult) (order : Order) : Order :=
  { order with
    status := .refunded
    refundedAt := some now
    metadata := { order.metadata with
      refundExternalId := if r.externalId = "" then order.metadata.refundExternalId
        else some r.externalId } }

/-- A full refund of a top-up: the ledger side. -/
def refundTopup (db : Db) (now : Time) (r : WebhookResult) (order : Order) : Except Err Db :=
  if db.ledger.entries.any fun e => e.orderId = some order.id ∧ e.entryType = .paymentCredit then do
    let (_, db) ← db.createOrderRefundDebit now order.userId (.decimal order.amountRub) order.id
      (refundRef r order)
    let (_, db) ← db.reverseReferralBonusForTopup now none (some order.id)
      (some (refundRef r order))
    refundDebtCheck db order
    return db
  else .ok db

/-- The referral bonus of a refunded purchase. -/
def refundBonus (db : Db) (now : Time) (r : WebhookResult) (order : Order) : Except Err Db :=
  if order.paymentMethod ≠ .wallet then
    (db.reverseReferralBonusForTopup now none (some order.id) (some (refundRef r order))).map (·.2)
  else .ok db

/-- A full refund of any other order: the bonus, and the benefits unless they were withheld. -/
def refundBenefits (db : Db) (now : Time) (r : WebhookResult) (order : Order) : Except Err Db :=
  (refundBonus db now r order).map fun db =>
    if order.metadata.settlementHeld then db else revokeOrder db now order

/-- The row of an order whose refund is of another amount. -/
def refundMismatchRow (r : WebhookResult) (order : Order) : Order :=
  { order with metadata := { order.metadata with
      requiresManualReview := true
      refundAmountMismatch := some (r.amountRub.elim "missing" toString)
      refundExternalId := if r.externalId = "" then order.metadata.refundExternalId
        else some r.externalId } }

/-- What a full refund takes back, by the kind of the order. -/
def takeBack (db : Db) (now : Time) (r : WebhookResult) (order : Order) : Except Err Db :=
  if order.serviceType = .topup then refundTopup db now r order
  else refundBenefits db now r order

/-- The refund branch of `process_webhook_event`. -/
def processRefund (db : Db) (now : Time) (r : WebhookResult) (order : Order) :
    Except Err (Option Order × Db) :=
  if order.status = .refunded then .ok (some order, db)
  else if order.status ≠ .paid then .ok (none, db)
  else if r.amountRub ≠ some (order.amountRub : ℚ) then
    .ok (some (refundMismatchRow r order), db.putOrder (refundMismatchRow r order))
  else
    let order' := refundedRow now r order
    (takeBack (db.putOrder order') now r order').map fun db => (some order', db)

/-- The row of an order the gateway canceled before this payment. -/
def lateAttemptRow (r : WebhookResult) (order : Order) : Order :=
  { order with metadata := { order.metadata with latePaymentAttemptRejected := some r.externalId } }

/-- The payment branch of `process_webhook_event`. -/
def processPaid (db : Db) (now : Time) (r : WebhookResult) (order : Order) :
    Except Err (Option Order × Db) := do
  let (paid, db) ← markOrderPaid wi db now order.id (some r.externalId) r.amountRub
  match paid with
  | some o => return (some o, db)
  | none =>
    if order.metadata.cancellationReason = some "gateway_canceled" then
      return (some (lateAttemptRow r order), db.putOrder (lateAttemptRow r order))
    else return (if order.metadata.underpaid then some order else none, db)

/-- The cancellation branch of `process_webhook_event`. -/
def processCanceled (db : Db) (order : Order) : Except Err (Option Order × Db) :=
  if order.status = .pending then
    let order' := markOrderCanceled order "gateway_canceled"
    .ok (some order', db.putOrder order')
  else .ok (some order, db)

/-- `process_webhook_event`. -/
def processWebhookEvent (db : Db) (now : Time) (payload : WebhookPayload) :
    Except Err (Option Order × Db) :=
  let r := parseWebhook payload
  if r.orderId.isNone ∧ r.externalId = "" then .ok (none, db)
  else
    match db.webhookOrder r with
    | none => .ok (none, db)
    | some order =>
      if IdentityMismatch order r then .ok (none, db)
      else if r.isPaid then processPaid wi db now r order
      else if r.isCanceled then processCanceled db order
      else if r.isRefunded then processRefund db now r order
      else .ok (some order, db)

end Just1kBot
