import Just1kBot.Orders.OrderService

/-! Pricing and placing an order: the checkout of `services/order_service.py`.

    Prices of a day are exact rationals. The tariff table, which these functions only read, is an
    argument, and so is the answer of the payment gateway. -/

namespace Just1kBot
open Lib.Python (roundHalfEven roundDown)

/-- A row of `tariffs`, as far as the checkout reads it. -/
structure Tariff where
  id : TariffId
  name : String := ""
  durationDays : ℕ
  deviceLimit : ℕ := 2
  priceRub : ℕ
  deriving DecidableEq, Repr

/-! ### Changing the tariff -/

/-- The price of a day; a tariff without a duration counts as one of 30 days. -/
def Tariff.dailyPrice (t : Tariff) : ℚ :=
  t.priceRub / (if 0 < t.durationDays then t.durationDays else 30)

/-- The days left, the last one rounded up. -/
def daysLeft (subscriptionEnd now : Time) : ℤ :=
  max 0 ⌈((subscriptionEnd - now : ℤ) : ℚ) / (days 1 : ℤ)⌉

/-- What is left of the subscription, in whole rubles. -/
def remainingRub (current : Tariff) (subscriptionEnd now : Time) : ℤ :=
  roundHalfEven (daysLeft subscriptionEnd now * current.dailyPrice)

/-- The days a free switch gives for what is left. -/
def convertedDays (current target : Tariff) (subscriptionEnd now : Time) : ℕ :=
  if |current.dailyPrice - target.dailyPrice| < 1 / 1000000 then
    (daysLeft subscriptionEnd now).toNat
  else
    (max 1 (roundHalfEven (remainingRub current subscriptionEnd now / target.dailyPrice))).toNat

/-- `calculate_tariff_change`: the amount due and the days it results in. -/
def calculateTariffChange (current : Option Tariff) (target : Tariff)
    (subscriptionEnd : Option Time) (now : Time) : ℕ × ℕ :=
  match current, subscriptionEnd with
  | some current, some e =>
    if e ≤ now ∨ daysLeft e now ≤ 0 ∨ current.priceRub = 0 ∨ target.priceRub = 0 then
      (target.priceRub, target.durationDays)
    else if (target.priceRub : ℤ) ≤ remainingRub current e now then
      (0, convertedDays current target e now)
    else ((max 0 (target.priceRub - remainingRub current e now)).toNat, target.durationDays)
  | _, _ => (target.priceRub, target.durationDays)

/-! ### Terms -/

def referralWelcomeDiscountPercent : ℚ := 1 / 4

def checkoutDescriptionDefault : String :=
  "Предоставление доступа к информационному сервису Just1k"

/-- `is_eligible_for_referral_first_discount`: a referred user who has paid for nothing yet. -/
def Db.isEligibleForReferralFirstDiscount (db : Db) (userId : UserId) : Bool :=
  match db.user userId with
  | none => false
  | some user =>
    if user.referredBy.isNone ∨ user.referredBy = some user.telegramId then false
    else
      let paidOrders := db.orders.countP fun o =>
        o.userId = userId ∧ o.status = .paid ∧ 0 < o.amountRub ∧ o.serviceType ≠ .topup
      let paidPayments := db.payments.countP fun p =>
        p.userId = userId ∧ p.creditedAt.isSome ∧ p.fulfillmentSucceeded ∧ 0 < p.amount
      paidOrders = 0 ∧ paidPayments = 0

/-- The arguments of `create_order` and `pay_from_wallet`. -/
structure OrderRequest where
  userId : UserId
  serviceType : OrderServiceType := .standard
  tariffId : Option TariffId := none
  amountRub : Option ℕ := none
  durationDays : Option ℕ := none
  trafficBytes : ℕ := 0
  deviceLimit : Option ℕ := none
  paymentMethod : PaymentMethod := .yookassa
  description : Option String := none
  metadata : OrderMeta := {}
  deriving DecidableEq, Repr

/-- What `_resolve_order_terms` returns, and the metadata it fills in. -/
structure OrderTerms where
  amountRub : Option ℕ
  durationDays : Option ℕ
  deviceLimit : Option ℕ
  description : Option String
  metadata : OrderMeta
  deriving DecidableEq, Repr

/-- The tariff the user has while the subscription runs. -/
def runningTariff (user : Option User) (now : Time) : Option TariffId :=
  user.bind fun u =>
    if u.subscriptionEnd.any (now < ·) then u.currentTariffId.filter (· ≠ 0) else none

def welcomeDiscount (baseCost : ℕ) : ℕ :=
  (roundDown (baseCost * referralWelcomeDiscountPercent)).toNat

/-- The price of a purchase or renewal, with the welcome discount of a referred user. -/
def purchasePrice (db : Db) (userId : UserId) (baseCost : ℕ) (m : OrderMeta) : ℕ × OrderMeta :=
  if db.isEligibleForReferralFirstDiscount userId then
    (max 1 (baseCost - welcomeDiscount baseCost),
      { m with
        isReferralDiscount := true
        discountRub := some (welcomeDiscount baseCost)
        originalPriceRub := some baseCost })
  else (baseCost, m)

/-- The operation of an order that changes no tariff. -/
def purchaseMeta (renews : Bool) (m : OrderMeta) : OrderMeta :=
  if renews then { m with isRenewal := true, operation := some "renew" }
  else { m with operation := m.operation.or (some "purchase") }

@[simp] theorem purchaseMeta_isReferralDiscount (renews : Bool) (m : OrderMeta) :
    (purchaseMeta renews m).isReferralDiscount = m.isReferralDiscount := by
  cases renews <;> rfl

variable (tariffs : List Tariff)

/-- The terms of an order for a tariff that the table has. -/
def tariffTerms (db : Db) (now : Time) (user : Option User) (req : OrderRequest)
    (tariff : Tariff) : ℕ × ℕ × OrderMeta :=
  match (runningTariff user now).filter (· ≠ tariff.id) with
  | some currentTid =>
    let (dueRub, resultingDays) := calculateTariffChange
      (Lib.Table.lookup Tariff.id currentTid tariffs) tariff (user.bind User.subscriptionEnd) now
    (req.amountRub.getD dueRub, req.durationDays.getD resultingDays,
      { req.metadata with isTariffChange := true, operation := some "change" })
  | none =>
    let m := purchaseMeta (runningTariff user now).isSome req.metadata
    let (amountRub, m) := match req.amountRub with
      | some amountRub => (amountRub, m)
      | none => purchasePrice db req.userId tariff.priceRub m
    (amountRub, req.durationDays.getD tariff.durationDays, m)

/-- `_resolve_order_terms`. -/
def resolveOrderTerms (db : Db) (now : Time) (user : Option User) (req : OrderRequest) :
    OrderTerms :=
  match req.tariffId.bind fun id => Lib.Table.lookup Tariff.id id tariffs with
  | none => ⟨req.amountRub, req.durationDays, req.deviceLimit, req.description, req.metadata⟩
  | some tariff =>
    let (amountRub, durationDays, m) := tariffTerms tariffs db now user req tariff
    { amountRub := some amountRub
      durationDays := some durationDays
      deviceLimit := some (req.deviceLimit.getD tariff.deviceLimit)
      description := some (req.description.getD
        (checkoutDescriptionDefault ++ s!" ({tariff.name})"))
      metadata := m }

/-! ### Placing an order -/

/-- The row `create_order` and `pay_from_wallet` build on these terms. -/
def OrderTerms.order (terms : OrderTerms) (req : OrderRequest) (id : OrderId) (now : Time) :
    Order where
  id := id
  userId := req.userId
  serviceType := if req.serviceType = .awg then .standard else req.serviceType
  tariffId := req.tariffId
  amountRub := terms.amountRub.getD 0
  durationDays := terms.durationDays.getD 0
  trafficBytes := req.trafficBytes
  deviceLimit := terms.deviceLimit
  paymentMethod := req.paymentMethod
  description := some ((terms.description.filter (· ≠ "")).getD checkoutDescriptionDefault)
  metadata := terms.metadata
  createdAt := now

namespace Db

/-- Inserting an order: its id is new, and its user and tariff exist. -/
def addOrder (db : Db) (order : Order) : Except Err Db :=
  if (db.order order.id).isSome then .error (.integrityError "orders_pkey")
  else if (db.user order.userId).isNone then .error (.integrityError "orders_user_id_fkey")
  else if order.tariffId.any fun t => (Lib.Table.lookup Tariff.id t tariffs).isNone then
    .error (.integrityError "orders_tariff_id_fkey")
  else .ok { db with orders := db.orders ++ [order] }

/-- The latest pending order on the same terms that has a payment link, of the last 15 minutes. -/
def duplicateOrder (db : Db) (now : Time) (order : Order) : Option Order :=
  (db.orders.filter fun o => o.userId = order.userId ∧ o.serviceType = order.serviceType ∧
    o.tariffId = order.tariffId ∧ o.durationDays = order.durationDays ∧
    o.trafficBytes = order.trafficBytes ∧ o.deviceLimit = order.deviceLimit ∧
    o.paymentMethod = order.paymentMethod ∧ o.amountRub = order.amountRub ∧
    o.status = .pending ∧ now - seconds (15 * 60) ≤ o.createdAt ∧
    o.paymentUrl.isSome).maxOn? Order.createdAt

end Db

/-- What the gateway does with a payment: it makes an invoice, may or may not have made one, or
    fails. -/
inductive InvoiceAnswer
  | invoice (externalId paymentUrl : String)
  | ambiguous
  | failed (err : Err)
  deriving DecidableEq, Repr

/-- The gateway part of `create_order`. An order whose payment may exist is kept, and the call
    raises after its commit: it returns no order. -/
def requestPayment (db : Db) (order : Order) : InvoiceAnswer → Except Err (Option Order × Db)
  | .invoice externalId paymentUrl =>
    let order' := { order with externalId := some externalId, paymentUrl := some paymentUrl }
    (db.flushOrder order').map fun db => (some order', db)
  | .ambiguous =>
    let order' := { order with
      metadata := { order.metadata with paymentCreationAmbiguous := true } }
    .ok (none, db.putOrder order')
  | .failed err => .error err

/-- `create_order`. -/
def createOrder (db : Db) (now : Time) (newId : OrderId) (gateway : InvoiceAnswer)
    (req : OrderRequest) : Except Err (Option Order × Db) :=
  let order := (resolveOrderTerms tariffs db now (db.user req.userId) req).order req newId now
  if order.paymentMethod = .wallet then
    (db.addOrder tariffs order).map fun db => (some order, db)
  else
    match (db.duplicateOrder now order).filter fun o => o.paymentUrl ≠ some "" with
    | some existing => .ok (some existing, db)
    | none => do
      let db ← db.addOrder tariffs order
      requestPayment db order gateway

variable (wi : WhiteInternetApi)

/-- The debit of `pay_from_wallet`: an order that costs nothing has none. -/
def debitWallet (db : Db) (now : Time) (user : Option User) (order : Order) : Except Err Db :=
  if 0 < order.amountRub then
    (db.createOrderDebit now order.userId (.decimal order.amountRub) order.id {} user).map (·.2)
  else .ok db

/-- `pay_from_wallet`, which holds the lock of the user from its start. -/
def payFromWallet (db : Db) (now : Time) (newId : OrderId) (req : OrderRequest) :
    Except Err (Order × Db) :=
  let user := db.user req.userId
  if user.any User.financialHold then
    .error (.financialHoldBlocked "Financial hold active on user")
  else do
    let terms := resolveOrderTerms tariffs db now user req
    let _ ← db.lockAccountUser req.userId user
    let balance := db.ledger.getAccountBalance req.userId
    if 0 < balance.debt then
      throw (.accountDebtBlocked "Account debt prevents wallet purchases")
    else if balance.available < (terms.amountRub.getD 0 : ℕ) then
      throw (.insufficientBalance (s!"Insufficient balance: required {terms.amountRub.getD 0}, " ++
        s!"available {balance.available}"))
    else
      let order := { terms.order req newId now with
        paymentMethod := .wallet, status := .paid, paidAt := some now }
      let db ← db.addOrder tariffs order
      let db ← debitWallet db now user order
      fulfillOrder wi db now order

end Just1kBot
