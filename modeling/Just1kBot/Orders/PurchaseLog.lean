import Just1kBot.Lib.Paging
import Just1kBot.Lib.StableSort
import Just1kBot.Models

/-! The purchase log of the admins (`repositories/purchases_repo.py`).

    A page merges the newest paid orders with the newest grants of the audit log and cuts its part
    out of both. The merge goes by the time of payment, or of creation where there is none; the
    query of the orders puts those without a time of payment last. -/

namespace Just1kBot

/-- What the log shows of a user. -/
structure LoggedUser where
  id : UserId
  telegramId : TelegramId
  username : Option String := none
  deriving DecidableEq, Repr

/-- The row of an order with its user, the name of its tariff and the one in its metadata. -/
structure LoggedOrder extends Order where
  user : Option LoggedUser := none
  tariff : Option String := none
  metaTariffName : Option String := none
  deriving DecidableEq, Repr

/-- The actions of the audit log: those of a purchase by name, any other with its title. -/
inductive AuditAction
  | grant | adminSubGrant | extend | adminSubExtend | changeTariff | adminSubChange | reduce
  | adminSubReduce | other (title : String)
  deriving DecidableEq, Repr

/-- A row of the audit log; of its details, the number of days that they name, if any. -/
structure AuditLog where
  id : ℕ
  action : AuditAction
  targetId : Option ℤ := none
  days : Option ℕ := none
  createdAt : Time
  deriving DecidableEq, Repr

inductive PurchaseId
  | order (id : OrderId)
  | audit (id : ℕ)
  deriving DecidableEq, Repr

structure PurchaseLogEntry where
  id : PurchaseId
  userId : ℤ
  telegramId : TelegramId
  username : Option String
  userLabel : String
  operationType : String
  operationTitle : String
  tariffName : String
  deviceLimit : ℕ
  durationDays : ℕ
  amountRub : ℕ
  createdAt : Time
  realAmountRub : Option ℚ := none
  bonusAmountRub : Option ℚ := none
  paymentMethod : PaymentMethod
  deriving DecidableEq, Repr

/-! ### Entries -/

/-- `text or default`. -/
def orDefault (text : Option String) (default : String) : String :=
  match text with
  | some text => if text = "" then default else text
  | none => default

/-- The label of a user, or of the Telegram id alone. -/
def purchaseUserLabel (username : Option String) (telegramId : TelegramId) : String :=
  match username.filter (· ≠ "") with
  | some username => "@" ++ username
  | none => "ID: " ++ toString telegramId

/-- `_wi_operation_title`. -/
def wiOperationTitle : Option String → Option (String × String)
  | some "purchase" => some ("purchase", "🛒 Покупка тарифа")
  | some "renew" => some ("renew", "⏳ Продление тарифа")
  | some "change" => some ("change", "🔄 Смена тарифа")
  | some "add_device_slot" => some ("add_device_slot", "Доп. устройство")
  | some "topup" => some ("topup_quota", "Докупка трафика")
  | some "topup_quota" => some ("topup_quota", "Докупка трафика")
  | some "trial" => some ("trial", "🛒 Покупка")
  | some "topup_or_device_slot" => some ("topup_or_device_slot", "🛒 Покупка")
  | _ => none

namespace LoggedOrder

/-- The operation, its title and the tariff of an order of White Internet. -/
def whiteInternetOperation (o : LoggedOrder) : String × String × String :=
  let operation := o.metadata.operation
  let tariffName := orDefault o.metaTariffName (o.tariff.getD "White Internet")
  if operation = some "add_device_slot" ∨
      o.deviceLimit.getD 2 ≠ 0 ∧ o.trafficBytes = 0 ∧ o.durationDays = 0 then
    ("add_device_slot", "Доп. устройство", "+1 слот")
  else if operation = some "topup" ∨ operation = some "topup_quota" ∨
      0 < o.trafficBytes ∧ o.durationDays = 0 then
    ("topup_quota", "Докупка трафика",
      "+" ++ toString (max 1 (o.trafficBytes / 1024 ^ 3)) ++ " ГБ")
  else if operation = some "renew" then ("renew", "Продление", tariffName)
  else ("purchase", "Покупка", tariffName)

/-- The operation, its title and the tariff of any order, before the title of a White Internet
    operation replaces them. -/
def operation (o : LoggedOrder) : String × String × String :=
  let tariffName := orDefault o.metaTariffName (o.tariff.getD "Тариф")
  match o.serviceType with
  | .topup => ("topup", "Пополнение", "Баланс")
  | .whiteInternet => o.whiteInternetOperation
  | .standard | .awg =>
    if o.metadata.isTariffChange ∨ o.metadata.operation = some "change" then
      ("change", "Смена тарифа", tariffName)
    else if o.metadata.isRenewal ∨ o.metadata.operation = some "renew" then
      ("renew", "Продление", tariffName)
    else ("purchase", "Покупка", orDefault o.metaTariffName (orDefault o.tariff "Тариф"))

/-- `paid_at or created_at`. -/
def time (o : LoggedOrder) : Time := o.paidAt.getD o.createdAt

/-- `_build_order_purchase_entry`. -/
def buildOrderPurchaseEntry (o : LoggedOrder) (realAmountRub bonusAmountRub : Option ℚ := none) :
    PurchaseLogEntry :=
  let telegramId := (o.user.map LoggedUser.telegramId).getD 0
  let username := o.user.bind LoggedUser.username
  let titled :=
    if o.serviceType = .whiteInternet then wiOperationTitle o.metadata.operation else none
  { id := .order o.id
    userId := (o.user.map fun user => (user.id : ℤ)).getD 0
    telegramId
    username
    userLabel := purchaseUserLabel username telegramId
    operationType := (titled.map Prod.fst).getD o.operation.1
    operationTitle := (titled.map Prod.snd).getD o.operation.2.1
    tariffName := o.operation.2.2
    deviceLimit := if o.deviceLimit.getD 0 = 0 then 2 else o.deviceLimit.getD 0
    durationDays := o.durationDays
    amountRub := o.amountRub
    createdAt := o.time
    realAmountRub
    bonusAmountRub
    paymentMethod := if o.paymentMethod = .other "" then .wallet else o.paymentMethod }

/-- The orders of the log: paid, and no top-up. -/
def Logged (o : LoggedOrder) : Prop := o.status = .paid ∧ o.serviceType ≠ .topup

instance : DecidablePred Logged := fun o =>
  inferInstanceAs (Decidable (o.status = .paid ∧ o.serviceType ≠ .topup))

/-- `paid_at DESC NULLS LAST, created_at DESC`. -/
def Ahead (x y : LoggedOrder) : Prop :=
  match x.paidAt, y.paidAt with
  | some s, some t => t < s ∨ t = s ∧ y.createdAt ≤ x.createdAt
  | some _, none => True
  | none, some _ => False
  | none, none => y.createdAt ≤ x.createdAt

instance : DecidableRel Ahead := fun x y =>
  match hx : x.paidAt, hy : y.paidAt with
  | some s, some t =>
    decidable_of_iff (t < s ∨ t = s ∧ y.createdAt ≤ x.createdAt) (by simp [Ahead, hx, hy])
  | some _, none => .isTrue (by simp [Ahead, hx, hy])
  | none, some _ => .isFalse (by simp [Ahead, hx, hy])
  | none, none => decidable_of_iff (y.createdAt ≤ x.createdAt) (by simp [Ahead, hx, hy])

end LoggedOrder

/-- `get_audit_op_info`. -/
def getAuditOpInfo : AuditAction → String × String
  | .grant => ("grant", "🎁 Выдача подписки админом")
  | .adminSubGrant => ("grant", "🎁 Выдача подписки админом")
  | .extend => ("extend", "⏳ Продление подписки админом")
  | .adminSubExtend => ("extend", "⏳ Продление подписки админом")
  | .changeTariff => ("change", "⚙️ Изменение тарифа")
  | .adminSubChange => ("change", "⚙️ Изменение тарифа админом")
  | .reduce => ("reduce", "✂️ Сокращение подписки админом")
  | .adminSubReduce => ("reduce", "✂️ Сокращение подписки админом")
  | .other title => ("grant", title)

namespace AuditLog

/-- `AUDIT_PURCHASE_ACTIONS`. -/
def Logged (log : AuditLog) : Prop :=
  log.action ∈ [.grant, .adminSubGrant, .extend, .adminSubExtend, .changeTariff, .adminSubChange,
    .reduce, .adminSubReduce]

instance : DecidablePred Logged := fun log => inferInstanceAs (Decidable (log.action ∈ _))

/-- The user that a log entry is about, by Telegram id or else by id. -/
def target (users : List LoggedUser) (log : AuditLog) : Option LoggedUser :=
  match log.targetId.filter (· ≠ 0) with
  | some targetId =>
    (users.find? fun user => user.telegramId = targetId).or
      (if 0 < targetId ∧ targetId ≤ 2 ^ 31 - 1 then
        users.find? fun user => (user.id : ℤ) = targetId
      else none)
  | none => none

/-- The entry of a grant. -/
def purchaseEntry (users : List LoggedUser) (log : AuditLog) : PurchaseLogEntry :=
  let user := log.target users
  let telegramId := (user.map LoggedUser.telegramId).getD (log.targetId.getD 0)
  let username := user.bind LoggedUser.username
  { id := .audit log.id
    userId := (user.map fun user => (user.id : ℤ)).getD (log.targetId.getD 0)
    telegramId
    username
    userLabel := purchaseUserLabel username telegramId
    operationType := (getAuditOpInfo log.action).1
    operationTitle := (getAuditOpInfo log.action).2
    tariffName := "Подписка"
    deviceLimit := 1
    durationDays := log.days.getD 30
    amountRub := 0
    createdAt := log.createdAt
    paymentMethod := .other "admin" }

/-- `created_at DESC`. -/
def Ahead (x y : AuditLog) : Prop := y.createdAt ≤ x.createdAt

instance : DecidableRel Ahead := fun x y => inferInstanceAs (Decidable (y.createdAt ≤ x.createdAt))

end AuditLog

/-- The later entry first. -/
def PurchaseLogEntry.Ahead (x y : PurchaseLogEntry) : Prop := y.createdAt ≤ x.createdAt

instance : DecidableRel PurchaseLogEntry.Ahead := fun x y =>
  inferInstanceAs (Decidable (y.createdAt ≤ x.createdAt))

/-! ### Pages -/

/-- The tables that the log reads. -/
structure PurchaseTables where
  orders : List LoggedOrder := []
  audits : List AuditLog := []
  users : List LoggedUser := []

namespace PurchaseTables

/-- The orders in the order of their query. -/
def orderResults (db : PurchaseTables) : List LoggedOrder :=
  (db.orders.filter LoggedOrder.Logged).insertionSort LoggedOrder.Ahead

/-- The grants in the order of their query. -/
def auditResults (db : PurchaseTables) : List AuditLog :=
  (db.audits.filter AuditLog.Logged).insertionSort AuditLog.Ahead

/-- The entries of orders and grants, those of orders first. -/
def entriesOf (db : PurchaseTables) (orders : List LoggedOrder) (audits : List AuditLog) :
    List PurchaseLogEntry :=
  orders.map (fun o => o.buildOrderPurchaseEntry) ++ audits.map (AuditLog.purchaseEntry db.users)

/-- `get_purchase_logs_paginated`. -/
def getPurchaseLogsPaginated (db : PurchaseTables) (page perPage : ℕ) :
    List PurchaseLogEntry × ℕ :=
  let offset := (page - 1) * perPage
  let needed := offset + perPage
  let orderResults := db.orderResults.take needed
  let auditResults := db.auditResults.take needed
  let entries := (db.entriesOf orderResults auditResults).insertionSort PurchaseLogEntry.Ahead
  let total :=
    if orderResults.length < needed ∧ auditResults.length < needed then entries.length
    else db.orders.countP LoggedOrder.Logged + db.audits.countP AuditLog.Logged
  ((entries.drop offset).take perPage, total)

/-- All records of the log. -/
def records (db : PurchaseTables) : List PurchaseLogEntry :=
  db.entriesOf db.orderResults db.auditResults

/-- The merged list: all records by time, the latest first. -/
def merged (db : PurchaseTables) : List PurchaseLogEntry :=
  db.records.insertionSort PurchaseLogEntry.Ahead

/-- How many pages there are. -/
def pageCount (db : PurchaseTables) (perPage : ℕ) : ℕ :=
  (db.records.length + perPage - 1) / perPage

/-- The pages one after the other, until they are exhausted. -/
def pages (db : PurchaseTables) (perPage : ℕ) : List PurchaseLogEntry :=
  (List.range (db.pageCount perPage)).flatMap fun k =>
    (db.getPurchaseLogsPaginated (k + 1) perPage).1

/-- No record is lost, repeated or out of order, and the total is right on every page. -/
structure Lossless (db : PurchaseTables) (perPage : ℕ) : Prop where
  pages_eq : db.pages perPage = db.merged
  exhausted : ∀ k, (db.getPurchaseLogsPaginated (k + 1) perPage).1 = [] ↔ db.pageCount perPage ≤ k
  total : ∀ page, (db.getPurchaseLogsPaginated page perPage).2 = db.records.length

/-- How many orders of the log are later than a time. -/
def laterOrders (db : PurchaseTables) (t : Time) : ℕ :=
  (db.orders.filter LoggedOrder.Logged).countP fun o => t < o.time

/-- How many grants of the log are later than a time. -/
def laterAudits (db : PurchaseTables) (t : Time) : ℕ :=
  (db.audits.filter AuditLog.Logged).countP fun log => t < log.createdAt

/-- How many orders of the log were paid before a time. -/
def paidBefore (db : PurchaseTables) (t : Time) : ℕ :=
  (db.orders.filter LoggedOrder.Logged).countP fun o => ∃ s ∈ o.paidAt, s < t

/-- An order without a time of payment is not so far behind in the query of the orders that it
    misses its page. -/
def UnpaidInReach (db : PurchaseTables) (perPage : ℕ) : Prop :=
  ∀ o ∈ db.orders.filter LoggedOrder.Logged, o.paidAt = none →
    (db.laterOrders o.createdAt + db.paidBefore o.createdAt) / perPage ≤
      (db.laterOrders o.createdAt + db.laterAudits o.createdAt) / perPage

instance (db : PurchaseTables) (perPage : ℕ) : Decidable (db.UnpaidInReach perPage) :=
  inferInstanceAs (Decidable (∀ o ∈ db.orders.filter LoggedOrder.Logged, o.paidAt = none →
    (db.laterOrders o.createdAt + db.paidBefore o.createdAt) / perPage ≤
      (db.laterOrders o.createdAt + db.laterAudits o.createdAt) / perPage))

end PurchaseTables

end Just1kBot
