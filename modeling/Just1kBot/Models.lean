import Just1kBot.Lib.Table
import Just1kBot.Lib.Python

/-! The rows of the database, as far as the modelled code reads or writes them.

    Identifiers, UUIDs and tokens are opaque numbers, instants are microseconds, money of the
    ledger is whole rubles and byte counts are naturals. A `CHECK` constraint of an append-only
    table is a field of the row, so a row that breaks it cannot be built. The JSON metadata columns
    are records of the keys the code reads back. -/

namespace Just1kBot

abbrev UserId := ℕ
abbrev TelegramId := ℤ
abbrev OrderId := ℕ
abbrev PaymentId := ℕ
abbrev EntryId := ℕ
abbrev TariffId := ℕ
abbrev ServerId := ℕ
abbrev Uuid := ℕ

/-- Microseconds since the epoch. -/
abbrev Time := ℤ

/-- A `%Y-%m` stamp, as the number of months: the strings compare as the numbers do. -/
abbrev Month := ℕ

/-- The stats epoch a node reports, new at every start of the node. -/
abbrev Epoch := ℕ

def seconds (n : ℤ) : ℤ := n * 1000000
def hours (n : ℤ) : ℤ := seconds (n * 3600)
def days (n : ℤ) : ℤ := seconds (n * 86400)

/-- The exceptions that leave an operation, with the texts of the source. -/
inductive Err
  | lookupError (msg : String)
  | valueError (msg : String)
  | typeError (msg : String)
  | invalidOperation
  | integrityError (constraint : String)
  | ledgerConflict (msg : String)
  | ledgerInvariant (msg : String)
  | insufficientBalance (msg : String)
  | runtimeError (msg : String)
  | subscriptionNotFound (msg : String)
  | inactiveSubscription (msg : String)
  | trialSubscription (msg : String)
  | renewalHorizonExceeded (msg : String)
  | deviceLimitExceeded (msg : String)
  | quotaCapExceeded (msg : String)
  | whiteInternetError (msg : String)
  | financialHoldBlocked (msg : String)
  | accountDebtBlocked (msg : String)
  deriving DecidableEq, Repr

/-! ### Users -/

structure User where
  id : UserId
  telegramId : TelegramId
  referredBy : Option TelegramId := none
  isBanned : Bool := false
  isDeleted : Bool := false
  financialHold : Bool := false
  topupBlocked : Bool := false
  subscriptionEnd : Option Time := none
  currentTariffId : Option TariffId := none
  deviceLimit : ℕ := 0
  notified3d : Bool := false
  notified1d : Bool := false
  notified2h : Bool := false
  notifiedExpired : Bool := false
  notifiedGrace12h : Bool := false
  notificationRetryCount : ℕ := 0
  lastNotificationAttempt : Option Time := none
  lastTrialResetAt : Option Time := none
  totalTrafficBytes : ℕ := 0
  totalWiTrafficBytes : ℕ := 0
  monthlyVlessBytes : ℕ := 0
  monthlyWiBytes : ℕ := 0
  trafficCycle : Option Month := none
  deriving DecidableEq, Repr

/-! ### Orders and legacy payments -/

inductive OrderStatus
  | pending | paid | canceled | refunded
  deriving DecidableEq, Repr

inductive OrderServiceType
  | standard | awg | whiteInternet | topup
  deriving DecidableEq, Repr

inductive PaymentMethod
  | wallet | yookassa | other (name : String)
  deriving DecidableEq, Repr

/-- What a settled bonus leaves for the push to the referrer. -/
structure ReferrerNotify where
  userId : UserId
  telegramId : Option TelegramId
  bonus : ℤ
  bonusRatePct : ℤ
  tierUpgraded : Bool
  newTierName : Option String
  newRatePct : Option ℤ
  deriving DecidableEq, Repr

/-- `Order.metadata_`: an absent key is `none` (or `false` for a flag). -/
structure OrderMeta where
  operation : Option String := none
  isTrial : Bool := false
  isTariffChange : Bool := false
  isRenewal : Bool := false
  isReferralDiscount : Bool := false
  discountRub : Option ℕ := none
  originalPriceRub : Option ℕ := none
  paymentCreationAmbiguous : Bool := false
  previousSubscriptionEnd : Option Time := none
  previousTariffId : Option TariffId := none
  previousDeviceLimit : Option ℕ := none
  subscriptionId : Option ℕ := none
  cancellationReason : Option String := none
  settlementHeld : Bool := false
  settlementHoldReason : Option String := none
  revivedFromCanceled : Bool := false
  underpaid : Bool := false
  underpaidExpected : Option ℤ := none
  underpaidReceived : Option ℚ := none
  requiresManualReview : Bool := false
  manualReviewReason : Option String := none
  refundAmountMismatch : Option String := none
  refundExternalId : Option String := none
  latePaymentAttemptRejected : Option String := none
  lateNotifyPending : Bool := false
  lateNotifyAttempts : Option ℕ := none
  referrerNotifyPending : Option ReferrerNotify := none
  deriving DecidableEq, Repr

structure Order where
  id : OrderId
  userId : UserId
  serviceType : OrderServiceType := .standard
  tariffId : Option TariffId := none
  /-- `ck_orders_amount_rub` keeps it a whole number that is not negative. -/
  amountRub : ℕ
  durationDays : ℕ := 0
  trafficBytes : ℕ := 0
  deviceLimit : Option ℕ := none
  paymentMethod : PaymentMethod := .yookassa
  externalId : Option String := none
  paymentUrl : Option String := none
  status : OrderStatus := .pending
  description : Option String := none
  metadata : OrderMeta := {}
  createdAt : Time := 0
  paidAt : Option Time := none
  refundedAt : Option Time := none
  deriving DecidableEq, Repr

/-- A row of the legacy `payments` table. -/
structure Payment where
  id : PaymentId
  userId : UserId
  amount : ℕ
  providerSucceeded : Bool
  fulfillmentSucceeded : Bool
  creditedAt : Option Time
  deriving DecidableEq, Repr

/-! ### The account ledger -/

inductive EntryType
  | paymentCredit | purchaseDebit | purchaseReversal | refundDebit | chargebackDebit
  | adminAdjustment
  deriving DecidableEq, Repr

/-- The operation a referral key is about: an order, a legacy payment, or neither. -/
inductive OpId
  | order (id : OrderId)
  | payment (id : PaymentId)
  | unknown
  deriving DecidableEq, Repr

/-- `AccountLedgerEntry.idempotency_key`, one constructor for each way the code spells one. -/
inductive IdemKey
  | orderDebit (order : OrderId)
  | orderCredit (order : OrderId)
  | orderRefund (order : OrderId) (refundId : String)
  | referralBonus (op : OpId) (referrer : UserId)
  | referralReversal (op : OpId) (user : UserId) (refundId : Option String)
  | caller (key : String)
  deriving DecidableEq, Repr

/-- `AccountLedgerEntry.metadata_`: the keys that queries read. -/
structure EntryMeta where
  sourceType : Option String := none
  topupPaymentId : Option PaymentId := none
  topupOrderId : Option OrderId := none
  originalCreditId : Option EntryId := none
  deriving DecidableEq, Repr

/-- `ck_account_ledger_whole_nonzero_amount` and `ck_account_ledger_entry_shape`. -/
def EntryShape (amount : ℤ) (paymentId : Option PaymentId) (quoteId : Option ℕ)
    (orderId : Option OrderId) (reversalOfId : Option EntryId) : EntryType → Prop
  | .paymentCredit => 0 < amount ∧ (paymentId.isSome ∨ orderId.isSome) ∧ quoteId = none ∧
      reversalOfId = none
  | .purchaseDebit => amount < 0 ∧ paymentId = none ∧ (quoteId.isSome ∨ orderId.isSome) ∧
      reversalOfId = none
  | .purchaseReversal => 0 < amount ∧ paymentId = none ∧ (quoteId.isSome ∨ orderId.isSome) ∧
      reversalOfId.isSome
  | .refundDebit | .chargebackDebit => amount < 0 ∧ (paymentId.isSome ∨ orderId.isSome) ∧
      quoteId = none ∧ reversalOfId = none
  | .adminAdjustment => amount ≠ 0 ∧ paymentId = none ∧ quoteId = none ∧ reversalOfId = none

instance (a : ℤ) (p : Option PaymentId) (q : Option ℕ) (o : Option OrderId) (r : Option EntryId)
    (t : EntryType) : Decidable (EntryShape a p q o r t) := by
  cases t <;> unfold EntryShape <;> infer_instance

/-- The values an insert supplies. The currency is `RUB` by its own constraint. -/
structure EntryValues where
  userId : UserId
  entryType : EntryType
  amount : ℤ
  paymentId : Option PaymentId := none
  quoteId : Option ℕ := none
  orderId : Option OrderId := none
  reversalOfId : Option EntryId := none
  idempotencyKey : IdemKey
  metadata : EntryMeta := {}
  shape : EntryShape amount paymentId quoteId orderId reversalOfId entryType
  deriving DecidableEq

structure AccountLedgerEntry extends EntryValues where
  id : EntryId
  createdAt : Time
  deriving DecidableEq

structure AccountLedgerAllocation where
  userId : UserId
  creditEntryId : EntryId
  debitEntryId : EntryId
  amount : ℤ
  deriving DecidableEq, Repr

/-- The two append-only tables of the ledger, and the next value of the id sequence. -/
structure Ledger where
  entries : List AccountLedgerEntry := []
  allocations : List AccountLedgerAllocation := []
  nextId : EntryId := 1
  deriving DecidableEq

/-! ### White Internet -/

inductive WhiteInternetStatus
  | pending | active | exhausted | expired | disabled
  deriving DecidableEq, Repr

/-- The text of a status. -/
def WhiteInternetStatus.text : WhiteInternetStatus → String
  | .pending => "PENDING"
  | .active => "ACTIVE"
  | .exhausted => "EXHAUSTED"
  | .expired => "EXPIRED"
  | .disabled => "DISABLED"

inductive WhiteInternetProvisioningStatus
  | pendingCreate | active | pendingUpdate | pendingDelete | syncedInactive | failed
  deriving DecidableEq, Repr

structure WhiteInternetSubscription where
  id : ℕ
  userId : UserId
  originNodeId : Option ServerId := none
  uuid : Uuid := 0
  status : WhiteInternetStatus := .pending
  statusReason : Option String := none
  startedAt : Time := 0
  expiresAt : Time := 0
  baseTrafficBytes : ℕ := 53687091200
  extraTrafficBytes : ℕ := 0
  trafficUsedBytes : ℕ := 0
  trafficUplinkBytes : ℕ := 0
  trafficDownlinkBytes : ℕ := 0
  trafficOverageBytes : ℕ := 0
  lastUplinkSnapshot : ℕ := 0
  lastDownlinkSnapshot : ℕ := 0
  trafficStatsEpoch : Option Epoch := none
  deviceLimit : ℕ := 1
  isTrial : Bool := false
  provisioningStatus : WhiteInternetProvisioningStatus := .pendingCreate
  desiredVersion : ℕ := 1
  actualVersion : ℕ := 0
  lastReconciledNodeEpoch : Option Epoch := none
  lastSyncedAt : Option Time := none
  lastSyncError : Option String := none
  pendingHardDelete : Bool := false
  notified3d : Bool := false
  notified1d : Bool := false
  notified2h : Bool := false
  notifiedExpired : Bool := false
  notified90p : Bool := false
  deriving DecidableEq, Repr

/-- A row of `white_internet_orphan_cleanups`. -/
structure OrphanCleanup where
  serverId : Option ServerId
  clientUuid : Uuid
  desiredVersion : ℕ
  done : Bool := false
  deriving DecidableEq, Repr

structure WhiteInternetTables where
  subscriptions : List WhiteInternetSubscription := []
  orphanCleanups : List OrphanCleanup := []
  deriving DecidableEq, Repr

/-! ### VLESS -/

/-- One server's entry in `node_traffic_snapshots`. -/
structure NodeSnapshot where
  epoch : Epoch
  up : ℕ
  down : ℕ
  /-- In whole seconds. -/
  updatedAt : ℤ
  deriving DecidableEq, Repr

/-- `node_traffic_snapshots`: the `_fresh` mark and one entry for each server seen. -/
structure NodeSnapshots where
  fresh : Bool := false
  nodes : List (ServerId × NodeSnapshot) := []
  deriving DecidableEq, Repr

structure VlessSubscription where
  id : ℕ
  userId : UserId
  uuid : Uuid := 0
  isActive : Bool := true
  version : ℕ := 1
  pendingRevokedUuids : List Uuid := []
  trafficDown : ℕ := 0
  trafficUp : ℕ := 0
  nodeTrafficSnapshots : NodeSnapshots := {}
  deriving DecidableEq, Repr

/-! ### The database -/

/-- The database. `fulfilled` is a history: the orders whose benefits a committed transaction
    delivered, in order. -/
structure Db where
  users : List User := []
  orders : List Order := []
  payments : List Payment := []
  ledger : Ledger := {}
  whiteInternet : WhiteInternetTables := {}
  vless : List VlessSubscription := []
  fulfilled : List OrderId := []
  deriving DecidableEq

namespace Db

def user (db : Db) (id : UserId) : Option User := Lib.Table.lookup User.id id db.users

def order (db : Db) (id : OrderId) : Option Order := Lib.Table.lookup Order.id id db.orders

def putUser (db : Db) (u : User) : Db := { db with users := Lib.Table.put User.id u db.users }

def putOrder (db : Db) (o : Order) : Db := { db with orders := Lib.Table.put Order.id o db.orders }

end Db

end Just1kBot
