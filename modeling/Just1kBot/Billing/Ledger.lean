import Just1kBot.Models
import Just1kBot.Lib.Sum
import Just1kBot.Lib.Fifo
import Mathlib.Data.List.Sort

/-! The account ledger: `database/repositories/account_ledger_repo.py`.

    Entries and allocations are append-only. A balance is derived from them on every read; a debit
    that is booked through `_allocate_fifo` is attributed to credit lots, bonus lots first. Each
    mutator either returns the next database or fails, and a failure rolls the transaction back. -/

namespace Just1kBot
open Lib (sumWhere groupKeys)
open Lib.Python (Number strip roundHalfUp)

/-- A whole number of rubles, positive unless zero is allowed. -/
abbrev WholeRubles (allowZero : Bool) := {a : ℤ // 0 ≤ a ∧ (allowZero = false → a ≠ 0)}

def wholeRubles (allowZero : Bool) : Number → Except Err (WholeRubles allowZero)
  | .float _ => .error (.valueError "float money is forbidden")
  | .malformed => .error (.valueError "invalid money amount")
  | .nonFinite => .error (.valueError "amount must be whole rubles")
  | .decimal q =>
    if q.den ≠ 1 then .error (.valueError "amount must be whole rubles")
    else if h : 0 ≤ q.num ∧ (allowZero = false → q.num ≠ 0) then .ok ⟨q.num, h⟩
    else .error (.valueError "amount must be positive")

namespace Db

/-- `lock_account_user`. -/
def lockAccountUser (db : Db) (userId : UserId) (lockedUser : Option User := none) :
    Except Err User :=
  match lockedUser.or (db.user userId) with
  | none => .error (.lookupError "account_user_not_found")
  | some user => .ok user

end Db

/-! ### Reading the balance -/

structure AccountBalanceSnapshot where
  accountingPosition : ℤ
  available : ℤ
  debt : ℤ
  realPosition : ℤ
  bonusPosition : ℤ
  realAvailable : ℤ
  bonusAvailable : ℤ
  deriving DecidableEq, Repr

namespace Ledger

def position (l : Ledger) (u : UserId) : ℤ := sumWhere (·.userId = u) (·.amount) l.entries

def bonusCredited (l : Ledger) (u : UserId) : ℤ :=
  sumWhere (fun e => e.userId = u ∧ e.entryType = .adminAdjustment ∧ 0 < e.amount) (·.amount)
    l.entries

/-- The allocations of the user joined to the bonus entries they were drawn from. -/
def bonusSpent (l : Ledger) (u : UserId) : ℤ :=
  sumWhere (fun a => a.userId = u ∧
      ∃ e ∈ l.entries, e.id = a.creditEntryId ∧ e.entryType = .adminAdjustment)
    (·.amount) l.allocations

def getAccountBalance (l : Ledger) (u : UserId) : AccountBalanceSnapshot :=
  let position := l.position u
  let debt := max 0 (-position)
  if position ≤ 0 then ⟨position, 0, debt, 0, 0, 0, 0⟩
  else if l.bonusCredited u ≤ 0 then ⟨position, position, debt, position, 0, position, 0⟩
  else
    let unspentBonus := max 0 (l.bonusCredited u - l.bonusSpent u)
    let bonusAvailable := min position unspentBonus
    let realAvailable := position - bonusAvailable
    ⟨position, position, debt, realAvailable, bonusAvailable, realAvailable, bonusAvailable⟩

/-! ### Inserting an entry -/

/-- The unique constraints on the key and the partial unique indexes that forbid two rows to stand
    together. -/
def Clash (e v : EntryValues) : Prop :=
  e.idempotencyKey = v.idempotencyKey ∨
  e.entryType = v.entryType ∧
    (v.entryType = .paymentCredit ∧
        (v.paymentId.isSome ∧ e.paymentId = v.paymentId ∨
          v.orderId.isSome ∧ e.orderId = v.orderId) ∨
      v.entryType = .purchaseDebit ∧
        (v.quoteId.isSome ∧ e.quoteId = v.quoteId ∨ v.orderId.isSome ∧ e.orderId = v.orderId) ∨
      v.entryType = .purchaseReversal ∧ e.reversalOfId = v.reversalOfId)

instance (e v : EntryValues) : Decidable (Clash e v) := by unfold Clash; infer_instance

/-- The row an insert of `v` makes. -/
def newEntry (l : Ledger) (now : Time) (v : EntryValues) : AccountLedgerEntry :=
  { v with id := l.nextId, createdAt := now }

def post (l : Ledger) (now : Time) (v : EntryValues) : Ledger :=
  { l with entries := l.entries ++ [l.newEntry now v], nextId := l.nextId + 1 }

/-- No row stands in the way of inserting `v`. -/
def Admits (l : Ledger) (v : EntryValues) : Prop := ∀ e ∈ l.entries, ¬ Clash e.toEntryValues v

instance (l : Ledger) (v : EntryValues) : Decidable (l.Admits v) := by
  unfold Admits; infer_instance

/-- `_same_entry`: the stored row has every expected field of the insert. -/
def sameEntry (e : AccountLedgerEntry) (v : EntryValues) : Bool :=
  e.userId = v.userId ∧ e.entryType = v.entryType ∧ e.amount = v.amount ∧
    e.paymentId = v.paymentId ∧ e.quoteId = v.quoteId ∧ e.orderId = v.orderId ∧
    e.reversalOfId = v.reversalOfId ∧ e.idempotencyKey = v.idempotencyKey

/-- `_insert_or_get_entry`: insert, or find the row in the way by key or by `economicLookup`. -/
def insertOrGetEntry (l : Ledger) (now : Time) (v : EntryValues)
    (economicLookup : AccountLedgerEntry → Bool) :
    Except Err ((AccountLedgerEntry × Bool) × Ledger) :=
  if l.Admits v then .ok ((l.newEntry now v, true), l.post now v)
  else
    match l.entries.find? fun e => e.idempotencyKey = v.idempotencyKey || economicLookup e with
    | none => .error (.ledgerConflict "account_ledger_idempotency_conflict")
    | some e =>
      if sameEntry e v then .ok ((e, false), l)
      else .error (.ledgerConflict "account_ledger_idempotency_conflict")

/-! ### Drawing on credit lots -/

/-- The entries a debit of `u` may draw on. -/
def IsLot (u : UserId) (e : AccountLedgerEntry) : Prop :=
  e.userId = u ∧ 0 < e.amount ∧ (e.entryType = .paymentCredit ∨ e.entryType = .adminAdjustment)

instance (u : UserId) : DecidablePred (IsLot u) := fun e => by unfold IsLot; infer_instance

/-- The order of the lots: bonus lots first, then by age, then by id. -/
def LotLe (a b : AccountLedgerEntry) : Prop :=
  let rank := fun e : AccountLedgerEntry => if e.entryType = .adminAdjustment then 0 else 1
  rank a < rank b ∨ rank a = rank b ∧
    (a.createdAt < b.createdAt ∨ a.createdAt = b.createdAt ∧ a.id ≤ b.id)

instance : DecidableRel LotLe := fun a b => by unfold LotLe; infer_instance

def creditLots (l : Ledger) (u : UserId) : List AccountLedgerEntry :=
  (l.entries.filter fun e => IsLot u e).insertionSort LotLe

def usedByCredit (l : Ledger) (id : EntryId) : ℤ :=
  sumWhere (·.creditEntryId = id) (·.amount) l.allocations

def IsRefund (e : AccountLedgerEntry) : Prop :=
  e.entryType = .refundDebit ∨ e.entryType = .chargebackDebit

instance : DecidablePred IsRefund := fun e => by unfold IsRefund; infer_instance

/-- The refund debits of the orders and payments of these credits. -/
def refundRows (l : Ledger) (credits : List AccountLedgerEntry) : List AccountLedgerEntry :=
  l.entries.filter fun e => IsRefund e ∧
    (e.orderId ∈ (credits.filterMap (·.orderId)).map some ∨
      e.paymentId ∈ (credits.filterMap (·.paymentId)).map some)

/-- One row for each order and payment id that occur together, with the sum of its debits. -/
def refundGroups (l : Ledger) (credits : List AccountLedgerEntry) :
    List ((Option OrderId × Option PaymentId) × ℤ) :=
  let key := fun e : AccountLedgerEntry => (e.orderId, e.paymentId)
  (groupKeys key (l.refundRows credits)).map fun k =>
    (k, sumWhere (key · = k) (·.amount) (l.refundRows credits))

def refundByOrder (l : Ledger) (credits : List AccountLedgerEntry) (o : OrderId) : ℤ :=
  sumWhere (fun g => g.1.1 = some o) (fun g => |g.2|) (l.refundGroups credits)

def refundByPayment (l : Ledger) (credits : List AccountLedgerEntry) (p : PaymentId) : ℤ :=
  sumWhere (fun g => g.1.2 = some p) (fun g => |g.2|) (l.refundGroups credits)

/-- `_batch_credit_capacities`: what each of the credits still has to give. -/
def batchCreditCapacities (l : Ledger) (credits : List AccountLedgerEntry)
    (credit : AccountLedgerEntry) : ℤ :=
  let extDebit := (credit.orderId.elim 0 (l.refundByOrder credits)) +
    (credit.paymentId.elim 0 (l.refundByPayment credits))
  credit.amount - l.usedByCredit credit.id - extDebit

/-- `_allocate_fifo`. -/
def allocateFifo (l : Ledger) (userId : UserId) (debit : AccountLedgerEntry) (amount : ℤ) :
    Except Err (List AccountLedgerAllocation × Ledger) :=
  let credits := l.creditLots userId
  let drawn := Lib.Fifo.draw (l.batchCreditCapacities credits) credits amount
  if drawn.2 ≠ 0 then .error (.ledgerInvariant "available_balance_has_no_credit_lots")
  else
    let created := drawn.1.map fun d => ⟨userId, d.1.id, debit.id, d.2⟩
    .ok (created, { l with allocations := l.allocations ++ created })

end Ledger

/-! ### The mutators -/

/-- The number `Decimal(str(amount_rub))` reads, when it can be quantized. -/
def refundAmount : Number → Except Err ℚ
  | .decimal q | .float q => .ok q
  | .nonFinite | .malformed => .error .invalidOperation

/-- The checks of `create_admin_adjustment` on `signed_amount`. -/
def adjustmentAmount : Number → Except Err {a : ℤ // a ≠ 0}
  | .malformed => .error .invalidOperation
  | .float _ | .nonFinite => .error (.valueError "adjustment must be non-zero whole rubles")
  | .decimal q =>
    if h : q.num ≠ 0 ∧ q.den = 1 then .ok ⟨q.num, h.1⟩
    else .error (.valueError "adjustment must be non-zero whole rubles")

namespace Db

/-- `create_order_debit`. -/
def createOrderDebit (db : Db) (now : Time) (userId : UserId) (amountRub : Number)
    (orderId : OrderId) (metadata : EntryMeta := {}) (lockedUser : Option User := none) :
    Except Err ((Option AccountLedgerEntry × Bool) × Db) := do
  let amount ← wholeRubles true amountRub
  let user ← db.lockAccountUser userId lockedUser
  if h : amount.val = 0 then return ((none, false), db)
  else
    let IsDebit := fun e : AccountLedgerEntry =>
      decide (e.entryType = .purchaseDebit ∧ e.orderId = some orderId)
    match db.ledger.entries.find? IsDebit with
    | some existing =>
      if existing.userId ≠ user.id ∨ existing.amount ≠ -amount.val then
        throw (.ledgerConflict "purchase_debit_conflict")
      else return ((some existing, false), db)
    | none =>
      if (db.ledger.getAccountBalance user.id).available < amount.val then
        throw (.insufficientBalance "insufficient_available_balance")
      else
        let ((debit, created), ledger) ← db.ledger.insertOrGetEntry now
          { userId := user.id, entryType := .purchaseDebit, amount := -amount.val
            orderId := some orderId, idempotencyKey := .orderDebit orderId, metadata := metadata
            shape := ⟨by have := amount.property.1; omega, rfl, .inr rfl, rfl⟩ }
          IsDebit
        if created then
          let (_, ledger) ← ledger.allocateFifo user.id debit amount.val
          return ((some debit, true), { db with ledger := ledger })
        else return ((some debit, false), { db with ledger := ledger })

/-- `create_order_credit`. -/
def createOrderCredit (db : Db) (now : Time) (userId : UserId) (amountRub : Number)
    (orderId : OrderId) (metadata : EntryMeta := {}) :
    Except Err ((AccountLedgerEntry × Bool) × Db) := do
  let amount ← wholeRubles false amountRub
  let (r, ledger) ← db.ledger.insertOrGetEntry now
    { userId := userId, entryType := .paymentCredit, amount := amount.val
      orderId := some orderId, idempotencyKey := .orderCredit orderId, metadata := metadata
      shape := ⟨by have := amount.property; have := this.2 rfl; omega, .inr rfl, rfl, rfl⟩ }
    fun e => e.entryType = .paymentCredit ∧ e.orderId = some orderId
  return (r, { db with ledger := ledger })

/-- The sum `create_order_refund_debit` compares the credit of the order with. -/
def debitedTotal (db : Db) (orderId : OrderId) : ℤ :=
  sumWhere (fun e => e.orderId = some orderId ∧ Ledger.IsRefund e) (·.amount) db.ledger.entries

def creditTotal (db : Db) (orderId : OrderId) : ℤ :=
  sumWhere (fun e => e.orderId = some orderId ∧ e.entryType = .paymentCredit) (·.amount)
    db.ledger.entries

/-- `create_order_refund_debit`. -/
def createOrderRefundDebit (db : Db) (now : Time) (userId : UserId) (amountRub : Number)
    (orderId : OrderId) (refundId : String) (metadata : EntryMeta := {}) :
    Except Err ((AccountLedgerEntry × Bool) × Db) := do
  if strip refundId = "" then throw (.valueError "refund_id must be a non-empty string")
  else
    let q ← refundAmount amountRub
    if h : roundHalfUp q ≤ 0 then
      throw (.valueError "Refund debit amount must be at least 1 ruble")
    else if 0 < db.creditTotal orderId ∧
        db.creditTotal orderId < |db.debitedTotal orderId| + roundHalfUp q then
      throw (.ledgerInvariant "refund_debit_exceeds_credit")
    else
      let (r, ledger) ← db.ledger.insertOrGetEntry now
        { userId := userId, entryType := .refundDebit, amount := -roundHalfUp q
          orderId := some orderId, idempotencyKey := .orderRefund orderId (strip refundId)
          metadata := metadata, shape := ⟨by omega, .inr rfl, rfl, rfl⟩ }
        fun _ => false
      return (r, { db with ledger := ledger })

/-- `create_admin_adjustment`. -/
def createAdminAdjustment (db : Db) (now : Time) (userId : UserId) (signedAmount : Number)
    (idempotencyKey : IdemKey) (metadata : EntryMeta) :
    Except Err ((AccountLedgerEntry × Bool) × Db) := do
  let _ ← db.lockAccountUser userId
  let amount ← adjustmentAmount signedAmount
  let ((entry, created), ledger) ← db.ledger.insertOrGetEntry now
    { userId := userId, entryType := .adminAdjustment, amount := amount.val
      idempotencyKey := idempotencyKey, metadata := metadata
      shape := ⟨amount.property, rfl, rfl, rfl⟩ }
    fun e => e.idempotencyKey = idempotencyKey
  if created ∧ amount.val < 0 then
    let (_, ledger) ← ledger.allocateFifo userId entry |amount.val|
    return ((entry, true), { db with ledger := ledger })
  else return ((entry, created), { db with ledger := ledger })

end Db

end Just1kBot
