import Just1kBot.Billing.Referral
import Just1kBot.Lib.Transition
import Mathlib.Logic.Relation

/-! Runs of the ledger.

    `LedgerOp` lists the writing operations with their arguments, and one step commits one of them
    or, when it fails, rolls it back. `Posting` says once what any of them can do to the two
    tables: every successful operation is a sequence of postings, so what each posting preserves
    holds in every ledger a run reaches. -/

namespace Just1kBot
open Lib (sumWhere)
open Lib.Python (Number)
open Relation (ReflGen ReflTransGen)

/-- A writing operation. What is booked on an order is booked on the order's own user
    (`user_id=order.user_id` at every call), so credits and refunds take no user. `other` is any
    change of the tables beside the ledger. -/
inductive LedgerOp
  | orderCredit (now : Time) (amount : Number) (order : OrderId) (metadata : EntryMeta)
  | orderDebit (now : Time) (user : UserId) (amount : Number) (order : OrderId)
      (metadata : EntryMeta)
  | orderRefundDebit (now : Time) (amount : Number) (order : OrderId) (refundId : String)
      (metadata : EntryMeta)
  | adminAdjustment (now : Time) (user : UserId) (signedAmount : Number) (key : String)
      (metadata : EntryMeta)
  | grantBonus (now : Time) (purchaser : UserId) (payment : Option PaymentId)
      (order : Option OrderId) (topupAmount : ℚ)
  | reverseBonus (now : Time) (payment : Option PaymentId) (order : Option OrderId)
      (refundId : Option String)
  | other (tables : Db)

variable (owner : OrderId → UserId)

/-- Run an operation on a database in which order `o` belongs to `owner o`. -/
def LedgerOp.exec (db : Db) : LedgerOp → Except Err (Unit × Db)
  | .orderCredit now amount order m =>
    (db.createOrderCredit now (owner order) amount order m).map fun r => ((), r.2)
  | .orderDebit now user amount order m =>
    (db.createOrderDebit now user amount order m).map fun r => ((), r.2)
  | .orderRefundDebit now amount order refundId m =>
    (db.createOrderRefundDebit now (owner order) amount order refundId m).map fun r => ((), r.2)
  | .adminAdjustment now user amount key m =>
    (db.createAdminAdjustment now user amount (.caller key) m).map fun r => ((), r.2)
  | .grantBonus now purchaser payment order amount =>
    (db.grantReferralBonusForTopup now purchaser payment order amount).map fun r => ((), r.2)
  | .reverseBonus now payment order refundId =>
    (db.reverseReferralBonusForTopup now payment order refundId).map fun r => ((), r.2)
  | .other tables => .ok ((), { tables with ledger := db.ledger })

/-- One operation in its own transaction. -/
def ledgerStep (db : Db) (op : LedgerOp) : Db := Lib.commit db (op.exec owner db)

abbrev ledgerRun (db : Db) (ops : List LedgerOp) : Db := Lib.run (ledgerStep owner) db ops

/-! ### What a write does -/

/-- A write that adds money, refunds it, or spends what the balance covers. -/
inductive BackedPosting (l : Ledger) : Ledger → Prop
  | credit (now : Time) (v : EntryValues) (o : OrderId) (hadm : l.Admits v)
      (ht : v.entryType = .paymentCredit) (ho : v.orderId = some o) (hu : v.userId = owner o)
      (hp : v.paymentId = none) : BackedPosting l (l.post now v)
  | refund (now : Time) (v : EntryValues) (o : OrderId) (hadm : l.Admits v)
      (ht : v.entryType = .refundDebit) (ho : v.orderId = some o) (hu : v.userId = owner o)
      (hp : v.paymentId = none) : BackedPosting l (l.post now v)
  | bonus (now : Time) (v : EntryValues) (hadm : l.Admits v) (ht : v.entryType = .adminAdjustment)
      (ho : v.orderId = none) (hpos : 0 < v.amount) : BackedPosting l (l.post now v)
  | debit (now : Time) (v : EntryValues) (r : List AccountLedgerAllocation) (l' : Ledger)
      (hadm : l.Admits v) (ht : v.entryType = .purchaseDebit)
      (hbal : -v.amount ≤ (l.getAccountBalance v.userId).available)
      (halloc : (l.post now v).allocateFifo v.userId (l.newEntry now v) (-v.amount) = .ok (r, l')) :
      BackedPosting l l'

/-- A negative adjustment: it is drawn from the lots, but the balance is not asked. -/
structure Deduction (l : Ledger) (v : EntryValues) (l' : Ledger) : Prop where
  admits : l.Admits v
  type_eq : v.entryType = .adminAdjustment
  no_order : v.orderId = none
  neg : v.amount < 0
  allocated : ∃ now r,
    (l.post now v).allocateFifo v.userId (l.newEntry now v) (-v.amount) = .ok (r, l')

/-- A reversal of a bonus: neither drawn from the lots nor checked against the balance. -/
structure Reversal (l : Ledger) (v : EntryValues) (l' : Ledger) : Prop where
  admits : l.Admits v
  type_eq : v.entryType = .adminAdjustment
  no_order : v.orderId = none
  neg : v.amount < 0
  posted : ∃ now, l' = l.post now v

/-- One write to the ledger. -/
inductive Posting (l l' : Ledger) : Prop
  | backed (h : BackedPosting owner l l')
  | deduction (v : EntryValues) (h : Deduction l v l')
  | reversal (v : EntryValues) (h : Reversal l v l')

namespace Ledger

/-- An insert makes a new row, or finds the stored one and changes nothing. -/
theorem insertOrGetEntry_ok {l l' : Ledger} {now : Time} {v : EntryValues}
    {lk : AccountLedgerEntry → Bool} {e : AccountLedgerEntry} {c : Bool}
    (h : l.insertOrGetEntry now v lk = .ok ((e, c), l')) :
    (c = true ∧ e = l.newEntry now v ∧ l' = l.post now v ∧ l.Admits v) ∨ (c = false ∧ l' = l) := by
  unfold insertOrGetEntry at h
  split_ifs at h with hadm
  · obtain ⟨⟨rfl, rfl⟩, rfl⟩ := by simpa using h
    exact .inl ⟨rfl, rfl, rfl, hadm⟩
  · right
    split at h
    · cases h
    · split_ifs at h
      obtain ⟨⟨rfl, rfl⟩, rfl⟩ := by simpa using h
      exact ⟨rfl, rfl⟩

theorem insert_ok {l l' : Ledger} {now : Time} {v : EntryValues} (h : l.insert now v = .ok l') :
    l' = l.post now v ∧ l.Admits v := by
  unfold insert at h
  split_ifs at h with hadm
  obtain rfl := by simpa using h
  exact ⟨rfl, hadm⟩

/-- Every reversal of the loop is one posting. -/
theorem reverseLoop_postings (now : Time) (payment : Option PaymentId) (order : Option OrderId)
    (refundId : Option String) :
    ∀ (credits : List AccountLedgerEntry) (l l' : Ledger) (total total' : ℤ),
      reverseLoop now payment order refundId credits l total = .ok (total', l') →
      ReflTransGen (Posting owner) l l'
  | [], l, l', total, total', h => by
    obtain ⟨-, rfl⟩ := by simpa [reverseLoop] using h
    exact .refl
  | credit :: rest, l, l', total, total', h => by
    unfold reverseLoop at h
    simp only at h
    split at h
    · exact reverseLoop_postings now payment order refundId rest l l' _ _ h
    · split_ifs at h with hleft
      · exact reverseLoop_postings now payment order refundId rest l l' _ _ h
      · obtain ⟨l₁, h₁, h₂⟩ := Lib.bind_ok h
        obtain ⟨rfl, hadm⟩ := insert_ok h₁
        refine .head ?_ (reverseLoop_postings now payment order refundId rest _ l' _ _ h₂)
        exact .reversal _ ⟨hadm, rfl, rfl, by simpa [reversalEntry] using hleft, now, rfl⟩

end Ledger

namespace Db

variable {db db' : Db} {now : Time}

theorem createOrderCredit_posting {amount : Number} {o : OrderId} {m : EntryMeta}
    {r : AccountLedgerEntry × Bool}
    (h : db.createOrderCredit now (owner o) amount o m = .ok (r, db')) :
    ReflGen (BackedPosting owner) db.ledger db'.ledger := by
  obtain ⟨a, -, h⟩ := Lib.bind_ok h
  obtain ⟨⟨⟨e, c⟩, l'⟩, hins, h⟩ := Lib.bind_ok h
  obtain ⟨-, rfl⟩ := by simpa [pure, Except.pure] using h
  rcases Ledger.insertOrGetEntry_ok hins with ⟨rfl, rfl, rfl, hadm⟩ | ⟨rfl, rfl⟩
  · exact .single (.credit now _ o hadm rfl rfl rfl rfl)
  · exact .refl

/-- What the booking of a refund does: its entry is inserted, or it is there already. -/
theorem createOrderRefundDebit_ok {userId : UserId} {amount : Number} {o : OrderId}
    {refundId : String} {m : EntryMeta} {e : AccountLedgerEntry} {c : Bool}
    (h : db.createOrderRefundDebit now userId amount o refundId m = .ok ((e, c), db')) :
    ∃ q shape l', db.ledger.insertOrGetEntry now
        { userId := userId, entryType := .refundDebit, amount := -Lib.Python.roundHalfUp q
          orderId := some o, idempotencyKey := .orderRefund o (Lib.Python.strip refundId)
          metadata := m, shape := shape }
        (fun _ => false) = .ok ((e, c), l') ∧ db' = { db with ledger := l' } := by
  unfold createOrderRefundDebit at h
  split_ifs at h
  obtain ⟨q, -, h⟩ := Lib.bind_ok h
  split_ifs at h with hq
  obtain ⟨⟨⟨e, c⟩, l'⟩, hins, h⟩ := Lib.bind_ok h
  cases h
  exact ⟨q, _, l', hins, rfl⟩

theorem createOrderRefundDebit_posting {amount : Number} {o : OrderId} {refundId : String}
    {m : EntryMeta} {r : AccountLedgerEntry × Bool}
    (h : db.createOrderRefundDebit now (owner o) amount o refundId m = .ok (r, db')) :
    ReflGen (BackedPosting owner) db.ledger db'.ledger := by
  obtain ⟨e, c⟩ := r
  obtain ⟨_, _, l', hins, rfl⟩ := createOrderRefundDebit_ok h
  rcases Ledger.insertOrGetEntry_ok hins with ⟨rfl, rfl, rfl, hadm⟩ | ⟨rfl, rfl⟩
  · exact .single (.refund now _ o hadm rfl rfl rfl rfl)
  · exact .refl

theorem createOrderDebit_posting {u : UserId} {amount : Number} {o : OrderId} {m : EntryMeta}
    {locked : Option User} {r : Option AccountLedgerEntry × Bool}
    (h : db.createOrderDebit now u amount o m locked = .ok (r, db')) :
    ReflGen (BackedPosting owner) db.ledger db'.ledger := by
  obtain ⟨a, -, h⟩ := Lib.bind_ok h
  obtain ⟨user, -, h⟩ := Lib.bind_ok h
  by_cases ha : a.val = 0
  · rw [dif_pos ha] at h
    obtain ⟨-, rfl⟩ := by simpa [pure, Except.pure] using h
    exact .refl
  · rw [dif_neg ha] at h
    simp only at h
    split at h
    · split at h
      · cases h
      · obtain ⟨-, rfl⟩ := by simpa [pure, Except.pure] using h
        exact .refl
    · split at h
      · cases h
      · rename_i hbal
        obtain ⟨⟨⟨e, c⟩, l₁⟩, hins, h⟩ := Lib.bind_ok h
        rcases Ledger.insertOrGetEntry_ok hins with ⟨rfl, rfl, rfl, hadm⟩ | ⟨rfl, rfl⟩
        · simp only [if_true] at h
          obtain ⟨⟨as, l'⟩, halloc, h⟩ := Lib.bind_ok h
          obtain ⟨-, rfl⟩ := by simpa [pure, Except.pure] using h
          refine .single (.debit now _ as l' hadm rfl (by simpa using hbal) ?_)
          simpa using halloc
        · obtain ⟨-, rfl⟩ := by simpa [pure, Except.pure] using h
          exact .refl

/-- An adjustment that adds money is a bonus; one that takes money is a deduction. -/
theorem createAdminAdjustment_posting {u : UserId} {amount : Number} {key : IdemKey}
    {m : EntryMeta} {r : AccountLedgerEntry × Bool}
    (h : db.createAdminAdjustment now u amount key m = .ok (r, db')) :
    ReflGen (BackedPosting owner) db.ledger db'.ledger ∨
      ∃ v a, adjustmentAmount amount = .ok a ∧ v.amount = a.val ∧ v.userId = u ∧
        v.idempotencyKey = key ∧ (db.user u).isSome ∧ Deduction db.ledger v db'.ledger := by
  obtain ⟨user, huser, h⟩ := Lib.bind_ok h
  obtain ⟨a, ha, h⟩ := Lib.bind_ok h
  obtain ⟨⟨⟨e, c⟩, l₁⟩, hins, h⟩ := Lib.bind_ok h
  rcases Ledger.insertOrGetEntry_ok hins with ⟨rfl, rfl, rfl, hadm⟩ | ⟨rfl, rfl⟩
  · by_cases hneg : a.val < 0
    · simp only [hneg, and_self, if_true] at h
      obtain ⟨⟨as, l'⟩, halloc, h⟩ := Lib.bind_ok h
      obtain ⟨-, rfl⟩ := by simpa [pure, Except.pure] using h
      have hsome : (db.user u).isSome := by
        unfold lockAccountUser at huser
        cases hu : db.user u with
        | none => rw [hu] at huser; cases huser
        | some _ => rfl
      refine .inr ⟨_, a, ha, rfl, rfl, rfl, hsome, hadm, rfl, rfl, hneg, now, as, ?_⟩
      simpa [abs_of_neg hneg] using halloc
    · simp only [hneg, and_false, if_false] at h
      obtain ⟨-, rfl⟩ := by simpa [pure, Except.pure] using h
      have hpos : 0 < a.val := by have := a.property; omega
      exact .inl (.single (.bonus now _ hadm rfl rfl hpos))
  · simp only [Bool.false_eq_true, false_and, if_false] at h
    obtain ⟨-, rfl⟩ := by simpa [pure, Except.pure] using h
    exact .inl .refl

/-- A grant changes nothing, or books the bonus of the purchase on the referrer. -/
theorem grantReferralBonusForTopup_ok {purchaser : UserId} {payment : Option PaymentId}
    {order : Option OrderId} {amount : ℚ} {r : ReferralBonusGrantResult}
    (h : db.grantReferralBonusForTopup now purchaser payment order amount = .ok (r, db')) :
    db' = db ∨ ∃ p referrer, ∃ hpos : ¬ calculateReferralBonus amount
        (getReferralTier (db.effectiveCount p referrer payment order amount)).rate ≤ 0,
      (db.users.find? fun u => u.id = purchaser ∧ u.isDeleted = false) = some p ∧
      db.bonusReferrer p = some referrer ∧
      db.ledger.Admits (bonusEntry referrer payment order _ hpos) ∧
      db' = { db with ledger := db.ledger.post now (bonusEntry referrer payment order _ hpos) } := by
  unfold grantReferralBonusForTopup at h
  split at h
  · cases h
    exact .inl rfl
  · rename_i p hp
    split at h
    · cases h
      exact .inl rfl
    · rename_i referrer hreferrer
      simp only at h
      split_ifs at h with hbonus
      · cases h
        exact .inl rfl
      · split at h
        · cases h
          exact .inl rfl
        · obtain ⟨l', hins, h⟩ := Lib.bind_ok h
          cases h
          unfold Ledger.insert at hins
          split_ifs at hins with hadm
          cases hins
          exact .inr ⟨p, referrer, hbonus, hp, hreferrer, hadm, rfl⟩

/-- A grant books one bonus on the referrer, or changes nothing. -/
theorem grantReferralBonusForTopup_posting {purchaser : UserId} {payment : Option PaymentId}
    {order : Option OrderId} {amount : ℚ} {r : ReferralBonusGrantResult}
    (h : db.grantReferralBonusForTopup now purchaser payment order amount = .ok (r, db')) :
    ReflGen (BackedPosting owner) db.ledger db'.ledger := by
  rcases grantReferralBonusForTopup_ok h with rfl | ⟨p, referrer, hpos, -, -, hadm, rfl⟩
  · exact .refl
  · exact .single (.bonus now _ hadm rfl rfl (not_le.mp hpos))

theorem reverseReferralBonusForTopup_postings {payment : Option PaymentId}
    {order : Option OrderId} {refundId : Option String} {r : ℤ}
    (h : db.reverseReferralBonusForTopup now payment order refundId = .ok (r, db')) :
    ReflTransGen (Posting owner) db.ledger db'.ledger := by
  unfold reverseReferralBonusForTopup at h
  split_ifs at h
  · obtain ⟨-, rfl⟩ := by simpa using h
    exact .refl
  · obtain ⟨⟨total, l'⟩, hloop, h⟩ := Lib.bind_ok h
    obtain ⟨-, rfl⟩ := by simpa [pure, Except.pure] using h
    exact Ledger.reverseLoop_postings owner now payment order refundId _ _ _ _ _ hloop

end Db

/-- An operation whose result is dropped left the store it returned. -/
theorem exec_ok {α : Type} {x : Except Err (α × Db)} {r : Unit × Db}
    (h : (x.map fun r => ((), r.2)) = .ok r) : ∃ a, x = .ok (a, r.2) := by
  obtain ⟨p, hp, rfl⟩ := Lib.map_ok h
  exact ⟨p.1, hp⟩

/-- Every successful operation is a sequence of postings. -/
theorem LedgerOp.exec_postings {db db' : Db} {op : LedgerOp}
    (h : op.exec owner db = .ok ((), db')) :
    ReflTransGen (Posting owner) db.ledger db'.ledger := by
  have hbacked : ∀ {l l' : Ledger}, ReflGen (BackedPosting owner) l l' →
      ReflTransGen (Posting owner) l l' := fun h => by
    rcases h with _ | h
    · exact .refl
    · exact .single (.backed h)
  cases op with
  | orderCredit =>
    obtain ⟨_, h⟩ := exec_ok h
    exact hbacked (Db.createOrderCredit_posting owner h)
  | orderDebit =>
    obtain ⟨_, h⟩ := exec_ok h
    exact hbacked (Db.createOrderDebit_posting owner h)
  | orderRefundDebit =>
    obtain ⟨_, h⟩ := exec_ok h
    exact hbacked (Db.createOrderRefundDebit_posting owner h)
  | adminAdjustment =>
    obtain ⟨_, h⟩ := exec_ok h
    rcases Db.createAdminAdjustment_posting owner h with h | ⟨v, -, -, -, -, -, -, h⟩
    · exact hbacked h
    · exact .single (.deduction v h)
  | grantBonus =>
    obtain ⟨_, h⟩ := exec_ok h
    exact hbacked (Db.grantReferralBonusForTopup_posting owner h)
  | reverseBonus =>
    obtain ⟨_, h⟩ := exec_ok h
    exact Db.reverseReferralBonusForTopup_postings owner h
  | other =>
    cases h
    exact .refl

/-- What every posting preserves, every sequence of postings preserves. -/
theorem postings_inv {I : Ledger → Prop} (hI : ∀ l l', Posting owner l l' → I l → I l')
    {l l' : Ledger} (h : ReflTransGen (Posting owner) l l') (hl : I l) : I l' := by
  induction h with
  | refl => exact hl
  | tail _ hstep ih => exact hI _ _ hstep ih

/-- What every posting preserves, every run of operations preserves. -/
theorem ledgerRun_inv {I : Ledger → Prop} (hI : ∀ l l', Posting owner l l' → I l → I l')
    (ops : List LedgerOp) (db : Db) (h : I db.ledger) : I (ledgerRun owner db ops).ledger := by
  refine Lib.run_inv (I := fun db => I db.ledger) (ledgerStep owner) (fun db op hdb => ?_) ops db h
  refine Lib.commit_inv (I := fun db => I db.ledger) hdb fun _ (db' : Db) hop => ?_
  exact postings_inv owner hI (LedgerOp.exec_postings owner hop) hdb

end Just1kBot
