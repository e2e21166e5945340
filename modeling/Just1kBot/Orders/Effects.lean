import Just1kBot.Billing.LedgerRun
import Just1kBot.Users.BanService

/-! What a call produces for an order.

    Settling an order has three effects: a wallet credit, a referral bonus, and a delivery. They are
    counted from the ledger and the history. `Produces n` bounds what a call adds to each count, and
    `OrderFrame o` says that no row but the one of order `o` was written; every step of a settlement
    has one lemma about each, and calls compose. -/

namespace Just1kBot
open Lib.Python (Number)

inductive Effect
  | credit | bonus | fulfilment
  deriving DecidableEq, Repr

/-- The entry is a wallet credit or a referral bonus of the order. -/
def Books (o : OrderId) (v : EntryValues) : Effect → Prop
  | .credit => v.entryType = .paymentCredit ∧ v.orderId = some o
  | .bonus => v.entryType = .adminAdjustment ∧ 0 < v.amount ∧
      Ledger.MatchesTopup none (some o) v.metadata
  | .fulfilment => False

instance (o : OrderId) (v : EntryValues) (k : Effect) : Decidable (Books o v k) := by
  cases k <;> unfold Books <;> infer_instance

def Ledger.booked (l : Ledger) (k : Effect) (o : OrderId) : ℕ :=
  l.entries.countP fun e => Books o e.toEntryValues k

/-- How often the effect was produced for the order. -/
def Db.produced (db : Db) (k : Effect) (o : OrderId) : ℕ :=
  match k with
  | .fulfilment => db.fulfilled.count o
  | k => db.ledger.booked k o

theorem Ledger.booked_post (l : Ledger) (now : Time) (v : EntryValues) (k : Effect) (o : OrderId) :
    (l.post now v).booked k o = l.booked k o + if Books o v k then 1 else 0 := by
  simp [booked, post, newEntry, List.countP_append, List.countP_cons]

theorem Db.produced_congr {db db' : Db} (hl : db'.ledger = db.ledger)
    (hf : db'.fulfilled = db.fulfilled) (k : Effect) (o : OrderId) :
    db'.produced k o = db.produced k o := by
  simp only [Db.produced]
  rw [hl, hf]

/-- The entry posted by a call, if any, books at most `n`, and nothing is delivered. -/
theorem Db.produced_post (db : Db) (now : Time) (v : EntryValues) (k : Effect) (o : OrderId) :
    { db with ledger := db.ledger.post now v }.produced k o =
      db.produced k o + if Books o v k then 1 else 0 := by
  cases k with
  | fulfilment => rfl
  | credit => exact Ledger.booked_post ..
  | bonus => exact Ledger.booked_post ..

/-- The call adds at most `n` to each count, and takes nothing away. -/
def Produces (n : Effect → OrderId → ℕ) (db db' : Db) : Prop :=
  ∀ k o, db.produced k o ≤ db'.produced k o ∧ db'.produced k o ≤ db.produced k o + n k o

/-- One effect of the kind for the order. -/
def one (k : Effect) (o : OrderId) : Effect → OrderId → ℕ := fun k' o' =>
  if k' = k ∧ o' = o then 1 else 0

theorem Produces.of_eq {db db' : Db} (hl : db'.ledger = db.ledger)
    (hf : db'.fulfilled = db.fulfilled) : Produces 0 db db' := fun k o => by
  rw [Db.produced_congr hl hf]
  exact ⟨le_refl _, le_refl _⟩

theorem Produces.refl (db : Db) : Produces 0 db db := .of_eq rfl rfl

theorem Produces.trans {n m : Effect → OrderId → ℕ} {a b c : Db} (h : Produces n a b)
    (h' : Produces m b c) : Produces (n + m) a c := fun k o => by
  obtain ⟨h₁, h₂⟩ := h k o
  obtain ⟨h₃, h₄⟩ := h' k o
  simp only [Pi.add_apply]
  omega

theorem Produces.mono {n m : Effect → OrderId → ℕ} {a b : Db} (h : Produces n a b)
    (hnm : n ≤ m) : Produces m a b := fun k o =>
  ⟨(h k o).1, (h k o).2.trans (Nat.add_le_add_left (hnm k o) _)⟩

theorem Produces.eq {a b : Db} (h : Produces 0 a b) (k : Effect) (o : OrderId) :
    b.produced k o = a.produced k o := le_antisymm (h k o).2 (h k o).1

/-- An entry that books one effect of one order at most. -/
theorem Produces.of_post {db : Db} {now : Time} {v : EntryValues} {n : Effect → OrderId → ℕ}
    (h : ∀ k o, Books o v k → n k o = 1) :
    Produces n db { db with ledger := db.ledger.post now v } := fun k o => by
  rw [Db.produced_post]
  split_ifs with hv
  · rw [h k o hv]; omega
  · omega

/-! ### The rows a call writes -/

/-- No order row but that of `o` was written, and none was added or removed. -/
structure OrderFrame (o : OrderId) (db db' : Db) : Prop where
  ids : db'.orders.map Order.id = db.orders.map Order.id
  others : ∀ o' ≠ o, db'.order o' = db.order o'

namespace OrderFrame
variable {o : OrderId} {a b c : Db}

theorem of_eq (h : b.orders = a.orders) : OrderFrame o a b :=
  ⟨by rw [h], fun o' _ => by unfold Db.order; rw [h]⟩

theorem refl (o : OrderId) (a : Db) : OrderFrame o a a := .of_eq rfl

theorem trans (h : OrderFrame o a b) (h' : OrderFrame o b c) : OrderFrame o a c :=
  ⟨h'.ids.trans h.ids, fun o' ho' => (h'.others o' ho').trans (h.others o' ho')⟩

theorem of_put (order : Order) (ho : order.id = o)
    (h : b.orders = (a.putOrder order).orders) : OrderFrame o a b where
  ids := by rw [h]; exact Lib.Table.map_key_put Order.id order a.orders
  others o' ho' := by
    rw [Db.order]
    rw [h]
    exact Lib.Table.lookup_put_ne Order.id a.orders (by rw [ho]; exact ho')

theorem order_isSome (h : OrderFrame o a b) (o' : OrderId) :
    (b.order o').isSome = (a.order o').isSome := by
  simp only [Db.order]
  rw [Lib.Table.lookup_isSome, Lib.Table.lookup_isSome, h.ids]

end OrderFrame

theorem Db.order_putOrder_self {db : Db} {order : Order} (h : (db.order order.id).isSome) :
    (db.putOrder order).order order.id = some order := by
  obtain ⟨r, hr⟩ := Option.isSome_iff_exists.mp h
  exact Lib.Table.lookup_put_self Order.id hr rfl

/-! ### The ledger calls of a settlement -/

namespace Db
variable {db db' : Db} {now : Time}

theorem createOrderCredit_effects {u : UserId} {amount : Number} {o : OrderId} {m : EntryMeta}
    {r : AccountLedgerEntry × Bool}
    (h : db.createOrderCredit now u amount o m = .ok (r, db')) :
    db'.orders = db.orders ∧ Produces (one .credit o) db db' := by
  obtain ⟨a, -, h⟩ := Lib.bind_ok h
  obtain ⟨⟨⟨e, c⟩, l'⟩, hins, h⟩ := Lib.bind_ok h
  obtain ⟨-, rfl⟩ := by simpa [pure, Except.pure] using h
  rcases Ledger.insertOrGetEntry_ok hins with ⟨rfl, rfl, rfl, -⟩ | ⟨rfl, rfl⟩
  · refine ⟨rfl, .of_post fun k o' hb => if_pos ?_⟩
    cases k with
    | credit => exact ⟨rfl, (Option.some.inj hb.2).symm⟩
    | bonus => exact absurd hb.1 (by simp)
    | fulfilment => exact hb.elim
  · exact ⟨rfl, (Produces.refl db).mono fun _ _ => Nat.zero_le _⟩

theorem createOrderRefundDebit_effects {u : UserId} {amount : Number} {o : OrderId}
    {refundId : String} {m : EntryMeta} {r : AccountLedgerEntry × Bool}
    (h : db.createOrderRefundDebit now u amount o refundId m = .ok (r, db')) :
    db'.orders = db.orders ∧ Produces 0 db db' := by
  obtain ⟨e, c⟩ := r
  obtain ⟨_, _, l', hins, rfl⟩ := createOrderRefundDebit_ok h
  rcases Ledger.insertOrGetEntry_ok hins with ⟨rfl, rfl, rfl, -⟩ | ⟨rfl, rfl⟩
  · refine ⟨rfl, .of_post fun k o' hb => ?_⟩
    cases k with
    | credit => exact absurd hb.1 (by simp)
    | bonus => exact absurd hb.1 (by simp)
    | fulfilment => exact hb.elim
  · exact ⟨rfl, .refl db⟩

theorem grantReferralBonusForTopup_effects {purchaser : UserId} {o : OrderId} {amount : ℚ}
    {r : ReferralBonusGrantResult}
    (h : db.grantReferralBonusForTopup now purchaser none (some o) amount = .ok (r, db')) :
    db'.orders = db.orders ∧ Produces (one .bonus o) db db' := by
  rcases grantReferralBonusForTopup_ok h with rfl | ⟨_, _, _, -, -, -, rfl⟩
  · exact ⟨rfl, (Produces.refl db').mono fun _ _ => Nat.zero_le _⟩
  · refine ⟨rfl, .of_post fun k o' hb => if_pos ?_⟩
    cases k with
    | credit => exact absurd hb.1 (by simp [Db.bonusEntry])
    | bonus => exact ⟨rfl, (by simpa [Db.bonusEntry] using hb.2.2.2 : o = o').symm⟩
    | fulfilment => exact hb.elim

end Db

/-- A reversal takes money, so it books no effect of any order. -/
theorem Ledger.booked_reverseLoop (now : Time) (payment : Option PaymentId)
    (order : Option OrderId) (refundId : Option String) :
    ∀ (credits : List AccountLedgerEntry) (l l' : Ledger) (total total' : ℤ),
      reverseLoop now payment order refundId credits l total = .ok (total', l') →
      ∀ k o, l'.booked k o = l.booked k o
  | [], l, l', total, total', h, k, o => by
    obtain ⟨-, rfl⟩ := by simpa [reverseLoop] using h
    rfl
  | credit :: rest, l, l', total, total', h, k, o => by
    unfold reverseLoop at h
    simp only at h
    split at h
    · exact booked_reverseLoop now payment order refundId rest l l' _ _ h k o
    · split_ifs at h with hleft
      · exact booked_reverseLoop now payment order refundId rest l l' _ _ h k o
      · obtain ⟨l₁, h₁, h₂⟩ := Lib.bind_ok h
        obtain ⟨rfl, -⟩ := insert_ok h₁
        rw [booked_reverseLoop now payment order refundId rest _ l' _ _ h₂ k o, booked_post,
          if_neg, add_zero]
        cases k with
        | credit => exact fun hb => absurd hb.1 (by simp [reversalEntry])
        | bonus => exact fun hb => absurd hb.2.1 (by simp only [reversalEntry]; omega)
        | fulfilment => exact not_false

theorem Db.reverseReferralBonusForTopup_effects {db db' : Db} {now : Time}
    {payment : Option PaymentId} {order : Option OrderId} {refundId : Option String} {r : ℤ}
    (h : db.reverseReferralBonusForTopup now payment order refundId = .ok (r, db')) :
    db'.orders = db.orders ∧ Produces 0 db db' := by
  unfold reverseReferralBonusForTopup at h
  split_ifs at h
  · obtain ⟨-, rfl⟩ := by simpa using h
    exact ⟨rfl, .refl db⟩
  · obtain ⟨⟨total, l'⟩, hloop, h⟩ := Lib.bind_ok h
    obtain ⟨-, rfl⟩ := by simpa [pure, Except.pure] using h
    have hbooked := Ledger.booked_reverseLoop now payment order refundId _ _ _ _ _ hloop
    refine ⟨rfl, fun k o => ?_⟩
    have : { db with ledger := l' }.produced k o = db.produced k o := by
      cases k with
      | fulfilment => rfl
      | credit => exact hbooked .credit o
      | bonus => exact hbooked .bonus o
    exact ⟨this.ge, this.le⟩

/-! ### Settling -/

variable (wi : WhiteInternetApi)

/-- A delivery writes the order it is about, and delivers it once at most. -/
theorem fulfillOrder_effects {db db' : Db} {now : Time} {order order' : Order}
    (h : fulfillOrder wi db now order = .ok (order', db')) :
    OrderFrame order.id db db' ∧ Produces (one .fulfilment order.id) db db' ∧
      SameOrder order order' ∧ (db.order order.id = some order →
        db'.order order.id = some order') := by
  obtain ⟨hsame, hl, ⟨ho, rfl, hf⟩ | ⟨ho, hf⟩⟩ := fulfillOrder_ok wi h
  · refine ⟨.of_eq ho, (Produces.of_eq hl hf).mono fun _ _ => Nat.zero_le _, hsame, fun hrow => ?_⟩
    rw [Db.order]
    rw [ho]
    exact hrow
  · refine ⟨.of_put order' hsame.1 ho, fun k o => ?_, hsame, fun hrow => ?_⟩
    · cases k with
      | credit => simp [Db.produced, hl]
      | bonus => simp [Db.produced, hl]
      | fulfilment =>
        simp only [Db.produced, hf, List.count_append, List.count_singleton, one, true_and]
        by_cases heq : o = order.id
        · simp [heq]
        · simp [heq, Ne.symm heq]
    · rw [Db.order]
      rw [ho, ← hsame.1]
      exact Db.order_putOrder_self (by rw [hsame.1, hrow]; rfl)

end Just1kBot
