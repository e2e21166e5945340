import Just1kBot.Orders.ExactlyOnce
import Just1kBot.Orders.GatewayCancel
import Just1kBot.Orders.Placed

/-! What later changes leave of an order.

    Whatever is reported or done about an order, its amount stays, its status goes on, the payment
    it was tied to stays the one, and an order that refuses payments keeps refusing them. `Later`
    says this of every order there is. The payments themselves are the gateway's: `orderOf` is the
    order that a payment was made for, which the gateway hands back with each report. -/

namespace Just1kBot

/-- How far an order has come. -/
def OrderStatus.rank : OrderStatus → ℕ
  | .pending => 0
  | .canceled => 1
  | .paid => 2
  | .refunded => 3

/-- What later changes leave of an order. -/
structure OrderKept (a b : Order) : Prop where
  amount : b.amountRub = a.amountRub
  status : a.status.rank ≤ b.status.rank
  external : ∀ ext ∈ a.externalId, ext ≠ "" → b.externalId = some ext
  refuses : RefusesPayments a → RefusesPayments b

/-- The fields that tie an order to its payment. -/
def SamePayment (o o' : Order) : Prop :=
  o'.externalId = o.externalId ∧ o'.amountRub = o.amountRub ∧
    o'.metadata.cancellationReason = o.metadata.cancellationReason

theorem SamePayment.refl (o : Order) : SamePayment o o := ⟨rfl, rfl, rfl⟩

theorem SamePayment.trans {a b c : Order} (h : SamePayment a b) (h' : SamePayment b c) :
    SamePayment a c :=
  ⟨h'.1.trans h.1, h'.2.1.trans h.2.1, h'.2.2.trans h.2.2⟩

namespace OrderKept
variable {a b c : Order}

theorem refl (a : Order) : OrderKept a a := ⟨rfl, le_rfl, fun _ h _ => h, id⟩

theorem trans (h : OrderKept a b) (h' : OrderKept b c) : OrderKept a c where
  amount := h'.amount.trans h.amount
  status := h.status.trans h'.status
  external ext hext hne := h'.external ext (h.external ext hext hne) hne
  refuses := h'.refuses ∘ h.refuses

theorem of_same (hstatus : b.status = a.status) (h : SamePayment a b) : OrderKept a b where
  amount := h.2.1
  status := hstatus ▸ le_rfl
  external _ hext _ := h.1.trans hext
  refuses := fun hr => ⟨hstatus.trans hr.1, h.2.2.trans hr.2⟩

theorem pending_of (h : OrderKept a b) (hb : b.status = .pending) : a.status = .pending := by
  have hle := h.status
  rw [hb] at hle
  cases ha : a.status <;> simp [ha, OrderStatus.rank] at hle ⊢

theorem refunded (h : OrderKept a b) (ha : a.status = .refunded) : b.status = .refunded := by
  have hle := h.status
  rw [ha] at hle
  cases hb : b.status <;> simp [hb, OrderStatus.rank] at hle ⊢

theorem canceled (a : Order) (reason : String) : OrderKept a (markOrderCanceled a reason) := by
  rw [markOrderCanceled]
  split
  · rename_i hst
    refine ⟨rfl, by simp [hst, OrderStatus.rank], fun _ h _ => h, fun hr => ?_⟩
    rw [RefusesPayments, hst] at hr
    cases hr.1
  · refine ⟨rfl, le_rfl, fun _ h _ => h, fun hr => ⟨hr.1, ?_⟩⟩
    simp [hr.2]
  · exact refl a

end OrderKept

/-! ### Databases -/

variable (orderOf : String → Option OrderId)

/-- The payment of the order was made for it. -/
def Knows (a : Order) : Prop := ∀ ext ∈ a.externalId, ext ≠ "" → orderOf ext = some a.id

structure Known (db : Db) : Prop where
  unique : UniqueOrders db
  external : ∀ a ∈ db.orders, Knows orderOf a

def Later (db db' : Db) : Prop :=
  ∀ o a, db.order o = some a → ∃ b, db'.order o = some b ∧ OrderKept a b

theorem Later.refl (db : Db) : Later db db := fun _ a h => ⟨a, h, .refl a⟩

theorem Later.trans {a b c : Db} (h : Later a b) (h' : Later b c) : Later a c := fun o r hr => by
  obtain ⟨r', hr', hk⟩ := h o r hr
  obtain ⟨r'', hr'', hk'⟩ := h' o r' hr'
  exact ⟨r'', hr'', hk.trans hk'⟩

variable {orderOf}

theorem Known.of_row {db : Db} (h : Known orderOf db) {o : OrderId} {a : Order}
    (ha : db.order o = some a) : Knows orderOf a :=
  h.external a (List.mem_of_find?_eq_some ha)

theorem Known.of_orders {db db' : Db} (h : Known orderOf db) (ho : db'.orders = db.orders) :
    Known orderOf db' ∧ Later db db' := by
  have hrow : ∀ o, db'.order o = db.order o := fun o => by rw [Db.order, Db.order, ho]
  refine ⟨⟨?_, ?_⟩, fun o a ha => ⟨a, (hrow o).trans ha, .refl a⟩⟩
  · have hu := h.unique
    rw [UniqueOrders] at hu ⊢
    rwa [ho]
  · rw [ho]
    exact h.external

/-- The row `a` became `b`, and no other row was written. -/
structure RowStep (a b : Order) (db db' : Db) : Prop where
  frame : OrderFrame a.id db db'
  row : db'.order a.id = some b
  kept : OrderKept a b

namespace RowStep
variable {a b c : Order} {db db' db'' : Db}

theorem id_eq (h : RowStep a b db db') : b.id = a.id := Lib.Table.key_of_lookup Order.id h.row

theorem refl (h : db.order a.id = some a) : RowStep a a db db := ⟨.refl _ _, h, .refl a⟩

theorem trans (h : RowStep a b db db') (h' : RowStep b c db' db'') : RowStep a c db db'' where
  frame := h.frame.trans (h.id_eq ▸ h'.frame)
  row := h.id_eq ▸ h'.row
  kept := h.kept.trans h'.kept

theorem of_put (h : db.order a.id = some a) (hid : b.id = a.id) (hk : OrderKept a b) :
    RowStep a b db (db.putOrder b) where
  frame := .of_put b hid rfl
  row := hid ▸ Db.order_putOrder_self (by rw [hid, h]; rfl)
  kept := hk

theorem of_orders (h : RowStep a b db db') (ho : db''.orders = db'.orders) :
    RowStep a b db db'' where
  frame := h.frame.trans (.of_eq ho)
  row := by
    rw [← h.row, Db.order, Db.order, ho]
  kept := h.kept

/-- The other orders are as they were, and this one goes on. -/
theorem later (h : RowStep a b db db') (ha : db.order a.id = some a) : Later db db' := by
  intro o r hr
  by_cases ho : o = a.id
  · subst ho
    obtain rfl := Option.some.inj (ha.symm.trans hr)
    exact ⟨b, h.row, h.kept⟩
  · exact ⟨r, (h.frame.others o ho).trans hr, .refl r⟩

theorem known (h : RowStep a b db db') (hdb : Known orderOf db) (hb : Knows orderOf b) :
    Known orderOf db' := by
  have hu := h.frame.unique hdb.unique
  refine ⟨hu, fun r hr => ?_⟩
  have hrow := hu.order_of_mem hr
  by_cases hid : r.id = a.id
  · rw [hid, h.row] at hrow
    exact Option.some.inj hrow ▸ hb
  · rw [h.frame.others r.id hid] at hrow
    exact hdb.of_row hrow

end RowStep

theorem Knows.of_external {a b : Order} (h : Knows orderOf a) (hid : b.id = a.id)
    (hext : ∀ ext ∈ b.externalId, ext ≠ "" → a.externalId = some ext ∨ orderOf ext = some a.id) :
    Knows orderOf b := fun ext hb hne => by
  rw [hid]
  exact (hext ext hb hne).elim (fun ha => h ext ha hne) id

theorem Knows.of_same {a b : Order} (h : Knows orderOf a) (hid : b.id = a.id)
    (hsame : SamePayment a b) : Knows orderOf b :=
  h.of_external hid fun _ hb _ => .inl (hsame.1 ▸ hb)

/-! ### Settling -/

variable {wi : WhiteInternetApi} {db db' : Db} {now : Time} {o o' : Order}

theorem grantBonus_samePayment (h : grantBonus db now o = .ok (o', db')) : SamePayment o o' := by
  rw [grantBonus] at h
  split_ifs at h
  · obtain ⟨⟨g, db₁⟩, -, hn⟩ := Lib.bind_ok h
    simp only at hn
    split at hn
    · cases hn
      exact .refl o
    · cases hn
      exact ⟨rfl, rfl, rfl⟩
  · cases h
    exact .refl o

/-- Delivering an order writes what was there before and the subscription into its metadata. -/
def Delivered (o o' : Order) : Prop :=
  ∃ prevEnd prevTariff prevLimit sub, o' = { o with metadata := { o.metadata with
    previousSubscriptionEnd := prevEnd
    previousTariffId := prevTariff
    previousDeviceLimit := prevLimit
    subscriptionId := sub } }

theorem Delivered.refl (o : Order) : Delivered o o := ⟨_, _, _, _, rfl⟩

theorem Delivered.samePayment (h : Delivered o o') : SamePayment o o' := by
  obtain ⟨prevEnd, prevTariff, prevLimit, sub, rfl⟩ := h
  exact ⟨rfl, rfl, rfl⟩

theorem fulfillWhiteInternet_delivered {user : User}
    (h : fulfillWhiteInternet wi db now o user = .ok (o', db')) : Delivered o o' := by
  rw [fulfillWhiteInternet] at h
  split_ifs at h
  · obtain ⟨r, -, h₁⟩ := Lib.bind_ok h
    obtain ⟨r', -, h₂⟩ := Lib.bind_ok h₁
    cases h₂
    exact .refl o
  · obtain ⟨r, -, h₁⟩ := Lib.bind_ok h
    obtain ⟨r', -, h₂⟩ := Lib.bind_ok h₁
    cases h₂
    exact .refl o
  · obtain ⟨r, -, h₁⟩ := Lib.bind_ok h
    obtain ⟨r', -, h₂⟩ := Lib.bind_ok h₁
    cases h₂
    split <;> exact ⟨_, _, _, _, rfl⟩

theorem fulfillOrder_delivered (h : fulfillOrder wi db now o = .ok (o', db')) :
    Delivered o o' := by
  rw [fulfillOrder] at h
  split at h
  · cases h
    exact .refl o
  · obtain ⟨⟨o₁, db₁⟩, hdel, hr⟩ := Lib.bind_ok h
    cases hr
    rw [deliver] at hdel
    split at hdel
    · cases hdel
      exact ⟨_, _, _, _, rfl⟩
    · cases hdel
      exact ⟨_, _, _, _, rfl⟩
    · exact fulfillWhiteInternet_delivered hdel
    · cases hdel
      exact .refl o

theorem settleBenefits_samePayment (h : settleBenefits wi db now o = .ok (o', db')) :
    SamePayment o o' := by
  obtain ⟨db₁, -, h⟩ := Lib.bind_ok h
  obtain ⟨⟨o₂, db₂⟩, hbonus, h⟩ := Lib.bind_ok h
  have hmark : SamePayment o (markNotifyPending o) := ⟨rfl, rfl, rfl⟩
  have h₂ : SamePayment o o₂ := hmark.trans (grantBonus_samePayment hbonus)
  simp only at h
  split_ifs at h
  · exact h₂.trans (fulfillOrder_delivered h).samePayment
  · cases h
    exact h₂

/-- Settling the row `p` that was made of `a`, from a database that differs in that row alone. -/
theorem RowStep.settle {a : Order} (p : Order) {db₁ : Db} (hrow : db.order a.id = some a)
    (hframe : OrderFrame a.id db db₁) (hid : p.id = a.id) (hk : OrderKept a p)
    (hs : settleBenefits wi db₁ now p = .ok (o', db')) :
    RowStep a o' db db' ∧ o'.status = p.status ∧ SamePayment p o' := by
  have hsome : (db₁.order p.id).isSome := by
    rw [hframe.order_isSome, hid, hrow]
    rfl
  obtain ⟨hframe', -, hsame, hrow'⟩ := settleBenefits_effects wi hsome hs
  rw [hid] at hframe' hrow'
  have hpay := settleBenefits_samePayment hs
  exact ⟨⟨hframe.trans hframe', hrow', hk.trans (.of_same hsame.2.2.1 hpay)⟩, hsame.2.2.1, hpay⟩

/-! ### Payments -/

/-- A payment in that id is the one the order was tied to, if it was tied to one. -/
def OwnPayment (a : Order) (ext : Option String) : Prop :=
  ∀ e ∈ a.externalId, e ≠ "" → ∀ x ∈ ext, x ≠ "" → x = e

theorem withExternalId_cases (ext : Option String) (a : Order) :
    (withExternalId ext a).externalId = a.externalId ∨
      ∃ x ∈ ext, x ≠ "" ∧ (withExternalId ext a).externalId = some x := by
  rw [withExternalId]
  cases hx : ext.filter (· ≠ "") with
  | none => exact .inl rfl
  | some x =>
    obtain ⟨hmem, hne⟩ := Option.filter_eq_some_iff.mp hx
    exact .inr ⟨x, hmem, of_decide_eq_true hne, rfl⟩

/-- The row that a payment writes before it is settled. -/
theorem OrderKept.of_payment {a b : Order} {ext : Option String} (hown : OwnPayment a ext)
    (hext : b.externalId = (withExternalId ext a).externalId) (hamount : b.amountRub = a.amountRub)
    (hstatus : a.status.rank ≤ b.status.rank) (hrefuses : ¬ RefusesPayments a) :
    OrderKept a b where
  amount := hamount
  status := hstatus
  external e he hne := by
    rw [hext]
    rcases withExternalId_cases ext a with h | ⟨x, hx, hxne, h⟩
    · exact h.trans he
    · rw [h, hown e he hne x hx hxne]
  refuses h := absurd h hrefuses

/-- A payment of that amount settles the order: it is open, does not refuse it, and the amount is
    not short. -/
structure Counts (amount : Option ℚ) (a : Order) : Prop where
  unpaid : a.status.rank < OrderStatus.rank .paid
  accepted : ¬ RefusesPayments a
  enough : ∀ q ∈ amount, (a.amountRub : ℚ) ≤ q

theorem Counts.of_kept {amount : Option ℚ} {a b : Order} (hk : OrderKept a b)
    (h : Counts amount b) : Counts amount a where
  unpaid := lt_of_le_of_lt hk.status h.unpaid
  accepted := h.accepted ∘ hk.refuses
  enough q hq := hk.amount ▸ h.enough q hq

/-- What a payment makes of the status. -/
def PaymentStatus (amount : Option ℚ) (a b : Order) : Prop :=
  Counts amount a ∧ b.status = .paid ∨ ¬ Counts amount a ∧ b.status = a.status

theorem payOrder_row {a : Order} {ext : Option String} {amount : Option ℚ} {r : Option Order}
    (hrow : db.order a.id = some a) (ha : a.status = .pending ∨ a.status = .canceled)
    (hknown : Knows orderOf a) (hown : OwnPayment a ext)
    (hext : ∀ x ∈ ext, x ≠ "" → orderOf x = some a.id)
    (h : payOrder wi db now a ext amount = .ok (r, db')) :
    (r = none ∧ db' = db ∧ RefusesPayments a) ∨
      ∃ b, r = some b ∧ RowStep a b db db' ∧ Knows orderOf b ∧ PaymentStatus amount a b := by
  have hrank : a.status.rank < OrderStatus.rank .paid := by
    rcases ha with h | h <;> simp [h, OrderStatus.rank]
  rw [payOrder] at h
  split_ifs at h with hrefuses
  · cases h
    exact .inl ⟨rfl, rfl, hrefuses⟩
  · have hmade : Knows orderOf (withExternalId ext a) := hknown.of_external rfl fun e he _ => by
      rcases withExternalId_cases ext a with h | ⟨x, hx, hxne, h⟩
      · exact .inl (h ▸ he)
      · rw [h] at he
        cases he
        exact .inr (hext e hx hxne)
    simp only at h
    split at h
    · rename_i q hq
      obtain ⟨db₁, hflush, h⟩ := Lib.bind_ok h
      obtain rfl := flushOrder_ok hflush
      cases h
      obtain ⟨hmem, hlt⟩ := Option.filter_eq_some_iff.mp hq
      refine .inr ⟨_, rfl, .of_put hrow rfl ?_, hmade.of_same rfl ⟨rfl, rfl, rfl⟩,
        .inr ⟨fun hcounts => ?_, rfl⟩⟩
      · exact .of_payment hown rfl rfl le_rfl hrefuses
      · exact absurd (of_decide_eq_true hlt) (not_lt.mpr (hcounts.enough q hmem))
    · rename_i hfull
      have hcounts : Counts amount a := ⟨hrank, hrefuses, fun q hq => by
        have hnot := (Option.filter_eq_none_iff.mp hfull) q hq
        exact not_lt.mp fun hlt => hnot (decide_eq_true hlt)⟩
      obtain ⟨db₁, hflush, h⟩ := Lib.bind_ok h
      obtain rfl := flushOrder_ok hflush
      set p := paidRow now (withExternalId ext a) with hp
      have hstep : RowStep a p db (db.putOrder p) :=
        .of_put hrow rfl (.of_payment hown rfl rfl hrank.le hrefuses)
      have hpknown : Knows orderOf p := hmade.of_same rfl ⟨rfl, rfl, rfl⟩
      rw [settleFresh] at h
      split at h
      · rename_i user _
        cases h
        exact .inr ⟨heldRow user p, rfl, hstep.trans (.of_put hstep.row rfl
          (.of_same rfl ⟨rfl, rfl, rfl⟩)), hpknown.of_same rfl ⟨rfl, rfl, rfl⟩,
          .inl ⟨hcounts, rfl⟩⟩
      · obtain ⟨⟨b, db₂⟩, hs, h⟩ := Lib.map_ok h
        cases h
        obtain ⟨hstep', hstatus, hsame⟩ := RowStep.settle p hrow hstep.frame rfl hstep.kept hs
        exact .inr ⟨b, rfl, hstep', hpknown.of_same (hstep'.id_eq) hsame, .inl ⟨hcounts, hstatus⟩⟩

/-- `mark_order_paid`, called for the payment of the order. -/
theorem markOrderPaid_row {a : Order} {ext : Option String} {amount : Option ℚ} {r : Option Order}
    (hrow : db.order a.id = some a) (hknown : Knows orderOf a) (hown : OwnPayment a ext)
    (hext : ∀ x ∈ ext, x ≠ "" → orderOf x = some a.id)
    (h : markOrderPaid wi db now a.id ext amount = .ok (r, db')) :
    (r = none ∧ db' = db ∧ RefusesPayments a) ∨
      ∃ b, r = some b ∧ RowStep a b db db' ∧ Knows orderOf b ∧ PaymentStatus amount a b := by
  simp only [markOrderPaid, hrow] at h
  split at h
  · rename_i hpaid
    have hnot : ¬ Counts amount a := fun h => absurd h.unpaid (by rw [hpaid]; decide)
    split_ifs at h with hheld
    · cases h
      exact .inr ⟨a, rfl, .refl hrow, hknown, .inr ⟨hnot, rfl⟩⟩
    · obtain ⟨⟨b, db₁⟩, hs, h⟩ := Lib.map_ok h
      cases h
      have hk : OrderKept a (releasedRow a) := .of_same rfl ⟨rfl, rfl, rfl⟩
      obtain ⟨hstep, hstatus, hsame⟩ := RowStep.settle (releasedRow a) hrow (.refl _ _) rfl hk hs
      exact .inr ⟨b, rfl, hstep, hknown.of_same hstep.id_eq hsame, .inr ⟨hnot, hstatus⟩⟩
    · cases h
      exact .inr ⟨a, rfl, .refl hrow, hknown, .inr ⟨hnot, rfl⟩⟩
  · rename_i hrefunded
    cases h
    refine .inr ⟨a, rfl, .refl hrow, hknown, .inr ⟨fun h => ?_, rfl⟩⟩
    exact absurd h.unpaid (by rw [hrefunded]; decide)
  · rename_i hst
    exact payOrder_row hrow (.inl hst) hknown hown hext h
  · rename_i hst
    exact payOrder_row hrow (.inr hst) hknown hown hext h

/-! ### What else is done about orders -/

/-- What happens to orders besides the webhooks. Orders are placed with the payment that was made
    for them, the reconciliation and the users ask the gateway, users and workers cancel, the debt
    of a notification is cleared, admins restrict a user, and `other` is any change of the remaining
    tables. -/
inductive OrderEvent
  | place (order : Order)
  | reconcile (now : Time) (order : OrderId) (answer : GatewayAnswer)
  | orderCheck (now : Time) (user : UserId) (order : OrderId) (answer : GatewayAnswer)
  | notified (order : OrderId)
  | cancel (order : OrderId) (reason : String)
  | ban (user : UserId) (newUuid : Uuid)
  | unban (now : Time) (user : UserId)
  | setFinancialHold (user : UserId) (on : Bool)
  | setTopupBlocked (user : UserId) (on : Bool)
  | other (tables : Db)

/-- `mark_notified` on the stored order. -/
def Db.notifiedOrder (db : Db) (o : OrderId) : Db :=
  match db.order o with
  | none => db
  | some order => db.putOrder (markNotified order)

/-- One event in its own transaction, which holds the lock of the order row. -/
def orderStep (wi : WhiteInternetApi) (db : Db) : OrderEvent → Db
  | .place order => db.placeOrder order
  | .reconcile now order answer => Lib.commit db (reconcileStalePendingOrder wi db now order
      (((db.order order).bind Order.externalId).getD "") (checkPaymentStatus answer))
  | .orderCheck now user order answer =>
    Lib.commit db (handleOrderCheck wi db now user order (checkPaymentStatus answer))
  | .notified order => db.notifiedOrder order
  | .cancel order reason => db.cancelOrder order reason
  | .ban user newUuid => db.banUser user newUuid
  | .unban now user => db.unbanUser now user
  | .setFinancialHold user on => db.modifyUser user fun u => { u with financialHold := on }
  | .setTopupBlocked user on => db.modifyUser user fun u => { u with topupBlocked := on }
  | .other tables => { tables with orders := db.orders }

/-- An order that is placed has the payment that was made for it. -/
def OrderEvent.Honest (orderOf : String → Option OrderId) : OrderEvent → Prop
  | .place order => Knows orderOf order
  | _ => True

theorem known_place (h : Known orderOf db) {order : Order} (horder : Knows orderOf order) :
    Known orderOf (db.placeOrder order) ∧ Later db (db.placeOrder order) := by
  have hu := (moves_place h.unique order order.id).1
  refine ⟨⟨hu, ?_⟩, ?_⟩
  · rw [Db.placeOrder]
    split_ifs
    · exact h.external
    · intro a ha
      rcases List.mem_append.mp ha with ha | ha
      · exact h.external a ha
      · rw [List.mem_singleton.mp ha]
        exact horder
  · intro o a ha
    refine ⟨a, ?_, .refl a⟩
    rw [Db.placeOrder]
    split_ifs
    · exact ha
    · rw [Db.order] at ha ⊢
      rw [Lib.Table.lookup_append, ha]
      rfl

theorem known_ban (h : Known orderOf db) (u : UserId) (newUuid : Uuid) :
    Known orderOf (db.banUser u newUuid) ∧ Later db (db.banUser u newUuid) := by
  obtain ⟨-, -, ho | ho⟩ := db.banUser_books u newUuid
  · exact h.of_orders ho
  · have hclose : ∀ x : Order, (closeOrder u x).id = x.id ∧
        (closeOrder u x).externalId = x.externalId ∧ OrderKept x (closeOrder u x) := fun x => by
      rcases closeOrder_cases u x with hx | ⟨hst, hx⟩
      · rw [hx]
        exact ⟨rfl, rfl, .refl x⟩
      · rw [hx]
        refine ⟨?_, ?_, .canceled x _⟩
        · simp only [markOrderCanceled, hst]
        · simp only [markOrderCanceled, hst]
    refine ⟨⟨(moves_ban h.unique u newUuid 0).1, fun a ha => ?_⟩, fun o a ha => ?_⟩
    · rw [ho] at ha
      obtain ⟨x, hx, rfl⟩ := List.mem_map.mp ha
      obtain ⟨hid, hext, -⟩ := hclose x
      exact (h.external x hx).of_external hid fun _ he _ => .inl (hext ▸ he)
    · refine ⟨closeOrder u a, ?_, (hclose a).2.2⟩
      rw [Db.order] at ha ⊢
      rw [ho, Lib.Table.lookup_map Order.id (fun x => (hclose x).1), ha]
      rfl

/-- What a row step leaves is known and later. -/
theorem RowStep.sound {a b : Order} (h : RowStep a b db db') (hdb : Known orderOf db)
    (ha : db.order a.id = some a) (hb : Knows orderOf b) : Known orderOf db' ∧ Later db db' :=
  ⟨h.known hdb hb, h.later ha⟩

theorem markOrderCanceled_same (a : Order) (reason : String) :
    (markOrderCanceled a reason).id = a.id ∧
      (markOrderCanceled a reason).externalId = a.externalId := by
  rw [markOrderCanceled]
  split <;> exact ⟨rfl, rfl⟩

theorem known_cancel (h : Known orderOf db) {a : Order} (ha : db.order a.id = some a)
    (reason : String) : Known orderOf (db.putOrder (markOrderCanceled a reason)) ∧
      Later db (db.putOrder (markOrderCanceled a reason)) := by
  obtain ⟨hid, hext⟩ := markOrderCanceled_same a reason
  exact (RowStep.of_put ha hid (.canceled a reason)).sound h ha
    ((h.of_row ha).of_external hid fun _ he _ => .inl (hext ▸ he))

theorem known_notified (h : Known orderOf db) {a b : Order} (hstep : RowStep a b db db')
    (ha : db.order a.id = some a) (hb : Knows orderOf b) :
    Known orderOf (db'.putOrder (markNotified b)) ∧ Later db (db'.putOrder (markNotified b)) := by
  have hrow : db'.order b.id = some b := hstep.id_eq ▸ hstep.row
  have hsame : SamePayment b (markNotified b) := ⟨rfl, rfl, rfl⟩
  have hput : RowStep b (markNotified b) db' (db'.putOrder (markNotified b)) :=
    .of_put hrow rfl (.of_same rfl hsame)
  exact (hstep.trans hput).sound h ha (hb.of_same rfl hsame)

/-- The payment of the order, paid as its own. -/
theorem markOrderPaid_own {a : Order} {ext : Option String} {amount : Option ℚ} {r : Option Order}
    (hdb : Known orderOf db) (ha : db.order a.id = some a)
    (hown : ∀ x ∈ ext, x ≠ "" → a.externalId = some x)
    (h : markOrderPaid wi db now a.id ext amount = .ok (r, db')) :
    (r = none ∧ db' = db) ∨ ∃ b, r = some b ∧ RowStep a b db db' ∧ Knows orderOf b := by
  have hknown := hdb.of_row ha
  have hpay : OwnPayment a ext := fun e he _ x hx hne =>
    Option.some.inj ((hown x hx hne).symm.trans he)
  rcases markOrderPaid_row ha hknown hpay (fun x hx hne => hknown x (hown x hx hne) hne) h with
    ⟨hr, hdb', -⟩ | ⟨b, hr, hstep, hb, -⟩
  · exact .inl ⟨hr, hdb'⟩
  · exact .inr ⟨b, hr, hstep, hb⟩

theorem known_reconcile (hdb : Known orderOf db) {id : OrderId} {st : PaymentStatusResult}
    {r : Option Order} (h : reconcileStalePendingOrder wi db now id
      (((db.order id).bind Order.externalId).getD "") st = .ok (r, db')) :
    Known orderOf db' ∧ Later db db' := by
  have hstay : Known orderOf db ∧ Later db db := ⟨hdb, .refl db⟩
  rw [reconcileStalePendingOrder] at h
  split at h
  · cases h
    exact hstay
  · split at h
    · cases h
      exact hstay
    · rename_i a hrow
      obtain rfl : a.id = id := Lib.Table.key_of_lookup Order.id hrow
      split_ifs at h
      · cases h
        exact hstay
      · have hown : ∀ x ∈ some (((db.order a.id).bind Order.externalId).getD ""), x ≠ "" →
            a.externalId = some x := by
          rintro x hx hne
          rw [hrow, Option.bind_some] at hx
          cases hext : a.externalId with
          | none => simp [hext] at hx; exact absurd hx hne
          | some e => simpa [hext] using hx
        rcases markOrderPaid_own hdb hrow hown h with ⟨-, rfl⟩ | ⟨b, -, hstep, hb⟩
        · exact hstay
        · exact hstep.sound hdb hrow hb
      · cases h
        exact known_cancel hdb hrow _

theorem known_showSettled (hdb : Known orderOf db) {a : Order} (ha : db.order a.id = some a)
    {r : Option Order × Db}
    (hr : (r.1 = none ∧ r.2 = db) ∨ ∃ b, r.1 = some b ∧ RowStep a b db r.2 ∧ Knows orderOf b) :
    Known orderOf (showSettled r).2 ∧ Later db (showSettled r).2 := by
  rcases hr with ⟨hnone, hsame⟩ | ⟨b, hsome, hstep, hb⟩
  · rw [showSettled, hnone, hsame]
    exact ⟨hdb, .refl db⟩
  · rw [showSettled, hsome]
    simp only
    split_ifs
    · exact hstep.sound hdb ha hb
    · exact known_notified hdb hstep ha hb

theorem known_orderCheck (hdb : Known orderOf db) {u : UserId} {id : OrderId}
    {st : PaymentStatusResult} {r : Option Order}
    (h : handleOrderCheck wi db now u id st = .ok (r, db')) :
    Known orderOf db' ∧ Later db db' := by
  have hstay : Known orderOf db ∧ Later db db := ⟨hdb, .refl db⟩
  rw [handleOrderCheck] at h
  split at h
  · cases h
    exact hstay
  · rename_i a hfilter
    obtain ⟨hrow, -⟩ := Option.filter_eq_some_iff.mp hfilter
    obtain rfl : a.id = id := Lib.Table.key_of_lookup Order.id hrow
    have hasked : ∀ ext, a.externalId.filter (· ≠ "") = some ext →
        (if st.isPaid then
          (markOrderPaid wi db now a.id (some ext) st.amountRub).map showSettled
        else if st.isCanceled then
          Except.ok (none, db.putOrder (markOrderCanceled a st.cancelReason))
        else Except.ok (none, db)) = Except.ok (r, db') →
        Known orderOf db' ∧ Later db db' := by
      intro ext hext h
      obtain ⟨hstored, -⟩ := Option.filter_eq_some_iff.mp hext
      split_ifs at h
      · obtain ⟨p, hp, hshow⟩ := Lib.map_ok h
        have hown : ∀ x ∈ some ext, x ≠ "" → a.externalId = some x := by
          rintro x ⟨⟩ -
          exact hstored
        rw [show db' = (showSettled p).2 from congrArg Prod.snd hshow.symm]
        exact known_showSettled hdb hrow (markOrderPaid_own hdb hrow hown hp)
      · cases h
        exact known_cancel hdb hrow _
      · cases h
        exact hstay
    split at h
    · cases h
      exact hstay
    · split_ifs at h
      · obtain ⟨p, hp, hshow⟩ := Lib.map_ok h
        rw [show db' = (showSettled p).2 from congrArg Prod.snd hshow.symm]
        exact known_showSettled hdb hrow (markOrderPaid_own hdb hrow (by simp) hp)
      · rw [show db' = (showSettled (some a, db)).2 from congrArg Prod.snd (Except.ok.inj h).symm]
        exact known_showSettled hdb hrow (.inr ⟨a, rfl, .refl hrow, hdb.of_row hrow⟩)
    · split at h
      · cases h
        exact hstay
      · exact hasked _ ‹_› h
    · split at h
      · cases h
        exact hstay
      · exact hasked _ ‹_› h

/-- Whatever happens about the orders, every payment stays known and every order goes on. -/
theorem orderStep_sound (wi : WhiteInternetApi) (hdb : Known orderOf db) {e : OrderEvent}
    (he : e.Honest orderOf) : Known orderOf (orderStep wi db e) ∧ Later db (orderStep wi db e) := by
  have hstay : Known orderOf db ∧ Later db db := ⟨hdb, .refl db⟩
  have hcommit : ∀ x : Except Err (Option Order × Db),
      (∀ r db', x = .ok (r, db') → Known orderOf db' ∧ Later db db') →
        Known orderOf (Lib.commit db x) ∧ Later db (Lib.commit db x) := fun x hx =>
    Lib.commit_inv (I := fun db' => Known orderOf db' ∧ Later db db') hstay hx
  cases e with
  | place order => exact known_place hdb he
  | reconcile now order answer => exact hcommit _ fun r db' h => known_reconcile hdb h
  | orderCheck now user order answer => exact hcommit _ fun r db' h => known_orderCheck hdb h
  | notified order =>
    rw [orderStep, Db.notifiedOrder]
    split
    · exact hstay
    · rename_i a hrow
      obtain rfl : a.id = order := Lib.Table.key_of_lookup Order.id hrow
      exact known_notified hdb (.refl hrow) hrow (hdb.of_row hrow)
  | cancel order reason =>
    rw [orderStep, Db.cancelOrder]
    split
    · exact hstay
    · rename_i a hrow
      obtain rfl : a.id = order := Lib.Table.key_of_lookup Order.id hrow
      exact known_cancel hdb hrow reason
  | ban user newUuid => exact known_ban hdb user newUuid
  | unban now user => exact hdb.of_orders (db.sameBooks_unbanUser now user).2.1
  | setFinancialHold => exact hdb.of_orders rfl
  | setTopupBlocked => exact hdb.of_orders rfl
  | other => exact hdb.of_orders rfl

end Just1kBot
