import Just1kBot.Orders.Refund
import Just1kBot.Orders.Settlement

/-! Settlement happens once, and not while the user is on hold.

    A run is any sequence of events around an order, each in its own transaction under the lock of
    the order row. Before an order is settled nothing was produced for it; the one move that
    produces leaves it settled, for a user who is free; and a refunded order stays refunded. -/

namespace Just1kBot

variable (wi : WhiteInternetApi)

/-! ### Runs -/

/-- What can happen around an order. Orders appear, payments and refunds are reported, the app polls
    (`order_check`, reconciliation), users and workers cancel, admins restrict a user, and `other`
    is any change of the remaining tables. -/
inductive SettlementEvent
  | place (order : Order)
  | webhook (now : Time) (payload : WebhookPayload)
  | orderCheck (now : Time) (order : OrderId) (externalId : Option String)
      (paidAmountRub : Option ℚ)
  | cancel (order : OrderId) (reason : String)
  | ban (user : UserId) (newUuid : Uuid)
  | unban (now : Time) (user : UserId)
  | setFinancialHold (user : UserId) (on : Bool)
  | setTopupBlocked (user : UserId) (on : Bool)
  | other (tables : Db)

/-- A new order row; an id that is taken is refused. -/
def Db.placeOrder (db : Db) (order : Order) : Db :=
  if (db.order order.id).isSome then db else { db with orders := db.orders ++ [order] }

/-- `mark_order_canceled` on the stored order. -/
def Db.cancelOrder (db : Db) (o : OrderId) (reason : String) : Db :=
  match db.order o with
  | none => db
  | some order => db.putOrder (markOrderCanceled order reason)

def Db.modifyUser (db : Db) (u : UserId) (f : User → User) : Db :=
  { db with users := Lib.Table.modify User.id u f db.users }

/-- One event in its own transaction, which holds the lock of the order row. -/
def settlementStep (db : Db) : SettlementEvent → Db
  | .place order => db.placeOrder order
  | .webhook now payload => Lib.commit db (processWebhookEvent wi db now payload)
  | .orderCheck now order externalId paidAmountRub =>
    Lib.commit db (markOrderPaid wi db now order externalId paidAmountRub)
  | .cancel order reason => db.cancelOrder order reason
  | .ban user newUuid => db.banUser user newUuid
  | .unban now user => db.unbanUser now user
  | .setFinancialHold user on => db.modifyUser user fun u => { u with financialHold := on }
  | .setTopupBlocked user on => db.modifyUser user fun u => { u with topupBlocked := on }
  | .other tables =>
    { tables with orders := db.orders, ledger := db.ledger, fulfilled := db.fulfilled }

abbrev settlementRun (db : Db) (es : List SettlementEvent) : Db := Lib.run (settlementStep wi) db es

/-- A step keeps the order ids unique and moves every order there is. -/
def Moves (o : OrderId) (db db' : Db) : Prop :=
  UniqueOrders db' ∧ ∀ a, db.order o = some a → ∃ b, db'.order o = some b ∧ OrderMove db db' a b

theorem Moves.of_books {o : OrderId} {db db' : Db} (hu : UniqueOrders db) (h : SameBooks db db') :
    Moves o db db' := by
  obtain ⟨hl, ho, hf⟩ := h
  refine ⟨?_, fun a ha => ⟨a, ?_, .stay rfl rfl fun k => Db.produced_congr hl hf k a.id⟩⟩
  · rw [UniqueOrders]
    rw [ho]
    exact hu
  · rw [Db.order]
    rw [ho]
    exact ha

/-- A call moves its own order, and every other order stays. -/
theorem OrderCall.moves_all {c : Order} {db db' : Db} (hu : UniqueOrders db)
    (hrow : db.order c.id = some c) (h : OrderCall c db db') (o : OrderId) : Moves o db db' := by
  refine ⟨h.frame.unique hu, fun a ha => ?_⟩
  by_cases hoc : o = c.id
  · subst hoc
    obtain rfl := Option.some.inj (ha.symm.trans hrow)
    exact h.moves
  · have hid : a.id = o := Lib.Table.key_of_lookup Order.id ha
    refine ⟨a, (h.frame.others o hoc).trans ha, .stay rfl rfl fun k => ?_⟩
    rw [hid]
    exact h.others o hoc k

theorem moves_place {db : Db} (hu : UniqueOrders db) (order : Order) (o : OrderId) :
    Moves o db (db.placeOrder order) := by
  rw [Db.placeOrder]
  split_ifs with hsome
  · exact .of_books hu ⟨rfl, rfl, rfl⟩
  · refine ⟨?_, fun a ha => ⟨a, ?_, .stay rfl rfl fun k => Db.produced_congr rfl rfl k a.id⟩⟩
    · have hnew : order.id ∉ db.orders.map Order.id := by
        unfold Db.order at hsome
        rwa [Lib.Table.lookup_isSome, decide_eq_true_eq] at hsome
      rw [UniqueOrders]
      rw [List.map_append, List.map_singleton]
      exact List.nodup_append.mpr ⟨hu, List.nodup_singleton _, fun x hx y hy => by
        rw [List.mem_singleton.mp hy]
        exact fun h => hnew (h ▸ hx)⟩
    · rw [Db.order] at ha ⊢
      rw [Lib.Table.lookup_append, ha]
      rfl

theorem moves_ban {db : Db} (hu : UniqueOrders db) (u : UserId) (newUuid : Uuid) (o : OrderId) :
    Moves o db (db.banUser u newUuid) := by
  obtain ⟨hl, hf, ho | ho⟩ := db.banUser_books u newUuid
  · exact .of_books hu ⟨hl, ho, hf⟩
  · have hid : ∀ x : Order, (closeOrder u x).id = x.id := fun x => by
      rcases closeOrder_cases u x with h | ⟨hst, h⟩
      · rw [h]
      · rw [h, markOrderCanceled, hst]
    refine ⟨?_, fun a ha => ⟨closeOrder u a, ?_, ?_⟩⟩
    · rw [UniqueOrders]
      rw [ho, List.map_map]
      exact (congrArg (List.Nodup ·) (List.map_congr_left fun x _ => hid x)).mpr hu
    · rw [Db.order] at ha ⊢
      rw [ho, Lib.Table.lookup_map Order.id hid, ha]
      rfl
    · rcases closeOrder_cases u a with h | ⟨hst, h⟩
      · rw [h]
        exact .stay rfl rfl fun k => Db.produced_congr hl hf k a.id
      · rw [h]
        refine .cancel hst ?_ ?_ fun k => Db.produced_congr hl hf k a.id
        · simp only [markOrderCanceled, hst]
        · simp only [markOrderCanceled, hst]

theorem settlementStep_moves {db : Db} (hu : UniqueOrders db) (e : SettlementEvent) (o : OrderId) :
    Moves o db (settlementStep wi db e) := by
  have hstay : Moves o db db := .of_books hu ⟨rfl, rfl, rfl⟩
  cases e with
  | place order => exact moves_place hu order o
  | webhook now payload =>
    refine Lib.commit_inv (I := fun db' => Moves o db db') hstay fun r db' h => ?_
    rcases processWebhookEvent_call wi hu h with rfl | ⟨a, hrow, hcall⟩
    · exact hstay
    · exact hcall.moves_all hu hrow o
  | orderCheck now order ext amount =>
    refine Lib.commit_inv (I := fun db' => Moves o db db') hstay fun r db' h => ?_
    cases hrow : db.order order with
    | none =>
      simp only [markOrderPaid, hrow] at h
      cases h
      exact hstay
    | some a =>
      obtain rfl : a.id = order := Lib.Table.key_of_lookup Order.id hrow
      exact (markOrderPaid_call wi hrow h).1.moves_all hu hrow o
  | cancel order reason =>
    show Moves o db (db.cancelOrder order reason)
    rw [Db.cancelOrder]
    split
    · exact hstay
    · rename_i a hrow
      obtain rfl : a.id = order := Lib.Table.key_of_lookup Order.id hrow
      exact (markOrderCanceled_call reason hrow).moves_all hu hrow o
  | ban user newUuid => exact moves_ban hu user newUuid o
  | unban now user => exact .of_books hu (db.sameBooks_unbanUser now user)
  | setFinancialHold => exact .of_books hu ⟨rfl, rfl, rfl⟩
  | setTopupBlocked => exact .of_books hu ⟨rfl, rfl, rfl⟩
  | other => exact .of_books hu ⟨rfl, rfl, rfl⟩

/-! ### Exactly once -/

/-- The order still waits for its settlement. -/
def Unsettled (order : Order) : Prop :=
  order.status = .pending ∨ order.status = .canceled ∨
    order.status = .paid ∧ order.metadata.settlementHeld = true

instance : DecidablePred Unsettled := fun o => by unfold Unsettled; infer_instance

/-- The invariant: no effect was produced twice, and none for an order that waits. Only a paid
    order carries the hold mark of a payment. -/
structure SettledOnce (o : OrderId) (db : Db) : Prop where
  unique : UniqueOrders db
  row : ∃ a, db.order o = some a ∧ (∀ k, db.produced k o ≤ 1) ∧
    (Unsettled a → ∀ k, db.produced k o = 0) ∧
    (a.status = .pending ∨ a.status = .canceled → a.metadata.settlementHeld = false)

/-- The order as it is placed: pending and untouched, or paid from the wallet and delivered. -/
structure Placed (o : OrderId) (db : Db) : Prop where
  unique : UniqueOrders db
  row : ∃ a, db.order o = some a ∧ a.metadata.settlementHeld = false ∧
    (a.status = .pending ∧ (∀ k, db.produced k o = 0) ∨
      a.status = .paid ∧ db.produced .credit o = 0 ∧ db.produced .bonus o = 0 ∧
        db.produced .fulfilment o ≤ 1)

/-- The status moves the code makes. -/
def StatusMove : OrderStatus → OrderStatus → Prop
  | .pending, .paid | .pending, .canceled | .canceled, .paid | .paid, .refunded => True
  | s, s' => s' = s

/-- What a step may do for the order: nothing produced is undone, an effect is produced only for a
    user who is free and an order that is not refunded, and the status makes one of its moves. -/
structure SafeStep (o : OrderId) (db db' : Db) : Prop where
  grows : ∀ k, db.produced k o ≤ db'.produced k o
  free : ∀ k, db.produced k o < db'.produced k o →
    ∃ a, db.order o = some a ∧ ¬ Blocked db a ∧ a.status ≠ .refunded
  status : ∃ a b, db.order o = some a ∧ db'.order o = some b ∧ StatusMove a.status b.status

theorem Placed.settledOnce {o : OrderId} {db : Db} (h : Placed o db) : SettledOnce o db := by
  obtain ⟨hu, a, ha, hheld, ⟨hst, hp⟩ | ⟨hst, hc, hb, hf⟩⟩ := h
  · refine ⟨hu, a, ha, fun k => by rw [hp k]; exact Nat.zero_le 1, fun _ => hp, fun _ => hheld⟩
  · refine ⟨hu, a, ha, fun k => ?_, fun hun => ?_, fun _ => hheld⟩
    · cases k with
      | credit => omega
      | bonus => omega
      | fulfilment => exact hf
    · simp [Unsettled, hst, hheld] at hun

theorem StatusMove.refl (s : OrderStatus) : StatusMove s s := by
  cases s <;> exact rfl

/-- A step that produces nothing is safe when its status move is. -/
theorem SafeStep.of_eq {a b : Order} {db db' : Db} (ha : db.order a.id = some a)
    (hb : db'.order a.id = some b) (hp : ∀ k, db'.produced k a.id = db.produced k a.id)
    (hst : StatusMove a.status b.status) : SafeStep a.id db db' where
  grows k := (hp k).ge
  free k hlt := absurd (hp k) (by omega)
  status := ⟨a, b, ha, hb, hst⟩

/-- Every move keeps the invariant and is safe. -/
theorem SettledOnce.move {o : OrderId} {db db' : Db} (hdb : SettledOnce o db)
    (h : Moves o db db') : SettledOnce o db' ∧ SafeStep o db db' := by
  obtain ⟨-, a, ha, hone, hzero, hheld⟩ := hdb
  obtain ⟨hu', hmoves⟩ := h
  obtain ⟨b, hb, hmove⟩ := hmoves a ha
  obtain rfl : a.id = o := Lib.Table.key_of_lookup Order.id ha
  cases hmove with
  | stay hs hb' hp =>
    refine ⟨⟨hu', b, hb, fun k => (hp k).trans_le (hone k), fun hun k => ?_, ?_⟩,
      .of_eq ha hb hp (hs ▸ .refl _)⟩
    · exact (hp k).trans (hzero (by simpa only [Unsettled, hs, hb'] using hun) k)
    · rw [hs, hb']
      exact hheld
  | cancel hst hst' hb' hp =>
    refine ⟨⟨hu', b, hb, fun k => (hp k).trans_le (hone k), fun _ k => ?_, fun _ => ?_⟩,
      .of_eq ha hb hp (by rw [hst, hst']; trivial)⟩
    · exact (hp k).trans (hzero (.inl hst) k)
    · exact hb'.trans (hheld (.inl hst))
  | hold hst hst' hb' hp =>
    refine ⟨⟨hu', b, hb, fun k => (hp k).trans_le (hone k), fun _ k => ?_, fun h => ?_⟩,
      .of_eq ha hb hp (by rcases hst with h | h <;> rw [h, hst'] <;> trivial)⟩
    · exact (hp k).trans (hzero (hst.imp_right .inl) k)
    · rw [hst'] at h
      simp at h
  | settle hclear hst' hfrom hp =>
    -- the order was waiting, so nothing had been produced for it
    have hwait : Unsettled a :=
      hfrom.elim (fun h => h.1.imp_right .inl) fun h => .inr (.inr ⟨h.1, h.2.1⟩)
    have hfree : b.metadata.settlementHeld = false := by
      rcases hfrom with ⟨hst, heq⟩ | ⟨-, -, h⟩
      · exact heq.trans (hheld hst)
      · exact h
    have hne : a.status ≠ .refunded := by
      rcases hfrom with ⟨hst | hst, -⟩ | ⟨hst, -⟩ <;> rw [hst] <;> decide
    refine ⟨⟨hu', b, hb, fun k => ?_, fun hun => ?_, fun _ => hfree⟩,
      ⟨fun k => (hp k).1, fun _ _ => ⟨a, ha, hclear, hne⟩, a, b, ha, hb, ?_⟩⟩
    · have := hzero hwait k
      have := (hp k).2
      omega
    · simp [Unsettled, hst', hfree] at hun
    · rcases hfrom with ⟨hst | hst, -⟩ | ⟨hst, -⟩
      · rw [hst, hst']; exact trivial
      · rw [hst, hst']; exact trivial
      · rw [hst, hst']; exact .refl _
  | refund hst hst' hp =>
    refine ⟨⟨hu', b, hb, fun k => (hp k).trans_le (hone k), fun hun => ?_, fun h => ?_⟩,
      .of_eq ha hb hp (by rw [hst, hst']; trivial)⟩
    · simp [Unsettled, hst'] at hun
    · simp [hst'] at h

theorem settledOnce_step {o : OrderId} {db : Db} (hdb : SettledOnce o db) (e : SettlementEvent) :
    SettledOnce o (settlementStep wi db e) :=
  (hdb.move (settlementStep_moves wi hdb.unique e o)).1

/-- Whatever happens around an order, in any order and any number of times, each effect is produced
    for it once at most, only while its user is free, and its status moves forward. -/
theorem settlement_exactly_once (o : OrderId) (db : Db) (h : Placed o db)
    (es : List SettlementEvent) :
    (∀ k, (settlementRun wi db es).produced k o ≤ 1) ∧
      Lib.Always (settlementStep wi) (fun db e => SafeStep o db (settlementStep wi db e)) db
        es := by
  refine ⟨?_, ?_⟩
  · obtain ⟨-, a, -, hone, -⟩ := Lib.run_inv (I := SettledOnce o) (settlementStep wi)
      (fun db e hdb => settledOnce_step wi hdb e) es db h.settledOnce
    exact hone
  · exact Lib.always_of_inv (I := SettledOnce o) (settlementStep wi)
      (fun db e hdb => settledOnce_step wi hdb e)
      (fun db e hdb => (hdb.move (settlementStep_moves wi hdb.unique e o)).2) es db h.settledOnce

/-- A top-up that is canceled, paid late under a ban, released after it, and paid again. -/
def topupStory : List SettlementEvent :=
  [.cancel 1 "user_canceled", .ban 1 7, .webhook 0 topupPayment, .orderCheck 1 1 none none,
    .unban 2 1, .orderCheck 3 1 none none, .webhook 4 topupPayment, .webhook 5 topupRefund]

/-- The story credits the top-up once. -/
theorem settlement_exactly_once_topup :
    (∀ k, (settlementRun closedService topupOrdered topupStory).produced k 1 ≤ 1) ∧
      Lib.Always (settlementStep closedService)
        (fun db e => SafeStep 1 db (settlementStep closedService db e)) topupOrdered topupStory :=
  settlement_exactly_once closedService 1 topupOrdered
    ⟨List.nodup_singleton _, _, rfl, rfl, .inl ⟨rfl, fun k => by cases k <;> rfl⟩⟩ topupStory

example : (settlementRun closedService topupOrdered topupStory).produced .credit 1 = 1 := by
  decide +kernel

end Just1kBot
