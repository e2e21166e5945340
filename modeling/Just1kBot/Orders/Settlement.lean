import Just1kBot.Orders.Effects

/-! What a call does to the order it works on.

    `OrderMove` names the possibilities: nothing, cancel it, hold its payment, settle it, or refund
    it. Every entry point (webhooks, order checks, cancellations) has one lemma that finds its
    move; what holds of settlements is then read off the moves alone. -/

namespace Just1kBot

variable (wi : WhiteInternetApi)

/-! ### Moves of an order -/

/-- The user of the order is banned, on financial hold, or (for a top-up) barred from topping up. -/
def Blocked (db : Db) (order : Order) : Prop :=
  (db.user order.userId).any (fun user => StillHeld user order) = true

instance (db : Db) (o : Order) : Decidable (Blocked db o) := by unfold Blocked; infer_instance

/-- One effect of each kind for the order, and none for any other. -/
def once (o : OrderId) : Effect → OrderId → ℕ := fun _ o' => if o' = o then 1 else 0

/-- What a call that works on the row `a` can make of it. -/
inductive OrderMove (db db' : Db) (a b : Order) : Prop
  | stay (hs : b.status = a.status)
      (hheld : b.metadata.settlementHeld = a.metadata.settlementHeld)
      (hp : ∀ k, db'.produced k a.id = db.produced k a.id)
  | cancel (ha : a.status = .pending) (hb : b.status = .canceled)
      (hheld : b.metadata.settlementHeld = a.metadata.settlementHeld)
      (hp : ∀ k, db'.produced k a.id = db.produced k a.id)
  | hold (ha : a.status = .pending ∨ a.status = .canceled) (hb : b.status = .paid)
      (hheld : b.metadata.settlementHeld = true)
      (hp : ∀ k, db'.produced k a.id = db.produced k a.id)
  | settle (hclear : ¬ Blocked db a) (hb : b.status = .paid)
      (ha : (a.status = .pending ∨ a.status = .canceled) ∧
          b.metadata.settlementHeld = a.metadata.settlementHeld ∨
        a.status = .paid ∧ a.metadata.settlementHeld = true ∧ b.metadata.settlementHeld = false)
      (hp : ∀ k, db.produced k a.id ≤ db'.produced k a.id ∧
        db'.produced k a.id ≤ db.produced k a.id + 1)
  | refund (ha : a.status = .paid) (hb : b.status = .refunded)
      (hp : ∀ k, db'.produced k a.id = db.produced k a.id)

/-- A call that works on the row `a` moves it, and leaves every other order alone. -/
structure OrderCall (a : Order) (db db' : Db) : Prop where
  frame : OrderFrame a.id db db'
  others : ∀ o ≠ a.id, ∀ k, db'.produced k o = db.produced k o
  moves : ∃ b, db'.order a.id = some b ∧ OrderMove db db' a b

namespace OrderCall
variable {a b : Order} {db db' : Db}

theorem refl (h : db.order a.id = some a) : OrderCall a db db where
  frame := .refl _ _
  others _ _ _ := rfl
  moves := ⟨a, h, .stay rfl rfl fun _ => rfl⟩

/-- A call that only writes the row. -/
theorem of_put (h : db.order a.id = some a) (hid : b.id = a.id)
    (hmove : (∀ k, (db.putOrder b).produced k a.id = db.produced k a.id) →
      OrderMove db (db.putOrder b) a b) : OrderCall a db (db.putOrder b) where
  frame := .of_put b hid rfl
  others o _ k := Db.produced_congr rfl rfl k o
  moves := ⟨b, hid ▸ Db.order_putOrder_self (by rw [hid, h]; rfl),
    hmove fun k => Db.produced_congr rfl rfl k a.id⟩

end OrderCall

/-! ### Settling -/

theorem creditTopup_effects {db db' : Db} {now : Time} {order : Order}
    (h : creditTopup db now order = .ok db') :
    db'.orders = db.orders ∧ Produces (one .credit order.id) db db' := by
  unfold creditTopup at h
  split_ifs at h
  · obtain ⟨r, hc, rfl⟩ := Lib.map_ok h
    exact Db.createOrderCredit_effects hc
  · cases h
    exact ⟨rfl, (Produces.refl db).mono fun _ _ => Nat.zero_le _⟩

theorem grantBonus_effects {db db' : Db} {now : Time} {order order' : Order}
    (h : grantBonus db now order = .ok (order', db')) :
    OrderFrame order.id db db' ∧ Produces (one .bonus order.id) db db' ∧
      SameOrder order order' ∧ (db.order order.id = some order →
        db'.order order.id = some order') := by
  unfold grantBonus at h
  split_ifs at h
  · obtain ⟨⟨g, db₁⟩, hg, h⟩ := Lib.bind_ok h
    obtain ⟨ho, hp⟩ := Db.grantReferralBonusForTopup_effects hg
    have hrow : ∀ r, db.order order.id = some r → db₁.order order.id = some r := fun r hr => by
      rw [Db.order] at hr ⊢
      rw [ho]
      exact hr
    simp only at h
    split at h
    · cases h
      exact ⟨.of_eq ho, hp, .refl order, hrow order⟩
    · have hsame : SameOrder order order' := by cases h; exact ⟨rfl, rfl, rfl, rfl, rfl⟩
      have hput : db' = db₁.putOrder order' := by cases h; rfl
      subst hput
      refine ⟨(OrderFrame.of_eq ho).trans (.of_put order' hsame.1 rfl), ?_, hsame, fun hr => ?_⟩
      · exact (hp.trans (.of_eq rfl rfl)).mono (by simp)
      · rw [← hsame.1]
        exact Db.order_putOrder_self (by rw [hsame.1, hrow order hr]; rfl)
  · cases h
    exact ⟨.refl _ _, (Produces.refl db).mono fun _ _ => Nat.zero_le _, .refl order, id⟩

/-- Settling produces each effect once at most, for the order alone. -/
theorem settleBenefits_effects {db db' : Db} {now : Time} {order order' : Order}
    (hrow : (db.order order.id).isSome)
    (h : settleBenefits wi db now order = .ok (order', db')) :
    OrderFrame order.id db db' ∧ Produces (once order.id) db db' ∧ SameOrder order order' ∧
      db'.order order.id = some order' := by
  obtain ⟨db₁, hcredit, h⟩ := Lib.bind_ok h
  obtain ⟨⟨o₂, db₂⟩, hbonus, h⟩ := Lib.bind_ok h
  obtain ⟨ho₁, hp₁⟩ := creditTopup_effects hcredit
  obtain ⟨hf₂, hp₂, hs₂, hr₂⟩ := grantBonus_effects hbonus
  have hrow₁ : db₁.order order.id = some (markNotifyPending order) := by
    have : (db.putOrder (markNotifyPending order)).order order.id =
      some (markNotifyPending order) := Db.order_putOrder_self hrow
    rw [Db.order] at this ⊢
    rw [ho₁]
    exact this
  have hf : OrderFrame order.id db db₂ :=
    (OrderFrame.of_put (markNotifyPending order) rfl ho₁).trans hf₂
  have hp : Produces (one .credit order.id + one .bonus order.id) db db₂ := by
    have hput : Produces 0 db (db.putOrder (markNotifyPending order)) := .of_eq rfl rfl
    exact ((hput.trans hp₁).trans hp₂).mono (by rw [zero_add]; exact le_refl _)
  have hs : SameOrder order o₂ := SameOrder.trans ⟨rfl, rfl, rfl, rfl, rfl⟩ hs₂
  have hr : db₂.order order.id = some o₂ := hr₂ hrow₁
  simp only at h
  split_ifs at h
  · obtain ⟨hf₃, hp₃, hs₃, hr₃⟩ := fulfillOrder_effects wi h
    rw [hs.1] at hf₃ hp₃ hr₃
    refine ⟨hf.trans hf₃, (hp.trans hp₃).mono fun k o => ?_, hs.trans hs₃, hr₃ hr⟩
    cases k <;> simp [one, once]
  · cases h
    refine ⟨hf, hp.mono fun k o => ?_, hs, hr⟩
    cases k <;> simp [one, once]

/-- Settling the row `p` made of `a`, from a database that differs in that row alone. -/
theorem OrderCall.of_settle {a p b : Order} {db db₁ db' : Db} {now : Time}
    (hrow : db.order a.id = some a) (hid : p.id = a.id) (hf : OrderFrame a.id db db₁)
    (hp : Produces 0 db db₁) (h : settleBenefits wi db₁ now p = .ok (b, db'))
    (hclear : ¬ Blocked db a) (hpaid : p.status = .paid)
    (ha : (a.status = .pending ∨ a.status = .canceled) ∧
        p.metadata.settlementHeld = a.metadata.settlementHeld ∨
      a.status = .paid ∧ a.metadata.settlementHeld = true ∧ p.metadata.settlementHeld = false) :
    OrderCall a db db' := by
  have hsome : (db₁.order p.id).isSome := by rw [hf.order_isSome, hid, hrow]; rfl
  obtain ⟨hf', hp', hs, hr⟩ := settleBenefits_effects wi hsome h
  rw [hid] at hf' hp' hr
  have hprod := hp.trans hp'
  rw [zero_add] at hprod
  refine ⟨hf.trans hf', fun o ho k => ?_, b, hr, ?_⟩
  · obtain ⟨h₁, h₂⟩ := hprod k o
    simp only [once, if_neg ho] at h₂
    omega
  · refine .settle hclear (hs.2.2.1.trans hpaid) ?_ fun k => ?_
    · rw [hs.2.2.2.2]
      exact ha
    · obtain ⟨h₁, h₂⟩ := hprod k a.id
      simp only [once, if_true] at h₂
      exact ⟨h₁, h₂⟩

theorem flushOrder_ok {db db' : Db} {order : Order} (h : db.flushOrder order = .ok db') :
    db' = db.putOrder order := by
  unfold Db.flushOrder at h
  split_ifs at h
  cases h
  rfl

/-- A payment that is not withheld finds its user free. -/
theorem not_blocked_of_filter {db : Db} {order : Order}
    (h : ((db.user order.userId).filter fun user => Withheld user order) = none) :
    ¬ Blocked db order := by
  rw [Blocked]
  cases hu : db.user order.userId with
  | none => simp
  | some user =>
    rw [hu, Option.filter_some] at h
    have hfree : ¬ Withheld user order := fun hw => by simp [hw] at h
    rw [withheld_iff_stillHeld] at hfree
    simpa using hfree

/-- A payment of an order that was not paid yet: it is refused, short, held or settled. -/
theorem payOrder_call {db db' : Db} {now : Time} {a : Order} {ext : Option String}
    {amount : Option ℚ} {r : Option Order} (hrow : db.order a.id = some a)
    (ha : a.status = .pending ∨ a.status = .canceled)
    (h : payOrder wi db now a ext amount = .ok (r, db')) :
    OrderCall a db db' ∧ (r = none → db' = db) := by
  unfold payOrder at h
  split_ifs at h
  · cases h
    exact ⟨.refl hrow, fun _ => rfl⟩
  · simp only at h
    split at h
    · obtain ⟨db₁, hflush, h⟩ := Lib.bind_ok h
      obtain rfl := flushOrder_ok hflush
      cases h
      exact ⟨.of_put hrow rfl fun hp => .stay rfl rfl hp, fun hnone => by cases hnone⟩
    · obtain ⟨db₁, hflush, h⟩ := Lib.bind_ok h
      obtain rfl := flushOrder_ok hflush
      set p := paidRow now (withExternalId ext a) with hp
      have hput : OrderFrame a.id db (db.putOrder p) := .of_put p rfl rfl
      unfold settleFresh at h
      split at h
      · rename_i user huser
        cases h
        have hheld : OrderFrame a.id db ((db.putOrder p).putOrder (heldRow user p)) :=
          hput.trans (.of_put (heldRow user p) rfl rfl)
        refine ⟨⟨hheld, fun o _ k => Db.produced_congr rfl rfl k o, heldRow user p, ?_, ?_⟩,
          fun hnone => by cases hnone⟩
        · exact Db.order_putOrder_self (by rw [hput.order_isSome]; exact hrow ▸ rfl)
        · exact .hold ha rfl rfl fun k => Db.produced_congr rfl rfl k a.id
      · rename_i hnone
        cases hs : settleBenefits wi (db.putOrder p) now p with
        | error e => rw [hs] at h; cases h
        | ok q =>
          rw [hs] at h
          cases h
          exact ⟨.of_settle wi (p := p) hrow rfl hput (.of_eq rfl rfl) hs
            (not_blocked_of_filter hnone) rfl (.inl ⟨ha, rfl⟩), fun hnone => by cases hnone⟩

/-- `mark_order_paid` moves the order it is called for, or finds nothing to do. -/
theorem markOrderPaid_call {db db' : Db} {now : Time} {a : Order} {ext : Option String}
    {amount : Option ℚ} {r : Option Order} (hrow : db.order a.id = some a)
    (h : markOrderPaid wi db now a.id ext amount = .ok (r, db')) :
    OrderCall a db db' ∧ (r = none → db' = db) := by
  unfold markOrderPaid at h
  simp only [hrow] at h
  split at h
  · rename_i hpaid
    split_ifs at h with hheld hblocked
    · cases h
      exact ⟨.refl hrow, fun _ => rfl⟩
    · cases hs : settleBenefits wi db now (releasedRow a) with
      | error e => rw [hs] at h; cases h
      | ok q =>
        rw [hs] at h
        cases h
        exact ⟨.of_settle wi (p := releasedRow a) hrow rfl (.refl _ _) (.refl _) hs hblocked hpaid
          (.inr ⟨hpaid, hheld, rfl⟩), fun hnone => by cases hnone⟩
    · cases h
      exact ⟨.refl hrow, fun _ => rfl⟩
  · cases h
    exact ⟨.refl hrow, fun _ => rfl⟩
  · rename_i hst
    exact payOrder_call wi hrow (.inl hst) h
  · rename_i hst
    exact payOrder_call wi hrow (.inr hst) h

/-! ### Refunds and cancellations -/

theorem refundTopup_effects {db db' : Db} {now : Time} {r : WebhookResult} {order : Order}
    (h : refundTopup db now r order = .ok db') : db'.orders = db.orders ∧ Produces 0 db db' := by
  unfold refundTopup at h
  split_ifs at h
  · obtain ⟨⟨_, db₁⟩, hdebit, h⟩ := Lib.bind_ok h
    obtain ⟨⟨_, db₂⟩, hrev, h⟩ := Lib.bind_ok h
    obtain ⟨_, -, h⟩ := Lib.bind_ok h
    cases h
    obtain ⟨ho₁, hp₁⟩ := Db.createOrderRefundDebit_effects hdebit
    obtain ⟨ho₂, hp₂⟩ := Db.reverseReferralBonusForTopup_effects hrev
    exact ⟨ho₂.trans ho₁, hp₁.trans hp₂⟩
  · cases h
    exact ⟨rfl, .refl db⟩

theorem refundBenefits_effects {db db' : Db} {now : Time} {r : WebhookResult} {order : Order}
    (h : refundBenefits db now r order = .ok db') :
    db'.orders = db.orders ∧ Produces 0 db db' := by
  obtain ⟨db₁, hrev, rfl⟩ := Lib.map_ok h
  have h₁ : db₁.orders = db.orders ∧ Produces 0 db db₁ := by
    unfold refundBonus at hrev
    split_ifs at hrev
    · obtain ⟨r, hr, rfl⟩ := Lib.map_ok hrev
      exact Db.reverseReferralBonusForTopup_effects hr
    · cases hrev
      exact ⟨rfl, .refl db⟩
  split_ifs
  · exact h₁
  · obtain ⟨hl, ho, hf⟩ := sameBooks_revokeOrder db₁ now order
    exact ⟨ho.trans h₁.1, h₁.2.trans (.of_eq hl hf)⟩

theorem takeBack_effects {db db' : Db} {now : Time} {r : WebhookResult} {order : Order}
    (h : takeBack db now r order = .ok db') : db'.orders = db.orders ∧ Produces 0 db db' := by
  unfold takeBack at h
  split_ifs at h
  · exact refundTopup_effects h
  · exact refundBenefits_effects h

theorem processRefund_call {db db' : Db} {now : Time} {a : Order} {w : WebhookResult}
    {r : Option Order} (hrow : db.order a.id = some a)
    (h : processRefund db now w a = .ok (r, db')) : OrderCall a db db' := by
  unfold processRefund at h
  split_ifs at h with hrefunded hpaid hamount
  · cases h
    exact .refl hrow
  · cases h
    exact .refl hrow
  · cases h
    exact .of_put hrow rfl fun hp => .stay rfl rfl hp
  · obtain ⟨db₁, hback, h⟩ := Lib.map_ok h
    cases h
    obtain ⟨ho, hp⟩ := takeBack_effects hback
    have hput : Produces 0 db (db.putOrder (refundedRow now w a)) := .of_eq rfl rfl
    have hp : Produces 0 db db' := hput.trans hp
    have hrow' : (db.putOrder (refundedRow now w a)).order a.id = some (refundedRow now w a) :=
      Db.order_putOrder_self (by exact hrow ▸ rfl)
    refine ⟨.of_put (refundedRow now w a) rfl ho, fun o _ k => hp.eq k o,
      refundedRow now w a, ?_, .refund (not_not.mp hpaid) rfl fun k => hp.eq k a.id⟩
    rw [Db.order] at hrow' ⊢
    rw [ho]
    exact hrow'

theorem markOrderCanceled_call {db : Db} {a : Order} (reason : String)
    (hrow : db.order a.id = some a) :
    OrderCall a db (db.putOrder (markOrderCanceled a reason)) := by
  rw [markOrderCanceled]
  split
  · rename_i hst
    exact .of_put hrow rfl fun hp => .cancel hst rfl rfl hp
  · exact .of_put hrow rfl fun hp => .stay rfl rfl hp
  · exact .of_put hrow rfl fun hp => .stay rfl rfl hp

theorem processCanceled_call {db db' : Db} {a : Order} {r : Option Order}
    (hrow : db.order a.id = some a) (h : processCanceled db a = .ok (r, db')) :
    OrderCall a db db' := by
  unfold processCanceled at h
  split_ifs at h
  · cases h
    exact markOrderCanceled_call _ hrow
  · cases h
    exact .refl hrow

/-! ### Webhooks -/

/-- Order ids are a primary key. -/
def UniqueOrders (db : Db) : Prop := (db.orders.map Order.id).Nodup

theorem UniqueOrders.order_of_mem {db : Db} (hu : UniqueOrders db) {a : Order}
    (ha : a ∈ db.orders) : db.order a.id = some a := Lib.Table.lookup_of_mem Order.id hu ha

theorem OrderFrame.unique {o : OrderId} {db db' : Db} (h : OrderFrame o db db')
    (hu : UniqueOrders db) : UniqueOrders db' := by
  rw [UniqueOrders]
  rw [h.ids]
  exact hu

/-- The order a webhook is about is the one its id names. -/
theorem order_of_webhookOrder {db : Db} (hu : UniqueOrders db) {w : WebhookResult} {a : Order}
    (h : db.webhookOrder w = some a) : db.order a.id = some a := by
  have hext : ∀ ext, db.orderByExternalId ext = some a → db.order a.id = some a := fun ext he =>
    hu.order_of_mem (List.mem_of_find?_eq_some he)
  unfold Db.webhookOrder at h
  simp only [Option.or_eq_some_iff] at h
  rcases h with (h | ⟨-, h⟩) | ⟨-, h⟩
  · split at h
    · rw [Lib.Table.key_of_lookup Order.id h]
      exact h
    · cases h
  · obtain ⟨ext, -, h⟩ := Option.bind_eq_some_iff.mp h
    exact hext ext h
  · split_ifs at h
    exact hext _ h

theorem processPaid_call {db db' : Db} {now : Time} {a : Order} {w : WebhookResult}
    {r : Option Order} (hrow : db.order a.id = some a)
    (h : processPaid wi db now w a = .ok (r, db')) : OrderCall a db db' := by
  obtain ⟨⟨paid, db₁⟩, hpay, hrest⟩ := Lib.bind_ok h
  obtain ⟨hcall, hnone⟩ := markOrderPaid_call wi hrow hpay
  cases paid with
  | some o =>
    cases hrest
    exact hcall
  | none =>
    obtain rfl := hnone rfl
    simp only at hrest
    split_ifs at hrest
    · cases hrest
      exact .of_put hrow rfl fun hp => .stay rfl rfl hp
    · cases hrest
      exact .refl hrow
    · cases hrest
      exact .refl hrow

/-- A webhook moves the order it is about, or finds none and changes nothing. -/
theorem processWebhookEvent_call {db db' : Db} {now : Time} {payload : WebhookPayload}
    {r : Option Order} (hu : UniqueOrders db)
    (h : processWebhookEvent wi db now payload = .ok (r, db')) :
    db' = db ∨ ∃ a, db.order a.id = some a ∧ OrderCall a db db' := by
  unfold processWebhookEvent at h
  simp only at h
  split at h
  · cases h
    exact .inl rfl
  · split at h
    · cases h
      exact .inl rfl
    · rename_i a ha
      have hrow := order_of_webhookOrder hu ha
      refine .inr ⟨a, hrow, ?_⟩
      split_ifs at h
      · cases h
        exact .refl hrow
      · exact processPaid_call wi hrow h
      · exact processCanceled_call hrow h
      · exact processRefund_call hrow h
      · cases h
        exact .refl hrow

end Just1kBot
