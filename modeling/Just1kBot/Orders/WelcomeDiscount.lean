import Just1kBot.Orders.Placed
import Just1kBot.Orders.ExactlyOnce

/-! The welcome discount of a referred user.

    A user is eligible while nothing it ordered is paid. `pay_from_wallet` checks this and pays in
    one transaction; `create_order` checks it when the order is placed, and nothing checks it again
    when the order is paid. So a discount is spent once as long as no discounted order is paid
    while another one stands paid. -/

namespace Just1kBot

/-- The order is paid with the welcome discount. -/
def Order.WelcomeSpent (o : Order) : Prop :=
  o.metadata.isReferralDiscount = true ∧ o.status = .paid

instance (o : Order) : Decidable o.WelcomeSpent := by unfold Order.WelcomeSpent; infer_instance

/-- No user has two paid orders with the welcome discount. -/
def DiscountOnce (db : Db) : Prop :=
  ∀ a ∈ db.orders, ∀ b ∈ db.orders, a.userId = b.userId → a.WelcomeSpent → b.WelcomeSpent →
    a.id = b.id

instance (db : Db) : Decidable (DiscountOnce db) := by unfold DiscountOnce; infer_instance

/-- No order of the user is paid with the welcome discount. -/
def DiscountFree (db : Db) (u : UserId) : Prop :=
  ∀ c ∈ db.orders, c.userId = u → ¬ c.WelcomeSpent

instance (db : Db) (u : UserId) : Decidable (DiscountFree db u) := by
  unfold DiscountFree; infer_instance

/-! ### Checkouts and payments -/

/-- A request as the handlers make it: a top-up names no tariff, and the discount is not theirs to
    give. -/
structure CheckoutRequest extends OrderRequest where
  topup : serviceType = .topup → tariffId = none
  plain : metadata.isReferralDiscount = false

/-- What happens to the orders. `place` is any other order that is made, without the discount, and
    `other` is anything that leaves the orders alone. -/
inductive CheckoutEvent
  | createOrder (now : Time) (tariffs : List Tariff) (newId : OrderId) (answer : InvoiceAnswer)
      (req : CheckoutRequest)
  | payFromWallet (now : Time) (tariffs : List Tariff) (newId : OrderId) (req : CheckoutRequest)
  | place (order : {o : Order // o.metadata.isReferralDiscount = false})
  | webhook (now : Time) (payload : WebhookPayload)
  | orderCheck (now : Time) (order : OrderId) (externalId : Option String)
      (paidAmountRub : Option ℚ)
  | cancel (order : OrderId) (reason : String)
  | other (tables : Db)

variable (wi : WhiteInternetApi)

/-- One event in its own transaction. -/
def checkoutStep (db : Db) : CheckoutEvent → Db
  | .createOrder now tariffs newId answer req =>
    Lib.commit db (createOrder tariffs db now newId answer req.toOrderRequest)
  | .payFromWallet now tariffs newId req =>
    Lib.commit db (payFromWallet tariffs wi db now newId req.toOrderRequest)
  | .place order => db.placeOrder order
  | .webhook now payload => Lib.commit db (processWebhookEvent wi db now payload)
  | .orderCheck now order externalId paidAmountRub =>
    Lib.commit db (markOrderPaid wi db now order externalId paidAmountRub)
  | .cancel order reason => db.cancelOrder order reason
  | .other tables => { tables with orders := db.orders }

/-- The payment makes the order paid: it is open, or canceled but not by the gateway, and the amount
    is enough. -/
def Payable (o : Order) (paidAmountRub : Option ℚ) : Prop :=
  (o.status = .pending ∨
    o.status = .canceled ∧ o.metadata.cancellationReason ≠ some "gateway_canceled") ∧
  ¬ ∃ a ∈ paidAmountRub, a < (o.amountRub : ℚ)

instance (o : Order) (a : Option ℚ) : Decidable (Payable o a) := by
  unfold Payable; infer_instance

/-- The payment of a discounted order finds no other one of its user paid. -/
def FirstDiscount (db : Db) (o : Order) : Prop :=
  o.metadata.isReferralDiscount = true → DiscountFree db o.userId

/-- When a payment spends no second discount. -/
def KeepsDiscountOnce (db : Db) : CheckoutEvent → Prop
  | .webhook _ payload => ∀ o ∈ db.webhookOrder (parseWebhook payload),
      ¬ IdentityMismatch o (parseWebhook payload) → (parseWebhook payload).isPaid = true →
        Payable o (parseWebhook payload).amountRub → FirstDiscount db o
  | .orderCheck _ order _ paidAmountRub => ∀ o ∈ db.order order,
      Payable o paidAmountRub → FirstDiscount db o
  | _ => True

instance (db : Db) (e : CheckoutEvent) : Decidable (KeepsDiscountOnce db e) := by
  cases e <;> unfold KeepsDiscountOnce FirstDiscount <;> infer_instance

variable {wi} {db db' : Db} {now : Time}

/-! ### Which orders a payment makes paid -/

/-- Writing a row back makes no order paid, unless the row itself was made paid. -/
theorem paid_of_putOrder {a o b : Order} {i : OrderId} (hb : db'.order i = some b)
    (hpaid : b.status = .paid) (hrow : db.order a.id = some a)
    (horders : db'.orders = (db.putOrder o).orders) (hid : o.id = a.id)
    (hst : o.status = .paid → a.status = .paid) : ∃ a, db.order i = some a ∧ a.status = .paid := by
  rw [Db.order, horders] at hb
  by_cases hi : i = a.id
  · subst hi
    have hput := Lib.Table.lookup_put_self Order.id hrow hid
    obtain rfl := Option.some.inj (hput.symm.trans hb)
    exact ⟨a, hrow, hst hpaid⟩
  · exact ⟨b, (Lib.Table.lookup_put_ne Order.id db.orders (by rwa [hid])).symm.trans hb, hpaid⟩

/-- A payment that does not count leaves the order unpaid. -/
theorem payOrder_unpaid {a b : Order} {ext : Option String} {amount : Option ℚ}
    {r : Option Order} (hrow : db.order a.id = some a)
    (hst : a.status = .pending ∨ a.status = .canceled) (hnot : ¬ Payable a amount)
    (h : payOrder wi db now a ext amount = .ok (r, db')) (hb : db'.order a.id = some b) :
    b.status ≠ .paid := by
  have hunpaid : a.status ≠ .paid := by rcases hst with h | h <;> simp [h]
  simp only [payOrder] at h
  split_ifs at h with hcanceled
  · cases h
    rw [hrow] at hb
    cases hb
    exact hunpaid
  · split at h
    · obtain ⟨db₁, hflush, hr⟩ := Lib.bind_ok h
      obtain rfl := flushOrder_ok hflush
      cases hr
      intro hpaid
      obtain ⟨a', ha', hpaid'⟩ := paid_of_putOrder hb hpaid hrow rfl rfl id
      obtain rfl := Option.some.inj (hrow.symm.trans ha')
      exact hunpaid hpaid'
    · rename_i hfull
      refine absurd ⟨?_, ?_⟩ hnot
      · rcases hst with h | h
        · exact .inl h
        · exact .inr ⟨h, fun hreason => hcanceled ⟨h, hreason⟩⟩
      · rintro ⟨x, hx, hlt⟩
        rw [Option.mem_def.mp hx, Option.filter_some, if_pos (by simpa using hlt)] at hfull
        cases hfull

/-- `mark_order_paid` makes a payable order paid, and no other. -/
theorem markOrderPaid_paid {id : OrderId} {ext : Option String} {amount : Option ℚ}
    {r : Option Order} (h : markOrderPaid wi db now id ext amount = .ok (r, db')) {i : OrderId}
    {b : Order} (hb : db'.order i = some b) (hpaid : b.status = .paid) :
    (∃ a, db.order i = some a ∧ a.status = .paid) ∨
      ∃ a, db.order id = some a ∧ i = id ∧ Payable a amount := by
  cases hrow : db.order id with
  | none =>
    simp only [markOrderPaid, hrow] at h
    cases h
    exact .inl ⟨b, hb, hpaid⟩
  | some a =>
    obtain rfl : a.id = id := Lib.Table.key_of_lookup Order.id hrow
    by_cases hi : i = a.id
    · subst hi
      by_cases hpay : Payable a amount
      · exact .inr ⟨a, rfl, rfl, hpay⟩
      · simp only [markOrderPaid, hrow] at h
        split at h
        · rename_i hst
          exact .inl ⟨a, hrow, hst⟩
        · cases h
          exact .inl ⟨b, hb, hpaid⟩
        · rename_i hst
          exact absurd hpaid (payOrder_unpaid hrow (.inl hst) hpay h hb)
        · rename_i hst
          exact absurd hpaid (payOrder_unpaid hrow (.inr hst) hpay h hb)
    · rw [(markOrderPaid_call wi hrow h).1.frame.others i hi] at hb
      exact .inl ⟨b, hb, hpaid⟩

/-- A payment that is told makes its order paid when it counts, and no other. -/
theorem processPaid_paid {a b : Order} {w : WebhookResult} {r : Option Order} {i : OrderId}
    (hrow : db.order a.id = some a) (h : processPaid wi db now w a = .ok (r, db'))
    (hb : db'.order i = some b) (hpaid : b.status = .paid) :
    (∃ a, db.order i = some a ∧ a.status = .paid) ∨ i = a.id ∧ Payable a w.amountRub := by
  obtain ⟨⟨paid, db₁⟩, hpay, hrest⟩ := Lib.bind_ok h
  cases paid with
  | some o =>
    cases hrest
    rcases markOrderPaid_paid hpay hb hpaid with hold | ⟨a', ha', hi, hpayable⟩
    · exact .inl hold
    · obtain rfl := Option.some.inj (hrow.symm.trans ha')
      exact .inr ⟨hi, hpayable⟩
  | none =>
    obtain rfl := (markOrderPaid_call wi hrow hpay).2 rfl
    simp only at hrest
    split_ifs at hrest
    · cases hrest
      exact .inl (paid_of_putOrder hb hpaid hrow rfl rfl id)
    · cases hrest
      exact .inl ⟨b, hb, hpaid⟩
    · cases hrest
      exact .inl ⟨b, hb, hpaid⟩

theorem processCanceled_paid {a b : Order} {r : Option Order} {i : OrderId}
    (hrow : db.order a.id = some a) (h : processCanceled db a = .ok (r, db'))
    (hb : db'.order i = some b) (hpaid : b.status = .paid) :
    ∃ a, db.order i = some a ∧ a.status = .paid := by
  simp only [processCanceled] at h
  split_ifs at h with hpending
  · cases h
    refine paid_of_putOrder hb hpaid hrow rfl ?_ ?_
    · simp [markOrderCanceled, hpending]
    · simp [markOrderCanceled, hpending]
  · cases h
    exact ⟨b, hb, hpaid⟩

theorem processRefund_paid {a b : Order} {w : WebhookResult} {r : Option Order} {i : OrderId}
    (hrow : db.order a.id = some a) (h : processRefund db now w a = .ok (r, db'))
    (hb : db'.order i = some b) (hpaid : b.status = .paid) :
    ∃ a, db.order i = some a ∧ a.status = .paid := by
  simp only [processRefund] at h
  split_ifs at h
  · cases h
    exact ⟨b, hb, hpaid⟩
  · cases h
    exact ⟨b, hb, hpaid⟩
  · cases h
    exact paid_of_putOrder hb hpaid hrow rfl rfl id
  · obtain ⟨db₁, hback, hr⟩ := Lib.map_ok h
    cases hr
    exact paid_of_putOrder hb hpaid hrow (takeBack_effects hback).1 rfl (by simp [refundedRow])

/-- A webhook makes the order it is about paid, when it tells of a payment that counts. -/
theorem processWebhookEvent_paid (hu : UniqueOrders db) {payload : WebhookPayload}
    {r : Option Order} (h : processWebhookEvent wi db now payload = .ok (r, db')) {i : OrderId}
    {b : Order} (hb : db'.order i = some b) (hpaid : b.status = .paid) :
    (∃ a, db.order i = some a ∧ a.status = .paid) ∨
      ∃ a, db.webhookOrder (parseWebhook payload) = some a ∧ i = a.id ∧
        ¬ IdentityMismatch a (parseWebhook payload) ∧ (parseWebhook payload).isPaid = true ∧
          Payable a (parseWebhook payload).amountRub := by
  simp only [processWebhookEvent] at h
  split at h
  · cases h
    exact .inl ⟨b, hb, hpaid⟩
  · split at h
    · cases h
      exact .inl ⟨b, hb, hpaid⟩
    · rename_i a ha
      have hrow := order_of_webhookOrder hu ha
      split_ifs at h with hmis hispaid hcanceled hrefunded
      · cases h
        exact .inl ⟨b, hb, hpaid⟩
      · rcases processPaid_paid hrow h hb hpaid with hold | ⟨hi, hpayable⟩
        · exact .inl hold
        · exact .inr ⟨a, ha, hi, hmis, hispaid, hpayable⟩
      · exact .inl (processCanceled_paid hrow h hb hpaid)
      · exact .inl (processRefund_paid hrow h hb hpaid)
      · cases h
        exact .inl ⟨b, hb, hpaid⟩

/-! ### The invariant -/

/-- Order ids are unique, a discounted order costs something and buys no top-up, and no user has
    spent two discounts. -/
structure DiscountInv (db : Db) : Prop where
  unique : UniqueOrders db
  priced : ∀ p ∈ db.placed, p.discounted = true → 1 ≤ p.amountRub ∧ p.serviceType ≠ .topup
  once : DiscountOnce db

/-- A user is eligible only while it has spent no discount. -/
theorem discountFree_of_eligible {u : UserId} (hinv : DiscountInv db)
    (h : db.isEligibleForReferralFirstDiscount u = true) : DiscountFree db u := by
  rintro c hc huser ⟨hdiscount, hpaid⟩
  obtain ⟨hamount, hservice⟩ := hinv.priced c.placed (List.mem_map_of_mem hc) hdiscount
  simp only [Db.isEligibleForReferralFirstDiscount] at h
  split at h
  · cases h
  · split_ifs at h
    simp only [decide_eq_true_eq] at h
    have hnone := List.countP_eq_zero.mp h.1 c hc
    exact hnone (by simpa using ⟨huser, hpaid, hamount, hservice⟩)

/-- The price of a tariff has the discount only for an eligible user, and is never nothing. -/
theorem tariffTerms_discounted {tariffs : List Tariff} {user : Option User} {req : OrderRequest}
    {tariff : Tariff} (hplain : req.metadata.isReferralDiscount = false)
    (h : (tariffTerms tariffs db now user req tariff).2.2.isReferralDiscount = true) :
    db.isEligibleForReferralFirstDiscount req.userId = true ∧
      1 ≤ (tariffTerms tariffs db now user req tariff).1 := by
  simp only [tariffTerms] at h ⊢
  split at h
  · exact absurd h (by simp [hplain])
  · cases hamount : req.amountRub with
    | some amount =>
      simp only [hamount, purchaseMeta_isReferralDiscount, hplain] at h
      cases h
    | none =>
      simp only [hamount, purchasePrice] at h ⊢
      split_ifs at h ⊢ with heligible
      · exact ⟨heligible, le_max_left _ _⟩
      · exact absurd h (by simp [hplain])

/-- An order has the discount only for an eligible user and a tariff, and never for free. -/
theorem quotedOrder_discounted {tariffs : List Tariff} {newId : OrderId} {req : OrderRequest}
    (hplain : req.metadata.isReferralDiscount = false)
    (h : (quotedOrder tariffs db now newId req).metadata.isReferralDiscount = true) :
    db.isEligibleForReferralFirstDiscount req.userId = true ∧
      1 ≤ (quotedOrder tariffs db now newId req).amountRub ∧ req.tariffId ≠ none := by
  simp only [quotedOrder, OrderTerms.order, resolveOrderTerms] at h ⊢
  cases htariff : req.tariffId.bind fun id => Lib.Table.lookup Tariff.id id tariffs with
  | none =>
    simp only [htariff, hplain] at h
    cases h
  | some tariff =>
    have hsome : req.tariffId ≠ none := fun hnone => by simp [hnone] at htariff
    simp only [htariff] at h ⊢
    obtain ⟨heligible, hprice⟩ := tariffTerms_discounted hplain h
    exact ⟨heligible, hprice, hsome⟩

namespace DiscountInv

/-- A call that makes one order paid at most, and no second one with the discount. -/
theorem of_placed (hinv : DiscountInv db) (hplaced : db'.placed = db.placed) {k : OrderId}
    (hpaid : ∀ i b, db'.order i = some b → b.status = .paid →
      (∃ a, db.order i = some a ∧ a.status = .paid) ∨
        ∃ a, db.order i = some a ∧ i = k ∧ FirstDiscount db a) : DiscountInv db' where
  unique := uniqueOrders_of_placed hplaced hinv.unique
  priced := by
    rw [hplaced]
    exact hinv.priced
  once := by
    have hunique := uniqueOrders_of_placed hplaced hinv.unique
    have hspent : ∀ x ∈ db'.orders, x.WelcomeSpent →
        (∃ x₀ ∈ db.orders, x₀.id = x.id ∧ x₀.userId = x.userId ∧ x₀.WelcomeSpent) ∨
          x.id = k ∧ DiscountFree db x.userId := by
      rintro x hx ⟨hdiscount, hst⟩
      have hrow := hunique.order_of_mem hx
      obtain ⟨x₀, hx₀, hp⟩ := Db.exists_order_of_placed hplaced hrow
      have hdiscount₀ : x₀.metadata.isReferralDiscount = true :=
        (congrArg PlacedOrder.discounted hp).trans hdiscount
      have huser : x₀.userId = x.userId := congrArg PlacedOrder.userId hp
      rcases hpaid x.id x hrow hst with ⟨a, ha, hold⟩ | ⟨a, ha, hk, hfirst⟩
      · obtain rfl := Option.some.inj (hx₀.symm.trans ha)
        exact .inl ⟨x₀, Lib.Table.mem_of_lookup Order.id hx₀, congrArg PlacedOrder.id hp, huser,
          hdiscount₀, hold⟩
      · obtain rfl := Option.some.inj (hx₀.symm.trans ha)
        exact .inr ⟨hk, huser ▸ hfirst hdiscount₀⟩
    intro x hx y hy huser hsx hsy
    rcases hspent x hx hsx with ⟨x₀, hx₀, hxid, hxu, hxs⟩ | ⟨hxk, hfree⟩
    · rcases hspent y hy hsy with ⟨y₀, hy₀, hyid, hyu, hys⟩ | ⟨hyk, hfree⟩
      · rw [← hxid, ← hyid]
        exact hinv.once x₀ hx₀ y₀ hy₀ (hxu.trans (huser.trans hyu.symm)) hxs hys
      · exact absurd hxs (hfree x₀ hx₀ (hxu.trans huser))
    · rcases hspent y hy hsy with ⟨y₀, hy₀, hyid, hyu, hys⟩ | ⟨hyk, -⟩
      · exact absurd hys (hfree y₀ hy₀ (hyu.trans huser.symm))
      · exact hxk.trans hyk.symm

/-- A new order that spends no second discount. -/
theorem of_append {o : Order} (hinv : DiscountInv db) (hnew : db.order o.id = none)
    (horders : db'.orders = db.orders ++ [o])
    (hpriced : o.metadata.isReferralDiscount = true → 1 ≤ o.amountRub ∧ o.serviceType ≠ .topup)
    (hfirst : o.WelcomeSpent → DiscountFree db o.userId) : DiscountInv db' where
  unique := by
    have hnot : o.id ∉ db.orders.map Order.id := fun hmem => by
      have hsome := Lib.Table.lookup_isSome Order.id o.id db.orders
      rw [← Db.order, hnew] at hsome
      simp [hmem] at hsome
    rw [UniqueOrders, horders, List.map_append, List.nodup_append]
    refine ⟨hinv.unique, List.nodup_singleton _, ?_⟩
    rintro i hi j hj rfl
    rw [List.map_singleton, List.mem_singleton] at hj
    exact hnot (hj ▸ hi)
  priced := by
    rw [Db.placed, horders, List.map_append]
    rintro p hp hdiscount
    rcases List.mem_append.mp hp with hp | hp
    · exact hinv.priced p hp hdiscount
    · obtain rfl := List.mem_singleton.mp hp
      exact hpriced hdiscount
  once := by
    rw [DiscountOnce, horders]
    intro x hx y hy huser hsx hsy
    rcases List.mem_append.mp hx with hxold | hxnew
    · rcases List.mem_append.mp hy with hyold | hynew
      · exact hinv.once x hxold y hyold huser hsx hsy
      · obtain rfl := List.mem_singleton.mp hynew
        exact absurd hsx (hfirst hsy x hxold huser)
    · obtain rfl := List.mem_singleton.mp hxnew
      rcases List.mem_append.mp hy with hyold | hynew
      · exact absurd hsy (hfirst hsx y hyold huser.symm)
      · rw [List.mem_singleton.mp hynew]

/-- The terms of a request are priced, and its discount finds the user free. -/
theorem quotedOrder_priced {tariffs : List Tariff} (hinv : DiscountInv db) (newId : OrderId)
    (req : CheckoutRequest)
    (h : (quotedOrder tariffs db now newId req.toOrderRequest).metadata.isReferralDiscount = true) :
    (1 ≤ (quotedOrder tariffs db now newId req.toOrderRequest).amountRub ∧
      (quotedOrder tariffs db now newId req.toOrderRequest).serviceType ≠ .topup) ∧
      DiscountFree db req.userId := by
  obtain ⟨heligible, hamount, htariff⟩ := quotedOrder_discounted req.plain h
  refine ⟨⟨hamount, fun htopup => htariff (req.topup ?_)⟩, discountFree_of_eligible hinv heligible⟩
  simp only [quotedOrder, OrderTerms.order] at htopup
  split_ifs at htopup
  exact htopup

theorem createOrder {tariffs : List Tariff} {newId : OrderId} {answer : InvoiceAnswer}
    {req : CheckoutRequest} {r : Option Order} (hinv : DiscountInv db)
    (h : createOrder tariffs db now newId answer req.toOrderRequest = .ok (r, db')) :
    DiscountInv db' := by
  obtain ⟨o, -, -, rfl, -⟩ | ⟨hnew, o, ⟨ext, url, amb, rfl⟩, rfl, -⟩ := createOrder_ok h
  · exact hinv
  · refine hinv.of_append hnew rfl (fun hd => (hinv.quotedOrder_priced newId req hd).1) ?_
    rintro ⟨-, hpaid⟩
    cases hpaid

theorem payFromWallet {tariffs : List Tariff} {newId : OrderId} {req : CheckoutRequest}
    {o' : Order} (hinv : DiscountInv db)
    (h : payFromWallet tariffs wi db now newId req.toOrderRequest = .ok (o', db')) :
    DiscountInv db' := by
  obtain ⟨hnew, db₁, horders, -, hful⟩ := payFromWallet_ok h
  set w := walletOrder tariffs db now newId req.toOrderRequest with hw
  have hinv₁ : DiscountInv db₁ := hinv.of_append hnew horders
    (fun hd => (hinv.quotedOrder_priced newId req hd).1)
    fun hs => (hinv.quotedOrder_priced newId req hs.1).2
  have hrow : db₁.order w.id = some w :=
    hinv₁.unique.order_of_mem (by rw [horders]; exact List.mem_append_right _ List.mem_cons_self)
  obtain ⟨hframe, -, hsame, -⟩ := fulfillOrder_effects wi hful
  refine hinv₁.of_placed (fulfillOrder_placed (hinv₁.unique.placedAs hrow) hful).1 (k := w.id) ?_
  rintro i b hb hpaid
  by_cases hi : i = w.id
  · exact .inl ⟨w, hi ▸ hrow, rfl⟩
  · rw [hframe.others i hi] at hb
    exact .inl ⟨b, hb, hpaid⟩

end DiscountInv

/-- What every event preserves under its guard. -/
theorem discountInv_step (hinv : DiscountInv db) (e : CheckoutEvent)
    (he : KeepsDiscountOnce db e) : DiscountInv (checkoutStep wi db e) := by
  cases e with
  | createOrder now tariffs newId answer req =>
    exact Lib.commit_inv hinv fun r db' h => hinv.createOrder h
  | payFromWallet now tariffs newId req =>
    exact Lib.commit_inv hinv fun r db' h => hinv.payFromWallet h
  | place order =>
    simp only [checkoutStep, Db.placeOrder]
    split_ifs with htaken
    · exact hinv
    · refine hinv.of_append (o := order) (by simpa using htaken) rfl (fun hd => ?_) fun hs => ?_
      · rw [order.property] at hd
        cases hd
      · rw [Order.WelcomeSpent, order.property] at hs
        cases hs.1
  | webhook now payload =>
    refine Lib.commit_inv hinv fun r db' h => ?_
    refine hinv.of_placed (processWebhookEvent_placed hinv.unique h)
      (k := ((db.webhookOrder (parseWebhook payload)).map Order.id).getD 0) fun i b hb hpaid => ?_
    rcases processWebhookEvent_paid hinv.unique h hb hpaid with hold | ⟨a, ha, rfl, hmis, hp, hpay⟩
    · exact .inl hold
    · exact .inr ⟨a, order_of_webhookOrder hinv.unique ha, by rw [ha]; rfl,
        he a ha hmis hp hpay⟩
  | orderCheck now order externalId paidAmountRub =>
    refine Lib.commit_inv hinv fun r db' h => ?_
    refine hinv.of_placed (markOrderPaid_placed hinv.unique h) (k := order) fun i b hb hpaid => ?_
    rcases markOrderPaid_paid h hb hpaid with hold | ⟨a, ha, rfl, hpay⟩
    · exact .inl hold
    · exact .inr ⟨a, ha, rfl, he a ha hpay⟩
  | cancel order reason =>
    simp only [checkoutStep, Db.cancelOrder]
    split
    · exact hinv
    · rename_i a ha
      obtain rfl : a.id = order := Lib.Table.key_of_lookup Order.id ha
      have hp : (markOrderCanceled a reason).placed = a.placed := placed_markOrderCanceled a reason
      refine hinv.of_placed (k := a.id) (Db.placed_putOrder (hp ▸ hinv.unique.placedAs ha))
        fun i b hb hpaid => .inl ?_
      refine paid_of_putOrder hb hpaid ha rfl (congrArg PlacedOrder.id hp) fun hst => ?_
      simp only [markOrderCanceled] at hst
      split at hst
      · cases hst
      · rename_i hcanceled
        rw [hcanceled] at hst
        cases hst
      · exact hst
  | other tables =>
    have hplaced : (checkoutStep wi db (.other tables)).placed = db.placed := rfl
    exact hinv.of_placed hplaced (k := 0) fun i b hb hpaid => .inl ⟨b, hb, hpaid⟩

/-- In every run in which no discounted order is paid while another one of its user stands paid, no
    user has two paid orders with the discount in any state. -/
theorem discount_spent_once (wi : WhiteInternetApi) (db : Db) (h₀ : db.orders = [])
    (es : List CheckoutEvent)
    (hes : Lib.Always (checkoutStep wi) KeepsDiscountOnce db es) :
    Lib.Throughout (checkoutStep wi) DiscountOnce db es := by
  have hinv : DiscountInv db :=
    { unique := by simp [UniqueOrders, h₀]
      priced := by simp [Db.placed, h₀]
      once := by simp [DiscountOnce, h₀] }
  exact Lib.throughout_of_always (checkoutStep wi) (fun _ e h he => discountInv_step h e he)
    (fun _ h => h.once) es db hinv hes

/-! ### Two discounts spent -/

/-- A referred user without an order, and its referrer. -/
def referredUser : Db where
  users := [{ id := 1, telegramId := 1, referredBy := some 2 }, { id := 2, telegramId := 2 }]

/-- The user asks for an invoice of one tariff. -/
def invoiceEvent (order : OrderId) (tariff : Tariff) (paymentId : String) : CheckoutEvent :=
  .createOrder 0 [tariff] order (.invoice paymentId "https://pay")
    { userId := 1, tariffId := some tariff.id, topup := (fun h => by cases h), plain := rfl }

/-- The invoice is paid in full. -/
def invoicePaid (order : OrderId) (amountRub : ℚ) (paymentId : String) : CheckoutEvent :=
  .webhook 1 { event := "payment.succeeded", objectId := paymentId, orderId := some (.uuid order)
               amountValue := some amountRub, currency := some "RUB" }

/-- Two tariffs are invoiced with the discount, and the first is paid. -/
def firstDiscountStory : List CheckoutEvent :=
  [invoiceEvent 1 { id := 1, durationDays := 30, priceRub := 90 } "first",
    invoiceEvent 2 { id := 2, durationDays := 30, priceRub := 180 } "second",
    invoicePaid 1 68 "first"]

theorem discount_spent_once_first :
    Lib.Throughout (checkoutStep closedService) DiscountOnce referredUser firstDiscountStory :=
  discount_spent_once closedService referredUser rfl firstDiscountStory (by decide +kernel)

/-- The second is paid too: 68 of 90 rubles, and 135 of 180. -/
theorem discount_spent_twice :
    ¬ ∀ (wi : WhiteInternetApi) (db : Db), db.orders = [] → ∀ es : List CheckoutEvent,
      Lib.Throughout (checkoutStep wi) DiscountOnce db es := by
  intro h
  exact absurd (h closedService referredUser rfl
    (firstDiscountStory ++ [invoicePaid 2 135 "second"])) (by decide +kernel)

end Just1kBot
