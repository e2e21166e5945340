import Just1kBot.Orders.Terms
import Just1kBot.Orders.Settlement

/-! What the two checkouts do to the tables.

    `create_order` answers with an open order on the same terms, or inserts one and writes the
    gateway's answer on it; `pay_from_wallet` inserts a paid order, debits its user and delivers it.
    Either leaves every order that was there alone. -/

namespace Just1kBot

variable {tariffs : List Tariff} {db db' : Db} {now : Time} {newId : OrderId}
  {req : OrderRequest}

/-- The row a checkout builds on the terms of the moment. -/
def quotedOrder (tariffs : List Tariff) (db : Db) (now : Time) (newId : OrderId)
    (req : OrderRequest) : Order :=
  (resolveOrderTerms tariffs db now (db.user req.userId) req).order req newId now

theorem Db.addOrder_ok {o : Order} (h : db.addOrder tariffs o = .ok db') :
    db.order o.id = none ∧ db' = { db with orders := db.orders ++ [o] } := by
  simp only [addOrder] at h
  split_ifs at h with hid
  cases h
  exact ⟨by simpa using hid, rfl⟩

/-- What `create_order` writes of the gateway's answer on the row `o`. -/
def WithAnswer (o o' : Order) : Prop :=
  ∃ externalId paymentUrl ambiguous, o' = { o with
    externalId := externalId, paymentUrl := paymentUrl
    metadata := { o.metadata with paymentCreationAmbiguous := ambiguous } }

theorem requestPayment_ok {gateway : InvoiceAnswer} {o : Order} {r : Option Order}
    (hnew : db.order o.id = none)
    (h : requestPayment { db with orders := db.orders ++ [o] } o gateway = .ok (r, db')) :
    ∃ o', WithAnswer o o' ∧ db' = { db with orders := db.orders ++ [o'] } ∧
      (r = some o' ∨ r = none) := by
  have hput : ∀ o' : Order, o'.id = o.id →
      { db with orders := db.orders ++ [o] }.putOrder o' =
        { db with orders := db.orders ++ [o'] } := fun o' hid => by
    rw [Db.putOrder, Lib.Table.put_append_of_lookup_none Order.id hnew hid]
  cases gateway with
  | invoice externalId paymentUrl =>
    obtain ⟨db₁, hflush, hr⟩ := Lib.map_ok h
    cases hr
    exact ⟨_, ⟨some externalId, some paymentUrl, o.metadata.paymentCreationAmbiguous, rfl⟩,
      (flushOrder_ok hflush).trans (hput _ rfl), .inl rfl⟩
  | ambiguous =>
    cases h
    exact ⟨_, ⟨o.externalId, o.paymentUrl, true, rfl⟩, hput _ rfl, .inr rfl⟩
  | failed err => cases h

/-- `create_order` finds a pending order on the same terms, or inserts one on these terms. -/
theorem createOrder_ok {gateway : InvoiceAnswer} {r : Option Order}
    (h : createOrder tariffs db now newId gateway req = .ok (r, db')) :
    (∃ o ∈ db.orders, r = some o ∧ db' = db ∧ o.status = .pending ∧
        o.userId = (quotedOrder tariffs db now newId req).userId ∧
        o.serviceType = (quotedOrder tariffs db now newId req).serviceType ∧
        o.durationDays = (quotedOrder tariffs db now newId req).durationDays) ∨
      db.order newId = none ∧ ∃ o, WithAnswer (quotedOrder tariffs db now newId req) o ∧
        db' = { db with orders := db.orders ++ [o] } ∧ (r = some o ∨ r = none) := by
  simp only [createOrder] at h
  split_ifs at h with hwallet
  · obtain ⟨db₁, hadd, hr⟩ := Lib.map_ok h
    obtain ⟨hnew, rfl⟩ := Db.addOrder_ok hadd
    cases hr
    exact .inr ⟨hnew, _, ⟨_, _, _, rfl⟩, rfl, .inl rfl⟩
  · split at h
    · rename_i o ho
      cases h
      have hdup := List.maxOn?_mem (Option.eq_some_of_filter_eq_some ho)
      rw [List.mem_filter, decide_eq_true_eq] at hdup
      obtain ⟨hmem, huser, hservice, -, hdays, -, -, -, -, hpending, -⟩ := hdup
      exact .inl ⟨o, hmem, rfl, rfl, hpending, huser, hservice, hdays⟩
    · obtain ⟨db₁, hadd, hreq⟩ := Lib.bind_ok h
      obtain ⟨hnew, rfl⟩ := Db.addOrder_ok hadd
      exact .inr ⟨hnew, requestPayment_ok hnew hreq⟩

/-! ### The wallet -/

theorem Db.createOrderDebit_frame {u : UserId} {amount : Lib.Python.Number} {o : OrderId}
    {m : EntryMeta} {locked : Option User} {r : Option AccountLedgerEntry × Bool}
    (h : db.createOrderDebit now u amount o m locked = .ok (r, db')) :
    db'.orders = db.orders ∧ db'.users = db.users := by
  obtain ⟨a, -, hlock⟩ := Lib.bind_ok h
  obtain ⟨user, -, hdebit⟩ := Lib.bind_ok hlock
  by_cases ha : a.val = 0
  · rw [dif_pos ha] at hdebit
    cases hdebit
    exact ⟨rfl, rfl⟩
  · rw [dif_neg ha] at hdebit
    simp only at hdebit
    split at hdebit
    · split_ifs at hdebit
      cases hdebit
      exact ⟨rfl, rfl⟩
    · split_ifs at hdebit
      obtain ⟨⟨⟨debit, created⟩, l⟩, -, hbooked⟩ := Lib.bind_ok hdebit
      simp only at hbooked
      split_ifs at hbooked
      · obtain ⟨⟨allocs, l'⟩, -, hdone⟩ := Lib.bind_ok hbooked
        cases hdone
        exact ⟨rfl, rfl⟩
      · cases hbooked
        exact ⟨rfl, rfl⟩

theorem debitWallet_frame {user : Option User} {o : Order}
    (h : debitWallet db now user o = .ok db') :
    db'.orders = db.orders ∧ db'.users = db.users := by
  simp only [debitWallet] at h
  split_ifs at h
  · obtain ⟨r, hdebit, rfl⟩ := Lib.map_ok h
    exact Db.createOrderDebit_frame hdebit
  · cases h
    exact ⟨rfl, rfl⟩

/-- The row `pay_from_wallet` builds on the terms of the moment. -/
def walletOrder (tariffs : List Tariff) (db : Db) (now : Time) (newId : OrderId)
    (req : OrderRequest) : Order :=
  { quotedOrder tariffs db now newId req with
    paymentMethod := .wallet, status := .paid, paidAt := some now }

variable {wi : WhiteInternetApi}

/-- `pay_from_wallet` inserts an order on the terms of the moment and delivers it. -/
theorem payFromWallet_ok {o' : Order}
    (h : payFromWallet tariffs wi db now newId req = .ok (o', db')) :
    db.order newId = none ∧ ∃ db₁ : Db,
      db₁.orders = db.orders ++ [walletOrder tariffs db now newId req] ∧ db₁.users = db.users ∧
      fulfillOrder wi db₁ now (walletOrder tariffs db now newId req) = .ok (o', db') := by
  simp only [payFromWallet] at h
  split at h
  · cases h
  · obtain ⟨user, -, hbalance⟩ := Lib.bind_ok h
    split_ifs at hbalance
    obtain ⟨db₁, hadd, hdebit⟩ := Lib.bind_ok hbalance
    obtain ⟨db₂, hpay, hful⟩ := Lib.bind_ok hdebit
    obtain ⟨hnew, rfl⟩ := Db.addOrder_ok hadd
    obtain ⟨horders, husers⟩ := debitWallet_frame hpay
    exact ⟨hnew, db₂, horders, husers, hful⟩

/-- No order that was there is touched. -/
theorem payFromWallet_order {o o' : Order}
    (h : payFromWallet tariffs wi db now newId req = .ok (o', db')) {id : OrderId}
    (hrow : db.order id = some o) : db'.order id = some o := by
  obtain ⟨hnew, db₁, horders, -, hful⟩ := payFromWallet_ok h
  have hne : id ≠ newId := fun heq => by rw [heq, hnew] at hrow; cases hrow
  rw [(fulfillOrder_effects wi hful).1.others id hne, Db.order, horders,
    Lib.Table.lookup_append]
  rw [Db.order] at hrow
  rw [hrow, Option.some_or]

end Just1kBot
