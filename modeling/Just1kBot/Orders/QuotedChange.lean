import Just1kBot.Orders.Access
import Just1kBot.Orders.Checkout
import Just1kBot.Orders.Refund

/-! A quoted tariff change and the access bought after the quote.

    `create_order` fixes the days of a tariff change from the end it finds; the settlement sets the
    end to that many days from its own now, whatever other orders made of the end in between. What
    they moved it by is lost, and no more than one day of it may be put down to rounding. -/

namespace Just1kBot

/-- A tariff change that `create_order` quoted for a running subscription. -/
structure ChangeQuote where
  tariffs : List Tariff
  db : Db
  quoted : Time
  newId : OrderId
  gateway : InvoiceAnswer
  req : OrderRequest
  user : User
  subscriptionEnd : Time
  current : Tariff
  target : Tariff
  order : Order
  placed : Db
  unique : UniqueOrders db
  found : db.user req.userId = some user
  ends : user.subscriptionEnd = some subscriptionEnd
  running : runningTariff (some user) quoted = some current.id
  hasCurrent : Lib.Table.lookup Tariff.id current.id tariffs = some current
  hasTarget : (req.tariffId.bind fun id => Lib.Table.lookup Tariff.id id tariffs) = some target
  changes : current.id ≠ target.id
  /-- Invariant 1 of the audit. -/
  lasts : 0 < target.durationDays
  standard : req.serviceType = .standard ∨ req.serviceType = .awg
  /-- The terms are left to `create_order`. -/
  unpriced : req.amountRub = none ∧ req.durationDays = none
  answered : createOrder tariffs db quoted newId gateway req = .ok (some order, placed)
  isChange : order.metadata.isTariffChange = true

/-- Another order that is settled: paid from outside, or by the wallet. -/
inductive OtherSettlement
  | external (now : Time) (order : OrderId) (externalId : Option String) (amount : Option ℚ)
  | wallet (now : Time) (newId : OrderId) (tariffs : List Tariff) (req : OrderRequest)
  deriving DecidableEq

/-- The settlement is not of the order `o`. -/
def OtherSettlement.IsOther (o : OrderId) : OtherSettlement → Prop
  | .external _ order _ _ => order ≠ o
  | .wallet .. => True

variable (wi : WhiteInternetApi)

def settleOther (db : Db) : OtherSettlement → Db
  | .external now order externalId amount =>
    Lib.commit db (markOrderPaid wi db now order externalId amount)
  | .wallet now newId tariffs req => Lib.commit db (payFromWallet tariffs wi db now newId req)

/-! ### The quoted order stays as it was placed -/

theorem settleOther_order {db : Db} {o : OrderId} {row : Order} (e : OtherSettlement)
    (hrow : db.order o = some row) (he : e.IsOther o) :
    (settleOther wi db e).order o = some row := by
  cases e with
  | external now order externalId amount =>
    simp only [settleOther]
    refine Lib.commit_inv (I := fun db : Db => db.order o = some row) hrow fun r db' hpay => ?_
    cases ha : db.order order with
    | none =>
      simp only [markOrderPaid, ha] at hpay
      cases hpay
      exact hrow
    | some a =>
      have hid : a.id = order := Lib.Table.key_of_lookup Order.id ha
      subst hid
      exact ((markOrderPaid_call wi ha hpay).1.frame.others o (Ne.symm he)).trans hrow
  | wallet now newId tariffs req =>
    simp only [settleOther]
    exact Lib.commit_inv (I := fun db : Db => db.order o = some row) hrow fun r db' hpay =>
      payFromWallet_order hpay hrow

/-- A change is quoted for at least one day. -/
theorem calculateTariffChange_days_pos {target : Tariff} (h : 0 < target.durationDays)
    (current : Option Tariff) (e : Option Time) (now : Time) :
    0 < (calculateTariffChange current target e now).2 := by
  simp only [calculateTariffChange]
  split
  · split_ifs with hfull hfree
    · exact h
    · simp only [convertedDays]
      split_ifs
      · simp only [not_or, not_le] at hfull
        omega
      · omega
    · exact h
  · exact h

namespace ChangeQuote
variable (q : ChangeQuote)

/-- The terms are those of `calculate_tariff_change`. -/
theorem quotedOrder_durationDays :
    (quotedOrder q.tariffs q.db q.quoted q.newId q.req).durationDays =
      (calculateTariffChange (some q.current) q.target (some q.subscriptionEnd) q.quoted).2 := by
  have hrun : (runningTariff (some q.user) q.quoted).filter (· ≠ q.target.id) =
      some q.current.id := by
    rw [q.running, Option.filter_some, if_pos (by simpa using q.changes)]
  simp only [quotedOrder, OrderTerms.order, resolveOrderTerms, q.hasTarget, tariffTerms, q.found,
    hrun, q.hasCurrent, q.unpriced.2, Option.getD_none, Option.bind_some, q.ends,
    Option.getD_some]

/-- The order is open, gives days, and is stored as it was returned. -/
theorem order_placed : q.order.status = .pending ∧ q.order.userId = q.req.userId ∧
    q.order.IsStandard ∧ 0 < q.order.durationDays ∧
      q.placed.order q.order.id = some q.order := by
  have hdays := calculateTariffChange_days_pos q.lasts (some q.current) (some q.subscriptionEnd)
    q.quoted
  rw [← q.quotedOrder_durationDays] at hdays
  have hstd : (quotedOrder q.tariffs q.db q.quoted q.newId q.req).IsStandard := by
    rcases q.standard with h | h <;> simp [quotedOrder, OrderTerms.order, Order.IsStandard, h]
  obtain ⟨o, hmem, ho, hdb, hpending, huser, hservice, hdup⟩ | ⟨hnew, o, hans, hdb, ho⟩ :=
    createOrder_ok q.answered
  · obtain rfl : q.order = o := Option.some.inj ho
    refine ⟨hpending, huser, ?_, hdup ▸ hdays, ?_⟩
    · rw [Order.IsStandard, hservice]
      exact hstd
    · rw [hdb]
      exact q.unique.order_of_mem hmem
  · obtain rfl : q.order = o := by simpa using ho
    obtain ⟨ext, url, amb, horder⟩ := hans
    rw [horder]
    refine ⟨rfl, rfl, hstd, hdays, ?_⟩
    rw [← horder, hdb, Db.order, Lib.Table.lookup_append]
    have hid : q.order.id = q.newId := by rw [horder]; rfl
    rw [hid, ← Db.order, hnew, Option.none_or, if_pos rfl]

/-- The user ends no earlier than the quoted days, and the days of `e' - E` at the rate of the two
    tariffs, from the settlement on; up to a day. -/
def KeepsAccess (settled e' : Time) (after : Option Time) : Prop :=
  ∃ e ∈ after, ((settled + days q.order.durationDays : ℤ) : ℚ) +
    ((e' - q.subscriptionEnd : ℤ) : ℚ) * (q.current.dailyPrice / q.target.dailyPrice) -
      (days 1 : ℤ) ≤ (e : ℤ)

/-- A quoted tariff change keeps what was bought after the quote exactly when that is worth no more
    than a day of the new tariff. -/
theorem keeps_access_iff (others : List OtherSettlement)
    (hothers : ∀ s ∈ others, s.IsOther q.order.id) {e' now : Time}
    (he' : (Lib.run (settleOther wi) q.placed others).subscriptionEnd q.req.userId = some e')
    {externalId : Option String} {amount : Option ℚ} {o' : Order} {db' : Db}
    (hpay : markOrderPaid wi (Lib.run (settleOther wi) q.placed others) now q.order.id externalId
      amount = .ok (some o', db'))
    (hpaid : o'.status = .paid) (hheld : o'.metadata.settlementHeld = false) :
    q.KeepsAccess now e' (db'.subscriptionEnd q.req.userId) ↔
      ((e' - q.subscriptionEnd : ℤ) : ℚ) * (q.current.dailyPrice / q.target.dailyPrice) ≤
        (days 1 : ℤ) := by
  obtain ⟨hpending, huser, hstd, hdays, hrow⟩ := q.order_placed
  have hstill := Lib.run_inv_of_forall (settleOther wi)
    (I := fun db : Db => db.order q.order.id = some q.order)
    (Q := OtherSettlement.IsOther q.order.id)
    (fun db e hdb he => settleOther_order wi e hdb he) others q.placed hrow hothers
  obtain ⟨user, hu, hend⟩ := Option.bind_eq_some_iff.mp he'
  rw [← huser] at hu ⊢
  have hlen : (q.order.grant now).length ≠ 0 := mt days_eq_zero_iff.mp hdays.ne'
  rw [markOrderPaid_access wi hstill hpending hstd hu hpay hpaid hheld,
    Lib.Lease.Grant.apply_of_restarts hlen q.isChange]
  simp only [KeepsAccess, Order.grant, Option.mem_some_iff, exists_eq_left']
  constructor
  · intro h
    linarith
  · intro h
    linarith

end ChangeQuote

/-! ### A renewal overwritten by a quoted change -/

/-- A tariff of 90 rubles for 30 days, and one of 480 rubles for 90 days. -/
def basicTariff : Tariff := { id := 1, durationDays := 30, priceRub := 90 }

def familyTariff : Tariff := { id := 2, durationDays := 90, deviceLimit := 5, priceRub := 480 }

/-- A user with 60 days of the first has an open invoice for its renewal. -/
def renewalInvoiced : Db where
  users := [{ id := 1, telegramId := 1, subscriptionEnd := some (days 60)
              currentTariffId := some 1 }]
  orders := [{ id := 1, userId := 1, tariffId := some 1, amountRub := 90, durationDays := 30
               deviceLimit := some 2, externalId := some "renewal"
               metadata := { operation := some "renew", isRenewal := true } }]

/-- The change to the second is quoted at 300 rubles for 90 days. -/
def familyRequest : OrderRequest := { userId := 1, tariffId := some 2 }

def familyOrder : Order where
  id := 2
  userId := 1
  tariffId := some 2
  amountRub := 300
  durationDays := 90
  deviceLimit := some 5
  externalId := some "change"
  paymentUrl := some "https://pay"
  description := some (checkoutDescriptionDefault ++ " ()")
  metadata := { operation := some "change", isTariffChange := true }

/-- The database with the invoice of the change. -/
def changeInvoiced : Db :=
  { renewalInvoiced with orders := renewalInvoiced.orders ++ [familyOrder] }

theorem familyRequest_answered :
    createOrder [basicTariff, familyTariff] renewalInvoiced 0 2 (.invoice "change" "https://pay")
      familyRequest = .ok (some familyOrder, changeInvoiced) := by
  decide +kernel

def familyQuote : ChangeQuote where
  tariffs := [basicTariff, familyTariff]
  db := renewalInvoiced
  quoted := 0
  newId := 2
  gateway := .invoice "change" "https://pay"
  req := familyRequest
  user := { id := 1, telegramId := 1, subscriptionEnd := some (days 60)
            currentTariffId := some 1 }
  subscriptionEnd := days 60
  current := basicTariff
  target := familyTariff
  order := familyOrder
  placed := changeInvoiced
  unique := by simp [UniqueOrders, renewalInvoiced]
  found := rfl
  ends := rfl
  running := by decide
  hasCurrent := rfl
  hasTarget := rfl
  changes := by decide
  lasts := by decide
  standard := .inl rfl
  unpriced := ⟨rfl, rfl⟩
  answered := familyRequest_answered
  isChange := rfl

/-- The renewal is paid before the change. -/
def renewalPaid : List OtherSettlement := [.external (seconds 60) 1 (some "renewal") (some 90)]

theorem renewalPaid_end : (Lib.run (settleOther closedService) familyQuote.placed
    renewalPaid).subscriptionEnd 1 = some (days 90) := by
  decide +kernel

/-- The change is settled a day after its quote. -/
theorem familyOrder_paid : ∃ o' db', markOrderPaid closedService
      (Lib.run (settleOther closedService) familyQuote.placed renewalPaid) (days 1) 2
      (some "change") (some 300) = .ok (some o', db') ∧ o'.status = .paid ∧
    o'.metadata.settlementHeld = false ∧ db'.subscriptionEnd 1 = some (days 91) := by
  have hpaid : ((markOrderPaid closedService
      (Lib.run (settleOther closedService) familyQuote.placed renewalPaid) (days 1) 2
      (some "change") (some 300)).toOption.any fun r => r.1.any (fun o => o.status = .paid ∧
        o.metadata.settlementHeld = false) ∧ r.2.subscriptionEnd 1 = some (days 91)) = true := by
    decide +kernel
  obtain ⟨⟨r, db'⟩, hr, hfacts⟩ := (Option.any_eq_true _ _).mp hpaid
  simp only [Bool.decide_and, Bool.and_eq_true, decide_eq_true_eq] at hfacts
  obtain ⟨o', rfl, hstatus⟩ := (Option.any_eq_true _ _).mp hfacts.1
  simp only [Bool.and_eq_true, decide_eq_true_eq] at hstatus
  exact ⟨o', db', Lib.toOption_eq_some hr, hstatus.1, hstatus.2, hfacts.2⟩

theorem keeps_access_iff_renewed : ∃ o' db', markOrderPaid closedService
      (Lib.run (settleOther closedService) familyQuote.placed renewalPaid) (days 1) 2
      (some "change") (some 300) = .ok (some o', db') ∧
    (familyQuote.KeepsAccess (days 1) (days 90) (db'.subscriptionEnd 1) ↔
      ((days 90 - days 60 : ℤ) : ℚ) * (basicTariff.dailyPrice / familyTariff.dailyPrice) ≤
        (days 1 : ℤ)) := by
  obtain ⟨o', db', hpay, hpaid, hheld, -⟩ := familyOrder_paid
  exact ⟨o', db', hpay, familyQuote.keeps_access_iff closedService renewalPaid
    (by simp [renewalPaid, OtherSettlement.IsOther, familyQuote, familyOrder]) renewalPaid_end hpay
    hpaid hheld⟩

/-- The renewal of 30 days is worth more than 16 days of the new tariff, and leaves none. -/
theorem renewal_overwritten :
    ¬ ∀ (wi : WhiteInternetApi) (q : ChangeQuote) (others : List OtherSettlement),
      (∀ s ∈ others, s.IsOther q.order.id) → ∀ (e' now : Time),
      (Lib.run (settleOther wi) q.placed others).subscriptionEnd q.req.userId = some e' →
      q.subscriptionEnd < e' → ∀ (externalId : Option String) (amount : Option ℚ) (o' : Order)
        (db' : Db), markOrderPaid wi (Lib.run (settleOther wi) q.placed others) now q.order.id
          externalId amount = .ok (some o', db') → o'.status = .paid →
        o'.metadata.settlementHeld = false →
          q.KeepsAccess now e' (db'.subscriptionEnd q.req.userId) := by
  intro h
  obtain ⟨o', db', hpay, hpaid, hheld, hend⟩ := familyOrder_paid
  obtain ⟨e, he, hle⟩ := h closedService familyQuote renewalPaid
    (by simp [renewalPaid, OtherSettlement.IsOther, familyQuote, familyOrder]) (days 90) (days 1)
    renewalPaid_end (by decide) (some "change") (some 300) o' db' hpay hpaid hheld
  rw [show familyQuote.req.userId = 1 from rfl, hend] at he
  obtain rfl := Option.some.inj he
  exact absurd hle (by decide +kernel)

end Just1kBot
