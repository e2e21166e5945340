import Just1kBot.Orders.GatewayCancel
import Just1kBot.Orders.Placed

/-! The tier of a referral bonus.

    The rate is taken from the number of active referrals less one when this order alone activates
    its purchaser. The correction asks for other qualifying activity by the same condition as the
    count, so what is left is the count of a database in which the order does not exist. -/

namespace Just1kBot

namespace Db

/-- The database without the row of the order. -/
def withoutOrder (db : Db) (o : OrderId) : Db :=
  { db with orders := db.orders.filter fun r => r.id ≠ o }

variable {db : Db} {row : Order}

/-- What the row of an order reads does not matter where the order does not exist. -/
theorem withoutOrder_putOrder (db : Db) (row : Order) :
    (db.putOrder row).withoutOrder row.id = db.withoutOrder row.id := by
  have h : (db.putOrder row).orders.filter (fun r => r.id ≠ row.id) =
      db.orders.filter fun r => r.id ≠ row.id := Lib.Table.filter_ne_put Order.id row db.orders
  simp only [withoutOrder, h]
  rfl

/-- The other activity of a user is the activity without the order. -/
theorem hasOtherQualifyingTopup_iff (db : Db) (u : UserId) (o : OrderId) :
    db.HasOtherQualifyingTopup u (some o) none ↔ (db.withoutOrder o).HasPaidActivity u := by
  refine or_congr ⟨?_, ?_⟩ ⟨?_, ?_⟩
  · rintro ⟨r, hr, hq, hne⟩
    exact ⟨r, List.mem_filter.mpr ⟨hr, by simpa using hne⟩, hq⟩
  · rintro ⟨r, hr, hq⟩
    obtain ⟨hr, hne⟩ := List.mem_filter.mp hr
    exact ⟨r, hr, hq, by simpa using hne⟩
  · rintro ⟨p, hp, hq, -⟩
    exact ⟨p, hp, hq⟩
  · rintro ⟨p, hp, hq⟩
    exact ⟨p, hp, hq, by simp⟩

/-- A user is active through the order, or without it. -/
theorem hasPaidActivity_iff (hu : UniqueOrders db) (hrow : db.order row.id = some row) (u : UserId) :
    db.HasPaidActivity u ↔ QualifyingOrder u row ∨ (db.withoutOrder row.id).HasPaidActivity u := by
  have hmem := Lib.Table.mem_of_lookup Order.id hrow
  constructor
  · rintro (⟨r, hr, hq⟩ | hp)
    · by_cases hid : r.id = row.id
      · have := hu.order_of_mem hr
        rw [hid, hrow] at this
        exact .inl (Option.some.inj this ▸ hq)
      · exact .inr (.inl ⟨r, List.mem_filter.mpr ⟨hr, by simpa using hid⟩, hq⟩)
    · exact .inr (.inr hp)
  · rintro (hq | ⟨r, hr, hq⟩ | hp)
    · exact .inl ⟨row, hmem, hq⟩
    · exact .inl ⟨r, (List.mem_filter.mp hr).1, hq⟩
    · exact .inr hp

/-- An order that activates nobody new is not seen in the count. -/
theorem activeReferrals_of_active (hu : UniqueOrders db) (hrow : db.order row.id = some row)
    (t : TelegramId)
    (h : QualifyingOrder row.userId row → (db.withoutOrder row.id).HasPaidActivity row.userId) :
    db.getUserActiveReferralsCount t = (db.withoutOrder row.id).getUserActiveReferralsCount t := by
  rw [getUserActiveReferralsCount, getUserActiveReferralsCount]
  refine if_congr Iff.rfl rfl (List.countP_congr fun r _ => ?_)
  simp only [decide_eq_true_eq]
  refine and_congr_right fun _ => and_congr_right fun _ => ?_
  rw [hasPaidActivity_iff hu hrow]
  refine ⟨?_, .inr⟩
  rintro (hq | hp)
  · rw [← hq.1]
    exact h (hq.1 ▸ hq)
  · exact hp

/-- An order that activates its user is one more for the referrer. -/
theorem activeReferrals_of_activated (hu : UniqueOrders db) (hrow : db.order row.id = some row)
    {p : User} (hids : (db.users.map User.id).Nodup) (hp : p ∈ db.users) (hid : p.id = row.userId)
    (hdel : p.isDeleted = false) {t : TelegramId} (ht : p.referredBy = some t)
    (hbounds : ¬ (t < 1 ∨ maxInt64 < t)) (hq : QualifyingOrder row.userId row)
    (hno : ¬ (db.withoutOrder row.id).HasPaidActivity row.userId) :
    db.getUserActiveReferralsCount t =
      (db.withoutOrder row.id).getUserActiveReferralsCount t + 1 := by
  rw [getUserActiveReferralsCount, getUserActiveReferralsCount, if_neg hbounds, if_neg hbounds]
  refine Lib.Table.countP_eq_add_one User.id hids hp ?_ ?_ fun r _ hne => ?_
  · simp only [decide_eq_true_eq]
    exact ⟨ht, hdel, (hasPaidActivity_iff hu hrow _).mpr (.inl (hid ▸ hq))⟩
  · simp only [decide_eq_false_iff_not]
    rintro ⟨-, -, hactive⟩
    exact hno (hid ▸ hactive)
  · refine decide_eq_decide.mpr (and_congr_right fun _ => and_congr_right fun _ => ?_)
    rw [hasPaidActivity_iff hu hrow]
    refine ⟨?_, .inr⟩
    rintro (hq' | hactive)
    · exact absurd (hq'.1.symm.trans hid.symm) hne
    · exact hactive

/-- The referrer of a purchase is a user the purchaser was referred by. -/
theorem bonusReferrer_ok {p referrer : User} (h : db.bonusReferrer p = some referrer) :
    p.referredBy = some referrer.telegramId ∧ referrer ∈ db.users := by
  unfold bonusReferrer at h
  split at h
  · cases h
  · rename_i t ht
    split_ifs at h
    split at h
    · cases h
    · rename_i r hfind
      split_ifs at h
      cases h
      have hr := List.find?_some hfind
      simp only [decide_eq_true_eq] at hr
      exact ⟨hr.1 ▸ ht, List.mem_of_find?_eq_some hfind⟩

/-- The count a bonus is rated by is the count without the order it is for. -/
theorem effectiveCount_eq (hu : UniqueOrders db) (hids : (db.users.map User.id).Nodup)
    (hrow : db.order row.id = some row) (hpaid : row.status = .paid)
    (hreal : row.serviceType = .topup ∨ row.paymentMethod ≠ .wallet) {p referrer : User}
    (hp : (db.users.find? fun u => u.id = row.userId ∧ u.isDeleted = false) = some p)
    (href : db.bonusReferrer p = some referrer) :
    db.effectiveCount p referrer none (some row.id) row.amountRub =
      (db.withoutOrder row.id).getUserActiveReferralsCount referrer.telegramId := by
  obtain ⟨hpid, hdel⟩ : p.id = row.userId ∧ p.isDeleted = false := by
    simpa using List.find?_some hp
  have hmem := List.mem_of_find?_eq_some hp
  have hq : QualifyingOrder row.userId row ↔
      (referralActiveMinTopupRub : ℚ) ≤ ((row.amountRub : ℕ) : ℚ) := by
    rw [Nat.cast_le]
    exact ⟨fun h => h.2.2.1, fun h => ⟨rfl, hpaid, h, hreal⟩⟩
  have hfirst_iff : (¬ db.HasOtherQualifyingTopup p.id (some row.id) none ∧
      (referralActiveMinTopupRub : ℚ) ≤ ((row.amountRub : ℕ) : ℚ)) ↔
      ¬ (db.withoutOrder row.id).HasPaidActivity row.userId ∧ QualifyingOrder row.userId row := by
    rw [hasOtherQualifyingTopup_iff, hpid, hq]
  rw [effectiveCount]
  by_cases hfirst : ¬ (db.withoutOrder row.id).HasPaidActivity row.userId ∧
      QualifyingOrder row.userId row
  · rw [if_pos (hfirst_iff.mpr hfirst)]
    obtain ⟨hno, hqual⟩ := hfirst
    by_cases hbounds : referrer.telegramId < 1 ∨ maxInt64 < referrer.telegramId
    · rw [getUserActiveReferralsCount, getUserActiveReferralsCount, if_pos hbounds, if_pos hbounds]
    · rw [activeReferrals_of_activated hu hrow hids hmem hpid hdel (bonusReferrer_ok href).1 hbounds
        hqual hno]
      omega
  · rw [if_neg fun h => hfirst (hfirst_iff.mp h)]
    refine activeReferrals_of_active hu hrow _ fun hqual => ?_
    by_contra hno
    exact hfirst ⟨hno, hqual⟩

end Db

/-! ### The bonus of a settlement -/

section Settle
variable (wi : WhiteInternetApi) {db db' : Db} {now : Time} {row row' : Order}

theorem creditTopup_tables (h : creditTopup db now row = .ok db') :
    db'.users = db.users ∧ db'.orders = db.orders ∧ db'.payments = db.payments ∧
      ∀ e ∈ db'.ledger.entries, e ∈ db.ledger.entries ∨ e.idempotencyKey = .orderCredit row.id := by
  unfold creditTopup at h
  split_ifs at h
  · obtain ⟨r, hc, rfl⟩ := Lib.map_ok h
    obtain ⟨a, -, hc⟩ := Lib.bind_ok hc
    obtain ⟨⟨⟨e, c⟩, l'⟩, hins, hc⟩ := Lib.bind_ok hc
    cases hc
    refine ⟨rfl, rfl, rfl, fun e he => ?_⟩
    rcases Ledger.insertOrGetEntry_ok hins with ⟨rfl, rfl, rfl, -⟩ | ⟨rfl, rfl⟩
    · rcases List.mem_append.mp he with he | he
      · exact .inl he
      · rw [List.mem_singleton.mp he]
        exact .inr rfl
    · exact .inl he
  · cases h
    exact ⟨rfl, rfl, rfl, fun e he => .inl he⟩

/-- The count reads users, orders and payments. -/
theorem activeReferrals_congr (hu : db'.users = db.users) (ho : db'.orders = db.orders)
    (hp : db'.payments = db.payments) (t : TelegramId) :
    db'.getUserActiveReferralsCount t = db.getUserActiveReferralsCount t := by
  obtain ⟨_, _, _, _, _, _, _⟩ := db
  obtain ⟨_, _, _, _, _, _, _⟩ := db'
  subst hu ho hp
  rfl

/-- The bonus `e` was booked for the order `row` at the rate of a database without it. -/
def RatedWithout (db : Db) (row : Order) (e : AccountLedgerEntry) : Prop :=
  ∃ p ∈ db.users, ∃ referrer ∈ db.users, p.id = row.userId ∧
    p.referredBy = some referrer.telegramId ∧
    e.idempotencyKey = .referralBonus (.order row.id) referrer.id ∧
    e.amount = calculateReferralBonus row.amountRub (getReferralTier
      ((db.withoutOrder row.id).getUserActiveReferralsCount referrer.telegramId)).rate

/-- The new bonus of a settlement call is rated without the order. -/
theorem grantBonus_rated (row : Order) (hu : UniqueOrders db) (hids : (db.users.map User.id).Nodup)
    (hrow : db.order row.id = some row) (hpaid : row.status = .paid)
    (h : grantBonus db now row = .ok (row', db')) :
    ∀ e ∈ db'.ledger.entries, e ∈ db.ledger.entries ∨ RatedWithout db row e := by
  unfold grantBonus at h
  split_ifs at h with hreal
  · obtain ⟨⟨g, db₁⟩, hg, h⟩ := Lib.bind_ok h
    have hledger : db'.ledger = db₁.ledger := by
      simp only at h
      split at h <;> cases h <;> rfl
    rw [hledger]
    intro e he
    rcases Db.grantReferralBonusForTopup_ok hg with rfl | ⟨p, referrer, hpos, hp, href, -, rfl⟩
    · exact .inl he
    · rcases List.mem_append.mp he with he | he
      · exact .inl he
      · obtain ⟨hreferred, hmem⟩ := Db.bonusReferrer_ok href
        have hpid : p.id = row.userId ∧ p.isDeleted = false := by simpa using List.find?_some hp
        rw [List.mem_singleton.mp he]
        refine .inr ⟨p, List.mem_of_find?_eq_some hp, referrer, hmem, hpid.1, hreferred, rfl, ?_⟩
        rw [← Db.effectiveCount_eq hu hids hrow hpaid hreal hp href]
        rfl
  · cases h
    exact fun e he => .inl he

/-- So is that of a whole settlement. -/
theorem settleBenefits_rated (hu : UniqueOrders db) (hids : (db.users.map User.id).Nodup)
    (hrow : (db.order row.id).isSome) (hpaid : row.status = .paid)
    (h : settleBenefits wi db now row = .ok (row', db')) :
    ∀ e ∈ db'.ledger.entries, ∀ op u, e.idempotencyKey = .referralBonus op u →
      e ∈ db.ledger.entries ∨ RatedWithout db row e := by
  obtain ⟨db₁, hcredit, h⟩ := Lib.bind_ok h
  obtain ⟨⟨row₂, db₂⟩, hbonus, h⟩ := Lib.bind_ok h
  obtain ⟨husers, horders, hpayments, hentries⟩ := creditTopup_tables hcredit
  have husers : db₁.users = db.users := husers
  have hpayments : db₁.payments = db.payments := hpayments
  have hledger : db'.ledger = db₂.ledger := by
    simp only at h
    split_ifs at h
    · exact (fulfillOrder_ok wi h).2.1
    · cases h
      rfl
  have hids₁ : (db₁.users.map User.id).Nodup := by
    rw [husers]
    exact hids
  have hu₁ : UniqueOrders db₁ := by
    rw [UniqueOrders, horders]
    exact (congrArg List.Nodup (Lib.Table.map_key_put Order.id _ db.orders)).mpr hu
  have hrow₁ : db₁.order row.id = some (markNotifyPending row) := by
    rw [Db.order, horders]
    have hrow' : (db.order (markNotifyPending row).id).isSome := hrow
    exact Db.order_putOrder_self hrow'
  rw [hledger]
  intro e he op u hkey
  rcases grantBonus_rated (markNotifyPending row) hu₁ hids₁ hrow₁ hpaid hbonus e he with
    he | ⟨p, hp, referrer, href, hpid, hreferred, hop, hamount⟩
  · rcases hentries e he with he | hcreditKey
    · exact .inl he
    · rw [hkey] at hcreditKey
      cases hcreditKey
  · rw [husers] at hp href
    refine .inr ⟨p, hp, referrer, href, hpid, hreferred, hop, hamount.trans ?_⟩
    have hcount : (db₁.withoutOrder row.id).getUserActiveReferralsCount referrer.telegramId =
        (db.withoutOrder row.id).getUserActiveReferralsCount referrer.telegramId := by
      have hrows : (db₁.withoutOrder row.id).orders = (db.withoutOrder row.id).orders := by
        simp only [Db.withoutOrder, horders]
        exact congrArg Db.orders (Db.withoutOrder_putOrder db (markNotifyPending row))
      exact activeReferrals_congr (by exact husers) hrows (by exact hpayments) _
    rw [show (markNotifyPending row).id = row.id from rfl, hcount]
    rfl

/-- The tier of a bonus: whatever bonus `mark_order_paid` books for an order is rated by the number
    of active referrals of the referrer in the database without the order, and where the purchaser
    is active without it that number is the full one, however the row of the order reads. -/
theorem referral_rate_without_order (db db' : Db) (now : Time) (orderId : OrderId)
    (externalId : Option String) (paidAmountRub : Option ℚ) (r : Option Order)
    (hu : UniqueOrders db) (hids : (db.users.map User.id).Nodup)
    (h : markOrderPaid wi db now orderId externalId paidAmountRub = .ok (r, db')) :
    ∀ e ∈ db'.ledger.entries, e ∉ db.ledger.entries → ∀ op u,
      e.idempotencyKey = .referralBonus op u →
      ∃ order, db.order orderId = some order ∧ RatedWithout db order e ∧
        ((db.withoutOrder orderId).HasPaidActivity order.userId →
          ∀ row : Order, row.id = orderId → row.userId = order.userId → ∀ t,
            (db.putOrder row).getUserActiveReferralsCount t =
              (db.withoutOrder orderId).getUserActiveReferralsCount t) := by
  intro e he hnew op u hkey
  -- a repeated order of an active referral
  have hfull : ∀ order, db.order orderId = some order →
      (db.withoutOrder orderId).HasPaidActivity order.userId →
      ∀ row : Order, row.id = orderId → row.userId = order.userId → ∀ t,
        (db.putOrder row).getUserActiveReferralsCount t =
          (db.withoutOrder orderId).getUserActiveReferralsCount t := by
    rintro order horder hactive row rfl huser t
    rw [← Db.withoutOrder_putOrder] at hactive ⊢
    have hrow : (db.putOrder row).order row.id = some row :=
      Db.order_putOrder_self (by rw [horder]; rfl)
    have hu' : UniqueOrders (db.putOrder row) := by
      rw [UniqueOrders]
      exact (congrArg List.Nodup (Lib.Table.map_key_put Order.id row db.orders)).mpr hu
    exact Db.activeReferrals_of_active hu' hrow t fun _ => huser ▸ hactive
  suffices hrated : ∃ order, db.order orderId = some order ∧ RatedWithout db order e by
    obtain ⟨order, horder, hrated⟩ := hrated
    exact ⟨order, horder, hrated, hfull order horder⟩
  unfold markOrderPaid at h
  split at h
  · cases h
    exact absurd he hnew
  rename_i order horder
  obtain rfl : order.id = orderId := Lib.Table.key_of_lookup Order.id horder
  refine ⟨order, horder, ?_⟩
  have hpay : payOrder wi db now order externalId paidAmountRub = .ok (r, db') →
      RatedWithout db order e := fun hpay => by
    unfold payOrder at hpay
    split_ifs at hpay
    · cases hpay
      exact absurd he hnew
    simp only at hpay
    split at hpay
    · obtain ⟨db₁, hflush, hpay⟩ := Lib.bind_ok hpay
      obtain rfl := flushOrder_ok hflush
      cases hpay
      exact absurd he hnew
    · obtain ⟨db₁, hflush, hpay⟩ := Lib.bind_ok hpay
      obtain rfl := flushOrder_ok hflush
      unfold settleFresh at hpay
      split at hpay
      · cases hpay
        exact absurd he hnew
      · obtain ⟨r', hsettle, hr⟩ := Lib.map_ok hpay
        cases hr
        set p := paidRow now (withExternalId externalId order)
        have hu' : UniqueOrders (db.putOrder p) := by
          rw [UniqueOrders]
          exact (congrArg List.Nodup (Lib.Table.map_key_put Order.id p db.orders)).mpr hu
        have hrow : ((db.putOrder p).order p.id).isSome := by
          have hp : (db.order p.id).isSome := Option.isSome_of_eq_some horder
          rw [Db.order_putOrder_self hp]
          rfl
        obtain ⟨q, hq, referrer, href, hqid, hreferred, hop, hamount⟩ :=
          (settleBenefits_rated wi hu' hids hrow rfl hsettle e he op u hkey).resolve_left hnew
        rw [Db.withoutOrder_putOrder] at hamount
        exact ⟨q, hq, referrer, href, hqid, hreferred, hop, hamount⟩
  split at h
  · rename_i hpaid
    split_ifs at h
    · cases h
      exact absurd he hnew
    · obtain ⟨r', hsettle, hr⟩ := Lib.map_ok h
      cases hr
      have hrow : (db.order (releasedRow order).id).isSome := Option.isSome_of_eq_some horder
      exact (settleBenefits_rated wi hu hids hrow hpaid hsettle e he op u hkey).resolve_left hnew
    · cases h
      exact absurd he hnew
  · cases h
    exact absurd he hnew
  · exact hpay h
  · exact hpay h

end Settle

/-! ### The third activation -/

section Instances

/-- Three users referred by user 1, two of them active. -/
def twoActiveDb : Db where
  users := [{ id := 1, telegramId := 1 }, { id := 2, telegramId := 2, referredBy := some 1 },
    { id := 3, telegramId := 3, referredBy := some 1 },
    { id := 4, telegramId := 4, referredBy := some 1 }]
  orders := [{ id := 1, userId := 2, serviceType := .topup, amountRub := 100, status := .paid },
    { id := 2, userId := 3, serviceType := .topup, amountRub := 100, status := .paid },
    { id := 3, userId := 4, serviceType := .topup, amountRub := 200 }]

/-- The bonus of the third activation. -/
def thirdBonus : AccountLedgerEntry where
  userId := 1
  entryType := .adminAdjustment
  amount := 30
  idempotencyKey := .referralBonus (.order 3) 1
  metadata := { sourceType := referralBonusSource, topupOrderId := some 3 }
  shape := by decide
  id := 2
  createdAt := 0

/-- The third active referral is still paid at the rate of two. -/
theorem referral_rate_without_order_third :
    ∃ order, twoActiveDb.order 3 = some order ∧ RatedWithout twoActiveDb order thirdBonus := by
  have hnew : thirdBonus ∉ twoActiveDb.ledger.entries := by decide
  have he : thirdBonus ∈
      (Lib.commit twoActiveDb (markOrderPaid openService twoActiveDb 0 3)).ledger.entries := by
    decide +kernel
  cases hok : markOrderPaid openService twoActiveDb 0 3 with
  | error err =>
    rw [hok] at he
    exact absurd he hnew
  | ok p =>
    rw [hok] at he
    obtain ⟨order, horder, hrated, -⟩ := referral_rate_without_order openService twoActiveDb p.2 0
      3 none none p.1 (by unfold UniqueOrders; decide) (by decide) hok thirdBonus he hnew _ _ rfl
    exact ⟨order, horder, hrated⟩

end Instances

end Just1kBot
