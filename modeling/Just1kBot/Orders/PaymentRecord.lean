import Just1kBot.Orders.GatewayCancel
import Just1kBot.WhiteInternet.Periods

/-! Whether a full payment is recorded.

    A payment is settled in the transaction that records it, and the fulfilment of a White Internet
    order raises where the service refuses. A refusal therefore takes the record of the payment back
    with it, and every delivery of the event ends in the same way for as long as the service
    refuses. -/

namespace Just1kBot

/-! ### What is asked of an event -/

/-- A pending order and the report that its payment succeeded: the full amount, under a payment id
    that is recorded for this order or for none. -/
structure PendingPayment (db : Db) (payload : WebhookPayload) (order : Order) : Prop where
  unique : UniqueOrders db
  row : db.order order.id = some order
  pending : order.status = .pending
  user : (db.user order.userId).isSome
  uncredited : Creditable db.ledger order.id
  amount : 0 < order.amountRub
  event : payload.event = "payment.succeeded"
  found : db.webhookOrder (parseWebhook payload) = some order
  objectId : payload.objectId ≠ ""
  own : ∀ ext ∈ order.externalId, ext = "" ∨ ext = payload.objectId
  single : ∀ o ∈ db.orders, o.id ≠ order.id → o.externalId ≠ some payload.objectId
  full : ∃ q, payload.amountValue = some q ∧ payload.currency = some "RUB" ∧
    (order.amountRub : ℚ) ≤ q

/-- The transaction goes through and leaves the order paid: fulfilled, held, or flagged for a manual
    review. -/
def Recorded (r : Except Err (Option Order × Db)) (id : OrderId) : Prop :=
  ∃ o db', r = .ok (some o, db') ∧ db'.order id = some o ∧ o.status = .paid ∧
    (id ∈ db'.fulfilled ∨ o.metadata.settlementHeld = true ∨
      o.metadata.requiresManualReview = true)

/-- The benefits are withheld, or there is nothing the White Internet service could refuse. -/
def ServiceEnv.Settles (env : ServiceEnv) (db : Db) (now : Time) (order : Order) : Prop :=
  (∃ user ∈ db.user order.userId, Withheld user order) ∨
    (order.serviceType = .whiteInternet → env.Accepts db now order)

/-! ### What settling leaves alone -/

/-- The order still buys the same thing for the same user. -/
structure SameProduct (o o' : Order) : Prop where
  userId : o'.userId = o.userId
  serviceType : o'.serviceType = o.serviceType
  operation : o'.metadata.operation = o.metadata.operation
  deviceLimit : o'.deviceLimit = o.deviceLimit
  trafficBytes : o'.trafficBytes = o.trafficBytes
  durationDays : o'.durationDays = o.durationDays

namespace SameProduct
variable {o o' o'' : Order}

theorem refl (o : Order) : SameProduct o o := ⟨rfl, rfl, rfl, rfl, rfl, rfl⟩

theorem trans (h : SameProduct o o') (h' : SameProduct o' o'') : SameProduct o o'' :=
  ⟨h'.userId.trans h.userId, h'.serviceType.trans h.serviceType, h'.operation.trans h.operation,
    h'.deviceLimit.trans h.deviceLimit, h'.trafficBytes.trans h.trafficBytes,
    h'.durationDays.trans h.durationDays⟩

theorem isDeviceSlot (h : SameProduct o o') : o'.IsDeviceSlot ↔ o.IsDeviceSlot := by
  rw [Order.IsDeviceSlot, Order.IsDeviceSlot, h.operation, h.deviceLimit, h.trafficBytes,
    h.durationDays]

theorem isTrafficPack (h : SameProduct o o') : o'.IsTrafficPack ↔ o.IsTrafficPack := by
  rw [Order.IsTrafficPack, Order.IsTrafficPack, h.operation, h.trafficBytes, h.durationDays]

end SameProduct

/-- The users and the White Internet tables, which fulfilment alone writes. -/
def SameService (db db' : Db) : Prop :=
  db'.users = db.users ∧ db'.whiteInternet = db.whiteInternet

theorem SameService.trans {a b c : Db} (h : SameService a b) (h' : SameService b c) :
    SameService a c := ⟨h'.1.trans h.1, h'.2.trans h.2⟩

theorem SameService.user {db db' : Db} (h : SameService db db') (u : UserId) :
    db'.user u = db.user u := by
  rw [Db.user, Db.user, h.1]

/-- The service looks at the same things. -/
theorem SameService.accepts_iff {env : ServiceEnv} {db db' : Db} {now : Time} {o o' : Order}
    (h : SameService db db') (ho : SameProduct o o') :
    env.Accepts db' now o' ↔ env.Accepts db now o := by
  have horigin : ∀ sub, env.newOrigin db' sub = env.newOrigin db sub := fun sub => by
    rw [ServiceEnv.newOrigin, ServiceEnv.newOrigin, ServiceEnv.fleet, ServiceEnv.fleet, h.2]
  rw [ServiceEnv.Accepts, ServiceEnv.Accepts, if_congr ho.isDeviceSlot rfl
    (if_congr ho.isTrafficPack rfl rfl), ho.userId, ho.trafficBytes]
  simp only [ServiceEnv.AcceptsSlot, ServiceEnv.AcceptsPack, ServiceEnv.AcceptsPeriod,
    ServiceEnv.fleet, h.2, horigin]

theorem creditTopup_sameService {db db' : Db} {now : Time} {order : Order}
    (h : creditTopup db now order = .ok db') : SameService db db' := by
  rw [creditTopup] at h
  split_ifs at h
  · obtain ⟨r, hr, rfl⟩ := Lib.map_ok h
    obtain ⟨amount, -, hr⟩ := Lib.bind_ok hr
    obtain ⟨p, -, hr⟩ := Lib.bind_ok hr
    cases hr
    exact ⟨rfl, rfl⟩
  · cases h
    exact ⟨rfl, rfl⟩

theorem grantReferralBonus_sameService {db db' : Db} {now : Time} {u : UserId}
    {payment : Option PaymentId} {order : Option OrderId} {amount : ℚ}
    {g : ReferralBonusGrantResult}
    (h : db.grantReferralBonusForTopup now u payment order amount = .ok (g, db')) :
    SameService db db' := by
  rw [Db.grantReferralBonusForTopup] at h
  split at h
  · cases h
    exact ⟨rfl, rfl⟩
  · split at h
    · cases h
      exact ⟨rfl, rfl⟩
    · extract_lets tierInfo bonus key at h
      split at h
      · cases h
        exact ⟨rfl, rfl⟩
      · split at h
        · cases h
          exact ⟨rfl, rfl⟩
        · obtain ⟨l, -, h⟩ := Lib.bind_ok h
          cases h
          exact ⟨rfl, rfl⟩

theorem grantBonus_sameService {db db' : Db} {now : Time} {order order' : Order}
    (h : grantBonus db now order = .ok (order', db')) :
    SameService db db' ∧ SameProduct order order' := by
  rw [grantBonus] at h
  split_ifs at h
  · obtain ⟨⟨g, db₁⟩, hg, h⟩ := Lib.bind_ok h
    have hsame := grantReferralBonus_sameService hg
    simp only at h
    split at h
    · cases h
      exact ⟨hsame, .refl order⟩
    · cases h
      exact ⟨hsame.trans ⟨rfl, rfl⟩, ⟨rfl, rfl, rfl, rfl, rfl, rfl⟩⟩
  · cases h
    exact ⟨⟨rfl, rfl⟩, .refl order⟩

/-! ### When settling goes through -/

/-- A call whose answer is required to be positive succeeds when it goes through. -/
theorem requireOk_isOk_iff {α : Type} {x : Except Err (ServiceAnswer × WhiteInternetTables)}
    {what : String} {f : ServiceAnswer × WhiteInternetTables → Except Err α}
    (hf : ∀ r, ∃ a, f r = .ok a) :
    (∃ a, (x >>= fun r => requireOk what r >>= f) = .ok a) ↔ GoesThrough x := by
  rw [Lib.bind_isOk_iff, GoesThrough]
  refine exists_congr fun r => and_congr_right fun _ => ?_
  rw [Lib.bind_isOk_iff, requireOk]
  split_ifs with hok
  · exact iff_of_true ⟨r, rfl, hf r⟩ hok
  · exact iff_of_false (by rintro ⟨_, ⟨⟩, -⟩) hok

variable {env : ServiceEnv} {newId : ℕ} {newUuid : Uuid} {db : Db} {now : Time} {order : Order}
  {user : User}

theorem fulfillWhiteInternet_isOk_iff (huser : db.user order.userId = some user) :
    (∃ r, fulfillWhiteInternet (env.service newId newUuid) db now order user = .ok r) ↔
      env.Accepts db now order := by
  have hid : user.id = order.userId := Lib.Table.key_of_lookup User.id huser
  rw [fulfillWhiteInternet, ServiceEnv.Accepts, hid]
  split_ifs with hslot hpack
  · refine (requireOk_isOk_iff fun r => ⟨_, rfl⟩).trans ?_
    simp only [ServiceEnv.service, huser, Option.map_some]
    exact ServiceEnv.purchaseDeviceSlot_iff huser
  · refine (requireOk_isOk_iff fun r => ⟨_, rfl⟩).trans ?_
    simp only [ServiceEnv.service, huser, Option.map_some]
    exact ServiceEnv.topupQuota_iff huser
  · extract_lets live
    refine (requireOk_isOk_iff fun r => ⟨_, rfl⟩).trans ?_
    simp only [ServiceEnv.service]
    split_ifs with hlive
    · obtain ⟨sub, hsub, -⟩ := (Option.any_eq_true ..).mp hlive
      refine (ServiceEnv.renewSubscription_iff huser hsub).trans ?_
      rw [ServiceEnv.AcceptsPeriod, hsub]
    · refine ServiceEnv.purchaseSubscription_iff huser fun sub hsub => ?_
      have hstatus : ¬ (sub.status = .active ∨ sub.status = .expired ∨ sub.status = .exhausted) :=
        fun h => hlive ((Option.any_eq_true ..).mpr ⟨sub, hsub, decide_eq_true h⟩)
      cases hs : sub.status <;> simp [hs] at hstatus ⊢

theorem fulfillOrder_isOk_iff (huser : db.user order.userId = some user) :
    (∃ r, fulfillOrder (env.service newId newUuid) db now order = .ok r) ↔
      (order.serviceType = .whiteInternet → env.Accepts db now order) := by
  rw [fulfillOrder, huser]
  simp only
  rw [Lib.bind_isOk_iff]
  have hdeliver : (∃ r, deliver (env.service newId newUuid) db now order user = .ok r) ↔
      (order.serviceType = .whiteInternet → env.Accepts db now order) := by
    rw [deliver]
    cases hs : order.serviceType with
    | whiteInternet =>
      rw [imp_iff_right rfl]
      exact fulfillWhiteInternet_isOk_iff huser
    | _ => exact iff_of_true ⟨_, rfl⟩ (by simp)
  rw [← hdeliver]
  exact exists_congr fun r => and_iff_left ⟨_, rfl⟩

/-- Settling goes through unless the service refuses. -/
theorem settleBenefits_isOk_iff (env : ServiceEnv) (newId : ℕ) (newUuid : Uuid) (now : Time)
    (huser : db.user order.userId = some user) (hcredit : Creditable db.ledger order.id)
    (hamount : 0 < order.amountRub) (hstatus : order.status = .paid) :
    (∃ r, settleBenefits (env.service newId newUuid) db now order = .ok r) ↔
      (order.serviceType = .whiteInternet → env.Accepts db now order) := by
  obtain ⟨db₁, h₁⟩ := creditTopup_isOk (db.putOrder (markNotifyPending order)) now
    (markNotifyPending order) hcredit hamount
  obtain ⟨⟨order₂, db₂⟩, h₂⟩ := grantBonus_isOk db₁ now (markNotifyPending order)
  obtain ⟨hservice, hproduct⟩ := grantBonus_sameService h₂
  have hdb : SameService db db₂ :=
    (SameService.trans ⟨rfl, rfl⟩ (creditTopup_sameService h₁)).trans hservice
  have hmark : SameProduct order (markNotifyPending order) := ⟨rfl, rfl, rfl, rfl, rfl, rfl⟩
  have ho : SameProduct order order₂ := hmark.trans hproduct
  have hpaid : order₂.status ≠ .refunded := by
    rw [(grantBonus_effects h₂).2.2.1.2.2.1]
    simp [markNotifyPending, hstatus]
  simp only [settleBenefits, bind, Except.bind, h₁, h₂, if_pos hpaid]
  have huser₂ : db₂.user order₂.userId = some user := by rw [ho.userId, hdb.user, huser]
  rw [fulfillOrder_isOk_iff huser₂, ho.serviceType,
    hdb.accepts_iff ho]

theorem fulfillOrder_fulfilled {wi : WhiteInternetApi} {order' : Order} {db' : Db}
    (huser : db.user order.userId = some user)
    (h : fulfillOrder wi db now order = .ok (order', db')) : order.id ∈ db'.fulfilled := by
  rw [fulfillOrder, huser] at h
  obtain ⟨⟨o, db₁⟩, hdeliver, h⟩ := Lib.bind_ok h
  obtain ⟨-, hsame⟩ := deliver_ok wi hdeliver
  cases h
  simp [hsame.1]

/-- What was settled for a user who is there was fulfilled. -/
theorem settleBenefits_fulfilled {wi : WhiteInternetApi} (order : Order) {order' : Order} {db' : Db}
    (h : settleBenefits wi db now order = .ok (order', db'))
    (huser : db.user order.userId = some user) (hstatus : order.status = .paid) :
    order.id ∈ db'.fulfilled := by
  obtain ⟨db₁, h₁, h⟩ := Lib.bind_ok h
  obtain ⟨⟨order₂, db₂⟩, h₂, h⟩ := Lib.bind_ok h
  obtain ⟨hservice, hproduct⟩ := grantBonus_sameService h₂
  obtain ⟨-, -, hsame, -⟩ := grantBonus_effects h₂
  have hdb : SameService db db₂ :=
    (SameService.trans ⟨rfl, rfl⟩ (creditTopup_sameService h₁)).trans hservice
  have hpaid : order₂.status ≠ .refunded := by
    rw [hsame.2.2.1]
    simp [markNotifyPending, hstatus]
  have huser₂ : db₂.user order₂.userId = some user := by
    rw [hproduct.userId, hdb.user]
    exact huser
  simp only [if_pos hpaid] at h
  have hmem := fulfillOrder_fulfilled huser₂ h
  rwa [hsame.1] at hmem

/-! ### The event -/

variable {payload : WebhookPayload}

/-- The row that is settled. -/
def paymentRow (now : Time) (payload : WebhookPayload) (order : Order) : Order :=
  paidRow now (withExternalId (some payload.objectId) order)

theorem PendingPayment.parsed (h : PendingPayment db payload order) :
    (parseWebhook payload).isPaid = true ∧ ∃ q, (parseWebhook payload).amountRub = some q ∧
      (order.amountRub : ℚ) ≤ q := by
  obtain ⟨q, hvalue, hcurrency, hfull⟩ := h.full
  have hpos : 0 < q := lt_of_lt_of_le (by exact_mod_cast h.amount) hfull
  refine ⟨?_, q, ?_, hfull⟩
  · simp [parseWebhook, h.event, hvalue, hcurrency, Option.filter_some, hpos]
  · simp [parseWebhook, hvalue, hcurrency, Option.filter_some, hpos]

theorem PendingPayment.not_mismatch (h : PendingPayment db payload order) :
    ¬ IdentityMismatch order (parseWebhook payload) := by
  have hrefund : (parseWebhook payload).isRefunded = false := by simp [parseWebhook, h.event]
  rw [IdentityMismatch]
  split
  · exact id
  · rename_i ext hext
    obtain ⟨hstored, hne⟩ := Option.filter_eq_some_iff.mp hext
    rintro (⟨-, -, hother⟩ | ⟨hrefunded, -⟩)
    · rcases h.own ext hstored with hempty | hsame
      · exact of_decide_eq_true hne hempty
      · exact hother hsame
    · exact Bool.false_ne_true (hrefund.symm.trans hrefunded)

/-- The row can be written: its payment id is on no other order. -/
theorem PendingPayment.flush (h : PendingPayment db payload order) :
    db.flushOrder (paymentRow now payload order) =
      .ok (db.putOrder (paymentRow now payload order)) := by
  refine if_neg ?_
  rintro ⟨-, o, ho, hne, heq⟩
  refine h.single o ho hne (heq.trans ?_)
  simp [paymentRow, paidRow, withExternalId, Option.filter_some, h.objectId]

/-- The event reaches the settlement of the order. -/
theorem PendingPayment.process_eq (wi : WhiteInternetApi) (h : PendingPayment db payload order) :
    processWebhookEvent wi db now payload =
      settleFresh wi (db.putOrder (paymentRow now payload order)) now
        (paymentRow now payload order) := by
  obtain ⟨hpaid, q, hamount, hfull⟩ := h.parsed
  have hid : ¬ ((parseWebhook payload).orderId.isNone ∧ (parseWebhook payload).externalId = "") :=
    fun hnone => h.objectId hnone.2
  have hpay : markOrderPaid wi db now order.id (some (parseWebhook payload).externalId)
      (parseWebhook payload).amountRub = settleFresh wi
        (db.putOrder (paymentRow now payload order)) now (paymentRow now payload order) := by
    simp only [markOrderPaid, h.row, h.pending, payOrder, hamount]
    rw [if_neg (by simp), Option.filter_some, if_neg (by simpa using hfull)]
    exact congrArg (· >>= fun db => settleFresh wi db now (paymentRow now payload order)) h.flush
  simp only [processWebhookEvent]
  rw [if_neg hid, h.found]
  simp only
  rw [if_neg h.not_mismatch, if_pos hpaid, processPaid, hpay, settleFresh]
  split
  · rfl
  · cases settleBenefits wi (db.putOrder (paymentRow now payload order)) now
      (paymentRow now payload order) with
    | error e => rfl
    | ok r => rfl

theorem PendingPayment.row_found (h : PendingPayment db payload order) :
    ((db.putOrder (paymentRow now payload order)).order
      (paymentRow now payload order).id).isSome := by
  rw [(OrderFrame.of_put (paymentRow now payload order) rfl rfl :
    OrderFrame order.id db _).order_isSome]
  exact h.row ▸ rfl

/-- A payment whose processing succeeds is recorded. -/
theorem PendingPayment.recorded_of_ok {wi : WhiteInternetApi} {r : Option Order × Db}
    (h : PendingPayment db payload order) (hr : processWebhookEvent wi db now payload = .ok r) :
    Recorded (processWebhookEvent wi db now payload) order.id := by
  obtain ⟨user, huser⟩ := Option.isSome_iff_exists.mp h.user
  have hfound : (db.putOrder (paymentRow now payload order)).user
      (paymentRow now payload order).userId = some user := huser
  rw [h.process_eq, settleFresh] at hr ⊢
  split at hr
  · exact ⟨_, _, rfl, Db.order_putOrder_self h.row_found, rfl, .inr (.inl rfl)⟩
  · obtain ⟨⟨o, db'⟩, hsettle, -⟩ := Lib.map_ok hr
    obtain ⟨-, -, hsame, hrow⟩ := settleBenefits_effects wi h.row_found hsettle
    rw [hsettle]
    have hfulfilled := settleBenefits_fulfilled (paymentRow now payload order) hsettle hfound rfl
    exact ⟨o, db', rfl, hrow, hsame.2.2.1, .inl hfulfilled⟩

/-- The processing succeeds where the benefits are withheld or the service does not refuse. -/
theorem PendingPayment.isOk_iff (h : PendingPayment db payload order) (env : ServiceEnv)
    (newId : ℕ) (newUuid : Uuid) (now : Time) :
    (∃ r, processWebhookEvent (env.service newId newUuid) db now payload = .ok r) ↔
      env.Settles db now order := by
  obtain ⟨user, huser⟩ := Option.isSome_iff_exists.mp h.user
  have hfound : (db.putOrder (paymentRow now payload order)).user
      (paymentRow now payload order).userId = some user := huser
  rw [h.process_eq, ServiceEnv.Settles, huser, settleFresh, hfound, Option.filter_some]
  by_cases hw : Withheld user (paymentRow now payload order)
  · rw [if_pos (decide_eq_true hw)]
    exact iff_of_true ⟨_, rfl⟩ (.inl ⟨user, rfl, hw⟩)
  · have hservice : SameService db (db.putOrder (paymentRow now payload order)) := ⟨rfl, rfl⟩
    have hproduct : SameProduct order (paymentRow now payload order) :=
      ⟨rfl, rfl, rfl, rfl, rfl, rfl⟩
    have hsettle := settleBenefits_isOk_iff env newId newUuid now hfound h.uncredited h.amount rfl
    rw [hservice.accepts_iff hproduct] at hsettle
    rw [if_neg fun hd => hw (of_decide_eq_true hd)]
    constructor
    · rintro ⟨r, hr⟩
      obtain ⟨r', hr', -⟩ := Lib.map_ok hr
      exact .inr (hsettle.mp ⟨r', hr'⟩)
    · rintro (⟨u, hu, hwu⟩ | haccepts)
      · rw [← Option.some.inj hu] at hwu
        exact absurd hwu hw
      · obtain ⟨r, hr⟩ := hsettle.mpr haccepts
        exact ⟨_, by rw [hr]; rfl⟩

/-- A full payment is recorded exactly where its benefits are withheld or the White Internet service
    does not refuse what the order buys. -/
theorem payment_recorded_iff (env : ServiceEnv) (newId : ℕ) (newUuid : Uuid) (db : Db) (now : Time)
    (payload : WebhookPayload) (order : Order) (h : PendingPayment db payload order) :
    Recorded (processWebhookEvent (env.service newId newUuid) db now payload) order.id ↔
      env.Settles db now order := by
  rw [← h.isOk_iff env newId newUuid now]
  constructor
  · rintro ⟨o, db', hok, -⟩
    exact ⟨_, hok⟩
  · rintro ⟨r, hr⟩
    exact h.recorded_of_ok hr

/-- A payment that is refused leaves nothing behind: the transaction is rolled back, and the same
    event finds the same state when it is delivered again. -/
theorem payment_rolled_back (newId : ℕ) (newUuid : Uuid) (h : PendingPayment db payload order)
    (hrefused : ¬ env.Settles db now order) :
    Lib.commit db (processWebhookEvent (env.service newId newUuid) db now payload) = db := by
  cases hr : processWebhookEvent (env.service newId newUuid) db now payload with
  | error e => rfl
  | ok r => exact absurd ((h.isOk_iff env newId newUuid now).mp ⟨r, hr⟩) hrefused

/-- A user whose subscription was disabled. -/
def disabledSubscription : WhiteInternetSubscription :=
  { id := 1, userId := 1, status := .disabled }

/-- A period of the White Internet, ordered before the subscription was disabled. -/
def periodOrder : Order :=
  { id := 1, userId := 1, serviceType := .whiteInternet, amountRub := 200, durationDays := 30
    externalId := some "pay" }

def periodOrdered : Db :=
  { users := [{ id := 1, telegramId := 5 }], orders := [periodOrder]
    whiteInternet := { subscriptions := [disabledSubscription] } }

theorem periodOrder_pending :
    PendingPayment periodOrdered (orderPayment periodOrder) periodOrder where
  unique := List.nodup_singleton _
  row := rfl
  pending := rfl
  user := rfl
  uncredited := by simp [Creditable, periodOrdered]
  amount := by decide
  event := rfl
  found := rfl
  objectId := by decide
  own := by decide
  single := by decide
  full := ⟨200, rfl, rfl, le_rfl⟩

theorem payment_recorded_iff_disabled :
    Recorded (processWebhookEvent (ServiceEnv.service ⟨[], fun _ => false⟩ 2 9) periodOrdered 0
      (orderPayment periodOrder)) 1 ↔
        ServiceEnv.Settles ⟨[], fun _ => false⟩ periodOrdered 0 periodOrder :=
  payment_recorded_iff ⟨[], fun _ => false⟩ 2 9 periodOrdered 0 (orderPayment periodOrder)
    periodOrder periodOrder_pending

/-- The subscription was disabled after its period was ordered: the payment raises and is lost. -/
theorem payment_lost : ¬ ∀ (env : ServiceEnv) (newId : ℕ) (newUuid : Uuid) (db : Db) (now : Time)
    (payload : WebhookPayload) (order : Order), PendingPayment db payload order →
      Recorded (processWebhookEvent (env.service newId newUuid) db now payload) order.id := by
  intro h
  obtain ⟨o, db', hok, -⟩ := h ⟨[], fun _ => false⟩ 2 9 periodOrdered 0 (orderPayment periodOrder)
    periodOrder periodOrder_pending
  have herror : (processWebhookEvent (ServiceEnv.service ⟨[], fun _ => false⟩ 2 9) periodOrdered 0
      (orderPayment periodOrder)).toOption = none := by decide +kernel
  rw [hok] at herror
  cases herror

end Just1kBot
