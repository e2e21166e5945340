import Just1kBot.Models
import Just1kBot.WhiteInternet.Subscription
import Just1kBot.Lib.Transition

/-! Delivering and revoking what an order bought: `services/fulfillment_service.py` and the access
    sync of `services/subscription.py`.

    The White Internet service is a parameter: its purchase functions get the whole database and
    change the White Internet tables only (the wallet is never debited from here), and may fail or
    refuse in any way. An order that is delivered is recorded in the history `fulfilled`. -/

namespace Just1kBot

def vpnAccessGraceHours : ℤ := 4

/-- What a purchase function of the White Internet service answers: whether it went through, a
    message, and the row it returns. -/
structure ServiceAnswer where
  ok : Bool
  msg : String
  subId : Option ℕ := none
  deriving DecidableEq, Repr

abbrev ServiceCall := Db → Time → UserId → Except Err (ServiceAnswer × WhiteInternetTables)

/-- The purchase functions of `WhiteInternetService`, called with `debit_balance=False`. -/
structure WhiteInternetApi where
  purchaseSubscription : ServiceCall
  renewSubscription : ServiceCall
  purchaseDeviceSlot : ServiceCall
  topupQuota : ℕ → ServiceCall

/-! ### Access -/

/-- `is_vpn_access_expired`. -/
def isVpnAccessExpired (now : Time) (graceHours : ℤ) : Option Time → Bool
  | none => true
  | some dt => dt + hours graceHours < now

/-- `SubscriptionService.check_vpn_access`. -/
def checkVpnAccess (now : Time) (user : User) : Bool :=
  if user.isDeleted ∨ user.isBanned ∨ user.financialHold ∨ user.subscriptionEnd.isNone then false
  else !isVpnAccessExpired now vpnAccessGraceHours user.subscriptionEnd

/-- `_sync_access_state`: the VLESS subscription follows the access of its user. -/
def Db.syncAccessState (db : Db) (now : Time) (user : User) : Db :=
  let target := checkVpnAccess now user
  match Lib.Table.lookup VlessSubscription.userId user.id db.vless with
  | none => db
  | some sub =>
    if sub.isActive = target then db
    else
      let sub' := { sub with isActive := target, version := orOne sub.version + 1 }
      { db with vless := Lib.Table.put VlessSubscription.userId sub' db.vless }

/-! ### Fulfilment -/

/-- What the metadata keeps of the user's state before a standard order. -/
def previousState (user : User) (m : OrderMeta) : OrderMeta :=
  { m with
    previousSubscriptionEnd := user.subscriptionEnd.or m.previousSubscriptionEnd
    previousTariffId := (user.currentTariffId.filter (· ≠ 0)).or m.previousTariffId
    previousDeviceLimit := some user.deviceLimit }

/-- The access a standard order gives. -/
def grantStandard (now : Time) (order : Order) (user : User) : User :=
  let subscriptionEnd :=
    if order.durationDays = 0 then user.subscriptionEnd
    else if order.metadata.isTariffChange then some (now + days order.durationDays)
    else some ((user.subscriptionEnd.elim now (max · now)) + days order.durationDays)
  { user with
    subscriptionEnd := subscriptionEnd
    deviceLimit := (order.deviceLimit.filter (· ≠ 0)).getD user.deviceLimit
    currentTariffId := (order.tariffId.filter (· ≠ 0)).or user.currentTariffId
    notified3d := false
    notified1d := false
    notified2h := false
    notifiedExpired := false
    notifiedGrace12h := false
    notificationRetryCount := 0
    lastNotificationAttempt := none }

/-- The order adds a device slot, by its operation or by its shape. -/
def Order.IsDeviceSlot (o : Order) : Prop :=
  o.metadata.operation = some "add_device_slot" ∨
    (o.deviceLimit.any (· ≠ 0) = true ∧ o.trafficBytes = 0 ∧ o.durationDays = 0)

/-- The order adds a traffic pack, by its operation or by its shape. -/
def Order.IsTrafficPack (o : Order) : Prop :=
  o.metadata.operation = some "topup" ∨ (0 < o.trafficBytes ∧ o.durationDays = 0)

instance (o : Order) : Decidable o.IsDeviceSlot := by unfold Order.IsDeviceSlot; infer_instance

instance (o : Order) : Decidable o.IsTrafficPack := by unfold Order.IsTrafficPack; infer_instance

/-- A purchase that is refused raises with the refusal's message. -/
def requireOk (what : String) (r : ServiceAnswer × WhiteInternetTables) :
    Except Err (ServiceAnswer × WhiteInternetTables) :=
  if r.1.ok then .ok r else .error (.runtimeError (what ++ ": " ++ r.1.msg))

variable (wi : WhiteInternetApi)

/-- The White Internet branch of `fulfill_order`: what the order buys, by its kind. -/
def fulfillWhiteInternet (db : Db) (now : Time) (order : Order) (user : User) :
    Except Err (Order × Db) :=
  if order.IsDeviceSlot then do
    let r ← wi.purchaseDeviceSlot db now user.id
    let r ← requireOk "White Internet device slot purchase failed" r
    return (order, { db with whiteInternet := r.2 })
  else if order.IsTrafficPack then do
    let packGb := max 1 (order.trafficBytes / 1024 ^ 3)
    let r ← wi.topupQuota packGb db now user.id
    let r ← requireOk "White Internet quota topup failed" r
    return (order, { db with whiteInternet := r.2 })
  else do
    let live := (db.whiteInternet.subscriptionByUserId user.id).any fun s =>
      s.status = .active ∨ s.status = .expired ∨ s.status = .exhausted
    let r ← (if live then wi.renewSubscription else wi.purchaseSubscription) db now user.id
    let r ← requireOk "White Internet subscription fulfillment failed" r
    let order := match r.1.subId with
      | some id => { order with metadata := { order.metadata with subscriptionId := some id } }
      | none => order
    return (order, { db with whiteInternet := r.2 })

/-- What `fulfill_order` delivers to the user it found. -/
def deliver (db : Db) (now : Time) (order : Order) (user : User) : Except Err (Order × Db) :=
  match order.serviceType with
  | .standard | .awg =>
    let order' := { order with metadata := previousState user order.metadata }
    let user' := grantStandard now order user
    .ok (order', (db.putUser user').syncAccessState now user')
  | .whiteInternet => fulfillWhiteInternet wi db now order user
  | .topup => .ok (order, db)

/-- `fulfill_order`. -/
def fulfillOrder (db : Db) (now : Time) (order : Order) : Except Err (Order × Db) :=
  match db.user order.userId with
  | none => .ok (order, db)
  | some user => do
    let (order, db) ← deliver wi db now order user
    return (order, { db.putOrder order with fulfilled := db.fulfilled ++ [order.id] })

/-! ### Revocation -/

/-- The access a refunded standard order leaves. -/
def revokeStandard (now : Time) (order : Order) (user : User) : User :=
  match order.metadata.isTariffChange, order.metadata.previousSubscriptionEnd with
  | true, some prevEnd =>
    { user with
      subscriptionEnd := some prevEnd
      currentTariffId := (order.metadata.previousTariffId.filter (· ≠ 0)).or user.currentTariffId
      deviceLimit := order.metadata.previousDeviceLimit.getD user.deviceLimit }
  | _, _ =>
    match user.subscriptionEnd with
    | none => user
    | some e =>
      if order.durationDays = 0 then user
      else
        let newEnd := e - days order.durationDays
        let cutoff := now - hours (vpnAccessGraceHours + 1)
        { user with subscriptionEnd := some (if newEnd ≤ now then cutoff else newEnd) }

/-- The White Internet branch of `revoke_order`. -/
def revokeWhiteInternet (t : WhiteInternetTables) (order : Order) (user : User) :
    WhiteInternetTables :=
  if order.IsTrafficPack then
    match t.subscriptionByUserId user.id with
    | none => t
    | some sub => t.putSubscription (sub.revokePack order.trafficBytes)
  else if order.IsDeviceSlot then
    match t.subscriptionByUserId user.id with
    | none => t
    | some sub => t.putSubscription sub.revokeSlot
  else t.deactivateUserSubscriptions user.id "order_refunded" order.metadata.subscriptionId

/-- `revoke_order`. -/
def revokeOrder (db : Db) (now : Time) (order : Order) : Db :=
  match db.user order.userId with
  | none => db
  | some user =>
    match order.serviceType with
    | .standard | .awg =>
      let user' := revokeStandard now order user
      (db.putUser user').syncAccessState now user'
    | .whiteInternet =>
      { db with whiteInternet := revokeWhiteInternet db.whiteInternet order user }
    | .topup => db

/-! ### What they leave alone -/

/-- The ledger, the other orders and the history, which fulfilment writes once at its end. -/
def SameBooks (db db' : Db) : Prop :=
  db'.ledger = db.ledger ∧ db'.orders = db.orders ∧ db'.fulfilled = db.fulfilled

/-- The access follows in the VLESS table alone. -/
theorem Db.syncAccessState_eq (db : Db) (now : Time) (user : User) :
    ∃ vless, db.syncAccessState now user = { db with vless := vless } := by
  rw [Db.syncAccessState]
  simp only
  split
  · exact ⟨_, rfl⟩
  · split
    · exact ⟨_, rfl⟩
    · exact ⟨_, rfl⟩

theorem sameBooks_syncAccessState (db : Db) (now : Time) (user : User) :
    SameBooks db (db.syncAccessState now user) := by
  obtain ⟨vless, heq⟩ := db.syncAccessState_eq now user
  rw [heq]
  exact ⟨rfl, rfl, rfl⟩

theorem sameBooks_revokeOrder (db : Db) (now : Time) (order : Order) :
    SameBooks db (revokeOrder db now order) := by
  rw [revokeOrder]
  split
  · exact ⟨rfl, rfl, rfl⟩
  · split
    · exact sameBooks_syncAccessState (db.putUser _) now _
    · exact sameBooks_syncAccessState (db.putUser _) now _
    · exact ⟨rfl, rfl, rfl⟩
    · exact ⟨rfl, rfl, rfl⟩

/-- The order row a fulfilment writes differs from the one it got in metadata only, and neither in
    the hold mark nor in the reason of a cancellation. -/
def SameOrder (o o' : Order) : Prop :=
  o'.id = o.id ∧ o'.userId = o.userId ∧ o'.status = o.status ∧ o'.serviceType = o.serviceType ∧
    o'.metadata.settlementHeld = o.metadata.settlementHeld

theorem SameOrder.refl (o : Order) : SameOrder o o := ⟨rfl, rfl, rfl, rfl, rfl⟩

theorem SameOrder.trans {a b c : Order} (h : SameOrder a b) (h' : SameOrder b c) :
    SameOrder a c :=
  ⟨h'.1.trans h.1, h'.2.1.trans h.2.1, h'.2.2.1.trans h.2.2.1, h'.2.2.2.1.trans h.2.2.2.1,
    h'.2.2.2.2.trans h.2.2.2.2⟩

theorem deliver_ok {db db' : Db} {now : Time} {order order' : Order} {user : User}
    (h : deliver wi db now order user = .ok (order', db')) :
    SameBooks db db' ∧ SameOrder order order' := by
  unfold deliver at h
  split at h
  · cases h
    exact ⟨sameBooks_syncAccessState (db.putUser _) now _, rfl, rfl, rfl, rfl, rfl⟩
  · cases h
    exact ⟨sameBooks_syncAccessState (db.putUser _) now _, rfl, rfl, rfl, rfl, rfl⟩
  · unfold fulfillWhiteInternet at h
    split_ifs at h
    · obtain ⟨r, -, h⟩ := Lib.bind_ok h
      obtain ⟨r', -, h⟩ := Lib.bind_ok h
      cases h
      exact ⟨⟨rfl, rfl, rfl⟩, .refl order⟩
    · obtain ⟨r, -, h⟩ := Lib.bind_ok h
      obtain ⟨r', -, h⟩ := Lib.bind_ok h
      cases h
      exact ⟨⟨rfl, rfl, rfl⟩, .refl order⟩
    · obtain ⟨r, -, h⟩ := Lib.bind_ok h
      obtain ⟨r', -, h⟩ := Lib.bind_ok h
      cases h
      refine ⟨⟨rfl, rfl, rfl⟩, ?_⟩
      split
      · exact ⟨rfl, rfl, rfl, rfl, rfl⟩
      · exact .refl order
  · cases h
    exact ⟨⟨rfl, rfl, rfl⟩, .refl order⟩

/-- A fulfilment books nothing, writes the order row back with new metadata, and enters the order
    into the history at most once. -/
theorem fulfillOrder_ok {db db' : Db} {now : Time} {order order' : Order}
    (h : fulfillOrder wi db now order = .ok (order', db')) :
    SameOrder order order' ∧ db'.ledger = db.ledger ∧
      (db'.orders = db.orders ∧ order' = order ∧ db'.fulfilled = db.fulfilled ∨
        db'.orders = (db.putOrder order').orders ∧ db'.fulfilled = db.fulfilled ++ [order.id]) := by
  unfold fulfillOrder at h
  split at h
  · cases h
    exact ⟨.refl order, rfl, .inl ⟨rfl, rfl, rfl⟩⟩
  · obtain ⟨⟨o₁, db₁⟩, hdel, h⟩ := Lib.bind_ok h
    cases h
    obtain ⟨⟨hl, ho, hf⟩, hsame⟩ := deliver_ok wi hdel
    refine ⟨hsame, hl, .inr ⟨?_, ?_⟩⟩
    · simp only [Db.putOrder, ho]
    · simp only [hf, hsame.1]

end Just1kBot
