import Just1kBot.Orders.Fulfillment
import Just1kBot.WhiteInternet.Service

/-! What kind of White Internet order a refund takes it for.

    Fulfilment and revocation ask the same two questions about an order, whether it is a device slot
    and whether it is a traffic pack, in opposite order. An order that is both is delivered as one
    and taken back as the other. -/

namespace Just1kBot

/-- What a White Internet order buys. -/
inductive WhiteInternetKind
  | deviceSlot | trafficPack | period
  deriving DecidableEq, Repr

/-- The kind `fulfill_order` takes the order for. -/
def Order.fulfilledKind (o : Order) : WhiteInternetKind :=
  if o.IsDeviceSlot then .deviceSlot else if o.IsTrafficPack then .trafficPack else .period

/-- The kind `revoke_order` takes the order for. -/
def Order.revokedKind (o : Order) : WhiteInternetKind :=
  if o.IsTrafficPack then .trafficPack else if o.IsDeviceSlot then .deviceSlot else .period

/-- An order is taken for the same kind unless it is both a slot and a pack. -/
theorem kinds_agree_iff (o : Order) :
    o.revokedKind = o.fulfilledKind ↔ ¬ (o.IsDeviceSlot ∧ o.IsTrafficPack) := by
  rw [Order.revokedKind, Order.fulfilledKind]
  by_cases hslot : o.IsDeviceSlot
  · by_cases hpack : o.IsTrafficPack
    · simp [hslot, hpack]
    · simp [hslot, hpack]
  · by_cases hpack : o.IsTrafficPack
    · simp [hslot, hpack]
    · simp [hslot, hpack]

theorem requireOk_ok {what : String} {r r' : ServiceAnswer × WhiteInternetTables}
    (h : requireOk what r = .ok r') : r.1.ok = true ∧ r' = r := by
  unfold requireOk at h
  split_ifs at h with hok
  cases h
  exact ⟨hok, rfl⟩

/-- A slot is bought for orders of that kind, a pack of whole GiB for orders of that kind. -/
theorem fulfillWhiteInternet_kind {wi : WhiteInternetApi} {db db' : Db} {now : Time}
    {order order' : Order} {user : User}
    (h : fulfillWhiteInternet wi db now order user = .ok (order', db')) :
    match order.fulfilledKind with
    | .deviceSlot => order' = order ∧ ∃ r, wi.purchaseDeviceSlot db now user.id = .ok r ∧
        r.1.ok = true ∧ db' = { db with whiteInternet := r.2 }
    | .trafficPack => order' = order ∧
        ∃ r, wi.topupQuota (max 1 (order.trafficBytes / gib)) db now user.id = .ok r ∧
        r.1.ok = true ∧ db' = { db with whiteInternet := r.2 }
    | .period => order'.revokedKind = order.revokedKind ∧
        ∃ r, (wi.renewSubscription db now user.id = .ok r ∨
        wi.purchaseSubscription db now user.id = .ok r) ∧
        r.1.ok = true ∧ db' = { db with whiteInternet := r.2 } := by
  unfold fulfillWhiteInternet at h
  rw [Order.fulfilledKind]
  split_ifs at h with hslot hpack
  · rw [if_pos hslot]
    obtain ⟨r, hr, hrequire⟩ := Lib.bind_ok h
    obtain ⟨r', hr', hwrite⟩ := Lib.bind_ok hrequire
    obtain ⟨hok, rfl⟩ := requireOk_ok hr'
    cases hwrite
    exact ⟨rfl, r', hr, hok, rfl⟩
  · rw [if_neg hslot, if_pos hpack]
    obtain ⟨r, hr, hrequire⟩ := Lib.bind_ok h
    obtain ⟨r', hr', hwrite⟩ := Lib.bind_ok hrequire
    obtain ⟨hok, rfl⟩ := requireOk_ok hr'
    cases hwrite
    exact ⟨rfl, r', hr, hok, rfl⟩
  · rw [if_neg hslot, if_neg hpack]
    obtain ⟨r, hr, hrequire⟩ := Lib.bind_ok h
    obtain ⟨r', hr', hwrite⟩ := Lib.bind_ok hrequire
    obtain ⟨hok, rfl⟩ := requireOk_ok hr'
    cases hwrite
    refine ⟨?_, r', ?_, hok, rfl⟩
    · dsimp only
      split
      · rfl
      · rfl
    · split_ifs at hr
      · exact .inl hr
      · exact .inr hr

/-- What `revoke_order` takes back is by the kind. -/
theorem revokeWhiteInternet_kind (t : WhiteInternetTables) (order : Order) (user : User) :
    revokeWhiteInternet t order user = match order.revokedKind with
      | .trafficPack => (t.subscriptionByUserId user.id).elim t fun sub =>
          t.putSubscription (sub.revokePack order.trafficBytes)
      | .deviceSlot => (t.subscriptionByUserId user.id).elim t fun sub =>
          t.putSubscription sub.revokeSlot
      | .period => t.deactivateUserSubscriptions user.id "order_refunded"
          order.metadata.subscriptionId := by
  rw [revokeWhiteInternet, Order.revokedKind]
  split_ifs
  · cases t.subscriptionByUserId user.id <;> rfl
  · cases t.subscriptionByUserId user.id <;> rfl
  · rfl

/-! ### What a grant and its refund leave of the row -/

section Rows
open WhiteInternetSubscription
variable {env : ServiceEnv} {actor : Option TelegramId} {db : Db} {now : Time} {u : UserId}
  {r : ServiceAnswer × WhiteInternetTables}

/-- What a row holds of slots and of extra traffic. -/
def holdings (sub : WhiteInternetSubscription) : ℕ × ℕ := (sub.deviceLimit, sub.extraTrafficBytes)

theorem holdings_of_sameQuota {a b : WhiteInternetSubscription} (h : SameQuota a b) :
    holdings b = holdings a := by
  rw [holdings, holdings, h.deviceLimit, h.extra]

/-- A row keeps its id, its user and its holdings when it moves. -/
theorem moved_spec (sub : WhiteInternetSubscription) (target : Option Server) :
    let moved := target.elim sub fun s => sub.migrateTo s.id
    moved.id = sub.id ∧ moved.userId = sub.userId ∧ holdings moved = holdings sub := by
  cases target with
  | none => exact ⟨rfl, rfl, rfl⟩
  | some s => exact ⟨rfl, rfl, rfl⟩

theorem addExtra_userId (bytes : ℕ) (sub : WhiteInternetSubscription) :
    (sub.addExtra bytes).userId = sub.userId := rfl

theorem holdings_addExtra (bytes : ℕ) (sub : WhiteInternetSubscription) :
    holdings (sub.addExtra bytes) = ((holdings sub).1, (holdings sub).2 + bytes) := rfl

theorem holdings_addSlot (sub : WhiteInternetSubscription) : holdings sub.addSlot =
    (max 1 (holdings sub).1 + 1, (holdings sub).2 + whiteInternetExtraDeviceTrafficBytes) := by
  rw [addSlot, holdings_addExtra]
  rfl

/-- The row found for the user after a grant is the one the grant wrote. -/
theorem granted_found {sub : WhiteInternetSubscription} {target : Option Server}
    {op : WhiteInternetSubscription → Except Err WhiteInternetSubscription}
    {g : WhiteInternetSubscription × WhiteInternetTables}
    (hsub : db.whiteInternet.subscriptionByUserId u = some sub)
    (h : (env.fleet db).grant sub target op = .ok g) (hid : g.1.id = sub.id)
    (huser : g.1.userId = sub.userId) : g.2.subscriptionByUserId u = some g.1 := by
  obtain ⟨-, hput⟩ := Fleet.grant_ok h
  have hfound := WhiteInternetTables.subscriptionByUserId_put hsub hid huser
  rw [WhiteInternetTables.subscriptionByUserId] at hfound ⊢
  rw [hput]
  exact hfound

/-- A slot that was bought is on the row of the user. -/
theorem slot_granted (h : env.purchaseDeviceSlot actor db now u = .ok r) (hok : r.1.ok = true) :
    ∃ sub sub', db.whiteInternet.subscriptionByUserId u = some sub ∧
      r.2.subscriptionByUserId u = some sub' ∧ holdings sub' =
        (max 1 (holdings sub).1 + 1, (holdings sub).2 + whiteInternetExtraDeviceTrafficBytes) := by
  obtain ⟨sub, target, g, hsub, hgrant, hr⟩ := ServiceEnv.purchaseDeviceSlot_ok h hok
  obtain ⟨-, hrow⟩ := addDeviceSlot_ok_iff.mp (Fleet.grant_ok hgrant).1
  obtain ⟨hid, huser, hholds⟩ := moved_spec sub target
  have hsame := hrow ▸ reactivateExhausted_sameQuota (target.elim sub fun s =>
    sub.migrateTo s.id).addSlot
  refine ⟨sub, g.1, hsub, ?_, ?_⟩
  · rw [hr]
    refine granted_found hsub hgrant ?_ ?_
    · rw [hsame.id, addSlot_id, hid]
    · rw [hsame.userId, addSlot, addExtra_userId]
      exact huser
  · rw [holdings_of_sameQuota hsame, holdings_addSlot, hholds]

/-- A pack that was bought is on the row of the user. -/
theorem pack_granted {packGb : ℕ} (h : env.topupQuota actor packGb db now u = .ok r)
    (hok : r.1.ok = true) : packGb ∈ whiteInternetTopupPacks.map Prod.fst ∧
      ∃ sub sub', db.whiteInternet.subscriptionByUserId u = some sub ∧
        r.2.subscriptionByUserId u = some sub' ∧
        holdings sub' = ((holdings sub).1, (holdings sub).2 + packGb * gib) := by
  obtain ⟨hpack, sub, target, g, hsub, hgrant, hr⟩ := ServiceEnv.topupQuota_ok h hok
  obtain ⟨-, hrow⟩ := topupQuota_ok_iff.mp (Fleet.grant_ok hgrant).1
  obtain ⟨hid, huser, hholds⟩ := moved_spec sub target
  have hsame := hrow ▸ (reactivateExhausted_sameQuota ((target.elim sub fun s =>
    sub.migrateTo s.id).addExtra (packGb * gib))).trans (clear90p_sameQuota _)
  refine ⟨hpack, sub, g.1, hsub, ?_, ?_⟩
  · rw [hr]
    refine granted_found hsub hgrant ?_ ?_
    · rw [hsame.id, addExtra_id, hid]
    · rw [hsame.userId, addExtra_userId, huser]
  · rw [holdings_of_sameQuota hsame, holdings_addExtra, hholds]

theorem holdings_revokePack (bytes : ℕ) (sub : WhiteInternetSubscription) :
    holdings (sub.revokePack bytes) = ((holdings sub).1, (holdings sub).2 - bytes) := rfl

theorem holdings_revokeSlot (sub : WhiteInternetSubscription) : holdings sub.revokeSlot =
    (max 1 (orOne (holdings sub).1 - 1),
      (holdings sub).2 - whiteInternetExtraDeviceTrafficBytes) := by
  rw [revokeSlot, holdings_revokePack]
  rfl

theorem revokePack_userId (bytes : ℕ) (sub : WhiteInternetSubscription) :
    (sub.revokePack bytes).userId = sub.userId := rfl

/-- The refund of a slot takes back what the slot gave. -/
theorem slot_restored {limit extra : ℕ} (h : 1 ≤ limit) :
    (max 1 (orOne (max 1 limit + 1) - 1),
      extra + whiteInternetExtraDeviceTrafficBytes - whiteInternetExtraDeviceTrafficBytes) =
      (limit, extra) := by
  rw [Nat.add_sub_cancel, orOne_of_pos (by omega)]
  simp only [Prod.mk.injEq, and_true]
  omega

/-- The refund of a pack takes back the bytes of the order, which are the pack's and what is left
    over its whole GiB. -/
theorem pack_restored_iff {bytes extra : ℕ}
    (h : max 1 (bytes / gib) ∈ whiteInternetTopupPacks.map Prod.fst) :
    extra + max 1 (bytes / gib) * gib - bytes = extra ↔ bytes % gib = 0 ∨ extra = 0 := by
  have hwhole : max 1 (bytes / gib) = bytes / gib := by
    have h1 : max 1 (bytes / gib) ≠ 1 := fun h1 => by
      rw [h1] at h
      exact absurd h (by decide)
    omega
  have hsplit := Nat.div_add_mod' bytes gib
  rw [hwhole]
  omega

end Rows

/-! ### An order and its refund -/

/-- The refund takes the order for what its fulfilment took it for, and where that was a slot or a
    pack, it leaves the user's row with the slots and the extra traffic it had before. -/
structure RevocationAgrees (db db' : Db) (now' : Time) (order order' : Order) : Prop where
  kind : order'.revokedKind = order.fulfilledKind
  restores : order.fulfilledKind ≠ .period →
    ∀ sub ∈ db.whiteInternet.subscriptionByUserId order.userId,
      ∃ sub' ∈ (revokeOrder db' now' order').whiteInternet.subscriptionByUserId order.userId,
        sub'.deviceLimit = sub.deviceLimit ∧ sub'.extraTrafficBytes = sub.extraTrafficBytes

/-- What a fulfilled White Internet order leaves in the database. -/
theorem fulfillOrder_whiteInternet {wi : WhiteInternetApi} {db db' : Db} {now : Time}
    {order order' : Order} {user : User} (huser : db.user order.userId = some user)
    (htype : order.serviceType = .whiteInternet)
    (h : fulfillOrder wi db now order = .ok (order', db')) :
    ∃ db₁, fulfillWhiteInternet wi db now order user = .ok (order', db₁) ∧
      db'.whiteInternet = db₁.whiteInternet ∧ db'.users = db₁.users := by
  unfold fulfillOrder at h
  rw [huser] at h
  obtain ⟨⟨o, db₁⟩, hdeliver, hwrite⟩ := Lib.bind_ok h
  simp only [deliver, htype] at hdeliver
  cases hwrite
  exact ⟨db₁, hdeliver, rfl, rfl⟩

theorem revokeOrder_whiteInternet {db : Db} {now : Time} {order : Order} {user : User}
    (huser : db.user order.userId = some user) (htype : order.serviceType = .whiteInternet) :
    (revokeOrder db now order).whiteInternet =
      revokeWhiteInternet db.whiteInternet order user := by
  simp only [revokeOrder, huser, htype]

section Fulfilled
open WhiteInternetSubscription
variable {env : ServiceEnv} {wi : WhiteInternetApi} {db db' : Db} {now now' : Time}
  {order order' : Order} {user : User}

/-- The row of the user after a slot was delivered and taken back. -/
theorem slot_refunded (huser : db.user order.userId = some user)
    (htype : order.serviceType = .whiteInternet)
    (hlimits : ∀ sub ∈ db.whiteInternet.subscriptions, 1 ≤ sub.deviceLimit)
    (hkind : order.fulfilledKind = .deviceSlot) (hrevoked : order.revokedKind = .deviceSlot)
    (h : fulfillOrder (env.api wi) db now order = .ok (order', db')) :
    ∀ sub ∈ db.whiteInternet.subscriptionByUserId order.userId,
      ∃ sub' ∈ (revokeOrder db' now' order').whiteInternet.subscriptionByUserId order.userId,
        holdings sub' = holdings sub := by
  have hid : user.id = order.userId := Lib.Table.key_of_lookup _ huser
  obtain ⟨db₁, hdel, htables, husers⟩ := fulfillOrder_whiteInternet huser htype h
  have hbought := fulfillWhiteInternet_kind hdel
  rw [hkind] at hbought
  obtain ⟨rfl, r, hr, hok, rfl⟩ := hbought
  obtain ⟨sub, sub', hsub, hsub', hholds⟩ := slot_granted hr hok
  intro row hrow
  rw [← hid, hsub, Option.mem_some_iff] at hrow
  subst hrow
  have huser' : db'.user order'.userId = some user := by
    rw [Db.user, husers]
    exact huser
  rw [revokeOrder_whiteInternet huser' htype, revokeWhiteInternet_kind, hrevoked, htables, ← hid,
    hsub']
  refine ⟨sub'.revokeSlot, ?_, ?_⟩
  · refine WhiteInternetTables.subscriptionByUserId_put hsub' (revokeSlot_id sub') ?_
    rw [revokeSlot, revokePack_userId]
  · rw [holdings_revokeSlot, hholds]
    exact slot_restored (hlimits sub (WhiteInternetTables.mem_of_subscriptionByUserId hsub).1)

/-- The row of the user after a pack was delivered and taken back. -/
theorem pack_refunded (huser : db.user order.userId = some user)
    (htype : order.serviceType = .whiteInternet) (hkind : order.fulfilledKind = .trafficPack)
    (hrevoked : order.revokedKind = .trafficPack)
    (h : fulfillOrder (env.api wi) db now order = .ok (order', db')) :
    max 1 (order.trafficBytes / gib) ∈ whiteInternetTopupPacks.map Prod.fst ∧
      ∃ sub sub', db.whiteInternet.subscriptionByUserId order.userId = some sub ∧
        (revokeOrder db' now' order').whiteInternet.subscriptionByUserId order.userId =
          some sub' ∧
        holdings sub' = ((holdings sub).1, (holdings sub).2 +
          max 1 (order.trafficBytes / gib) * gib - order.trafficBytes) := by
  have hid : user.id = order.userId := Lib.Table.key_of_lookup _ huser
  obtain ⟨db₁, hdel, htables, husers⟩ := fulfillOrder_whiteInternet huser htype h
  have hbought := fulfillWhiteInternet_kind hdel
  rw [hkind] at hbought
  obtain ⟨rfl, r, hr, hok, rfl⟩ := hbought
  obtain ⟨hpack, sub, sub', hsub, hsub', hholds⟩ := pack_granted hr hok
  have huser' : db'.user order'.userId = some user := by
    rw [Db.user, husers]
    exact huser
  rw [revokeOrder_whiteInternet huser' htype, revokeWhiteInternet_kind, hrevoked, htables, ← hid,
    hsub']
  refine ⟨hpack, sub, sub'.revokePack order'.trafficBytes, hsub, ?_, ?_⟩
  · exact WhiteInternetTables.subscriptionByUserId_put hsub' (revokePack_id _ sub')
      (revokePack_userId _ sub')
  · rw [holdings_revokePack, hholds]

end Fulfilled

/-- A fulfilled order and its refund agree exactly when the order is not both a slot and a pack, and
    a pack is of whole GiB, or there is no extra traffic it could take too much of. -/
theorem revocation_agrees_iff (env : ServiceEnv) (wi : WhiteInternetApi) {db db' : Db}
    {now now' : Time} {order order' : Order} {user : User}
    (huser : db.user order.userId = some user) (htype : order.serviceType = .whiteInternet)
    (hlimits : ∀ sub ∈ db.whiteInternet.subscriptions, 1 ≤ sub.deviceLimit)
    (h : fulfillOrder (env.api wi) db now order = .ok (order', db')) :
    RevocationAgrees db db' now' order order' ↔
      ¬ (order.IsDeviceSlot ∧ order.IsTrafficPack) ∧ (order.IsTrafficPack →
        ∀ sub ∈ db.whiteInternet.subscriptionByUserId order.userId,
          order.trafficBytes % gib = 0 ∨ sub.extraTrafficBytes = 0) := by
  obtain ⟨db₁, hdel, -, -⟩ := fulfillOrder_whiteInternet huser htype h
  have hbought := fulfillWhiteInternet_kind hdel
  by_cases hslot : order.IsDeviceSlot
  · have hkind : order.fulfilledKind = .deviceSlot := if_pos hslot
    rw [hkind] at hbought
    obtain ⟨rfl, -⟩ := hbought
    by_cases hpack : order'.IsTrafficPack
    · exact iff_of_false (fun ha => (kinds_agree_iff order').mp ha.kind ⟨hslot, hpack⟩)
        fun hn => hn.1 ⟨hslot, hpack⟩
    · have hagree := (kinds_agree_iff order').mpr fun hboth => hpack hboth.2
      refine iff_of_true ⟨hagree, fun _ sub hsub => ?_⟩
        ⟨fun hboth => hpack hboth.2, fun hp => absurd hp hpack⟩
      obtain ⟨sub', hsub', hholds⟩ := slot_refunded huser htype hlimits hkind
        (hagree.trans hkind) h sub hsub
      exact ⟨sub', hsub', Prod.mk.inj hholds⟩
  · by_cases hpack : order.IsTrafficPack
    · have hkind : order.fulfilledKind = .trafficPack := (if_neg hslot).trans (if_pos hpack)
      have hrevoked : order.revokedKind = .trafficPack := if_pos hpack
      obtain ⟨hwhole, sub, sub', hsub, hsub', hholds⟩ :=
        @pack_refunded env wi db db' now now' order order' user huser htype hkind hrevoked h
      rw [hkind] at hbought
      obtain ⟨rfl, -⟩ := hbought
      obtain ⟨hlimit, hextra⟩ := Prod.mk.inj hholds
      have hrestored := @pack_restored_iff _ sub.extraTrafficBytes hwhole
      constructor
      · refine fun ha => ⟨fun hboth => hslot hboth.1, fun _ row hrow => ?_⟩
        obtain ⟨found, hfound, -, hsame⟩ := ha.restores (by rw [hkind]; simp) row hrow
        rw [hsub', Option.mem_some_iff] at hfound
        rw [hsub, Option.mem_some_iff] at hrow
        subst hfound hrow
        exact hrestored.mp (hextra.symm.trans hsame)
      · rintro ⟨-, hfits⟩
        refine ⟨hrevoked.trans hkind.symm, fun _ row hrow => ⟨sub', hsub', ?_⟩⟩
        have hfits := hfits hpack row hrow
        rw [hsub, Option.mem_some_iff] at hrow
        subst hrow
        exact ⟨hlimit, hextra.trans (hrestored.mpr hfits)⟩
    · have hkind : order.fulfilledKind = .period := (if_neg hslot).trans (if_neg hpack)
      rw [hkind] at hbought
      refine iff_of_true ⟨?_, fun hn => absurd hkind hn⟩
        ⟨fun hboth => hslot hboth.1, fun hp => absurd hp hpack⟩
      rw [hbought.1]
      exact (kinds_agree_iff order).mpr fun hboth => hslot hboth.1

/-! ### A slot bought from the wallet -/

/-- A service that sells no periods. -/
def noPeriods : WhiteInternetApi where
  purchaseSubscription db _ _ := refuse db wlNoServersAvailable
  renewSubscription db _ _ := refuse db wlNoServersAvailable
  purchaseDeviceSlot db _ _ := refuse db wlNoServersAvailable
  topupQuota _ db _ _ := refuse db wlNoServersAvailable

def slotEnv : ServiceEnv where
  servers := [{ id := 1, apiUrl := "https://origin", apiKey := "key", protocol := xrayProtocol
                capabilities := [xrayOriginCapability], relays := [some "de"] }]
  isAdmin _ := false

/-- A user with an active subscription for one device. -/
def slotDb : Db where
  users := [{ id := 1, telegramId := 1 }]
  whiteInternet :=
    { subscriptions := [{ id := 1, userId := 1, originNodeId := some 1, status := .active
                          expiresAt := days 30, provisioningStatus := .active }] }

/-- An order as `purchase_device_slot` builds it: a slot with its traffic. -/
def slotOrder : Order :=
  { id := 1, userId := 1, serviceType := .whiteInternet, amountRub := 200, paymentMethod := .wallet
    trafficBytes := whiteInternetExtraDeviceTrafficBytes, deviceLimit := some 2
    metadata := { operation := some "add_device_slot" } }

theorem slotOrder_fulfilled :
    ∃ db', fulfillOrder (slotEnv.api noPeriods) slotDb 0 slotOrder = .ok (slotOrder, db') := by
  have hok : (fulfillOrder (slotEnv.api noPeriods) slotDb 0 slotOrder).toOption.isSome := by
    decide +kernel
  obtain ⟨⟨order', db'⟩, h⟩ := Option.isSome_iff_exists.mp hok
  have h := Lib.toOption_eq_some h
  have huser : slotDb.user slotOrder.userId = some { id := 1, telegramId := 1 } := rfl
  obtain ⟨db₁, hdel, -, -⟩ := fulfillOrder_whiteInternet huser rfl h
  have hkind : slotOrder.fulfilledKind = .deviceSlot := by decide
  have hbought := fulfillWhiteInternet_kind hdel
  rw [hkind] at hbought
  exact ⟨db', hbought.1 ▸ h⟩

theorem revocation_agrees_iff_slot : ∃ db', RevocationAgrees slotDb db' 0 slotOrder slotOrder ↔
    ¬ (slotOrder.IsDeviceSlot ∧ slotOrder.IsTrafficPack) ∧ (slotOrder.IsTrafficPack →
      ∀ sub ∈ slotDb.whiteInternet.subscriptionByUserId 1,
        slotOrder.trafficBytes % gib = 0 ∨ sub.extraTrafficBytes = 0) := by
  obtain ⟨db', h⟩ := slotOrder_fulfilled
  exact ⟨db', revocation_agrees_iff slotEnv noPeriods rfl rfl (by decide) h⟩

/-- The slot is delivered, and its refund takes the order for a traffic pack. -/
theorem slot_refunded_as_pack :
    ∃ db', fulfillOrder (slotEnv.api noPeriods) slotDb 0 slotOrder = .ok (slotOrder, db') ∧
      ¬ RevocationAgrees slotDb db' 0 slotOrder slotOrder := by
  obtain ⟨db', h⟩ := slotOrder_fulfilled
  exact ⟨db', h, fun ha => absurd ha.kind (by decide)⟩

end Just1kBot
