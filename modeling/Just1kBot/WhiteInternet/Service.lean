import Just1kBot.WhiteInternet.Servers

/-! The purchases of slots and packs in `services/white_internet_service.py`, as the fulfilment of
    an order calls them: `purchase_device_slot` and `topup_quota` with `debit_balance=False`.

    They check the row, move it off an origin that is not usable, and grant under the lock of the
    row. The texts are those of `bot/texts`. The tariff row they look up is used for the wallet
    order only. -/

namespace Just1kBot

def wlUserNotFound : String := "Пользователь не найден."
def wlAdminOnlyAlert : String := "🔒 Данная операция доступна только администраторам бота."
def wlNoSub : String := "У вас нет подписки «Белый Интернет». Сначала оформите подписку."
def errorAccessDenied : String := "⛔️ Нет доступа"
def wlTrialCannotAddDevice : String :=
  "⚠️ В пробном периоде добавление устройств недоступно. Вы можете перейти на полный тариф."
def wlTrialCannotTopup : String :=
  "⚠️ В пробном периоде докупка дополнительного трафика недоступна. " ++
    "Вы можете перейти на полный тариф в разделе «Белый Интернет»."
def wlSubNotReady : String :=
  "Подписка еще настраивается. Повторите попытку через несколько секунд."
def wlSubExpired : String :=
  "Срок действия вашей подписки истек. Сначала продлите подписку, чтобы докупить трафик."
def wlDeviceLimitMaxReached : String := "Достигнут максимум устройств (3 устройства)."
def wlNoServersAvailable : String :=
  "К сожалению, сейчас нет доступных свободных шлюзов для подключения. " ++
    "Пожалуйста, обратитесь в поддержку или повторите попытку позже."
def wlCapExceeded (gb available : ℕ) : String :=
  s!"Докупка {gb} ГБ превысит максимальный лимит накопления (150 ГБ). " ++
    s!"У вас доступно {available} ГБ."
def wlInvalidTopupPack (gb : ℕ) : String := s!"Недопустимый пакет трафика: {gb} ГБ."
def wlTopupSuccess (gb : ℕ) : String := s!"Пакет +{gb} ГБ успешно добавлен к вашей подписке!"
def wlAddDeviceSuccess (limit : ℕ) : String :=
  s!"Устройство успешно добавлено! Теперь доступно слотов: {limit}."

/-- What the service reads besides the database: the servers and the configured admins. -/
structure ServiceEnv where
  servers : List Server
  isAdmin : TelegramId → Bool

/-- A refusal changes nothing. -/
def refuse (db : Db) (msg : String) : Except Err (ServiceAnswer × WhiteInternetTables) :=
  .ok ({ ok := false, msg := msg }, db.whiteInternet)

theorem refuse_not_ok {db : Db} {msg : String} {r : ServiceAnswer × WhiteInternetTables}
    (h : refuse db msg = .ok r) : ¬ r.1.ok = true := by
  cases h
  exact Bool.false_ne_true

/-- The node a moved client was on, whose client is to be disabled. -/
def Fleet.formerOrigin (f : Fleet) (sub : WhiteInternetSubscription) : Option Server :=
  (sub.originNodeId.bind f.server).filter fun s => s.protocol = xrayProtocol

/-- `cancel_pending_orphan_cleanups_for_client`. -/
def WhiteInternetTables.cancelOrphanCleanups (t : WhiteInternetTables) (server : ServerId)
    (client : Uuid) : WhiteInternetTables :=
  { t with orphanCleanups := t.orphanCleanups.map fun c =>
      if c.serverId = some server ∧ c.clientUuid = client ∧ c.done = false then
        { c with done := true }
      else c }

/-- `enqueue_orphan_cleanup`. -/
def WhiteInternetTables.enqueueOrphanCleanup (t : WhiteInternetTables) (server : ServerId)
    (client : Uuid) (desiredVersion : ℕ) : WhiteInternetTables :=
  { t with orphanCleanups := t.orphanCleanups ++
      [{ serverId := some server, clientUuid := client, desiredVersion := desiredVersion }] }

/-- The atomic operation on a row that stays on its origin, or that moves to another one first. -/
def Fleet.grant (f : Fleet) (sub : WhiteInternetSubscription) (target : Option Server)
    (op : WhiteInternetSubscription → Except Err WhiteInternetSubscription) :
    Except Err (WhiteInternetSubscription × WhiteInternetTables) :=
  match target with
  | none => do
    let sub' ← op sub
    return (sub', f.tables.putSubscription sub')
  | some s => do
    let sub' ← op (sub.migrateTo s.id)
    let t := (f.tables.cancelOrphanCleanups s.id sub.uuid).putSubscription sub'
    return (sub', (f.formerOrigin sub).elim t fun old =>
      t.enqueueOrphanCleanup old.id sub.uuid (sub'.desiredVersion + 1))

namespace ServiceEnv
variable (env : ServiceEnv)

def fleet (db : Db) : Fleet := { servers := env.servers, tables := db.whiteInternet }

/-- `new_origin_server`: no server (`some none`) for a row that stays, and nothing where none can
    be allocated. -/
def newOrigin (db : Db) (sub : WhiteInternetSubscription) : Option (Option Server) :=
  if (env.fleet db).NeedsMigration sub then (env.fleet db).allocateOriginServer.map some
  else some none

/-- `purchase_device_slot`. -/
def purchaseDeviceSlot (actor : Option TelegramId) : ServiceCall := fun db now userId =>
  match db.user userId with
  | none => refuse db wlUserNotFound
  | some user =>
    if ¬ (actor = some user.telegramId ∨ actor.any env.isAdmin = true) then
      refuse db wlAdminOnlyAlert
    else
      match db.whiteInternet.subscriptionByUserId userId with
      | none => refuse db wlNoSub
      | some sub =>
        if sub.userId ≠ user.id then refuse db errorAccessDenied
        else if sub.isTrial then refuse db wlTrialCannotAddDevice
        else if sub.status = .pending ∨ sub.status = .disabled then refuse db wlSubNotReady
        else if sub.Ended now then refuse db wlSubExpired
        else if whiteInternetMaxDeviceLimit ≤ sub.effectiveDeviceLimit then
          refuse db wlDeviceLimitMaxReached
        else if ¬ sub.addSlot.WithinCap then
          refuse db (wlCapExceeded (whiteInternetExtraDeviceTrafficBytes / gib)
            (sub.availableQuota / gib))
        else
          match env.newOrigin db sub with
          | none => refuse db wlNoServersAvailable
          | some target => do
            let r ← (env.fleet db).grant sub target (·.addDeviceSlot now)
            return ({ ok := true, msg := wlAddDeviceSuccess r.1.deviceLimit, subId := r.1.id }, r.2)

/-- `topup_quota`. -/
def topupQuota (actor : Option TelegramId) (packGb : ℕ) : ServiceCall := fun db now userId =>
  if packGb ∉ whiteInternetTopupPacks.map Prod.fst then refuse db (wlInvalidTopupPack packGb)
  else
    match db.user userId with
    | none => refuse db wlUserNotFound
    | some user =>
      if ¬ (actor = some user.telegramId ∨ actor.any env.isAdmin = true) then
        refuse db wlAdminOnlyAlert
      else
        match db.whiteInternet.subscriptionByUserId userId with
        | none => refuse db wlNoSub
        | some sub =>
          if sub.userId ≠ user.id then refuse db errorAccessDenied
          else if sub.isTrial then refuse db wlTrialCannotTopup
          else if sub.status = .pending ∨ sub.status = .disabled then refuse db wlSubNotReady
          else if sub.Ended now then refuse db wlSubExpired
          else
            match env.newOrigin db sub with
            | none => refuse db wlNoServersAvailable
            | some target =>
              if ¬ (sub.addExtra (packGb * gib)).WithinCap then
                refuse db (wlCapExceeded packGb (sub.availableQuota / gib))
              else do
                let r ← (env.fleet db).grant sub target (·.topupQuota packGb now)
                return ({ ok := true, msg := wlTopupSuccess packGb }, r.2)

/-- The service with these two purchases, called for the owner as the fulfilment does; the renewal
    and the purchase of a period are those of `wi`. -/
def api (wi : WhiteInternetApi) : WhiteInternetApi :=
  { wi with
    purchaseDeviceSlot := fun db now u =>
      env.purchaseDeviceSlot ((db.user u).map User.telegramId) db now u
    topupQuota := fun packGb db now u =>
      env.topupQuota ((db.user u).map User.telegramId) packGb db now u }

end ServiceEnv

/-! ### What a grant leaves -/

/-- What a grant that goes through did: the operation on the row, which may have moved before, and
    the write-back. -/
theorem Fleet.grant_ok {f : Fleet} {sub : WhiteInternetSubscription} {target : Option Server}
    {op : WhiteInternetSubscription → Except Err WhiteInternetSubscription}
    {r : WhiteInternetSubscription × WhiteInternetTables} (h : f.grant sub target op = .ok r) :
    op (target.elim sub fun s => sub.migrateTo s.id) = .ok r.1 ∧
      r.2.subscriptions = (f.tables.putSubscription r.1).subscriptions := by
  unfold grant at h
  cases target with
  | none =>
    obtain ⟨sub', hop, h⟩ := Lib.bind_ok h
    cases h
    exact ⟨hop, rfl⟩
  | some s =>
    obtain ⟨sub', hop, h⟩ := Lib.bind_ok h
    cases h
    refine ⟨hop, ?_⟩
    dsimp only
    cases f.formerOrigin sub with
    | none => rfl
    | some old => rfl

/-- The row a grant commits is the one the service's operation gives. -/
theorem ServiceEnv.grant_apply {env : ServiceEnv} {db : Db} {sub : WhiteInternetSubscription}
    {target : Option Server} {op : RowOp} (hop : op.inPlace = some op) (hserved : op.Served)
    (hchecked : (op.apply sub).isSome)
    {exec : WhiteInternetSubscription → Except Err WhiteInternetSubscription}
    (hexec : ∀ row, op.apply row = (exec row).toOption)
    (htarget : env.newOrigin db sub = some target)
    {r : WhiteInternetSubscription × WhiteInternetTables}
    (h : (env.fleet db).grant sub target exec = .ok r) :
    (env.fleet db).apply sub op = some r.1 := by
  obtain ⟨hrow, -⟩ := Fleet.grant_ok h
  rw [Fleet.apply, hop, Option.bind_some, if_pos hserved, Fleet.serve]
  unfold newOrigin at htarget
  split_ifs at htarget with hneeds
  · obtain ⟨s, hs, rfl⟩ := Option.map_eq_some_iff.mp htarget
    obtain ⟨checked, hchecked⟩ := Option.isSome_iff_exists.mp hchecked
    rw [if_pos hneeds, hchecked, Option.bind_some, hs, Option.bind_some, hexec]
    exact congrArg Except.toOption hrow
  · cases htarget
    rw [if_neg hneeds, hexec]
    exact congrArg Except.toOption hrow

namespace ServiceEnv
variable {env : ServiceEnv} {actor : Option TelegramId} {db : Db} {now : Time} {u : UserId}
  {r : ServiceAnswer × WhiteInternetTables}

/-- A slot that was bought was granted to the row of the user. -/
theorem purchaseDeviceSlot_ok (h : env.purchaseDeviceSlot actor db now u = .ok r)
    (hok : r.1.ok = true) : ∃ sub target g, db.whiteInternet.subscriptionByUserId u = some sub ∧
      (env.fleet db).grant sub target (·.addDeviceSlot now) = .ok g ∧ r.2 = g.2 := by
  unfold purchaseDeviceSlot at h
  split at h
  · exact absurd hok (refuse_not_ok h)
  · split_ifs at h
    · split at h
      · exact absurd hok (refuse_not_ok h)
      · rename_i sub hsub
        split_ifs at h
        any_goals exact absurd hok (refuse_not_ok h)
        split at h
        · exact absurd hok (refuse_not_ok h)
        · rename_i target _
          obtain ⟨g, hgrant, h⟩ := Lib.bind_ok h
          cases h
          exact ⟨sub, target, g, hsub, hgrant, rfl⟩
    · exact absurd hok (refuse_not_ok h)

/-- A pack that was bought is on offer and was granted to the row of the user. -/
theorem topupQuota_ok {packGb : ℕ} (h : env.topupQuota actor packGb db now u = .ok r)
    (hok : r.1.ok = true) : packGb ∈ whiteInternetTopupPacks.map Prod.fst ∧
      ∃ sub target g, db.whiteInternet.subscriptionByUserId u = some sub ∧
        (env.fleet db).grant sub target (·.topupQuota packGb now) = .ok g ∧ r.2 = g.2 := by
  unfold topupQuota at h
  split_ifs at h with hpack
  · refine ⟨hpack, ?_⟩
    split at h
    · exact absurd hok (refuse_not_ok h)
    · split_ifs at h
      · split at h
        · exact absurd hok (refuse_not_ok h)
        · rename_i sub hsub
          split_ifs at h
          any_goals exact absurd hok (refuse_not_ok h)
          · split at h
            · exact absurd hok (refuse_not_ok h)
            · rename_i target _
              obtain ⟨g, hgrant, h⟩ := Lib.bind_ok h
              cases h
              exact ⟨sub, target, g, hsub, hgrant, rfl⟩
          · split at h
            · exact absurd hok (refuse_not_ok h)
            · exact absurd hok (refuse_not_ok h)
      · exact absurd hok (refuse_not_ok h)
  · exact absurd hok (refuse_not_ok h)

end ServiceEnv

end Just1kBot
