import Just1kBot.WhiteInternet.Service

/-! The periods of `services/white_internet_service.py`, as the fulfilment of an order calls them:
    `purchase_subscription`, `convert_trial_to_paid` and `renew_subscription` with
    `debit_balance=False`.

    Each of them looks at the row of the user by the time it is called and answers with a refusal
    where it may not go on. A purchase and a conversion commit before they sync the node; that sync
    is an operation of its own. `Accepts` says in terms of the row and the servers when the service
    goes through with what an order buys. -/

namespace Just1kBot

def wlSubNotFound : String := "Подписка «Белый Интернет» не найдена."
def wlAlreadyActive : String :=
  "У вас уже есть активная подписка «Белый Интернет». " ++
    "Вы можете продлить ее или докупить трафик."
def wlSubDisabled : String := "Подписка отключена администратором. Обратитесь в поддержку."
def wlDeactivationPending : String :=
  "Ожидается завершение деактивации предыдущей подписки на узле."
def wlRenewalHorizonExceeded : String :=
  "Подписка уже продлена на максимальный срок (до 2 месяцев вперед)."
def wlBuySuccess : String := "Подписка успешно оформлена!"
def wlRenewSuccess : String := "Подписка успешно продлена на 30 дней!"

/-- `tier_base_bytes`. -/
def WhiteInternetSubscription.tierBase (sub : WhiteInternetSubscription) : ℕ :=
  max 1 (orOne sub.deviceLimit) * whiteInternetBaseTrafficBytes

/-- A renewal would end beyond the horizon. -/
def WhiteInternetSubscription.BeyondHorizon (now : Time) (sub : WhiteInternetSubscription) : Prop :=
  now + days whiteInternetMaxExpiryDays <
    (if now < sub.expiresAt then sub.expiresAt else now) + days whiteInternetBaseDurationDays

instance (now : Time) : DecidablePred (WhiteInternetSubscription.BeyondHorizon now) := fun s => by
  unfold WhiteInternetSubscription.BeyondHorizon; infer_instance

/-- The row of a converted trial, and the tables with it: a move cancels the cleanups of the new
    origin and leaves one on the former. -/
def Fleet.convert (f : Fleet) (sub : WhiteInternetSubscription) (target : Option Server)
    (now : Time) : WhiteInternetSubscription × WhiteInternetTables :=
  let sub' := sub.convertTrial whiteInternetBaseDurationDays (target.map Server.id) now
  match target with
  | none => (sub', f.tables.putSubscription sub')
  | some s =>
    let t := (f.tables.cancelOrphanCleanups s.id sub.uuid).putSubscription sub'
    (sub', ((f.formerOrigin sub).filter (·.id ≠ s.id)).elim t fun old =>
      t.enqueueOrphanCleanup old.id sub.uuid sub'.desiredVersion)

namespace ServiceEnv
variable (env : ServiceEnv)

/-- `convert_trial_to_paid`. -/
def convertTrialToPaid : ServiceCall := fun db now userId =>
  match db.user userId with
  | none => refuse db wlUserNotFound
  | some _ =>
    match db.whiteInternet.subscriptionByUserId userId with
    | none => refuse db wlSubNotFound
    | some sub =>
      if ¬ sub.isTrial then refuse db wlAlreadyActive
      else if sub.status = .disabled then refuse db wlSubDisabled
      else if sub.DeactivationPending then refuse db wlDeactivationPending
      else
        match env.newOrigin db sub with
        | none => refuse db wlNoServersAvailable
        | some target =>
          let r := (env.fleet db).convert sub target now
          .ok ({ ok := true, msg := wlBuySuccess, subId := r.1.id }, r.2)

/-- `renew_subscription`. -/
def renewSubscription : ServiceCall := fun db now userId =>
  match db.user userId with
  | none => refuse db wlUserNotFound
  | some _ =>
    match db.whiteInternet.subscriptionByUserId userId with
    | none => refuse db wlSubNotFound
    | some sub =>
      if sub.isTrial then env.convertTrialToPaid db now userId
      else if sub.status = .disabled then refuse db wlSubDisabled
      else if sub.status = .pending then refuse db wlSubNotReady
      else if sub.DeactivationPending then refuse db wlDeactivationPending
      else
        match env.newOrigin db sub with
        | none => refuse db wlNoServersAvailable
        | some target =>
          if sub.BeyondHorizon now then refuse db wlRenewalHorizonExceeded
          else do
            let r ← (env.fleet db).grant sub target (·.renew whiteInternetBaseDurationDays
              (some sub.tierBase) whiteInternetMaxExpiryDays now)
            return ({ ok := true, msg := wlRenewSuccess, subId := r.1.id }, r.2)

/-- `purchase_subscription`; a new row gets the id and the UUID that are given. -/
def purchaseSubscription (newId : ℕ) (newUuid : Uuid) : ServiceCall := fun db now userId =>
  match db.user userId with
  | none => refuse db wlUserNotFound
  | some _ =>
    match db.whiteInternet.subscriptionByUserId userId with
    | some existing =>
      if existing.isTrial then env.convertTrialToPaid db now userId
      else if existing.status = .disabled then refuse db wlSubDisabled
      else if existing.DeactivationPending then refuse db wlDeactivationPending
      else if (existing.status = .pending ∨ existing.status = .active ∨
          existing.status = .exhausted) ∧ now < existing.expiresAt then refuse db wlAlreadyActive
      else env.renewSubscription db now userId
    | none =>
      match (env.fleet db).allocateOriginServer with
      | none => refuse db wlNoServersAvailable
      | some origin =>
        let sub := WhiteInternetSubscription.fresh newId userId origin.id newUuid false now
        .ok ({ ok := true, msg := wlBuySuccess, subId := newId },
          { db.whiteInternet.cancelOrphanCleanups origin.id newUuid with
            subscriptions := db.whiteInternet.subscriptions ++ [sub] })

/-- The service as the fulfilment calls it, for the owner of the order. -/
def service (newId : ℕ) (newUuid : Uuid) : WhiteInternetApi where
  purchaseSubscription := env.purchaseSubscription newId newUuid
  renewSubscription := env.renewSubscription
  purchaseDeviceSlot := fun db now u =>
    env.purchaseDeviceSlot ((db.user u).map User.telegramId) db now u
  topupQuota := fun packGb db now u =>
    env.topupQuota ((db.user u).map User.telegramId) packGb db now u

end ServiceEnv

/-! ### What the service accepts -/

/-- The conditions under which a period is added to the row, its origin apart. -/
structure WhiteInternetSubscription.PeriodAllowed (now : Time)
    (sub : WhiteInternetSubscription) : Prop where
  enabled : sub.status ≠ .disabled
  settled : ¬ sub.DeactivationPending
  paid : sub.isTrial = true ∨
    sub.status ≠ .pending ∧ sub.expiresAt ≤ now + days (whiteInternetMaxExpiryDays -
      whiteInternetBaseDurationDays)

namespace ServiceEnv
variable (env : ServiceEnv)

def AcceptsSlot (db : Db) (now : Time) (u : UserId) : Prop :=
  ∃ sub ∈ db.whiteInternet.subscriptionByUserId u,
    sub.SlotAllowed now ∧ (env.newOrigin db sub).isSome

def AcceptsPack (packGb : ℕ) (db : Db) (now : Time) (u : UserId) : Prop :=
  packGb ∈ whiteInternetTopupPacks.map Prod.fst ∧
    ∃ sub ∈ db.whiteInternet.subscriptionByUserId u,
      sub.PackAllowed packGb now ∧ (env.newOrigin db sub).isSome

def AcceptsPeriod (db : Db) (now : Time) (u : UserId) : Prop :=
  match db.whiteInternet.subscriptionByUserId u with
  | none => (env.fleet db).allocateOriginServer.isSome
  | some sub => sub.PeriodAllowed now ∧ (env.newOrigin db sub).isSome

/-- The service goes through with what the order buys, in the state it finds. -/
def Accepts (db : Db) (now : Time) (order : Order) : Prop :=
  if order.IsDeviceSlot then env.AcceptsSlot db now order.userId
  else if order.IsTrafficPack then
    env.AcceptsPack (max 1 (order.trafficBytes / 1024 ^ 3)) db now order.userId
  else env.AcceptsPeriod db now order.userId

end ServiceEnv

/-- A call goes through and answers that it did. -/
def GoesThrough (r : Except Err (ServiceAnswer × WhiteInternetTables)) : Prop :=
  ∃ a, r = .ok a ∧ a.1.ok = true

theorem not_goesThrough_refuse (db : Db) (msg : String) : ¬ GoesThrough (refuse db msg) := by
  rintro ⟨a, ha, hok⟩
  exact refuse_not_ok ha hok

theorem refused_iff {P : Prop} (db : Db) (msg : String) (h : ¬ P) :
    GoesThrough (refuse db msg) ↔ P := iff_of_false (not_goesThrough_refuse db msg) h

theorem goesThrough_bind {α : Type} {x : Except Err α} {f : α → ServiceAnswer × WhiteInternetTables}
    (hx : ∃ r, x = .ok r) (hf : ∀ r, (f r).1.ok = true) :
    GoesThrough (x >>= fun r => .ok (f r)) := by
  obtain ⟨r, rfl⟩ := hx
  exact ⟨f r, rfl, hf r⟩

namespace Fleet

/-- A grant goes through where its operation does, on the row that may have moved before. -/
theorem grant_isOk_iff {f : Fleet} {sub : WhiteInternetSubscription} {target : Option Server}
    {op : WhiteInternetSubscription → Except Err WhiteInternetSubscription} :
    (∃ r, f.grant sub target op = .ok r) ↔
      ∃ sub', op (target.elim sub fun s => sub.migrateTo s.id) = .ok sub' := by
  constructor
  · rintro ⟨r, h⟩
    exact ⟨r.1, (grant_ok h).1⟩
  · rintro ⟨sub', h⟩
    cases target with
    | none =>
      simp only [Option.elim_none] at h
      simp only [grant, h]
      exact ⟨_, rfl⟩
    | some s =>
      simp only [Option.elim_some] at h
      simp only [grant, h]
      exact ⟨_, rfl⟩

end Fleet

namespace WhiteInternetSubscription
variable {sub : WhiteInternetSubscription} {now : Time}

/-- A move before the operation changes nothing the conditions of a slot look at. -/
theorem slotAllowed_migrate (target : Option Server) (h : sub.SlotAllowed now) :
    (target.elim sub fun s => sub.migrateTo s.id).SlotAllowed now := by
  cases target with
  | none => exact h
  | some s => exact ⟨h.paid, h.live, h.limit, h.cap⟩

theorem packAllowed_migrate {packGb : ℕ} (target : Option Server) (h : sub.PackAllowed packGb now) :
    (target.elim sub fun s => sub.migrateTo s.id).PackAllowed packGb now := by
  cases target with
  | none => exact h
  | some s => exact ⟨h.paid, h.live, h.cap⟩

/-- A renewal goes beyond the horizon when the row still runs for longer than the rest of it. -/
theorem beyondHorizon_iff : sub.BeyondHorizon now ↔
    now + days (whiteInternetMaxExpiryDays - whiteInternetBaseDurationDays) < sub.expiresAt := by
  have hsplit : days whiteInternetMaxExpiryDays =
      days (whiteInternetMaxExpiryDays - whiteInternetBaseDurationDays) +
        days whiteInternetBaseDurationDays := by decide
  have hrest : 0 ≤ days (whiteInternetMaxExpiryDays - whiteInternetBaseDurationDays) := by decide
  rw [BeyondHorizon, hsplit, ← add_assoc, add_lt_add_iff_right]
  split_ifs with hlive
  · rfl
  · refine iff_of_false (not_lt.mpr (le_add_of_nonneg_right hrest)) fun h => hlive ?_
    exact (le_add_of_nonneg_right hrest).trans_lt h

/-- The renewal of a row that is neither disabled nor pending fails at the horizon only, and a move
    before it changes nothing. -/
theorem renew_isOk (target : Option Server) (baseBytes : ℕ) (hstatus : sub.status ≠ .disabled)
    (hready : sub.status ≠ .pending) (hhorizon : ¬ sub.BeyondHorizon now) :
    ∃ sub', (target.elim sub fun s => sub.migrateTo s.id).renew whiteInternetBaseDurationDays
      (some baseBytes) whiteInternetMaxExpiryDays now = .ok sub' := by
  have hrenew : ∀ row : WhiteInternetSubscription, row.status = sub.status →
      row.expiresAt = sub.expiresAt → ∃ sub', row.renew whiteInternetBaseDurationDays
        (some baseBytes) whiteInternetMaxExpiryDays now = .ok sub' := by
    intro row hs he
    rw [BeyondHorizon, ← he] at hhorizon
    rw [renew, if_neg (by rw [hs]; exact not_or.mpr ⟨hstatus, hready⟩)]
    extract_lets baseTime newExpiresAt
    rw [if_neg hhorizon]
    exact ⟨_, rfl⟩
  cases target with
  | none => exact hrenew sub rfl rfl
  | some s => exact hrenew (sub.migrateTo s.id) rfl rfl

end WhiteInternetSubscription

namespace ServiceEnv
variable {env : ServiceEnv} {db : Db} {now : Time} {u : UserId} {user : User}

theorem acceptsSlot_iff {sub : WhiteInternetSubscription}
    (h : db.whiteInternet.subscriptionByUserId u = some sub) :
    env.AcceptsSlot db now u ↔ sub.SlotAllowed now ∧ (env.newOrigin db sub).isSome := by
  rw [AcceptsSlot, h]
  simp

theorem acceptsPack_iff {packGb : ℕ} {sub : WhiteInternetSubscription}
    (h : db.whiteInternet.subscriptionByUserId u = some sub) :
    env.AcceptsPack packGb db now u ↔ packGb ∈ whiteInternetTopupPacks.map Prod.fst ∧
      sub.PackAllowed packGb now ∧ (env.newOrigin db sub).isSome := by
  rw [AcceptsPack, h]
  simp

theorem purchaseDeviceSlot_iff (huser : db.user u = some user) :
    GoesThrough (env.purchaseDeviceSlot (some user.telegramId) db now u) ↔
      env.AcceptsSlot db now u := by
  have hid : user.id = u := Lib.Table.key_of_lookup User.id huser
  simp only [purchaseDeviceSlot, huser, true_or, not_true, if_false]
  cases hsub : db.whiteInternet.subscriptionByUserId u with
  | none => exact refused_iff db _ (by simp [AcceptsSlot, hsub])
  | some sub =>
    have howner : sub.userId = user.id :=
      (WhiteInternetTables.mem_of_subscriptionByUserId hsub).2.trans hid.symm
    rw [acceptsSlot_iff hsub]
    simp only
    rw [if_neg (not_not.mpr howner)]
    split_ifs with htrial hstatus hended hlimit hcap
    · exact refused_iff db _ fun h => by simp [h.1.paid] at htrial
    · refine refused_iff db _ fun h => ?_
      rcases hstatus with hs | hs
      · exact h.1.live.2.1 hs
      · exact h.1.live.1 hs
    · exact refused_iff db _ fun h => h.1.live.2.2 hended
    · exact refused_iff db _ fun h => absurd h.1.limit (not_lt.mpr hlimit)
    · have hlive := not_or.mp hstatus
      have hallowed : sub.SlotAllowed now :=
        ⟨Bool.not_eq_true _ ▸ htrial, ⟨hlive.2, hlive.1, hended⟩, not_le.mp hlimit, hcap⟩
      cases htarget : env.newOrigin db sub with
      | none => exact refused_iff db _ (by simp)
      | some target =>
        have hmoved := WhiteInternetSubscription.slotAllowed_migrate target hallowed
        exact iff_of_true (goesThrough_bind (Fleet.grant_isOk_iff.mpr
          ⟨_, WhiteInternetSubscription.addDeviceSlot_ok_iff.mpr ⟨hmoved, rfl⟩⟩) fun _ => rfl)
          ⟨hallowed, rfl⟩
    · exact refused_iff db _ fun h => hcap h.1.cap

theorem topupQuota_iff {packGb : ℕ} (huser : db.user u = some user) :
    GoesThrough (env.topupQuota (some user.telegramId) packGb db now u) ↔
      env.AcceptsPack packGb db now u := by
  have hid : user.id = u := Lib.Table.key_of_lookup User.id huser
  by_cases hpack : packGb ∈ whiteInternetTopupPacks.map Prod.fst
  · simp only [topupQuota, hpack, huser, true_or, not_true, if_false]
    cases hsub : db.whiteInternet.subscriptionByUserId u with
    | none => exact refused_iff db _ (by simp [AcceptsPack, hsub])
    | some sub =>
      have howner : sub.userId = user.id :=
        (WhiteInternetTables.mem_of_subscriptionByUserId hsub).2.trans hid.symm
      rw [acceptsPack_iff hsub, and_iff_right hpack]
      simp only
      rw [if_neg (not_not.mpr howner)]
      split_ifs with htrial hstatus hended hcap
      · exact refused_iff db _ fun h => by simp [h.1.paid] at htrial
      · refine refused_iff db _ fun h => ?_
        rcases hstatus with hs | hs
        · exact h.1.live.2.1 hs
        · exact h.1.live.1 hs
      · exact refused_iff db _ fun h => h.1.live.2.2 hended
      · have hlive := not_or.mp hstatus
        have hallowed : sub.PackAllowed packGb now :=
          ⟨Bool.not_eq_true _ ▸ htrial, ⟨hlive.2, hlive.1, hended⟩, hcap⟩
        cases htarget : env.newOrigin db sub with
        | none => exact refused_iff db _ (by simp)
        | some target =>
          have hmoved := WhiteInternetSubscription.packAllowed_migrate target hallowed
          exact iff_of_true (goesThrough_bind (Fleet.grant_isOk_iff.mpr
            ⟨_, WhiteInternetSubscription.topupQuota_ok_iff.mpr ⟨hmoved, rfl⟩⟩) fun _ => rfl)
            ⟨hallowed, rfl⟩
      · cases env.newOrigin db sub with
        | none => exact refused_iff db _ fun h => hcap h.1.cap
        | some target => exact refused_iff db _ fun h => hcap h.1.cap
  · rw [topupQuota, if_pos hpack]
    exact refused_iff db _ fun h => hpack h.1

/-- A trial is converted unless it is disabled or being deleted. -/
theorem convertTrialToPaid_iff {sub : WhiteInternetSubscription} (huser : db.user u = some user)
    (hsub : db.whiteInternet.subscriptionByUserId u = some sub) (htrial : sub.isTrial = true) :
    GoesThrough (env.convertTrialToPaid db now u) ↔
      sub.PeriodAllowed now ∧ (env.newOrigin db sub).isSome := by
  simp only [convertTrialToPaid, huser, hsub, htrial, not_true, if_false]
  split_ifs with hdisabled hpending
  · exact refused_iff db _ fun h => h.1.enabled hdisabled
  · exact refused_iff db _ fun h => h.1.settled hpending
  · cases htarget : env.newOrigin db sub with
    | none => exact refused_iff db _ (by simp)
    | some target => exact iff_of_true ⟨_, rfl, rfl⟩ ⟨⟨hdisabled, hpending, .inl htrial⟩, rfl⟩

theorem renewSubscription_iff {sub : WhiteInternetSubscription} (huser : db.user u = some user)
    (hsub : db.whiteInternet.subscriptionByUserId u = some sub) :
    GoesThrough (env.renewSubscription db now u) ↔
      sub.PeriodAllowed now ∧ (env.newOrigin db sub).isSome := by
  simp only [renewSubscription, huser, hsub]
  split_ifs with htrial hdisabled hready hpending hhorizon
  · exact convertTrialToPaid_iff huser hsub htrial
  · exact refused_iff db _ fun h => h.1.enabled hdisabled
  · exact refused_iff db _ fun h => (h.1.paid.resolve_left htrial).1 hready
  · exact refused_iff db _ fun h => h.1.settled hpending
  · have hbeyond : ¬ sub.PeriodAllowed now := fun h =>
      absurd (h.paid.resolve_left htrial).2
        (not_le.mpr (WhiteInternetSubscription.beyondHorizon_iff.mp hhorizon))
    cases env.newOrigin db sub with
    | none => exact refused_iff db _ fun h => hbeyond h.1
    | some target => exact refused_iff db _ fun h => hbeyond h.1
  · have hends := not_lt.mp (WhiteInternetSubscription.beyondHorizon_iff.not.mp hhorizon)
    cases htarget : env.newOrigin db sub with
    | none => exact refused_iff db _ (by simp)
    | some target =>
      exact iff_of_true (goesThrough_bind (Fleet.grant_isOk_iff.mpr
        (WhiteInternetSubscription.renew_isOk target _ hdisabled hready hhorizon)) fun _ => rfl)
        ⟨⟨hdisabled, hpending, .inr ⟨hready, hends⟩⟩, rfl⟩

/-- A purchase is for users without a row, for trials, and for rows that are over. -/
theorem purchaseSubscription_iff {newId : ℕ} {newUuid : Uuid} (huser : db.user u = some user)
    (hlive : ∀ sub ∈ db.whiteInternet.subscriptionByUserId u, sub.status = .pending ∨
      sub.status = .disabled) :
    GoesThrough (env.purchaseSubscription newId newUuid db now u) ↔
      env.AcceptsPeriod db now u := by
  simp only [purchaseSubscription, huser, AcceptsPeriod]
  cases hsub : db.whiteInternet.subscriptionByUserId u with
  | none =>
    simp only
    cases horigin : (env.fleet db).allocateOriginServer with
    | none => exact refused_iff db _ (by simp)
    | some origin => exact iff_of_true ⟨_, rfl, rfl⟩ rfl
  | some sub =>
    simp only
    split_ifs with htrial hdisabled hpending hactive
    · exact convertTrialToPaid_iff huser hsub htrial
    · exact refused_iff db _ fun h => h.1.enabled hdisabled
    · exact refused_iff db _ fun h => h.1.settled hpending
    · refine refused_iff db _ fun h => ?_
      exact (h.1.paid.resolve_left htrial).1 ((hlive sub hsub).resolve_right hdisabled)
    · exact renewSubscription_iff huser hsub

end ServiceEnv

end Just1kBot
