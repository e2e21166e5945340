import Just1kBot.Orders.OrderService
import Just1kBot.WhiteInternet.ExtraKept
import Just1kBot.WhiteInternet.Periods

/-! The trial of White Internet: `create_trial_subscription` and `reset_user_trial` of
    `services/white_internet_service.py`, with the wallet checkout they share with the purchases.

    A trial needs a user without a row, and a row goes only after a reset of the trial, so a second
    one always waits for a reset. What remembers the trial is its order: a paid one over nothing
    that the checkout writes next to the row. The checkout refuses a user on hold or barred from
    top-ups, and the activation goes on without looking at the answer. -/

namespace Just1kBot

open Lib.Python (Number)

def paymentDisputeBlockedNotice : String := "Операция заблокирована из-за финансового спора."
def topupErrorBlocked : String :=
  "Новые пополнения временно заблокированы. Обратитесь в поддержку."
def wlTrialActivatedSuccess : String := "🎁 Пробный период на 3 дня успешно активирован!"
def wlTrialAlreadyUsed : String :=
  "Вы уже использовали бесплатный пробный период на 3 дня. " ++
    "Спасибо за участие в тестировании!\n\n" ++
    "Вы можете оформить регулярную подписку для продолжения работы."
def adminWlResetSuccess : String :=
  "✅ Сброс триала принят: доступ будет отключён на узле и запись удалена автоматически."
def adminWlResetCooldown (remaining : ℤ) : String :=
  s!"Сброс триала возможен не чаще одного раза в минуту (подождите {remaining}с)"

/-! ### The checkout -/

/-- What a caller of the checkout supplies. -/
structure WalletCheckout where
  serviceType : OrderServiceType
  tariffId : Option TariffId
  amountDue : Number
  durationDays : ℕ
  trafficBytes : ℕ := 0
  deviceLimit : Option ℕ := none
  metadata : OrderMeta
  /-- The text with the price, the balance and what is missing. -/
  insufficientText : ℤ → ℤ → ℤ → String := fun _ _ _ => ""

/-- The pending order of a checkout. -/
def WalletCheckout.order (req : WalletCheckout) (newId : OrderId) (userId : UserId) (now : Time)
    (amount : ℕ) : Order :=
  { id := newId, userId := userId, serviceType := req.serviceType, tariffId := req.tariffId
    amountRub := amount, durationDays := req.durationDays, trafficBytes := req.trafficBytes
    deviceLimit := req.deviceLimit, paymentMethod := .wallet, metadata := req.metadata
    createdAt := now }

/-- `_checkout_wallet_order`: the order, and the text of a failure. Of the errors of the ledger a
    missing balance only cancels the order. -/
def Db.checkoutWalletOrder (db : Db) (now : Time) (newId : OrderId) (user : User)
    (req : WalletCheckout) : Except Err ((Option Order × Option String) × Db) :=
  if user.financialHold then .ok ((none, some paymentDisputeBlockedNotice), db)
  else if user.topupBlocked then .ok ((none, some topupErrorBlocked), db)
  else do
    let amount ← wholeRubles true req.amountDue
    let order := req.order newId user.id now amount.val.toNat
    let paid := { order with status := .paid, paidAt := some now }
    let placed := { db with orders := db.orders ++ [order] }
    if amount.val = 0 then return ((some paid, none), placed.putOrder paid)
    else
      match placed.createOrderDebit now user.id (.decimal amount.val) newId with
      | .ok (_, db') => return ((some paid, none), db'.putOrder paid)
      | .error (.insufficientBalance _) =>
        let canceled := markOrderCanceled order "insufficient_balance"
        let balance := (placed.ledger.getAccountBalance user.id).available
        return ((some canceled, some (req.insufficientText amount.val balance
          (max (amount.val - balance) 0))), placed.putOrder canceled)
      | .error e => throw e

/-! ### The trial -/

namespace Db

/-- `has_ever_activated_trial`. -/
def hasEverActivatedTrial (db : Db) (u : UserId) : Bool :=
  if u < 1 ∨ 2147483647 < u then false
  else db.orders.any fun o =>
    decide (o.userId = u ∧ o.serviceType = .whiteInternet ∧ o.status = .paid ∧
      (∀ reset ∈ (db.user u).bind User.lastTrialResetAt, reset < o.createdAt)) && o.metadata.isTrial

/-- The checkout of a trial. -/
def trialCheckout (tariffId : TariffId) : WalletCheckout :=
  { serviceType := .whiteInternet, tariffId := some tariffId, amountDue := .decimal 0
    durationDays := whiteInternetTrialDurationDays.toNat, deviceLimit := some 1
    metadata := { operation := some "trial", isTrial := true } }

/-- `create_white_internet_subscription` for a trial. -/
def addTrialRow (db : Db) (now : Time) (u : UserId) (origin : ServerId) (newSub : ℕ)
    (newUuid : Uuid) : Db :=
  { db with whiteInternet := { db.whiteInternet.cancelOrphanCleanups origin newUuid with
      subscriptions := db.whiteInternet.subscriptions ++
        [.fresh newSub u origin newUuid true now] } }

/-- `create_trial_subscription`. -/
def createTrialSubscription (env : ServiceEnv) (tariffId : TariffId) (newOrder : OrderId)
    (newSub : ℕ) (newUuid : Uuid) (db : Db) (now : Time) (u : UserId) :
    Except Err (ServiceAnswer × Db) :=
  match db.user u with
  | none => .ok ({ ok := false, msg := wlUserNotFound }, db)
  | some user =>
    if user.isBanned ∨ user.isDeleted then .ok ({ ok := false, msg := errorAccessDenied }, db)
    else if db.hasEverActivatedTrial u then
      .ok ({ ok := false, msg := wlTrialAlreadyUsed
             subId := (db.whiteInternet.subscriptionByUserId u).map (·.id) }, db)
    else
      match db.whiteInternet.subscriptionByUserId u with
      | some existing =>
        if existing.status = .active ∨ existing.status = .pending ∨
            existing.status = .exhausted then
          .ok ({ ok := true, msg := wlAlreadyActive, subId := existing.id }, db)
        else if existing.DeactivationPending then
          .ok ({ ok := false, msg := wlDeactivationPending, subId := existing.id }, db)
        else .ok ({ ok := false, msg := wlTrialAlreadyUsed, subId := existing.id }, db)
      | none =>
        match (env.fleet db).allocateOriginServer with
        | none => .ok ({ ok := false, msg := wlNoServersAvailable }, db)
        | some origin => do
          let (_, db) ← db.checkoutWalletOrder now newOrder user (trialCheckout tariffId)
          return ({ ok := true, msg := wlTrialActivatedSuccess, subId := newSub },
            db.addTrialRow now u origin.id newSub newUuid)

/-- What a reset of the user writes. -/
def withReset (db : Db) (now : Time) (user : User) : Db :=
  { db.putUser { user with lastTrialResetAt := some now } with
    whiteInternet := { db.whiteInternet with
      subscriptions := db.whiteInternet.subscriptions.map fun s =>
        if s.userId = user.id ∧ s.isTrial then s.resetTrial else s } }

/-- `reset_user_trial`. -/
def resetUserTrial (db : Db) (now : Time) (u : UserId) : ServiceAnswer × Db :=
  match db.user u with
  | none => ({ ok := false, msg := wlUserNotFound }, db)
  | some user =>
    match user.lastTrialResetAt.filter fun reset => now - reset < seconds 60 with
    | some reset =>
      ({ ok := false, msg := adminWlResetCooldown ((seconds 60 - (now - reset)) / seconds 1) }, db)
    | none =>
      if db.whiteInternet.subscriptions.all (·.userId ≠ u) then
        ({ ok := false, msg := wlSubNotFound }, db)
      else ({ ok := true, msg := adminWlResetSuccess }, db.withReset now user)

end Db

/-! ### Runs -/

/-- What happens to the users, their orders and their rows. `order` writes any order but that of a
    trial, which no payment is made for; `purchase` is that of a user without a row; `row` is any
    other operation on a row. -/
inductive TrialEvent
  | register (user : User)
  | restrict (u : UserId) (isBanned isDeleted financialHold topupBlocked : Bool)
  | order (o : Order)
  | purchase (u : UserId) (origin : ServerId) (newSub : ℕ) (newUuid : Uuid)
  | row (id : ℕ) (e : ExtraEvent)
  | activate (env : ServiceEnv) (tariffId : TariffId) (u : UserId) (newOrder : OrderId)
      (newSub : ℕ) (newUuid : Uuid)
  | reset (u : UserId)

/-- The event is the reset of a single row. -/
def ExtraEvent.IsReset : ExtraEvent → Prop
  | .change c => c.IsReset
  | _ => False

instance : DecidablePred ExtraEvent.IsReset
  | .change c => inferInstanceAs (Decidable c.IsReset)
  | .reconcile .. | .inlineSync .. | .purge | .finalize => .isFalse id

/-- The row of this id after an event, if it stays. -/
def WhiteInternetTables.rowEvent (t : WhiteInternetTables) (id : ℕ) (e : ExtraEvent) :
    WhiteInternetTables :=
  match t.subscription id with
  | none => t
  | some sub =>
    match sub.after e with
    | some sub' => t.putSubscription sub'
    | none => { t with subscriptions := t.subscriptions.filter (·.id ≠ id) }

/-- The database, the time, and what the history tells of each user: the trial rows created at all
    and since the last reset that went through. -/
structure TrialState where
  db : Db := {}
  clock : Time := 0
  created : UserId → ℕ := fun _ => 0
  sinceReset : UserId → ℕ := fun _ => 0

namespace TrialState

/-- The new order and the new row get ids that are not taken. -/
def FreshIds (db : Db) (newOrder : OrderId) (newSub : ℕ) : Prop :=
  newOrder ∉ db.orders.map Order.id ∧
    newSub ∉ db.whiteInternet.subscriptions.map WhiteInternetSubscription.id

instance (db : Db) (newOrder : OrderId) (newSub : ℕ) : Decidable (FreshIds db newOrder newSub) := by
  unfold FreshIds; infer_instance

/-- The state after an activation: the row of the given id is a new trial if it is there. -/
def activated (s : TrialState) (u : UserId) (newSub : ℕ) (db : Db) : TrialState :=
  if newSub ∈ db.whiteInternet.subscriptions.map WhiteInternetSubscription.id then
    { s with
      db := db
      created := Function.update s.created u (s.created u + 1)
      sinceReset := Function.update s.sinceReset u (s.sinceReset u + 1) }
  else { s with db := db }

/-- An event in its own transaction, at the time of the state. -/
def act (s : TrialState) : TrialEvent → TrialState
  | .register user =>
    if user.id < 1 ∨ 2147483647 < user.id ∨ (s.db.user user.id).isSome ∨
      user.lastTrialResetAt.isSome then s
    else { s with db := { s.db with users := s.db.users ++ [user] } }
  | .restrict u isBanned isDeleted financialHold topupBlocked =>
    match s.db.user u with
    | none => s
    | some user => { s with db := s.db.putUser { user with
        isBanned := isBanned, isDeleted := isDeleted, financialHold := financialHold
        topupBlocked := topupBlocked } }
  | .order o =>
    if o.metadata.isTrial ∨ ∃ x ∈ s.db.orders, x.id = o.id ∧ x.metadata.isTrial = true then s
    else { s with db := { s.db with orders := s.db.orders.filter (·.id ≠ o.id) ++ [o] } }
  | .purchase u origin newSub newUuid =>
    if (s.db.user u).isNone ∨ (s.db.whiteInternet.subscriptionByUserId u).isSome ∨
      newSub ∈ s.db.whiteInternet.subscriptions.map WhiteInternetSubscription.id then s
    else { s with db := { s.db with whiteInternet := { s.db.whiteInternet with
        subscriptions := s.db.whiteInternet.subscriptions ++
          [.fresh newSub u origin newUuid false s.clock] } } }
  | .row id e =>
    if e.IsReset then s
    else { s with db := { s.db with whiteInternet := s.db.whiteInternet.rowEvent id e } }
  | .activate env tariffId u newOrder newSub newUuid =>
    if FreshIds s.db newOrder newSub then
      s.activated u newSub
        (Lib.commit s.db
          (s.db.createTrialSubscription env tariffId newOrder newSub newUuid s.clock u))
    else s
  | .reset u =>
    let r := s.db.resetUserTrial s.clock u
    { s with
      db := r.2
      sinceReset := if r.1.ok then Function.update s.sinceReset u 0 else s.sinceReset }

/-- Time passes. -/
def tick (s : TrialState) (duration : ℕ) : TrialState :=
  { s with clock := s.clock + duration + 1 }

/-- Every step takes some time. -/
def step (s : TrialState) (e : ℕ × TrialEvent) : TrialState := (s.tick e.1).act e.2

/-- The order that stands for a trial of the user. -/
def Backs (u : UserId) (o : Order) : Prop :=
  o.userId = u ∧ o.serviceType = .whiteInternet ∧ o.status = .paid ∧ o.amountRub = 0 ∧
    o.metadata.isTrial = true

instance (u : UserId) : DecidablePred (Backs u) := fun o => by unfold Backs; infer_instance

/-- Each user has at most one trial since the last reset; every trial ever created has an order of
    its own; and one since the last reset is remembered. -/
structure OneTrial (s : TrialState) : Prop where
  once : ∀ u, s.sinceReset u ≤ 1
  backed : ∀ u, s.created u ≤ s.db.orders.countP (Backs u)
  remembered : ∀ u, 0 < s.sinceReset u → s.db.hasEverActivatedTrial u = true

end TrialState

/-- An activation gets past the checks of the service. -/
def Db.TrialOffered (db : Db) (env : ServiceEnv) (u : UserId) : Prop :=
  (∃ user ∈ db.user u, user.isBanned = false ∧ user.isDeleted = false) ∧
    db.hasEverActivatedTrial u = false ∧ db.whiteInternet.subscriptionByUserId u = none ∧
    (env.fleet db).allocateOriginServer.isSome

/-- The user of an activation that gets past the checks is neither on hold nor barred from
    top-ups. -/
def TrialState.Unrestricted (s : TrialState) (e : TrialEvent) : Prop :=
  ∀ env tariffId u newOrder newSub newUuid,
    e = .activate env tariffId u newOrder newSub newUuid → FreshIds s.db newOrder newSub →
      s.db.TrialOffered env u → ∀ user ∈ s.db.user u,
        user.financialHold = false ∧ user.topupBlocked = false

/-! ### The service -/

namespace Db
variable {db : Db} {env : ServiceEnv} {newOrder : OrderId} {u : UserId} {user : User}

/-- The paid order of a trial. -/
def trialOrder (tariffId : TariffId) (newOrder : OrderId) (userId : UserId) (now : Time) : Order :=
  { (trialCheckout tariffId).order newOrder userId now 0 with status := .paid, paidAt := some now }

/-- The checkout of a trial writes a paid order over nothing, or refuses and writes nothing. -/
theorem checkoutTrial (tariffId : TariffId) (now : Time) (user : User)
    (hfresh : newOrder ∉ db.orders.map Order.id) :
    ∃ r, db.checkoutWalletOrder now newOrder user (trialCheckout tariffId) = .ok (r,
      if user.financialHold = true ∨ user.topupBlocked = true then db
      else { db with orders := db.orders ++ [trialOrder tariffId newOrder user.id now] }) := by
  rw [checkoutWalletOrder]
  by_cases hhold : user.financialHold = true
  · rw [if_pos hhold, if_pos (.inl hhold)]
    exact ⟨_, rfl⟩
  · rw [if_neg hhold]
    by_cases hblocked : user.topupBlocked = true
    · rw [if_pos hblocked, if_pos (.inr hblocked)]
      exact ⟨_, rfl⟩
    · rw [if_neg hblocked, if_neg (not_or.mpr ⟨hhold, hblocked⟩)]
      have hzero : wholeRubles true (trialCheckout tariffId).amountDue = .ok ⟨0, by decide⟩ := rfl
      have hnone : Lib.Table.lookup Order.id newOrder db.orders = none := by
        rw [← Option.not_isSome_iff_eq_none, Lib.Table.lookup_isSome]
        exact fun h => hfresh (of_decide_eq_true h)
      rw [hzero]
      refine ⟨(some (trialOrder tariffId newOrder user.id now), none), ?_⟩
      refine congrArg (fun orders => Except.ok (_, { db with orders := orders })) ?_
      exact Lib.Table.put_append_of_lookup_none Order.id hnone rfl

theorem resetUserTrial_cases (db : Db) (now : Time) (u : UserId) :
    ((db.resetUserTrial now u).1.ok = false ∧ (db.resetUserTrial now u).2 = db) ∨
      ∃ user, db.user u = some user ∧ (db.resetUserTrial now u).1.ok = true ∧
        (db.resetUserTrial now u).2 = db.withReset now user := by
  unfold resetUserTrial
  split
  · exact .inl ⟨rfl, rfl⟩
  · rename_i user huser
    split
    · exact .inl ⟨rfl, rfl⟩
    · split_ifs
      · exact .inl ⟨rfl, rfl⟩
      · exact .inr ⟨user, huser, rfl, rfl⟩

theorem createTrial_of_not_offered (tariffId : TariffId) (newOrder : OrderId) (newSub : ℕ)
    (newUuid : Uuid) (now : Time) (h : ¬ db.TrialOffered env u) : ∃ answer,
    db.createTrialSubscription env tariffId newOrder newSub newUuid now u = .ok (answer, db) := by
  rw [createTrialSubscription]
  cases huser : db.user u with
  | none => exact ⟨_, rfl⟩
  | some user =>
    simp only
    split_ifs with hgone hused
    · exact ⟨_, rfl⟩
    · exact ⟨_, rfl⟩
    · cases hsub : db.whiteInternet.subscriptionByUserId u with
      | some existing =>
        simp only
        split_ifs
        · exact ⟨_, rfl⟩
        · exact ⟨_, rfl⟩
        · exact ⟨_, rfl⟩
      | none =>
        cases horigin : (env.fleet db).allocateOriginServer with
        | none => exact ⟨_, rfl⟩
        | some origin =>
          have hgone := not_or.mp hgone
          exact (h ⟨⟨user, huser, by simpa using hgone.1, by simpa using hgone.2⟩,
            by simpa using hused, hsub, by rw [horigin]; rfl⟩).elim

theorem createTrial_of_offered (tariffId : TariffId) (newSub : ℕ) (newUuid : Uuid) (now : Time)
    (h : db.TrialOffered env u) (huser : db.user u = some user)
    (hfresh : newOrder ∉ db.orders.map Order.id) : ∃ answer origin,
    db.createTrialSubscription env tariffId newOrder newSub newUuid now u = .ok (answer,
      (if user.financialHold = true ∨ user.topupBlocked = true then db
        else { db with orders := db.orders ++ [trialOrder tariffId newOrder user.id now] }
          ).addTrialRow now u origin newSub newUuid) := by
  obtain ⟨⟨user', huser', hbanned, hdeleted⟩, hused, hsub, horigin⟩ := h
  obtain rfl : user' = user := Option.some.inj (huser'.symm.trans huser)
  obtain ⟨origin, horigin⟩ := Option.isSome_iff_exists.mp horigin
  obtain ⟨r, hr⟩ := checkoutTrial tariffId now user' hfresh
  refine ⟨{ ok := true, msg := wlTrialActivatedSuccess, subId := newSub }, origin.id, ?_⟩
  simp only [createTrialSubscription, huser, hbanned, hdeleted, hused, hsub, horigin, hr]
  rfl

end Db

/-! ### Rows that stay -/

open WhiteInternetSubscription

theorem RowChange.apply_owner {c : RowChange} {sub sub' : WhiteInternetSubscription}
    (h : c.apply sub = some sub') : sub'.id = sub.id ∧ sub'.userId = sub.userId := by
  cases c with
  | op o =>
    obtain ⟨-, h⟩ := apply_op_iff.mp h
    exact ⟨(RowOp.apply_kept h).id, RowOp.apply_userId h⟩
  | moved o target =>
    simp only [apply] at h
    split_ifs at h
    obtain ⟨_, -, h⟩ := Option.bind_eq_some_iff.mp h
    exact ⟨(RowOp.apply_kept h).id, (RowOp.apply_userId h).trans rfl⟩
  | migrateOrigin | allocate =>
    simp only [apply] at h
    split_ifs at h
    cases h
    exact ⟨rfl, rfl⟩
  | detach | revokePack =>
    cases h
    exact ⟨rfl, rfl⟩
  | revokeSlot =>
    cases h
    exact ⟨revokeSlot_id sub, revokeSlot_userId sub⟩

theorem WhiteInternetSubscription.after_owner {sub sub' : WhiteInternetSubscription}
    {e : ExtraEvent} (h : sub.after e = some sub') :
    sub'.id = sub.id ∧ sub'.userId = sub.userId := by
  cases e with
  | change c =>
    cases h
    cases hc : c.apply sub with
    | none => exact ⟨rfl, rfl⟩
    | some sub' => exact RowChange.apply_owner hc
  | reconcile task answer now =>
    cases h
    have hsame := reconcile_sameQuota task answer now sub
    exact ⟨hsame.id, hsame.userId⟩
  | inlineSync sync now =>
    cases h
    have hsame := inlineSync_sameQuota sync now sub
    exact ⟨hsame.id, hsame.userId⟩
  | purge =>
    cases h
    exact ⟨rfl, rfl⟩
  | finalize =>
    rw [WhiteInternetSubscription.after] at h
    split_ifs at h
    cases h
    exact ⟨rfl, rfl⟩

/-- A row that does not wait for its deletion stays so. -/
theorem WhiteInternetSubscription.after_live {sub : WhiteInternetSubscription} {e : ExtraEvent}
    (hflag : sub.pendingHardDelete = false) (hreset : ¬ e.IsReset) :
    ∃ sub', sub.after e = some sub' ∧ sub'.pendingHardDelete = false := by
  cases e with
  | change c =>
    refine ⟨_, rfl, ?_⟩
    cases hc : c.apply sub with
    | none => exact hflag
    | some sub' =>
      refine Bool.eq_false_of_not_eq_true fun hflag' => hreset ?_
      exact (RowChange.apply_flag hc hflag hflag').1
  | reconcile task answer now =>
    refine ⟨_, rfl, ?_⟩
    rw [WhiteInternetSubscription.reconcile]
    split
    · exact hflag
    · exact hflag
  | inlineSync sync now =>
    refine ⟨_, rfl, ?_⟩
    rw [InlineSync.finish]
    split
    · exact hflag
    · exact hflag
  | purge => exact ⟨sub.purge, rfl, rfl⟩
  | finalize =>
    refine ⟨sub, if_neg fun hdelete => ?_, hflag⟩
    exact absurd hdelete.1 (by simp [hflag])

namespace WhiteInternetTables
variable {t : WhiteInternetTables} {u : UserId}

/-- The user has a row that does not wait for its deletion. -/
def HasLive (t : WhiteInternetTables) (u : UserId) : Prop :=
  ∃ row ∈ t.subscriptions, row.userId = u ∧ row.pendingHardDelete = false

theorem keyed_rowEvent (hnd : (t.subscriptions.map WhiteInternetSubscription.id).Nodup) (id : ℕ)
    (e : ExtraEvent) :
    ((t.rowEvent id e).subscriptions.map WhiteInternetSubscription.id).Nodup := by
  rw [rowEvent]
  split
  · exact hnd
  · split
    · rwa [putSubscription, Lib.Table.map_key_put]
    · exact hnd.sublist (List.filter_sublist.map _)

theorem HasLive.rowEvent (h : t.HasLive u)
    (hnd : (t.subscriptions.map WhiteInternetSubscription.id).Nodup) {id : ℕ} {e : ExtraEvent}
    (hreset : ¬ e.IsReset) : (t.rowEvent id e).HasLive u := by
  obtain ⟨row, hrow, huser, hflag⟩ := h
  rw [WhiteInternetTables.rowEvent]
  cases hfound : t.subscription id with
  | none => exact ⟨row, hrow, huser, hflag⟩
  | some found =>
    have hid := id_of_subscription hfound
    by_cases hsame : row.id = id
    · subst hsame
      obtain rfl := subscription_of_mem hnd hrow hfound
      obtain ⟨sub', hafter, hflag'⟩ := after_live hflag hreset
      obtain ⟨hid', huser'⟩ := after_owner hafter
      simp only [hafter]
      refine ⟨sub', ?_, huser'.trans huser, hflag'⟩
      exact List.mem_map.mpr ⟨found, hrow, if_pos hid'.symm⟩
    · cases hafter : found.after e with
      | none =>
        simp only [hafter]
        exact ⟨row, List.mem_filter.mpr ⟨hrow, decide_eq_true hsame⟩, huser, hflag⟩
      | some sub' =>
        simp only [hafter]
        refine ⟨row, List.mem_map.mpr ⟨row, hrow, if_neg ?_⟩, huser, hflag⟩
        rwa [(after_owner hafter).1, hid]

theorem HasLive.append {rows : List WhiteInternetSubscription} (h : t.HasLive u)
    (hmem : ∀ row ∈ t.subscriptions, row ∈ rows) : { t with subscriptions := rows }.HasLive u := by
  obtain ⟨row, hrow, hlive⟩ := h
  exact ⟨row, hmem row hrow, hlive⟩

end WhiteInternetTables

/-! ### What is remembered -/

namespace Db
variable {db db' : Db} {u : UserId}

/-- An order tells that its user had a trial, unless a reset came after it. -/
structure TellsTrial (db : Db) (u : UserId) (o : Order) : Prop where
  user : o.userId = u
  service : o.serviceType = .whiteInternet
  paid : o.status = .paid
  later : ∀ reset ∈ (db.user u).bind User.lastTrialResetAt, reset < o.createdAt
  trial : o.metadata.isTrial = true

theorem hasEverActivatedTrial_iff (hu : ¬ (u < 1 ∨ 2147483647 < u)) :
    db.hasEverActivatedTrial u = true ↔ ∃ o ∈ db.orders, db.TellsTrial u o := by
  rw [hasEverActivatedTrial, if_neg hu, List.any_eq_true]
  refine exists_congr fun o => and_congr_right fun _ => ?_
  rw [Bool.and_eq_true, decide_eq_true_iff]
  exact ⟨fun ⟨⟨h₁, h₂, h₃, h₄⟩, h₅⟩ => ⟨h₁, h₂, h₃, h₄, h₅⟩,
    fun h => ⟨⟨h.user, h.service, h.paid, h.later⟩, h.trial⟩⟩

/-- What is remembered stays so while the orders of trials stay and no reset comes. -/
theorem hasEverActivatedTrial_mono
    (horders : ∀ o ∈ db.orders, o.metadata.isTrial = true → o ∈ db'.orders)
    (hreset : (db'.user u).bind User.lastTrialResetAt = (db.user u).bind User.lastTrialResetAt)
    (h : db.hasEverActivatedTrial u = true) : db'.hasEverActivatedTrial u = true := by
  have hu : ¬ (u < 1 ∨ 2147483647 < u) := by
    intro hu
    rw [hasEverActivatedTrial, if_pos hu] at h
    cases h
  rw [hasEverActivatedTrial_iff hu] at h ⊢
  obtain ⟨o, ho, htells⟩ := h
  exact ⟨o, horders o ho htells.trial, { htells with later := hreset ▸ htells.later }⟩

theorem user_putUser_of_ne {user : User} {v : UserId} (h : v ≠ user.id) :
    (db.putUser user).user v = db.user v := Lib.Table.lookup_put_ne _ _ h

end Db

namespace TrialState
variable {s : TrialState} {now : Time} {u : UserId}

/-- What every step keeps: ids are those of the database, resets are past, and a user who had a
    trial since the last one still has a row. -/
structure Inv (s : TrialState) : Prop where
  ranged : ∀ user ∈ s.db.users, ¬ (user.id < 1 ∨ 2147483647 < user.id)
  past : ∀ user ∈ s.db.users, ∀ reset ∈ user.lastTrialResetAt, reset ≤ s.clock
  keyed : (s.db.whiteInternet.subscriptions.map WhiteInternetSubscription.id).Nodup
  live : ∀ u, s.sinceReset u = 0 ∨ s.sinceReset u = 1 ∧ s.db.whiteInternet.HasLive u

theorem Inv.once (h : s.Inv) (u : UserId) : s.sinceReset u ≤ 1 := by
  rcases h.live u with hzero | ⟨hone, -⟩
  · omega
  · omega

theorem inv_start : Inv {} := ⟨by simp, by simp, by simp, fun _ => .inl rfl⟩

theorem Inv.tick (h : s.Inv) (duration : ℕ) : (s.tick duration).Inv := by
  refine ⟨h.ranged, fun user huser reset hreset => ?_, h.keyed, h.live⟩
  have hpast : reset ≤ s.clock := h.past user huser reset hreset
  show reset ≤ s.clock + duration + 1
  linarith

/-- A user who gets past the checks has had no trial since the last reset. -/
theorem Inv.none_since (h : s.Inv) {env : ServiceEnv} (hoffered : s.db.TrialOffered env u) :
    s.sinceReset u = 0 := by
  obtain ⟨⟨user, huser, -⟩, -, hnone, -⟩ := hoffered
  rcases h.live u with hzero | ⟨-, row, hrow, hrowu, -⟩
  · exact hzero
  · have hranged := h.ranged user (Lib.Table.mem_of_lookup _ huser)
    rw [Lib.Table.key_of_lookup User.id huser] at hranged
    obtain ⟨sub, hsub, -⟩ := WhiteInternetTables.le_subscriptionByUserId hranged hrow hrowu
    rw [hnone] at hsub
    cases hsub

/-- An update of a user. -/
theorem Inv.putUser (h : s.Inv) {user : User} (user' : User) (huser : user ∈ s.db.users)
    (hid : user'.id = user.id)
    (hreset : ∀ reset ∈ user'.lastTrialResetAt, reset ∈ user.lastTrialResetAt ∨ reset = s.clock) :
    { s with db := s.db.putUser user' }.Inv := by
  refine ⟨fun x hx => ?_, fun x hx reset hr => ?_, h.keyed, h.live⟩
  · rcases Lib.Table.mem_put _ hx with rfl | hx
    · rw [hid]
      exact h.ranged user huser
    · exact h.ranged x hx
  · rcases Lib.Table.mem_put _ hx with rfl | hx
    · rcases hreset reset hr with hold | rfl
      · exact h.past user huser reset hold
      · exact le_rfl
    · exact h.past x hx reset hr

/-- What an activation gets past the checks writes. -/
theorem act_activate {env : ServiceEnv} (tariffId : TariffId) {newOrder : OrderId} {newSub : ℕ}
    (newUuid : Uuid) (hfresh : FreshIds s.db newOrder newSub) {user : User}
    (huser : s.db.user u = some user) (hoffered : s.db.TrialOffered env u) :
    ∃ origin, s.act (.activate env tariffId u newOrder newSub newUuid) =
      { s with
        db := (if user.financialHold = true ∨ user.topupBlocked = true then s.db
          else { s.db with orders := s.db.orders ++
            [Db.trialOrder tariffId newOrder user.id s.clock] }).addTrialRow s.clock u origin newSub
              newUuid
        created := Function.update s.created u (s.created u + 1)
        sinceReset := Function.update s.sinceReset u (s.sinceReset u + 1) } := by
  obtain ⟨answer, origin, hcreate⟩ := Db.createTrial_of_offered tariffId newSub newUuid s.clock
    hoffered huser hfresh.1
  refine ⟨origin, ?_⟩
  rw [act, if_pos hfresh, hcreate, Lib.commit_ok, activated, if_pos]
  exact List.mem_map.mpr ⟨_, List.mem_append_right _ List.mem_cons_self, rfl⟩

theorem act_activate_refused {env : ServiceEnv} (tariffId : TariffId) {newOrder : OrderId}
    {newSub : ℕ} (newUuid : Uuid)
    (h : ¬ (FreshIds s.db newOrder newSub ∧ s.db.TrialOffered env u)) :
    s.act (.activate env tariffId u newOrder newSub newUuid) = s := by
  rw [act]
  split_ifs with hfresh
  · obtain ⟨answer, hcreate⟩ := Db.createTrial_of_not_offered tariffId newOrder newSub newUuid
      s.clock fun hoffered => h ⟨hfresh, hoffered⟩
    rw [hcreate, Lib.commit_ok, activated, if_neg hfresh.2]
  · rfl

/-- A reset is refused, or it is noted and flags the trial rows of the user. -/
theorem act_reset (s : TrialState) (u : UserId) : s.act (.reset u) = s ∨
    ∃ user, s.db.user u = some user ∧ s.act (.reset u) = { s with
      db := s.db.withReset s.clock user
      sinceReset := Function.update s.sinceReset u 0 } := by
  rw [act]
  rcases s.db.resetUserTrial_cases s.clock u with ⟨hok, hdb⟩ | ⟨user, huser, hok, hdb⟩
  · simp [hok, hdb]
  · exact .inr ⟨user, huser, by simp [hok, hdb]⟩

/-- A new row under a fresh id. -/
theorem Inv.addRow (h : s.Inv) (row : WhiteInternetSubscription) {db : Db}
    (huser : db.users = s.db.users)
    (hrows : db.whiteInternet.subscriptions = s.db.whiteInternet.subscriptions ++ [row])
    (hfresh : row.id ∉ s.db.whiteInternet.subscriptions.map WhiteInternetSubscription.id) :
    { s with db := db }.Inv := by
  refine ⟨huser ▸ h.ranged, huser ▸ h.past, ?_, fun u => ?_⟩
  · show (db.whiteInternet.subscriptions.map WhiteInternetSubscription.id).Nodup
    rw [hrows, List.map_append]
    exact List.nodup_append.mpr ⟨h.keyed, List.nodup_singleton _, by
      rintro a ha b hb rfl
      exact hfresh (List.mem_singleton.mp hb ▸ ha)⟩
  · refine (h.live u).imp_right fun ⟨hone, old, hold, hlive⟩ => ⟨hone, old, ?_, hlive⟩
    show old ∈ db.whiteInternet.subscriptions
    rw [hrows]
    exact List.mem_append_left _ hold

theorem Inv.act (h : s.Inv) (e : TrialEvent) : (s.act e).Inv := by
  cases e with
  | register user =>
    rw [TrialState.act]
    split_ifs with hnew
    · exact h
    · simp only [not_or, Bool.not_eq_true, Option.isSome_eq_false_iff, Option.isNone_iff_eq_none]
        at hnew
      refine ⟨fun x hx => ?_, fun x hx reset hr => ?_, h.keyed, h.live⟩
      · rcases List.mem_append.mp hx with hx | hx
        · exact h.ranged x hx
        · rw [List.mem_singleton.mp hx]
          exact not_or.mpr ⟨hnew.1, hnew.2.1⟩
      · rcases List.mem_append.mp hx with hx | hx
        · exact h.past x hx reset hr
        · rw [List.mem_singleton.mp hx, hnew.2.2.2] at hr
          cases hr
  | restrict u isBanned isDeleted financialHold topupBlocked =>
    rw [TrialState.act]
    cases huser : s.db.user u with
    | none => exact h
    | some user => exact h.putUser _ (Lib.Table.mem_of_lookup _ huser) rfl fun _ hr => .inl hr
  | order o =>
    rw [TrialState.act]
    split_ifs
    · exact h
    · exact ⟨h.ranged, h.past, h.keyed, h.live⟩
  | purchase u origin newSub newUuid =>
    rw [TrialState.act]
    split_ifs with hrefused
    · exact h
    · refine h.addRow (fresh newSub u origin newUuid false s.clock) rfl rfl ?_
      exact (not_or.mp (not_or.mp hrefused).2).2
  | row id e =>
    rw [TrialState.act]
    split_ifs with hreset
    · exact h
    · refine ⟨h.ranged, h.past, WhiteInternetTables.keyed_rowEvent h.keyed id e, fun u => ?_⟩
      exact (h.live u).imp_right fun ⟨hone, hlive⟩ => ⟨hone, hlive.rowEvent h.keyed hreset⟩
  | activate env tariffId u newOrder newSub newUuid =>
    by_cases hgo : FreshIds s.db newOrder newSub ∧ s.db.TrialOffered env u
    · obtain ⟨user, huser, -⟩ := hgo.2.1
      obtain ⟨origin, hact⟩ := act_activate tariffId newUuid hgo.1 huser hgo.2
      rw [hact]
      generalize hdb :
        (if user.financialHold = true ∨ user.topupBlocked = true then s.db else _) = db
      have hsame : db.users = s.db.users ∧ db.whiteInternet = s.db.whiteInternet := by
        rw [← hdb]
        split_ifs
        · exact ⟨rfl, rfl⟩
        · exact ⟨rfl, rfl⟩
      have hrows : (db.addTrialRow s.clock u origin newSub newUuid).whiteInternet.subscriptions =
          s.db.whiteInternet.subscriptions ++ [fresh newSub u origin newUuid true s.clock] := by
        rw [Db.addTrialRow, hsame.2]
      have husers : (db.addTrialRow s.clock u origin newSub newUuid).users = s.db.users := hsame.1
      have hbase := h.addRow (fresh newSub u origin newUuid true s.clock) husers hrows hgo.1.2
      refine ⟨hbase.ranged, hbase.past, hbase.keyed, fun v => ?_⟩
      by_cases hv : v = u
      · subst hv
        refine .inr ⟨?_, _, List.mem_append_right _ List.mem_cons_self, rfl, rfl⟩
        simp only [Function.update_self, h.none_since hgo.2]
      · simp only [Function.update_of_ne hv]
        exact hbase.live v
    · rw [act_activate_refused tariffId newUuid hgo]
      exact h
  | reset u =>
    rcases s.act_reset u with hsame | ⟨user, huser, hact⟩
    · rw [hsame]
      exact h
    · rw [hact]
      have hid : user.id = u := Lib.Table.key_of_lookup User.id huser
      have hput := h.putUser { user with lastTrialResetAt := some s.clock }
        (Lib.Table.mem_of_lookup _ huser) rfl fun _ hr => .inr (Option.mem_some_iff.mp hr).symm
      refine ⟨hput.ranged, hput.past, ?_, fun v => ?_⟩
      · have hkeys : (s.db.withReset s.clock user).whiteInternet.subscriptions.map
            WhiteInternetSubscription.id = s.db.whiteInternet.subscriptions.map
              WhiteInternetSubscription.id := by
          rw [Db.withReset, List.map_map]
          refine List.map_congr_left fun row _ => ?_
          rw [Function.comp_apply]
          split_ifs <;> rfl
        exact hkeys ▸ h.keyed
      · by_cases hv : v = u
        · exact .inl (by simp only [hv, Function.update_self])
        · simp only [Function.update_of_ne hv]
          refine (h.live v).imp_right fun ⟨hone, row, hrow, hrowv, hflag⟩ => ⟨hone, row, ?_, hrowv,
            hflag⟩
          refine List.mem_map.mpr ⟨row, hrow, if_neg fun hreset => hv ?_⟩
          exact hrowv.symm.trans (hreset.1.trans hid)

/-! ### The property -/

/-- A step that creates no trial keeps the orders of trials, and the last reset of every user who
    had one since. -/
theorem OneTrial.keep (h : s.OneTrial) {s' : TrialState} (hinv : s'.Inv)
    (hcreated : s'.created = s.created)
    (hsince : ∀ u, s'.sinceReset u = s.sinceReset u ∨ s'.sinceReset u = 0)
    (horders : ∀ o ∈ s.db.orders, o.metadata.isTrial = true → o ∈ s'.db.orders)
    (hcount : ∀ u, s.db.orders.countP (Backs u) ≤ s'.db.orders.countP (Backs u))
    (hreset : ∀ u, 0 < s'.sinceReset u →
      (s'.db.user u).bind User.lastTrialResetAt = (s.db.user u).bind User.lastTrialResetAt) :
    s'.OneTrial := by
  refine ⟨hinv.once, fun u => ?_, fun u hu => ?_⟩
  · rw [hcreated]
    exact (h.backed u).trans (hcount u)
  · have hold : 0 < s.sinceReset u := by
      rcases hsince u with hsame | hzero
      · rwa [← hsame]
      · omega
    exact Db.hasEverActivatedTrial_mono horders (hreset u hu) (h.remembered u hold)

/-- A step that changes neither the users nor the orders. -/
theorem OneTrial.same (h : s.OneTrial) {s' : TrialState} (hinv : s'.Inv)
    (hcreated : s'.created = s.created) (hsince : s'.sinceReset = s.sinceReset)
    (husers : s'.db.users = s.db.users) (horders : s'.db.orders = s.db.orders) : s'.OneTrial := by
  refine h.keep hinv hcreated (fun u => .inl (by rw [hsince])) (fun o ho _ => horders ▸ ho)
    (fun u => by rw [horders]) fun u _ => ?_
  rw [Db.user, Db.user, husers]

/-- An activation that creates a trial remembers it exactly when the checkout did not refuse. -/
theorem OneTrial.activate_iff (hinv : s.Inv) (h : s.OneTrial)
    (hpast : ∀ user ∈ s.db.users, ∀ reset ∈ user.lastTrialResetAt, reset < s.clock)
    {env : ServiceEnv} (tariffId : TariffId) {newOrder : OrderId} {newSub : ℕ} (newUuid : Uuid)
    (hfresh : FreshIds s.db newOrder newSub) (hoffered : s.db.TrialOffered env u) {user : User}
    (huser : s.db.user u = some user) :
    (s.act (.activate env tariffId u newOrder newSub newUuid)).OneTrial ↔
      user.financialHold = false ∧ user.topupBlocked = false := by
  have hinv' := hinv.act (.activate env tariffId u newOrder newSub newUuid)
  obtain ⟨origin, hact⟩ := act_activate tariffId newUuid hfresh huser hoffered
  rw [hact] at hinv' ⊢
  constructor
  · intro h'
    by_contra hrestricted
    have hrefused : user.financialHold = true ∨ user.topupBlocked = true := by
      rcases Bool.eq_false_or_eq_true user.financialHold with hhold | hhold
      · exact .inl hhold
      · exact .inr (Bool.eq_true_of_not_eq_false fun hfree => hrestricted ⟨hhold, hfree⟩)
    have hremembered := h'.remembered u (by simp)
    rw [if_pos hrefused] at hremembered
    -- nothing was written that could be remembered
    have hused : s.db.hasEverActivatedTrial u = true := hremembered
    rw [hoffered.2.1] at hused
    cases hused
  · rintro ⟨hhold, hfree⟩
    have hallowed : ¬ (user.financialHold = true ∨ user.topupBlocked = true) := by
      simp [hhold, hfree]
    have hid : user.id = u := Lib.Table.key_of_lookup User.id huser
    rw [if_neg hallowed] at hinv' ⊢
    refine ⟨hinv'.once, fun v => ?_, fun v hv => ?_⟩
    · show Function.update s.created u (s.created u + 1) v ≤
        (s.db.orders ++ [Db.trialOrder tariffId newOrder user.id s.clock]).countP (Backs v)
      rw [List.countP_append]
      by_cases hvu : v = u
      · subst hvu
        have hbacks : Backs v (Db.trialOrder tariffId newOrder user.id s.clock) :=
          ⟨hid, rfl, rfl, rfl, rfl⟩
        rw [Function.update_self, List.countP_singleton, if_pos (decide_eq_true hbacks)]
        exact Nat.add_le_add_right (h.backed v) 1
      · rw [Function.update_of_ne hvu]
        exact (h.backed v).trans (Nat.le_add_right _ _)
    · by_cases hvu : v = u
      · subst hvu
        have hranged := hinv.ranged user (Lib.Table.mem_of_lookup _ huser)
        rw [hid] at hranged
        refine (Db.hasEverActivatedTrial_iff hranged).mpr ⟨_, List.mem_append_right _
          List.mem_cons_self, hid, rfl, rfl, fun reset hreset => ?_, rfl⟩
        have hmem : reset ∈ (s.db.user v).bind User.lastTrialResetAt := hreset
        rw [huser] at hmem
        exact hpast user (Lib.Table.mem_of_lookup _ huser) reset hmem
      · have hold : 0 < s.sinceReset v := by
          simpa only [Function.update_of_ne hvu] using hv
        exact Db.hasEverActivatedTrial_mono (fun o ho _ => List.mem_append_left _ ho) rfl
          (h.remembered v hold)

/-- A step keeps the property exactly when it activates no trial for a restricted user. -/
theorem oneTrial_act_iff (hinv : s.Inv) (h : s.OneTrial)
    (hpast : ∀ user ∈ s.db.users, ∀ reset ∈ user.lastTrialResetAt, reset < s.clock)
    (e : TrialEvent) : (s.act e).OneTrial ↔ s.Unrestricted e := by
  have hinv' := hinv.act e
  cases e with
  | register user =>
    refine iff_of_true ?_ (fun _ _ _ _ _ _ heq => by cases heq)
    rw [act] at hinv' ⊢
    split_ifs at hinv' ⊢ with hnew
    · exact h
    · refine h.keep hinv' rfl (fun _ => .inl rfl) (fun _ ho _ => ho) (fun _ => le_rfl) fun u _ => ?_
      have hreset : user.lastTrialResetAt = none := by
        simpa using (not_or.mp (not_or.mp (not_or.mp hnew).2).2).2
      simp only [Db.user, Lib.Table.lookup_append]
      cases Lib.Table.lookup User.id u s.db.users with
      | some old => rfl
      | none =>
        rw [Option.none_or]
        split_ifs
        · exact hreset
        · rfl
  | restrict u isBanned isDeleted financialHold topupBlocked =>
    refine iff_of_true ?_ (fun _ _ _ _ _ _ heq => by cases heq)
    rw [act] at hinv' ⊢
    cases huser : s.db.user u with
    | none => exact h
    | some user =>
      simp only [huser] at hinv'
      refine h.keep hinv' rfl (fun _ => .inl rfl) (fun _ ho _ => ho) (fun _ => le_rfl) fun v _ => ?_
      have hid : user.id = u := Lib.Table.key_of_lookup User.id huser
      by_cases hv : v = u
      · subst hv
        have hput : (s.db.putUser { user with
            isBanned := isBanned, isDeleted := isDeleted, financialHold := financialHold
            topupBlocked := topupBlocked }).user v = some { user with
            isBanned := isBanned, isDeleted := isDeleted, financialHold := financialHold
            topupBlocked := topupBlocked } := Lib.Table.lookup_put_self User.id huser hid
        exact (congrArg (Option.bind · User.lastTrialResetAt) hput).trans (by rw [huser]; rfl)
      · rw [Db.user_putUser_of_ne (by rw [hid]; exact hv)]
  | order o =>
    refine iff_of_true ?_ (fun _ _ _ _ _ _ heq => by cases heq)
    rw [act] at hinv' ⊢
    split_ifs at hinv' ⊢ with htrial
    · exact h
    · obtain ⟨-, hnot⟩ := not_or.mp htrial
      have hstays : ∀ x ∈ s.db.orders, x.metadata.isTrial = true → x.id ≠ o.id :=
        fun x hx hxt hid => hnot ⟨x, hx, hid, hxt⟩
      refine h.keep hinv' rfl (fun _ => .inl rfl) (fun x hx hxt => ?_) (fun u => ?_) fun _ _ => rfl
      · exact List.mem_append_left _ (List.mem_filter.mpr ⟨hx, decide_eq_true (hstays x hx hxt)⟩)
      · rw [List.countP_append, List.countP_filter]
        refine (List.countP_mono_left fun x hx hbacks => ?_).trans (Nat.le_add_right _ _)
        have hbacks := of_decide_eq_true hbacks
        simpa using ⟨hbacks, hstays x hx hbacks.2.2.2.2⟩
  | purchase u origin newSub newUuid =>
    refine iff_of_true ?_ (fun _ _ _ _ _ _ heq => by cases heq)
    rw [act] at hinv' ⊢
    split_ifs at hinv' ⊢
    · exact h
    · exact h.same hinv' rfl rfl rfl rfl
  | row id e =>
    refine iff_of_true ?_ (fun _ _ _ _ _ _ heq => by cases heq)
    rw [act] at hinv' ⊢
    split_ifs at hinv' ⊢
    · exact h
    · exact h.same hinv' rfl rfl rfl rfl
  | activate env tariffId u newOrder newSub newUuid =>
    by_cases hgo : FreshIds s.db newOrder newSub ∧ s.db.TrialOffered env u
    · obtain ⟨user, huser, -⟩ := hgo.2.1
      rw [OneTrial.activate_iff hinv h hpast tariffId newUuid hgo.1 hgo.2 huser]
      constructor
      · rintro hfree _ _ _ _ _ _ ⟨⟩ - - user' huser'
        rw [Option.mem_def, huser] at huser'
        cases huser'
        exact hfree
      · intro hfree
        exact hfree env tariffId u newOrder newSub newUuid rfl hgo.1 hgo.2 user huser
    · rw [act_activate_refused tariffId newUuid hgo]
      refine iff_of_true h ?_
      rintro _ _ _ _ _ _ ⟨⟩ hfresh hoffered
      exact (hgo ⟨hfresh, hoffered⟩).elim
  | reset u =>
    refine iff_of_true ?_ (fun _ _ _ _ _ _ heq => by cases heq)
    rcases s.act_reset u with hsame | ⟨user, huser, hact⟩
    · rw [hsame]
      exact h
    · rw [hact] at hinv' ⊢
      have hid : user.id = u := Lib.Table.key_of_lookup User.id huser
      refine h.keep hinv' rfl (fun v => ?_) (fun _ ho _ => ho) (fun _ => le_rfl) fun v hv => ?_
      · by_cases hv : v = u
        · exact .inr (by simp only [hv, Function.update_self])
        · exact .inl (Function.update_of_ne hv ..)
      · have hvu : v ≠ user.id := by
          rintro rfl
          rw [hid] at hv
          simp at hv
        exact congrArg (Option.bind · User.lastTrialResetAt) (Db.user_putUser_of_ne hvu)

/-- One origin with a free place. -/
def oneOrigin : ServiceEnv where
  servers := [{ id := 1, apiUrl := "https://origin", apiKey := "key", protocol := xrayProtocol
                maxClients := 1, capabilities := [xrayOriginCapability], relays := [some "de"] }]
  isAdmin := fun _ => false

end TrialState

end Just1kBot
