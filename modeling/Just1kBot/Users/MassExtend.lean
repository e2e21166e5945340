import Just1kBot.Orders.Access
import Just1kBot.Users.MassBonus
import Just1kBot.Users.MassExtendClicks
import Just1kBot.Vless.AccessSync

/-! The mass extension: the audience filter and `_run_mass_extend_background` of
    `bot/handlers/admin/users/mass_extend.py`.

    The run selects its users by a condition, and then goes through them, in a savepoint each, with
    a chain of branches that decides again what to extend. Between two users other transactions
    may commit. Within one user's savepoint the clock is read once. -/

namespace Just1kBot
open Lib

/-- `target_aud`. A text after `server_` that is no number is read as `-1`. -/
inductive ExtendAudience
  | activeStandard | activeWi | activeAll | server (id : ℤ)
  deriving DecidableEq, Repr

namespace WhiteInternetSubscription

/-- The dispatch may extend the row: `status == ACTIVE`, unexpired and no trial. -/
def Extendable (now : Time) (sub : WhiteInternetSubscription) : Prop :=
  sub.isTrial = false ∧ sub.status = .active ∧ now < sub.expiresAt

instance (now : Time) : DecidablePred (Extendable now) := fun s => by
  unfold Extendable; infer_instance

/-- The row puts its user into the audience of active White Internet users. -/
def InAudience (now : Time) (sub : WhiteInternetSubscription) : Prop :=
  sub.status = .active ∧ sub.expiresAt > now ∧ sub.isTrial = false ∧
    sub.provisioningStatus ≠ .pendingDelete

instance (now : Time) : DecidablePred (InAudience now) := fun s => by
  unfold InAudience; infer_instance

theorem inAudience_iff {now : Time} {sub : WhiteInternetSubscription} :
    sub.InAudience now ↔ sub.Extendable now ∧ sub.provisioningStatus ≠ .pendingDelete := by
  rw [InAudience, Extendable]
  tauto

end WhiteInternetSubscription

/-! ### The run -/

namespace AudienceDb
variable (t : AudienceDb)

/-- `_build_mass_extend_audience_filter`. -/
def massExtendFilter (aud : ExtendAudience) (now : Time) (server : Option Server) (u : User) :
    Sql.Cond :=
  match aud with
  | .activeStandard => Db.endsAfter now u
  | .activeWi => t.db.inWhiteInternet (·.InAudience now) u
  | .activeAll => Sql.or (Db.endsAfter now u) (t.db.inWhiteInternet (·.InAudience now) u)
  | .server _ =>
    match server with
    | none => Sql.ofProp False
    | some s =>
      s.byRole (Sql.and (Db.endsAfter now u) (t.hasVless (t.seenProfile s.id) u))
        (t.db.inWhiteInternet (fun sub => sub.originNodeId = some s.id ∧ sub.InAudience now) u)

/-- `session.get(Server, srv_id)`. -/
def extendServer : ExtendAudience → Option Server
  | .server id => if id < 0 then none else Table.lookup Server.id id.toNat t.servers
  | _ => none

/-- The users the run selects, with their Telegram ids, by their ids. -/
def extendUsers (aud : ExtendAudience) (now : Time) : List (UserId × TelegramId) :=
  ((t.selectRows (t.massExtendFilter aud now (t.extendServer aud))).map
    fun u => (u.id, u.telegramId)).insertionSort fun a b => a.1 ≤ b.1

end AudienceDb

namespace Db
variable (db : Db)

/-- `extend_subscription` as the run calls it. -/
def extendStandard (now : Time) (tgId : TelegramId) (n : ℕ) : Option User × Db :=
  match db.users.find? fun u => u.telegramId = tgId ∧ u.isDeleted = false with
  | none => (none, db)
  | some u =>
    let u' := extendSubscription now n none none u
    (some u', (db.putUser u').syncAccessState now u')

/-- `extend_subscription_atomic` on the row with this id. -/
def extendXrayRow (now : Time) (id : ℕ) (n : ℕ) : Except Err Db :=
  match db.whiteInternet.subscription id with
  | none => .error (.subscriptionNotFound s!"Subscription {id} not found")
  | some sub => (sub.extend n now).map fun sub' =>
      { db with whiteInternet := db.whiteInternet.putSubscription sub' }

/-- The White Internet part of the dispatch: the user's latest row, if it is active. -/
def extendXray (now : Time) (uid : UserId) (n : ℕ) : Except Err (Bool × Db) :=
  match db.whiteInternet.subscriptionByUserId uid with
  | none => .ok (false, db)
  | some sub =>
    if sub.Extendable now then (db.extendXrayRow now sub.id n).map fun db => (true, db)
    else .ok (false, db)

/-- The standard part of the dispatch, for a user who has access. -/
def extendActive (now : Time) (u : User) (tgId : TelegramId) (n : ℕ) : Bool × Db :=
  if ∃ e ∈ u.subscriptionEnd, now < e then
    let r := db.extendStandard now tgId n
    (r.1.isSome, r.2)
  else (false, db)

/-- One user of the run: whether something was extended, and the database. -/
def extendUser (aud : ExtendAudience) (server : Option Server) (now : Time) (n : ℕ)
    (uid : UserId) (tgId : TelegramId) : Except Err (Bool × Db) :=
  match db.user uid with
  | none => .ok (false, db)
  | some u =>
    if u.isDeleted ∨ u.isBanned then .ok (false, db)
    else
      match aud with
      | .activeStandard => .ok (db.extendActive now u tgId n)
      | .activeWi => db.extendXray now uid n
      | .activeAll =>
        let r := db.extendActive now u tgId n
        (r.2.extendXray now uid n).map fun r' => (r.1 || r'.1, r'.2)
      | .server _ =>
        match server with
        | none => .ok (false, db)
        | some s =>
          if s.isWhiteInternetOrigin then db.extendXray now uid n
          else if s.isVlessCapable then .ok (db.extendActive now u tgId n)
          else .ok (false, db)

end Db

/-- What a run meets on its way: when a user is processed, whether the database refuses, and what
    others have committed since the user before. -/
structure RunEnv where
  clock : UserId → Time
  fails : UserId → Bool := fun _ => false
  others : UserId → AudienceDb → AudienceDb := fun _ t => t

/-- One user, in a savepoint of their own. -/
def extendStep (aud : ExtendAudience) (server : Option Server) (n : ℕ) (env : RunEnv)
    (t : AudienceDb) (user : UserId × TelegramId) : AudienceDb :=
  let t := env.others user.1 t
  if env.fails user.1 then t
  else { t with db := commit t.db (t.db.extendUser aud server (env.clock user.1) n user.1 user.2) }

/-- `_run_mass_extend_background`: a server that is gone ends the run. -/
def AudienceDb.runMassExtend (t : AudienceDb) (aud : ExtendAudience) (now : Time) (n : ℕ)
    (env : RunEnv) : AudienceDb :=
  (Paging.chunks 50 (t.extendUsers aud now)).foldl
    (fun t' chunk => chunk.foldl (extendStep aud (t.extendServer aud) n env) t') t

/-! ### What one user's turn does -/

/-- The keys of the tables are unique and fit their columns, and each user has the Telegram id `tg`
    that they signed up with. -/
structure Consistent (tg : UserId → TelegramId) (db : Db) : Prop where
  users : (db.users.map (·.id)).Nodup
  telegram : (db.users.map (·.telegramId)).Nodup
  signedUp : ∀ u ∈ db.users, u.telegramId = tg u.id
  userRange : ∀ u ∈ db.users, 1 ≤ u.id ∧ u.id ≤ 2147483647
  subs : (db.whiteInternet.subscriptions.map (·.id)).Nodup
  subRange : ∀ sub ∈ db.whiteInternet.subscriptions, 1 ≤ sub.id ∧ sub.id ≤ 2147483647

/-- Standard access of `u` moves by `n` days if `std`, and no other user's row changes. -/
structure UserOutcome (n : ℕ) (u : User) (std : Prop) (db db' : Db) : Prop where
  extended : std → (db'.user u.id).map (·.subscriptionEnd) =
    some (u.subscriptionEnd.map (· + days n))
  same : ¬ std → db'.user u.id = some u
  others : ∀ v, v ≠ u.id → db'.user v = db.user v

/-- The rows of the user in `row` move by `n` days, and no other White Internet row changes. -/
structure RowOutcome (n : ℕ) (uid : UserId) (row : WhiteInternetSubscription → Prop)
    (t t' : WhiteInternetTables) : Prop where
  extended : ∀ sub ∈ t.subscriptions, sub.userId = uid → row sub →
    (t'.subscription sub.id).map (·.expiresAt) = some (sub.expiresAt + days n)
  same : ∀ sub ∈ t.subscriptions, ¬ (sub.userId = uid ∧ row sub) →
    t'.subscription sub.id = some sub

namespace Consistent
variable {tg : UserId → TelegramId} {db : Db} (h : Consistent tg db)
include h

theorem user_of_mem {u : User} (hu : u ∈ db.users) : db.user u.id = some u :=
  Table.lookup_of_mem User.id h.users hu

theorem subscription_of_mem {sub : WhiteInternetSubscription}
    (hsub : sub ∈ db.whiteInternet.subscriptions) :
    db.whiteInternet.subscription sub.id = some sub := by
  have hrange := h.subRange sub hsub
  rw [WhiteInternetTables.subscription, if_neg (by omega)]
  exact Table.lookup_of_mem WhiteInternetSubscription.id h.subs hsub

/-- A user who is not deleted is found under their Telegram id. -/
theorem find_telegram {u : User} (hu : u ∈ db.users) (hdel : u.isDeleted = false) :
    (db.users.find? fun v => v.telegramId = u.telegramId ∧ v.isDeleted = false) = some u := by
  rcases hf : db.users.find? fun v => v.telegramId = u.telegramId ∧ v.isDeleted = false with _ | v
  · have hno := List.find?_eq_none.mp hf u hu
    simp [hdel] at hno
  · have hv := List.find?_some hf
    have htg : v.telegramId = u.telegramId := by
      simp only [decide_eq_true_eq] at hv
      exact hv.1
    exact hf.trans (congrArg some
      (List.inj_on_of_nodup_map h.telegram (List.mem_of_find?_eq_some hf) hu htg))

/-- Writing a user back keeps the keys. -/
theorem putUser {u u' : User} (hu : u ∈ db.users) (hid : u'.id = u.id)
    (htg : u'.telegramId = u.telegramId) : Consistent tg (db.putUser u') := by
  have hids : (db.putUser u').users.map (·.id) = db.users.map (·.id) :=
    Table.map_key_put User.id u' db.users
  have htgs : (db.putUser u').users.map (·.telegramId) = db.users.map (·.telegramId) := by
    rw [Db.putUser, Table.put, Table.modify, List.map_map]
    refine List.map_congr_left fun v hv => ?_
    by_cases hv' : v.id = u'.id
    · have : v = u := List.inj_on_of_nodup_map h.users hv hu (hv'.trans hid)
      simp [hid, this, htg]
    · simp [hv']
  refine ⟨by rw [hids]; exact h.users, by rw [htgs]; exact h.telegram, ?_, ?_, h.subs, h.subRange⟩
  · intro v hv
    rcases Table.mem_put User.id hv with rfl | hv
    · rw [htg, hid]
      exact h.signedUp u hu
    · exact h.signedUp v hv
  · intro v hv
    rcases Table.mem_put User.id hv with rfl | hv
    · rw [hid]
      exact h.userRange u hu
    · exact h.userRange v hv

theorem putSubscription {sub sub' : WhiteInternetSubscription}
    (hsub : sub ∈ db.whiteInternet.subscriptions) (hid : sub'.id = sub.id) :
    Consistent tg { db with whiteInternet := db.whiteInternet.putSubscription sub' } where
  users := h.users
  telegram := h.telegram
  signedUp := h.signedUp
  userRange := h.userRange
  subs := by
    rw [WhiteInternetTables.putSubscription]
    exact (Table.map_key_put WhiteInternetSubscription.id sub' _).symm ▸ h.subs
  subRange := by
    intro row hrow
    rcases Table.mem_put WhiteInternetSubscription.id hrow with rfl | hrow
    · rw [hid]
      exact h.subRange sub hsub
    · exact h.subRange row hrow

end Consistent

section Turn
variable {tg : UserId → TelegramId} {db : Db} {now : Time} {n : ℕ} {u : User}

theorem calculateExtensionEnd_later {e : Time} {n : ℕ} (hn : n < 36500) (he : now < e) :
    calculateExtensionEnd (some e) n now = e + days n := by
  have hperm : ¬ permanentSubscriptionDays ≤ (n : ℤ) := by
    rw [permanentSubscriptionDays]
    omega
  simp [calculateExtensionEnd, hperm, he]

theorem extendSubscription_later {e : Time} (hn : 0 < n) (hn' : n < 36500)
    (hu : u.subscriptionEnd = some e) (he : now < e) :
    (extendSubscription now n none none u).subscriptionEnd = some (e + days n) := by
  have hperm : ¬ permanentSubscriptionDays ≤ (n : ℤ) := by
    rw [permanentSubscriptionDays]
    omega
  simp [extendSubscription, hn.ne', hperm, hu, he, Option.filter]

/-- The row after `extend_subscription_atomic`, where the dispatch calls it. -/
theorem WhiteInternetSubscription.extend_of_extendable {sub : WhiteInternetSubscription}
    (hn : 0 < n) (hn' : n < 36500) (h : sub.Extendable now) :
    ∃ sub', sub.extend n now = .ok sub' ∧ sub'.id = sub.id ∧ sub'.userId = sub.userId ∧
      sub'.expiresAt = sub.expiresAt + days n := by
  obtain ⟨htrial, hactive, hlater⟩ := h
  refine ⟨{ sub.clearNotified with
    expiresAt := calculateExtensionEnd sub.expiresAt n now
    desiredVersion := sub.desiredVersion + 1 }, ?_, rfl, rfl,
    calculateExtensionEnd_later hn' hlater⟩
  have hpos : ¬ (n : ℤ) < 1 := by omega
  simp [WhiteInternetSubscription.extend, hpos, htrial, hactive, not_le.mpr hlater]

/-- The VLESS table has no say in the keys. -/
theorem Consistent.syncAccessState (h : Consistent tg db) (now : Time) (user : User) :
    Consistent tg (db.syncAccessState now user) := by
  obtain ⟨vless, heq⟩ := db.syncAccessState_eq now user
  rw [heq]
  exact ⟨h.users, h.telegram, h.signedUp, h.userRange, h.subs, h.subRange⟩

/-- The standard part of a turn. -/
theorem extendActive_outcome (now : Time) (h : Consistent tg db) (hu : u ∈ db.users)
    (hdel : u.isDeleted = false) (hn : 0 < n) (hn' : n < 36500) :
    UserOutcome n u (∃ e ∈ u.subscriptionEnd, now < e) db (db.extendActive now u u.telegramId n).2 ∧
      (db.extendActive now u u.telegramId n).2.whiteInternet = db.whiteInternet ∧
      Consistent tg (db.extendActive now u u.telegramId n).2 := by
  rw [Db.extendActive]
  split
  · next hlater =>
    simp only [Db.extendStandard, h.find_telegram hu hdel]
    have hput : (db.putUser (extendSubscription now n none none u)).user u.id =
        some (extendSubscription now n none none u) := Db.user_putUser (h.user_of_mem hu) rfl
    have hkeys : Consistent tg (db.putUser (extendSubscription now n none none u)) :=
      h.putUser hu rfl rfl
    refine ⟨⟨fun _ => ?_, fun hno => absurd hlater hno, fun v hv => ?_⟩, ?_, ?_⟩
    · obtain ⟨e, he, hnow⟩ := hlater
      rw [Db.user_syncAccessState, hput, Option.map_some,
        extendSubscription_later hn hn' he hnow, he]
      rfl
    · rw [Db.user_syncAccessState]
      exact Table.lookup_put_ne User.id _ hv
    · obtain ⟨vless, heq⟩ :=
        (db.putUser (extendSubscription now n none none u)).syncAccessState_eq now
          (extendSubscription now n none none u)
      rw [heq]
      rfl
    · exact hkeys.syncAccessState _ _
  · next hno =>
    exact ⟨⟨fun hyes => absurd hyes hno, fun _ => h.user_of_mem hu, fun _ _ => rfl⟩, rfl, h⟩

/-- The row that the White Internet part of a turn extends. -/
def DispatchRow (t : WhiteInternetTables) (now : Time) (uid : UserId)
    (sub : WhiteInternetSubscription) : Prop :=
  t.subscriptionByUserId uid = some sub ∧ sub.Extendable now

/-- The White Internet part of a turn. -/
theorem extendXray_outcome (now : Time) (h : Consistent tg db) (uid : UserId) (hn : 0 < n)
    (hn' : n < 36500) :
    ∃ b t', db.extendXray now uid n = .ok (b, { db with whiteInternet := t' }) ∧
      RowOutcome n uid (DispatchRow db.whiteInternet now uid) db.whiteInternet t' ∧
      Consistent tg { db with whiteInternet := t' } := by
  have hnothing : (∀ sub, ¬ DispatchRow db.whiteInternet now uid sub) →
      RowOutcome n uid (DispatchRow db.whiteInternet now uid) db.whiteInternet db.whiteInternet :=
    fun hno => ⟨fun sub _ _ hrow => absurd hrow (hno sub),
      fun sub hsub _ => h.subscription_of_mem hsub⟩
  rcases hlatest : db.whiteInternet.subscriptionByUserId uid with _ | sub
  · refine ⟨false, db.whiteInternet, by rw [Db.extendXray, hlatest], hnothing ?_, h⟩
    intro sub hrow
    cases hlatest.symm.trans hrow.1
  · by_cases hext : sub.Extendable now
    · obtain ⟨hmem, hsubu⟩ := WhiteInternetTables.mem_of_subscriptionByUserId hlatest
      obtain ⟨sub', hok, hid, huser, hexp⟩ := sub.extend_of_extendable hn hn' hext
      have hfound := h.subscription_of_mem hmem
      refine ⟨true, db.whiteInternet.putSubscription sub', ?_, ⟨?_, ?_⟩,
        h.putSubscription hmem hid⟩
      · simp [Db.extendXray, hlatest, hext, Db.extendXrayRow, hfound, hok, Except.map]
      · rintro row - - ⟨hrow, -⟩
        obtain rfl := Option.some.inj (hlatest.symm.trans hrow)
        rw [WhiteInternetTables.subscription_putSubscription hfound hid, if_pos rfl,
          Option.map_some, hexp]
      · intro row hrow hother
        rw [WhiteInternetTables.subscription_putSubscription hfound hid, if_neg ?_]
        · exact h.subscription_of_mem hrow
        · intro hkey
          obtain rfl := List.inj_on_of_nodup_map h.subs hrow hmem hkey
          exact hother ⟨hsubu, hlatest, hext⟩
    · refine ⟨false, db.whiteInternet, ?_, hnothing ?_, h⟩
      · simp [Db.extendXray, hlatest, hext]
      · rintro row ⟨hrow, hrowext⟩
        obtain rfl := Option.some.inj (hlatest.symm.trans hrow)
        exact hext hrowext

end Turn

/-! ### A turn against the audience -/

namespace AudienceDb
variable (t : AudienceDb)

/-- Standard access puts the user into the audience. -/
def StandardPart (aud : ExtendAudience) (server : Option Server) (now : Time) (u : User) : Prop :=
  match aud with
  | .activeStandard | .activeAll => ∃ e ∈ u.subscriptionEnd, now < e
  | .activeWi => False
  | .server _ => ∃ s ∈ server, s.isVlessCapable = true ∧ t.VlessSeen now u s.id

/-- The White Internet row puts its user into the audience. -/
def XrayPart (aud : ExtendAudience) (server : Option Server) (now : Time)
    (sub : WhiteInternetSubscription) : Prop :=
  match aud with
  | .activeStandard => False
  | .activeWi | .activeAll => sub.InAudience now
  | .server _ => ∃ s ∈ server, s.isWhiteInternetOrigin = true ∧ sub.originNodeId = some s.id ∧
      sub.InAudience now

/-- The filter selects a user by one of the two parts. -/
theorem holds_massExtendFilter {aud : ExtendAudience} {server : Option Server} {now : Time}
    {u : User} :
    Sql.Holds (t.massExtendFilter aud now server u) ↔
      t.StandardPart aud server now u ∨
        ∃ sub ∈ t.db.whiteInternet.subscriptions, sub.userId = u.id ∧
          XrayPart aud server now sub := by
  cases aud with
  | activeStandard => simp [massExtendFilter, StandardPart, XrayPart, Db.holds_endsAfter]
  | activeWi => simp [massExtendFilter, StandardPart, XrayPart]
  | activeAll => simp [massExtendFilter, StandardPart, XrayPart, Db.holds_endsAfter]
  | server id =>
    rcases server with _ | s
    · simp [massExtendFilter, StandardPart, XrayPart]
    · simp only [massExtendFilter, Server.holds_byRole, Sql.holds_and, Db.holds_endsAfter, hasVless,
        Sql.holds_ofProp, Db.holds_inWhiteInternet, StandardPart, XrayPart, Option.mem_some_iff,
        exists_eq_left', VlessSeen]
      refine or_congr Iff.rfl ?_
      constructor
      · rintro ⟨hw, sub, hsub, hu, horigin, haud⟩
        exact ⟨sub, hsub, hu, hw, horigin, haud⟩
      · rintro ⟨sub, hsub, hu, hw, horigin, haud⟩
        exact ⟨hw, sub, hsub, hu, horigin, haud⟩

end AudienceDb

/-- The dispatch extends standard access. -/
def DispatchStandard (aud : ExtendAudience) (server : Option Server) (now : Time) (u : User) :
    Prop :=
  match aud with
  | .activeStandard | .activeAll => ∃ e ∈ u.subscriptionEnd, now < e
  | .activeWi => False
  | .server _ => ∃ s ∈ server, s.isWhiteInternetOrigin = false ∧ s.isVlessCapable = true ∧
      ∃ e ∈ u.subscriptionEnd, now < e

/-- The dispatch looks at the White Internet row. -/
def DispatchXray (aud : ExtendAudience) (server : Option Server) : Prop :=
  match aud with
  | .activeStandard => False
  | .activeWi | .activeAll => True
  | .server _ => ∃ s ∈ server, s.isWhiteInternetOrigin = true

section Dispatch
variable {tg : UserId → TelegramId} {db db' : Db} {now : Time} {n : ℕ} {u : User}

theorem UserOutcome.congr {p q : Prop} (h : UserOutcome n u p db db') (hpq : p ↔ q) :
    UserOutcome n u q db db' :=
  propext hpq ▸ h

theorem UserOutcome.of_users {p : Prop} {db₁ : Db} (h : UserOutcome n u p db db')
    (hsame : db₁.users = db'.users) : UserOutcome n u p db db₁ where
  extended := by simpa only [Db.user, hsame] using h.extended
  same := by simpa only [Db.user, hsame] using h.same
  others := by simpa only [Db.user, hsame] using h.others

theorem UserOutcome.nothing (h : Consistent tg db) (hu : u ∈ db.users) :
    UserOutcome n u False db db :=
  ⟨False.elim, fun _ => h.user_of_mem hu, fun _ _ => rfl⟩

theorem RowOutcome.congr {uid : UserId} {p q : WhiteInternetSubscription → Prop}
    {t t' : WhiteInternetTables} (h : RowOutcome n uid p t t')
    (hpq : ∀ sub ∈ t.subscriptions, sub.userId = uid → (p sub ↔ q sub)) :
    RowOutcome n uid q t t' where
  extended := fun sub hsub hu hq => h.extended sub hsub hu ((hpq sub hsub hu).mpr hq)
  same := fun sub hsub hno => h.same sub hsub
    fun ⟨hu, hp⟩ => hno ⟨hu, (hpq sub hsub hu).mp hp⟩

theorem RowOutcome.nothing (h : Consistent tg db) (uid : UserId) :
    RowOutcome n uid (fun _ => False) db.whiteInternet db.whiteInternet :=
  ⟨fun _ _ _ => False.elim, fun _ hsub _ => h.subscription_of_mem hsub⟩

/-- One user's turn. -/
theorem extendUser_outcome (aud : ExtendAudience) (server : Option Server) (now : Time)
    (h : Consistent tg db) (hu : u ∈ db.users) (hel : AudienceDb.Eligible u) (hn : 0 < n)
    (hn' : n < 36500) :
    ∃ b db', db.extendUser aud server now n u.id u.telegramId = .ok (b, db') ∧
      UserOutcome n u (DispatchStandard aud server now u) db db' ∧
      RowOutcome n u.id
        (fun sub => DispatchXray aud server ∧ DispatchRow db.whiteInternet now u.id sub)
        db.whiteInternet db'.whiteInternet ∧
      Consistent tg db' := by
  have huser : db.user u.id = some u := h.user_of_mem hu
  have hskip : ¬ (u.isDeleted = true ∨ u.isBanned = true) := by simp [hel.1, hel.2]
  obtain ⟨hstd, hwi, hkeys⟩ := extendActive_outcome now h hu hel.1 hn hn'
  have hnorow : ∀ {t'}, RowOutcome n u.id (fun _ => False) db.whiteInternet t' →
      ¬ DispatchXray aud server → RowOutcome n u.id
        (fun sub => DispatchXray aud server ∧ DispatchRow db.whiteInternet now u.id sub)
        db.whiteInternet t' :=
    fun hrow hno => hrow.congr fun sub _ _ => ⟨False.elim, fun hd => hno hd.1⟩
  have hrow : DispatchXray aud server → ∀ {t'},
      RowOutcome n u.id (DispatchRow db.whiteInternet now u.id) db.whiteInternet t' →
      RowOutcome n u.id
        (fun sub => DispatchXray aud server ∧ DispatchRow db.whiteInternet now u.id sub)
        db.whiteInternet t' :=
    fun hx _ hr => hr.congr fun sub _ _ => ⟨fun hd => ⟨hx, hd⟩, fun hd => hd.2⟩
  have hkept : RowOutcome n u.id (fun _ => False) db.whiteInternet
      (db.extendActive now u u.telegramId n).2.whiteInternet := by
    rw [hwi]
    exact .nothing h u.id
  simp only [Db.extendUser, huser, if_neg hskip]
  cases aud with
  | activeStandard => exact ⟨_, _, rfl, hstd, hnorow hkept id, hkeys⟩
  | activeWi =>
    obtain ⟨b, t', heq, hr, hkeys'⟩ := extendXray_outcome now h u.id hn hn'
    exact ⟨b, _, heq, (UserOutcome.nothing h hu).of_users rfl, hrow trivial hr, hkeys'⟩
  | activeAll =>
    obtain ⟨b, t', heq, hr, hkeys'⟩ := extendXray_outcome now hkeys u.id hn hn'
    rw [hwi] at hr
    rw [heq]
    exact ⟨_, _, rfl, hstd.of_users rfl, hrow trivial hr, hkeys'⟩
  | server id =>
    rcases server with _ | s
    · have hno : ¬ DispatchXray (.server id) none := by rintro ⟨s, hs, -⟩; cases hs
      refine ⟨_, _, rfl, (UserOutcome.nothing h hu).congr ⟨False.elim, ?_⟩,
        hnorow (.nothing h _) hno, h⟩
      rintro ⟨s, hs, -⟩
      cases hs
    · dsimp only
      split
      · next hw =>
        obtain ⟨b, t', heq, hr, hkeys'⟩ := extendXray_outcome now h u.id hn hn'
        refine ⟨b, _, heq, .congr ((UserOutcome.nothing h hu).of_users rfl) ⟨False.elim, ?_⟩,
          hrow ⟨s, rfl, hw⟩ hr, hkeys'⟩
        rintro ⟨_, ⟨⟩, hw', -⟩
        simp [hw] at hw'
      · next hw =>
        have hno : ¬ DispatchXray (.server id) (some s) := by rintro ⟨_, ⟨⟩, hw'⟩; exact hw hw'
        split
        · next hv =>
          refine ⟨_, _, rfl, hstd.congr ⟨fun hend => ⟨s, rfl, by simpa using hw, hv, hend⟩, ?_⟩,
            hnorow hkept hno, hkeys⟩
          rintro ⟨_, ⟨⟩, -, -, hend⟩
          exact hend
        · next hv =>
          refine ⟨_, _, rfl, (UserOutcome.nothing h hu).congr ⟨False.elim, ?_⟩,
            hnorow (.nothing h _) hno, h⟩
          rintro ⟨_, ⟨⟩, -, hv', -⟩
          exact hv hv'

theorem days_pos (hn : 0 < n) : 0 < days n := by
  simp only [days, seconds]
  omega

/-- Only one set of subscriptions fits an outcome. -/
theorem UserOutcome.unique {p q : Prop} (hn : 0 < n) (hp : UserOutcome n u p db db')
    (hq : UserOutcome n u q db db') (hend : p ∨ q → u.subscriptionEnd ≠ none) : p ↔ q := by
  have himp : ∀ {p q : Prop}, UserOutcome n u p db db' → UserOutcome n u q db db' →
      (p → u.subscriptionEnd ≠ none) → p → q := by
    intro p q hp hq hend hyes
    by_contra hno
    have hext := hp.extended hyes
    rw [hq.same hno, Option.map_some] at hext
    obtain ⟨e, he⟩ := Option.ne_none_iff_exists'.mp (hend hyes)
    rw [he, Option.map_some] at hext
    exact (lt_add_of_pos_right e (days_pos hn)).ne (Option.some.inj (Option.some.inj hext))
  exact ⟨himp hp hq fun h => hend (.inl h), himp hq hp fun h => hend (.inr h)⟩

theorem RowOutcome.unique {uid : UserId} {p q : WhiteInternetSubscription → Prop}
    {t t' : WhiteInternetTables} (hn : 0 < n) (hp : RowOutcome n uid p t t')
    (hq : RowOutcome n uid q t t') :
    ∀ sub ∈ t.subscriptions, sub.userId = uid → (p sub ↔ q sub) := by
  have himp : ∀ {p q : WhiteInternetSubscription → Prop}, RowOutcome n uid p t t' →
      RowOutcome n uid q t t' → ∀ sub ∈ t.subscriptions, sub.userId = uid → p sub → q sub := by
    intro p q hp hq sub hsub hu hyes
    by_contra hno
    have hext := hp.extended sub hsub hu hyes
    rw [hq.same sub hsub fun h => hno h.2, Option.map_some] at hext
    exact (lt_add_of_pos_right sub.expiresAt (days_pos hn)).ne (Option.some.inj hext)
  exact fun sub hsub hu => ⟨himp hp hq sub hsub hu, himp hq hp sub hsub hu⟩

end Dispatch

/-! ### The run, turn by turn -/

/-- Where the dispatch extends just what put the user into the audience: the one row it looks at is
    the one in the audience, and on an origin nobody comes in through VLESS. -/
def AudienceDb.DispatchFits (t : AudienceDb) (aud : ExtendAudience) (server : Option Server)
    (now : Time) (u : User) : Prop :=
  let rowsFit (inAudience : WhiteInternetSubscription → Prop) : Prop :=
    ∀ sub ∈ t.db.whiteInternet.subscriptions, sub.userId = u.id → sub.Extendable now →
      (t.db.whiteInternet.subscriptionByUserId u.id = some sub ↔ inAudience sub)
  match aud with
  | .activeStandard => True
  | .activeWi | .activeAll => rowsFit fun sub => sub.provisioningStatus ≠ .pendingDelete
  | .server _ => ∀ s ∈ server, s.isWhiteInternetOrigin = true →
      ¬ (s.isVlessCapable = true ∧ t.VlessSeen now u s.id) ∧
        rowsFit fun sub => sub.originNodeId = some s.id ∧ sub.provisioningStatus ≠ .pendingDelete

section Fits
variable {t : AudienceDb} {aud : ExtendAudience} {server : Option Server} {now : Time} {u : User}

/-- Of the rows that the dispatch may extend, it extends the one it looks at. -/
theorem rows_agree_iff {touches : Prop} {inAudience : WhiteInternetSubscription → Prop}
    (htouches : touches) :
    (∀ sub ∈ t.db.whiteInternet.subscriptions, sub.userId = u.id →
        ((touches ∧ DispatchRow t.db.whiteInternet now u.id sub) ↔
          sub.Extendable now ∧ inAudience sub)) ↔
      ∀ sub ∈ t.db.whiteInternet.subscriptions, sub.userId = u.id → sub.Extendable now →
        (t.db.whiteInternet.subscriptionByUserId u.id = some sub ↔ inAudience sub) := by
  refine forall₃_congr fun sub _ _ => ?_
  rw [DispatchRow]
  tauto

/-- For a user in the audience, what the dispatch extends and what it should extend agree exactly
    where it fits. -/
theorem agree_iff_dispatchFits (hholds : Sql.Holds (t.massExtendFilter aud now server u)) :
    ((DispatchStandard aud server now u ↔ t.StandardPart aud server now u) ∧
      ∀ sub ∈ t.db.whiteInternet.subscriptions, sub.userId = u.id →
        ((DispatchXray aud server ∧ DispatchRow t.db.whiteInternet now u.id sub) ↔
          AudienceDb.XrayPart aud server now sub)) ↔
      t.DispatchFits aud server now u := by
  have hinAudience : ∀ sub : WhiteInternetSubscription,
      sub.InAudience now ↔ sub.Extendable now ∧ sub.provisioningStatus ≠ .pendingDelete :=
    fun sub => sub.inAudience_iff
  cases aud with
  | activeStandard =>
    simp [DispatchStandard, AudienceDb.StandardPart, DispatchXray, AudienceDb.XrayPart,
      AudienceDb.DispatchFits]
  | activeWi =>
    simp only [DispatchStandard, AudienceDb.StandardPart, AudienceDb.XrayPart, hinAudience,
      true_and]
    exact rows_agree_iff (show DispatchXray .activeWi server from trivial)
  | activeAll =>
    simp only [DispatchStandard, AudienceDb.StandardPart, AudienceDb.XrayPart, hinAudience,
      true_and]
    exact rows_agree_iff (show DispatchXray .activeAll server from trivial)
  | server id =>
    rcases server with _ | s
    · simp [DispatchStandard, AudienceDb.StandardPart, DispatchXray, AudienceDb.XrayPart,
        AudienceDb.DispatchFits]
    · simp only [DispatchStandard, AudienceDb.StandardPart, AudienceDb.XrayPart, DispatchXray,
        AudienceDb.DispatchFits, Option.mem_some_iff, exists_eq_left', forall_eq', hinAudience]
      rw [AudienceDb.holds_massExtendFilter] at hholds
      simp only [AudienceDb.StandardPart, AudienceDb.XrayPart, Option.mem_some_iff,
        exists_eq_left'] at hholds
      rcases hw : s.isWhiteInternetOrigin with _ | _
      · -- the filter selects by standard access alone, and so does the dispatch
        simp only [hw, Bool.false_eq_true, false_and, and_false, exists_false, or_false] at hholds
        simpa [hholds.1, hholds.2] using hholds.2.1
      · simp only [true_and, forall_const, Bool.true_eq_false, false_and, false_iff]
        refine and_congr Iff.rfl ?_
        rw [← rows_agree_iff trivial]
        exact forall₃_congr fun sub _ _ => iff_congr (iff_of_eq (true_and _)).symm and_left_comm

end Fits

/-- No other user's access and White Internet rows change. -/
def OthersKept (uid : UserId) (db db' : Db) : Prop :=
  (∀ v, v ≠ uid → db'.user v = db.user v) ∧
    ∀ sub ∈ db.whiteInternet.subscriptions, sub.userId ≠ uid →
      db'.whiteInternet.subscription sub.id = some sub

/-- A turn: a user whom the database refuses keeps everything, a user who still is in the audience
    has the subscriptions that put them there moved by `n` days, and the others do not change. -/
def TurnExact (aud : ExtendAudience) (server : Option Server) (n : ℕ) (env : RunEnv)
    (t : AudienceDb) (user : UserId × TelegramId) : Prop :=
  let before := env.others user.1 t
  let after := extendStep aud server n env t user
  let now := env.clock user.1
  OthersKept user.1 before.db after.db ∧
    if env.fails user.1 then after = before
    else
      ∀ u ∈ before.db.users, u.id = user.1 → AudienceDb.Eligible u →
        Sql.Holds (before.massExtendFilter aud now server u) →
          UserOutcome n u (before.StandardPart aud server now u) before.db after.db ∧
            RowOutcome n u.id (AudienceDb.XrayPart aud server now) before.db.whiteInternet
              after.db.whiteInternet

/-- The dispatch fits every user who still is in the audience. -/
def TurnFits (aud : ExtendAudience) (server : Option Server) (env : RunEnv) (t : AudienceDb)
    (user : UserId × TelegramId) : Prop :=
  let before := env.others user.1 t
  env.fails user.1 = false → ∀ u ∈ before.db.users, u.id = user.1 → AudienceDb.Eligible u →
    Sql.Holds (before.massExtendFilter aud (env.clock user.1) server u) →
      before.DispatchFits aud server (env.clock user.1) u

/-- What the others commit between two users keeps the tables consistent. -/
def RunEnv.Lawful (env : RunEnv) (tg : UserId → TelegramId) : Prop :=
  ∀ uid t, Consistent tg t.db → Consistent tg (env.others uid t).db

/-- Nobody else commits anything. -/
theorem RunEnv.lawful_quiet (clock : UserId → Time) (tg : UserId → TelegramId) :
    RunEnv.Lawful { clock } tg :=
  fun _ _ h => h

section Run
variable {aud : ExtendAudience} {server : Option Server} {n : ℕ} {env : RunEnv}
  {tg : UserId → TelegramId} {t : AudienceDb} {user : UserId × TelegramId}

theorem OthersKept.refl {db : Db} (h : Consistent tg db) (uid : UserId) : OthersKept uid db db :=
  ⟨fun _ _ => rfl, fun _ hsub _ => h.subscription_of_mem hsub⟩

/-- A user who is gone, deleted or banned is passed over. -/
theorem Db.extendUser_nobody {db : Db} {now : Time} (user : UserId × TelegramId)
    (hno : ∀ u ∈ db.users, u.id = user.1 → ¬ AudienceDb.Eligible u) :
    db.extendUser aud server now n user.1 user.2 = .ok (false, db) := by
  rcases huser : db.user user.1 with _ | u
  · rw [Db.extendUser, huser]
  · have hu : u ∈ db.users := Table.mem_of_lookup User.id huser
    have hinel := hno u hu (Table.key_of_lookup User.id huser)
    rw [Db.extendUser, huser]
    refine if_pos ?_
    rw [AudienceDb.Eligible] at hinel
    cases hd : u.isDeleted <;> cases hb : u.isBanned <;> simp_all

theorem end_of_parts {now : Time} {u : User}
    (h : DispatchStandard aud server now u ∨ t.StandardPart aud server now u) :
    u.subscriptionEnd ≠ none := by
  have hend : ∃ e ∈ u.subscriptionEnd, now < e := by
    cases aud with
    | activeStandard => exact h.elim id id
    | activeWi => exact h.elim False.elim False.elim
    | activeAll => exact h.elim id id
    | server _ =>
      rcases h with ⟨_, -, -, -, hend⟩ | ⟨_, -, -, hseen⟩
      · exact hend
      · exact hseen.1
  obtain ⟨e, he, -⟩ := hend
  exact Option.ne_none_iff_exists'.mpr ⟨e, he⟩

/-- A user in the audience gets what they should exactly where the dispatch fits them. -/
theorem outcomes_iff {now : Time} {u : User} {db' : Db} (hn : 0 < n)
    (hholds : Sql.Holds (t.massExtendFilter aud now server u))
    (husers : UserOutcome n u (DispatchStandard aud server now u) t.db db')
    (hrows : RowOutcome n u.id
      (fun sub => DispatchXray aud server ∧ DispatchRow t.db.whiteInternet now u.id sub)
      t.db.whiteInternet db'.whiteInternet) :
    (UserOutcome n u (t.StandardPart aud server now u) t.db db' ∧
      RowOutcome n u.id (AudienceDb.XrayPart aud server now) t.db.whiteInternet
        db'.whiteInternet) ↔ t.DispatchFits aud server now u := by
  rw [← agree_iff_dispatchFits hholds]
  constructor
  · rintro ⟨husers', hrows'⟩
    exact ⟨husers.unique hn husers' end_of_parts, hrows.unique hn hrows'⟩
  · rintro ⟨hstd, hrow⟩
    exact ⟨husers.congr hstd, hrows.congr hrow⟩

/-- One turn keeps the tables consistent, and is exact where the dispatch fits and only there. -/
theorem turnExact_iff (aud : ExtendAudience) (server : Option Server) (h : Consistent tg t.db)
    (henv : env.Lawful tg) (huser : user.2 = tg user.1) (hn : 0 < n) (hn' : n < 36500) :
    Consistent tg (extendStep aud server n env t user).db ∧
      (TurnExact aud server n env t user ↔ TurnFits aud server env t user) := by
  obtain ⟨uid, tgId⟩ := user
  obtain rfl : tgId = tg uid := huser
  have hbefore : Consistent tg (env.others uid t).db := henv uid t h
  simp only [TurnExact, TurnFits, extendStep]
  generalize env.others uid t = before at *
  generalize env.clock uid = now
  split
  · next hfail => simp [hfail, hbefore, OthersKept.refl hbefore]
  · next hok =>
    simp only [hok, forall_const]
    by_cases hel : ∃ u ∈ before.db.users, u.id = uid ∧ AudienceDb.Eligible u
    · obtain ⟨u, hu, rfl, hel⟩ := hel
      obtain ⟨b, db', heq, husers, hrows, hafter⟩ :=
        extendUser_outcome aud server now hbefore hu hel hn hn'
      have hothers : OthersKept u.id before.db db' :=
        ⟨husers.others, fun sub hsub hne => hrows.same sub hsub fun hrow => hne hrow.1⟩
      rw [← hbefore.signedUp u hu, heq, commit_ok]
      refine ⟨hafter, (and_iff_right hothers).trans ?_⟩
      refine forall₂_congr fun v hv => forall₂_congr fun hid hel => forall_congr' fun hholds => ?_
      obtain rfl : v = u := List.inj_on_of_nodup_map hbefore.users hv hu hid
      exact outcomes_iff hn hholds husers hrows
    · have hno : ∀ u ∈ before.db.users, u.id = uid → ¬ AudienceDb.Eligible u :=
        fun u hu hid hyes => hel ⟨u, hu, hid, hyes⟩
      rw [Db.extendUser_nobody (uid, tg uid) hno, commit_ok]
      refine ⟨hbefore, iff_of_true ⟨OthersKept.refl hbefore uid, ?_⟩ ?_⟩
      · exact fun u hu hid hyes => absurd hyes (hno u hu hid)
      · exact fun u hu hid hyes => absurd hyes (hno u hu hid)

/-- The users a run selects: each once, with the Telegram id they signed up with. -/
theorem extendUsers_spec (aud : ExtendAudience) (h : Consistent tg t.db) (now : Time) :
    ((t.extendUsers aud now).map (·.1)).Nodup ∧
      ∀ user ∈ t.extendUsers aud now, user.2 = tg user.1 := by
  constructor
  · refine ((List.perm_insertionSort _ _).map _).nodup_iff.mpr ?_
    rw [List.map_map]
    exact AudienceDb.nodup_selectUsers h.users _
  · intro user huser
    obtain ⟨u, hu, rfl⟩ := List.mem_map.mp ((List.mem_insertionSort _).mp huser)
    exact h.signedUp u (List.mem_of_mem_filter hu)

theorem runMassExtend_eq (t : AudienceDb) (aud : ExtendAudience) (now : Time) (n : ℕ)
    (env : RunEnv) : t.runMassExtend aud now n env =
      run (extendStep aud (t.extendServer aud) n env) t (t.extendUsers aud now) := by
  rw [AudienceDb.runMassExtend, ← List.foldl_flatten, Paging.flatten_chunks (by decide)]
  rfl

/-- Every turn of a run is exact where the dispatch fits every user it meets, and only there. -/
theorem always_turnExact_iff (henv : env.Lawful tg) (hn : 0 < n) (hn' : n < 36500)
    (users : List (UserId × TelegramId)) (husers : ∀ user ∈ users, user.2 = tg user.1) :
    ∀ t : AudienceDb, Consistent tg t.db →
      (Always (extendStep aud server n env) (TurnExact aud server n env) t users ↔
        Always (extendStep aud server n env) (TurnFits aud server env) t users) := by
  induction users with
  | nil => exact fun _ _ => Iff.rfl
  | cons user users ih =>
    intro t h
    obtain ⟨huser, husers⟩ := List.forall_mem_cons.mp husers
    obtain ⟨hnext, hturn⟩ := turnExact_iff aud server h henv huser hn hn'
    exact and_congr hturn (ih husers _ hnext)

end Run

/-- While the clicks look one at a time, a configuration starts one run and one run is active. A run
    goes through the users it selects, each once, and all of its turns are exact where the dispatch
    fits every user who still is in the audience, and only there. -/
theorem massExtend_iff (es : List MassExtendClicks.Event) {t : AudienceDb}
    {tg : UserId → TelegramId} (aud : ExtendAudience) (now : Time) {n : ℕ} {env : RunEnv}
    (h : Consistent tg t.db) (henv : env.Lawful tg) (hn : 0 < n) (hn' : n < 36500) :
    (Always MassExtendClicks.step MassExtendClicks.Alone {} es →
      Throughout MassExtendClicks.step MassExtendClicks.Once {} es) ∧
    let step := extendStep aud (t.extendServer aud) n env
    let users := t.extendUsers aud now
    t.runMassExtend aud now n env = run step t users ∧ (users.map (·.1)).Nodup ∧
      (Always step (TurnExact aud (t.extendServer aud) n env) t users ↔
        Always step (TurnFits aud (t.extendServer aud) env) t users) := by
  refine ⟨MassExtendClicks.once_of_alone es, runMassExtend_eq t aud now n env, ?_⟩
  obtain ⟨hnodup, husers⟩ := extendUsers_spec aud h now
  exact ⟨hnodup, always_turnExact_iff henv hn hn' _ husers t h⟩

/-- A VLESS user of a server that is a White Internet origin too. -/
def twoRoles : AudienceDb where
  db :=
    { users := [{ id := 1, telegramId := 1, subscriptionEnd := some 10 }]
      vless := [{
        id := 1, userId := 1, nodeTrafficSnapshots := { nodes := [(1, ⟨0, 0, 0, 0⟩)] } }] }
  servers := [{ id := 1, capabilities := ["vless", xrayOriginCapability] }]
  activeHwids := fun _ => some [(['a'], { seen := 0 })]

theorem consistent_twoRoles : Consistent (fun _ => 1) twoRoles.db where
  users := by decide
  telegram := by decide
  signedUp := by decide
  userRange := by decide
  subs := by decide
  subRange := by decide

theorem massExtend_iff_standard :
    Throughout MassExtendClicks.step MassExtendClicks.Once {} [.configure 0, .click 0] ∧
      Always (extendStep .activeStandard none 30 { clock := fun _ => 0 })
        (TurnExact .activeStandard none 30 { clock := fun _ => 0 }) twoRoles
        (twoRoles.extendUsers .activeStandard 0) := by
  obtain ⟨hclicks, -, -, hturns⟩ := massExtend_iff [.configure 0, .click 0] .activeStandard 0
    consistent_twoRoles (RunEnv.lawful_quiet (fun _ => 0) _) (by decide) (show 30 < 36500 by decide)
  refine ⟨hclicks (by decide), hturns.mpr ?_⟩
  exact always_of_inv _ (I := fun _ => True) (fun _ _ _ => trivial)
    (fun _ _ _ _ _ _ _ _ _ => trivial) _ _ trivial

/-- Two clicks start two runs, and the VLESS user of the two-role server is passed over. -/
theorem doubleClick_and_twoRoles :
    (¬ ∀ es, Throughout MassExtendClicks.step MassExtendClicks.Once {} es) ∧
      ¬ ∀ (t : AudienceDb) (tg : UserId → TelegramId) (aud : ExtendAudience) (now : Time) (n : ℕ)
        (env : RunEnv), Consistent tg t.db → env.Lawful tg → 0 < n → n < 36500 →
        Always (extendStep aud (t.extendServer aud) n env)
          (TurnExact aud (t.extendServer aud) n env) t (t.extendUsers aud now) := by
  refine ⟨MassExtendClicks.doubleClick_twice, fun h => ?_⟩
  have hall := h twoRoles (fun _ => 1) (.server 1) 0 30 { clock := fun _ => 0 } consistent_twoRoles
    (RunEnv.lawful_quiet _ _) (by decide) (by decide)
  have husers : twoRoles.extendUsers (.server 1) 0 = [(1, 1)] := by decide +kernel
  rw [husers] at hall
  obtain ⟨husersOut, -⟩ := hall.1.2 _ (List.mem_singleton_self _) rfl ⟨rfl, rfl⟩ (by decide +kernel)
  have hpart : twoRoles.StandardPart (.server 1) (twoRoles.extendServer (.server 1)) 0
      { id := 1, telegramId := 1, subscriptionEnd := some 10 } := by
    refine ⟨_, rfl, ?_, ⟨10, rfl, by decide⟩, _, List.mem_singleton_self _, rfl, ?_⟩
    · decide +kernel
    · decide +kernel
  have hextended := husersOut.extended hpart
  revert hextended
  decide +kernel

end Just1kBot
