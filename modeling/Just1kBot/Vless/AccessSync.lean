import Just1kBot.Vless.Rotation
import Just1kBot.Orders.Fulfillment

/-! Who turns VLESS access on and off: `_sync_access_state` and `extend_subscription` of
    `services/subscription.py`, the bans and unbans of `services/ban_service.py`, the network and
    the retention grace of `services/workers/cleanup.py`, and the deactivation in the subscription
    feed of `bot/handlers/vless_web.py`.

    A settlement, an extension, a ban, an unban or a clean-up holds the lock on the user's row, so
    one of them is open at a time, but it reads the subscription without a lock. The session keeps
    the user as it first loaded it, which may be before the wait for the lock; a clean-up loads it
    under the lock. A feed request locks nothing: it reads the subscription, then the user, and
    commits later. Whatever commits writes the columns its session changed. -/

namespace Just1kBot

def gracePeriodHours : ℤ := 24

/-- `is_permanent_subscription`. -/
def isPermanentSubscription (now dt : Time) : Bool :=
  permanentEndDate ≤ dt || days permanentSubscriptionDays ≤ dt - now

/-! ### What the transactions make of the rows they read -/

/-- `SubscriptionService.extend_subscription`, on the user's columns. -/
def extendSubscription (now : Time) (n : ℕ) (newDeviceLimit : Option ℕ)
    (newTariffId : Option TariffId) (user : User) : User :=
  { user with
    subscriptionEnd :=
      if n = 0 then user.subscriptionEnd
      else if permanentSubscriptionDays ≤ n then some permanentEndDate
      else some ((user.subscriptionEnd.filter (now < ·)).getD now + days n)
    deviceLimit := newDeviceLimit.getD user.deviceLimit
    currentTariffId := newTariffId.or user.currentTariffId
    notified3d := false
    notified1d := false
    notified2h := false
    notifiedExpired := false
    notifiedGrace12h := false
    notificationRetryCount := 0
    lastNotificationAttempt := none }

/-- What the session writes of a user it loaded and changed. -/
def User.flush (loaded current stored : User) : User :=
  { stored with
    isBanned := Lib.written loaded.isBanned current.isBanned stored.isBanned
    subscriptionEnd :=
      Lib.written loaded.subscriptionEnd current.subscriptionEnd stored.subscriptionEnd
    deviceLimit := Lib.written loaded.deviceLimit current.deviceLimit stored.deviceLimit
    currentTariffId :=
      Lib.written loaded.currentTariffId current.currentTariffId stored.currentTariffId
    notified3d := Lib.written loaded.notified3d current.notified3d stored.notified3d
    notified1d := Lib.written loaded.notified1d current.notified1d stored.notified1d
    notified2h := Lib.written loaded.notified2h current.notified2h stored.notified2h
    notifiedExpired :=
      Lib.written loaded.notifiedExpired current.notifiedExpired stored.notifiedExpired
    notifiedGrace12h :=
      Lib.written loaded.notifiedGrace12h current.notifiedGrace12h stored.notifiedGrace12h
    notificationRetryCount := Lib.written loaded.notificationRetryCount
      current.notificationRetryCount stored.notificationRetryCount
    lastNotificationAttempt := Lib.written loaded.lastNotificationAttempt
      current.lastNotificationAttempt stored.lastNotificationAttempt }

namespace VlessCredentials

/-- `_sync_access_state`, on the row it read: nothing is written when the flag is right. -/
def syncAccess (target : Bool) (sub : VlessCredentials) : VlessCredentials :=
  if sub.isActive = target then sub
  else { sub with isActive := target, version := orOne sub.version + 1 }

/-- What `vless_subscription_feed_handler` writes once access has ended. -/
def feedDeactivate (sub : VlessCredentials) : VlessCredentials :=
  { sub with isActive := false, version := orOne sub.version + 1 }

/-- What the retention clean-up makes of the row: `reset_hwids` rotates the UUID only where devices
    are registered, so the clean-up rotates it itself where there are none. -/
def retire (newUuid : Uuid) (sub : VlessCredentials) : VlessCredentials :=
  if sub.activeHwids = [] then
    { toVlessSubscription := { sub.replaceUuid newUuid with isActive := false }
      token := sub.token
      activeHwids := [] }
  else { sub.resetHwids newUuid with isActive := false }

end VlessCredentials

/-- The operations that hold the lock on the user's row. -/
inductive AccessOp
  /-- `fulfill_order`. -/
  | settle (order : Order)
  /-- `extend_subscription`: extensions and admin grants. -/
  | extend (n : ℕ) (newDeviceLimit : Option ℕ) (newTariffId : Option TariffId)
  /-- `_ban_user`, with the UUID it draws. -/
  | ban (newUuid : Uuid)
  /-- `_unban_user`. -/
  | unban
  /-- A user of `_cleanup_expired_vless_network_grace`. -/
  | networkGrace
  /-- A user of `_cleanup_expired_vless_retention_grace`, with the UUID it draws. -/
  | retentionGrace (newUuid : Uuid)
  deriving DecidableEq

/-- The clean-ups load the user under the lock. -/
def AccessOp.isCleanup : AccessOp → Bool
  | .networkGrace | .retentionGrace _ => true
  | _ => false

/-- The operations that may give access. -/
def AccessOp.gives : AccessOp → Bool
  | .settle _ | .extend _ _ _ | .unban => true
  | _ => false

/-- An open transaction: the user as its session loaded it, when it (or the pass it is part of)
    began, and the subscription with the time it was read. -/
structure AccessTransaction where
  op : AccessOp
  user : User
  started : Time
  read : Option (VlessCredentials × Time) := none
  deriving DecidableEq

namespace AccessTransaction

/-- The user as the operation changed it when it ran. -/
def decided (t : AccessTransaction) (ran : Time) : User :=
  match t.op with
  | .settle order => grantStandard ran order t.user
  | .extend n limit tariff => extendSubscription ran n limit tariff t.user
  | .ban _ => { t.user with isBanned := true }
  | .unban => { t.user with isBanned := false }
  | .networkGrace | .retentionGrace _ => t.user

/-- Whether the operation gets to the subscription. The clean-ups compare with a threshold taken
    when their pass began. -/
def proceeds (t : AccessTransaction) (ran : Time) : Bool :=
  match t.op with
  | .settle order => order.serviceType = .standard || order.serviceType = .awg
  | .extend _ _ _ => !t.user.isDeleted
  | .ban _ => !t.user.isDeleted && !t.user.isBanned
  | .unban => !t.user.isDeleted && t.user.isBanned
  | .networkGrace =>
    !t.user.isDeleted && !t.user.subscriptionEnd.any (isPermanentSubscription ran) &&
      (t.user.financialHold ||
        t.user.subscriptionEnd.any fun e => e < t.started - hours vpnAccessGraceHours)
  | .retentionGrace _ =>
    !t.user.isDeleted && !t.user.subscriptionEnd.any (isPermanentSubscription ran) &&
      t.user.subscriptionEnd.any fun e => e < t.started - hours gracePeriodHours

/-- The access the operation decides on. -/
def target (t : AccessTransaction) (ran : Time) : Bool := checkVpnAccess ran (t.decided ran)

/-- The user's row as the commit leaves it. -/
def leavesUser (t : AccessTransaction) (ran : Time) (stored : User) : User :=
  if t.proceeds ran then t.user.flush (t.decided ran) stored else stored

/-- The subscription as the commit of an operation that got to it leaves it. -/
def writes (t : AccessTransaction) (loaded : VlessCredentials) (ran : Time)
    (stored : VlessCredentials) : VlessCredentials :=
  match t.op with
  | .settle _ | .extend _ _ _ | .networkGrace =>
    loaded.flush (loaded.syncAccess (t.target ran)) stored
  | .ban newUuid => loaded.flush (loaded.ban newUuid) stored
  | .unban => if t.target ran then loaded.flush loaded.unban stored else stored
  | .retentionGrace newUuid =>
    let synced := loaded.flush (loaded.syncAccess (t.target ran)) stored
    if loaded.activeHwids ≠ [] ∨ loaded.isActive then synced.retire newUuid else synced

/-- The subscription as the commit leaves it. -/
def leavesSub (t : AccessTransaction) (loaded : VlessCredentials) (ran : Time)
    (stored : VlessCredentials) : VlessCredentials :=
  if t.proceeds ran then t.writes loaded ran stored else stored

end AccessTransaction

/-- A feed request: the subscription it read, and what it decided once it read the user. -/
structure FeedRead where
  sub : VlessCredentials
  deactivates : Option Bool := none
  deriving DecidableEq

/-- The decision of `vless_subscription_feed_handler` to deactivate the subscription. -/
def feedDeactivates (now : Time) (user : User) (sub : VlessCredentials) : Bool :=
  !user.isDeleted && !user.isBanned && sub.isActive &&
    (user.financialHold || !checkVpnAccess now user)

/-! ### The system -/

/-- The rows of one user, the transactions in flight, whether an operation that gives access has
    committed, and the versions that the committed changes of the flag or the UUID carry. -/
structure AccessState where
  now : Time
  user : User
  sub : VlessCredentials
  feeds : List FeedRead := []
  waiting : List AccessTransaction := []
  holder : Option AccessTransaction := none
  granted : Bool := false
  changes : List ℕ := []
  deriving DecidableEq

inductive AccessEvent
  /-- Time passes. -/
  | tick (d : ℕ)
  /-- A feed request reads the subscription. -/
  | feedReadsSub
  /-- The feed request `i` reads the user and decides. -/
  | feedReadsUser (i : ℕ)
  | feedCommits (i : ℕ)
  | feedFails (i : ℕ)
  /-- An operation begins and waits for the lock on the user. -/
  | begin (op : AccessOp)
  /-- The waiting operation `i` gets the lock. -/
  | lock (i : ℕ)
  /-- The operation that holds the lock runs, and reads the subscription. -/
  | readSub
  | commit
  | rollback

namespace AccessState

/-- The rows are written by a commit. -/
def put (s : AccessState) (user : User) (sub : VlessCredentials) : AccessState :=
  { s with
    user
    sub
    changes :=
      if sub.isActive = s.sub.isActive ∧ sub.uuid = s.sub.uuid then s.changes
      else sub.version :: s.changes }

/-- One step of the code. -/
def step (s : AccessState) : AccessEvent → AccessState
  | .tick d => { s with now := s.now + d }
  | .feedReadsSub => { s with feeds := s.feeds ++ [{ sub := s.sub }] }
  | .feedReadsUser i =>
    match s.feeds[i]? with
    | none => s
    | some f =>
      if f.deactivates.isNone then
        let f := { f with deactivates := some (feedDeactivates s.now s.user f.sub) }
        { s with feeds := s.feeds.set i f }
      else s
  | .feedCommits i =>
    match s.feeds[i]? with
    | none => s
    | some f =>
      let s := { s with feeds := s.feeds.eraseIdx i }
      if f.deactivates = some true then s.put s.user (f.sub.flush f.sub.feedDeactivate s.sub)
      else s
  | .feedFails i => { s with feeds := s.feeds.eraseIdx i }
  | .begin op =>
    { s with waiting := s.waiting ++ [{ op, user := s.user, started := s.now }] }
  | .lock i =>
    match s.holder, s.waiting[i]? with
    | none, some t =>
      let t := if t.op.isCleanup then { t with user := s.user } else t
      { s with waiting := s.waiting.eraseIdx i, holder := some t }
    | _, _ => s
  | .readSub =>
    match s.holder with
    | some t =>
      if t.read.isNone then { s with holder := some { t with read := some (s.sub, s.now) } }
      else s
    | none => s
  | .commit =>
    match s.holder with
    | some t =>
      match t.read with
      | some (loaded, ran) =>
        let s := { s with
          holder := none
          granted := s.granted || (t.proceeds ran && t.op.gives) }
        s.put (t.leavesUser ran s.user) (t.leavesSub loaded ran s.sub)
      | none => s
    | none => s
  | .rollback => { s with holder := none }

/-- A user and a subscription, as they are stored, with nothing in flight. -/
def opened (now : Time) (user : User) (sub : VlessCredentials) : AccessState :=
  { now, user, sub }

/-! ### What is claimed -/

def Quiet (s : AccessState) : Prop := s.feeds = [] ∧ s.waiting = [] ∧ s.holder = none

/-- Where all have committed, a user who was given access and has it has an active subscription. -/
def Renewed (s : AccessState) : Prop :=
  Quiet s → s.granted → checkVpnAccess s.now s.user → s.sub.isActive

/-- No two changes of the flag or the UUID carry the same version. -/
def Distinct (s : AccessState) : Prop := s.changes.Nodup

def Kept (s : AccessState) : Prop := Renewed s ∧ Distinct s

/-- The flag and the version are stored as they were read. -/
def Unwritten (loaded stored : VlessCredentials) : Prop :=
  stored.isActive = loaded.isActive ∧ stored.version = loaded.version

/-- They are, or another transaction has written what this one writes. -/
def Current (loaded : VlessCredentials) (target : Bool) (stored : VlessCredentials) : Prop :=
  Unwritten loaded stored ∨
    (loaded.isActive ≠ target ∧ stored.isActive = target ∧
      stored.version = orOne loaded.version + 1)

end AccessState

/-- The subscription an operation read is current. An unban that finds no access writes nothing. -/
def AccessOp.ReadsCurrent (op : AccessOp) (target : Bool) (loaded stored : VlessCredentials) :
    Prop :=
  match op with
  | .ban _ => AccessState.Unwritten loaded stored
  | .unban => target = true → AccessState.Unwritten loaded stored
  | .settle _ | .extend _ _ _ | .networkGrace | .retentionGrace _ =>
    AccessState.Current loaded target stored

namespace AccessState

/-- No transaction commits over a subscription that was rewritten since it read it. -/
def ReadsCurrent (s : AccessState) : AccessEvent → Prop
  | .feedCommits i => ∀ f ∈ s.feeds[i]?, f.deactivates = some true → Current f.sub false s.sub
  | .commit => ∀ t ∈ s.holder, ∀ r ∈ t.read, t.proceeds r.2 →
      t.op.ReadsCurrent (t.target r.2) r.1 s.sub
  | _ => True

/-- A feed deactivates a user who still has no access, and an operation leaves no user with access
    that the user it read does not have. -/
def AccessCurrent (s : AccessState) : AccessEvent → Prop
  | .feedCommits i => ∀ f ∈ s.feeds[i]?, f.deactivates = some true →
      checkVpnAccess s.now s.user = false
  | .commit => ∀ t ∈ s.holder, ∀ r ∈ t.read, t.proceeds r.2 →
      checkVpnAccess r.2 (t.leavesUser r.2 s.user) → t.target r.2
  | _ => True

def Undisturbed (s : AccessState) (e : AccessEvent) : Prop := ReadsCurrent s e ∧ AccessCurrent s e

instance (loaded stored : VlessCredentials) : Decidable (Unwritten loaded stored) :=
  inferInstanceAs (Decidable (_ ∧ _))

instance (loaded : VlessCredentials) (target : Bool) (stored : VlessCredentials) :
    Decidable (Current loaded target stored) :=
  inferInstanceAs (Decidable (_ ∨ (_ ∧ _ ∧ _)))

instance (target : Bool) (loaded stored : VlessCredentials) :
    ∀ op : AccessOp, Decidable (op.ReadsCurrent target loaded stored)
  | .ban _ => inferInstanceAs (Decidable (Unwritten loaded stored))
  | .unban => inferInstanceAs (Decidable (target = true → Unwritten loaded stored))
  | .settle _ | .extend _ _ _ | .networkGrace | .retentionGrace _ =>
    inferInstanceAs (Decidable (Current loaded target stored))

instance (s : AccessState) : ∀ e, Decidable (ReadsCurrent s e)
  | .feedCommits i => inferInstanceAs (Decidable (∀ f ∈ s.feeds[i]?, _))
  | .commit => inferInstanceAs (Decidable (∀ t ∈ s.holder, ∀ r ∈ t.read, _))
  | .tick _ | .feedReadsSub | .feedReadsUser _ | .feedFails _ | .begin _ | .lock _ | .readSub
  | .rollback => .isTrue trivial

instance (s : AccessState) : ∀ e, Decidable (AccessCurrent s e)
  | .feedCommits i => inferInstanceAs (Decidable (∀ f ∈ s.feeds[i]?, _))
  | .commit => inferInstanceAs (Decidable (∀ t ∈ s.holder, ∀ r ∈ t.read, _))
  | .tick _ | .feedReadsSub | .feedReadsUser _ | .feedFails _ | .begin _ | .lock _ | .readSub
  | .rollback => .isTrue trivial

instance (s : AccessState) (e : AccessEvent) : Decidable (Undisturbed s e) :=
  inferInstanceAs (Decidable (_ ∧ _))

end AccessState

/-! ### What the writes leave -/

/-- Access that a user has, they had before. -/
theorem checkVpnAccess_of_le {now now' : Time} (h : now ≤ now') {user : User}
    (ha : checkVpnAccess now' user = true) : checkVpnAccess now user = true := by
  rw [checkVpnAccess] at ha ⊢
  split_ifs at ha ⊢ with hflags
  cases hend : user.subscriptionEnd with
  | none => simp [hend] at hflags
  | some e =>
    rw [hend] at ha
    simp only [isVpnAccessExpired, Bool.not_eq_true', decide_eq_false_iff_not, not_lt] at ha ⊢
    exact h.trans ha

/-- A subscription that ended before the retention grace gives no access. -/
theorem checkVpnAccess_of_retention {now : Time} {user : User} {e : Time}
    (hend : user.subscriptionEnd = some e) (he : e < now - hours gracePeriodHours) :
    checkVpnAccess now user = false := by
  rw [checkVpnAccess]
  split_ifs
  · rfl
  · have hgrace : hours vpnAccessGraceHours ≤ hours gracePeriodHours := by decide
    simp only [hend, isVpnAccessExpired, Bool.not_eq_false', decide_eq_true_eq]
    linarith

@[simp] theorem User.flush_self (loaded stored : User) : loaded.flush loaded stored = stored := by
  simp [User.flush]

namespace VlessCredentials

@[simp] theorem flush_self (loaded stored : VlessCredentials) :
    loaded.flush loaded stored = stored := by
  simp [flush]

/-- A change of the flag or the UUID raises the version, and nothing lowers it. -/
structure Advances (stored left : VlessCredentials) : Prop where
  le : stored.version ≤ left.version
  lt : ¬ (left.isActive = stored.isActive ∧ left.uuid = stored.uuid) →
    stored.version < left.version

theorem Advances.refl (sub : VlessCredentials) : Advances sub sub :=
  ⟨le_rfl, fun h => absurd ⟨rfl, rfl⟩ h⟩

theorem Advances.of_lt {stored left : VlessCredentials} (h : stored.version < left.version) :
    Advances stored left := ⟨h.le, fun _ => h⟩

theorem lt_orOne_add_one (v : ℕ) : v < orOne v + 1 := by
  rw [orOne]
  split_ifs <;> omega

/-- A row written with the flag it should have, under the version after the one that was read. -/
theorem flush_flag {loaded : VlessCredentials} {target : Bool} (hne : loaded.isActive ≠ target)
    (stored : VlessCredentials) :
    loaded.flush { loaded with isActive := target, version := orOne loaded.version + 1 } stored =
      { stored with isActive := target, version := orOne loaded.version + 1 } := by
  have hflag : Lib.written loaded.isActive target stored.isActive = target :=
    Lib.written_of_ne hne.symm _
  have hversion : Lib.written loaded.version (orOne loaded.version + 1) stored.version =
      orOne loaded.version + 1 := Lib.written_of_ne (lt_orOne_add_one _).ne' _
  simp [flush, hflag, hversion]

/-- What an access sync leaves where its read is current: the flag it decided on. -/
theorem flush_syncAccess {loaded : VlessCredentials} {target : Bool} {stored : VlessCredentials}
    (h : AccessState.Current loaded target stored) :
    let left := loaded.flush (loaded.syncAccess target) stored
    left.isActive = target ∧ Advances stored left := by
  intro left
  by_cases hflag : loaded.isActive = target
  · have hleft : left = stored := by simp only [left, syncAccess, if_pos hflag, flush_self]
    rw [hleft]
    rcases h with ⟨hactive, -⟩ | ⟨hne, -⟩
    · exact ⟨hactive.trans hflag, Advances.refl stored⟩
    · exact absurd hflag hne
  · have hleft : left =
        { stored with isActive := target, version := orOne loaded.version + 1 } := by
      simp only [left, syncAccess, if_neg hflag, flush_flag hflag]
    rw [hleft]
    refine ⟨rfl, ?_⟩
    rcases h with ⟨-, hversion⟩ | ⟨-, hactive, hversion⟩
    · refine Advances.of_lt ?_
      rw [hversion]
      exact lt_orOne_add_one _
    · exact ⟨hversion.le, fun hchange => absurd ⟨hactive.symm, rfl⟩ hchange⟩

/-- What an unban leaves where its read is current. -/
theorem flush_unban_current {loaded stored : VlessCredentials}
    (h : AccessState.Unwritten loaded stored) :
    let left := loaded.flush loaded.unban stored
    left.isActive = true ∧ stored.version < left.version := by
  intro left
  obtain ⟨hstored, hversion⟩ := h
  have hleft : left.version = orOne loaded.version + 1 :=
    Lib.written_of_ne (lt_orOne_add_one _).ne' _
  refine ⟨?_, ?_⟩
  · by_cases hflag : loaded.isActive = true
    · simp [left, flush, unban, VlessSubscription.unban, hflag, hstored]
    · exact Lib.written_of_ne (Ne.symm hflag) _
  · rw [hleft, hversion]
    exact lt_orOne_add_one _

/-- What a ban leaves where its read is current. -/
theorem flush_ban_current (newUuid : Uuid) {loaded stored : VlessCredentials}
    (h : AccessState.Unwritten loaded stored) :
    let left := loaded.flush (loaded.ban newUuid) stored
    left.isActive = false ∧ Advances stored left := by
  intro left
  obtain ⟨hstored, hversion⟩ := h
  have hleft : left.version = orOne loaded.version + 1 :=
    Lib.written_of_ne (lt_orOne_add_one _).ne' _
  refine ⟨?_, Advances.of_lt ?_⟩
  · by_cases hflag : loaded.isActive = false
    · simp [left, flush, ban, VlessSubscription.ban, hflag, hstored]
    · exact Lib.written_of_ne (Ne.symm hflag) _
  · rw [hleft, hversion]
    exact lt_orOne_add_one _

theorem retire_version (newUuid : Uuid) (sub : VlessCredentials) :
    (sub.retire newUuid).version = orOne sub.version + 1 := by
  rw [retire]
  split_ifs with hd
  · rfl
  · rw [resetHwids, if_neg hd]
    rfl

theorem retire_isActive (newUuid : Uuid) (sub : VlessCredentials) :
    (sub.retire newUuid).isActive = false := by
  rw [retire]
  split_ifs <;> rfl

end VlessCredentials

namespace AccessTransaction
open VlessCredentials (Advances)

/-- A clean-up leaves the user alone. -/
theorem decided_of_cleanup {t : AccessTransaction} (h : t.op.isCleanup) (ran : Time) :
    t.decided ran = t.user := by
  rw [decided]
  cases hop : t.op <;> simp_all [AccessOp.isCleanup]

/-- The retention clean-up only gets to a subscription without access. -/
theorem target_of_retention {t : AccessTransaction} {newUuid : Uuid}
    (hop : t.op = .retentionGrace newUuid) {ran : Time} (hp : t.proceeds ran = true)
    (hstarted : t.started ≤ ran) : t.target ran = false := by
  have huser : t.decided ran = t.user := decided_of_cleanup (by rw [hop]; rfl) ran
  simp only [proceeds, hop, Bool.and_eq_true] at hp
  obtain ⟨e, hend, he⟩ := (Option.any_eq_true _ _).mp hp.2
  rw [target, huser]
  refine checkVpnAccess_of_retention hend ?_
  have hbefore : e < t.started - hours gracePeriodHours := by simpa using he
  linarith

theorem target_of_ban {t : AccessTransaction} {newUuid : Uuid} (hop : t.op = .ban newUuid)
    (ran : Time) : t.target ran = false := by
  simp [target, decided, hop, checkVpnAccess]

/-- What an operation does to the subscription where its read is current: a change raises the
    version, and the flag goes up with the access decided on. -/
theorem writes_spec {t : AccessTransaction} {loaded stored : VlessCredentials} {ran : Time}
    (h : t.op.ReadsCurrent (t.target ran) loaded stored) :
    Advances stored (t.writes loaded ran stored) ∧
      (t.target ran = true → (∀ u, t.op ≠ .retentionGrace u) →
        (t.writes loaded ran stored).isActive = true) := by
  rw [writes]
  cases hop : t.op with
  | settle order | extend n limit tariff | networkGrace =>
    rw [hop] at h
    obtain ⟨hactive, hadv⟩ := VlessCredentials.flush_syncAccess h
    exact ⟨hadv, fun htarget _ => hactive.trans htarget⟩
  | ban newUuid =>
    rw [hop] at h
    refine ⟨(VlessCredentials.flush_ban_current newUuid h).2, fun htarget => ?_⟩
    rw [target_of_ban hop] at htarget
    cases htarget
  | unban =>
    rw [hop] at h
    cases htarget : t.target ran with
    | false => exact ⟨Advances.refl stored, by rintro ⟨⟩⟩
    | true =>
      obtain ⟨hactive, hlt⟩ := VlessCredentials.flush_unban_current (h htarget)
      exact ⟨Advances.of_lt hlt, fun _ _ => hactive⟩
  | retentionGrace newUuid =>
    rw [hop] at h
    obtain ⟨-, hadv⟩ := VlessCredentials.flush_syncAccess h
    refine ⟨?_, fun _ hop' => absurd rfl (hop' newUuid)⟩
    simp only
    split_ifs
    · refine Advances.of_lt ?_
      rw [VlessCredentials.retire_version]
      exact hadv.le.trans_lt (VlessCredentials.lt_orOne_add_one _)
    · exact hadv

/-- An active flag that keeps its version was left alone: by an unban that found no access, or by a
    sync that wants it. -/
theorem writes_nothing {t : AccessTransaction} {loaded stored : VlessCredentials} {ran : Time}
    (h : t.op.ReadsCurrent (t.target ran) loaded stored) (hp : t.proceeds ran = true)
    (hstarted : t.started ≤ ran) (hactive : (t.writes loaded ran stored).isActive = true)
    (hversion : (t.writes loaded ran stored).version = stored.version) :
    t.op = .unban ↔ t.target ran = false := by
  rw [writes] at hactive hversion
  cases hop : t.op with
  | settle order | extend n limit tariff | networkGrace =>
    rw [hop] at h
    simp only [hop] at hactive
    rw [(VlessCredentials.flush_syncAccess h).1] at hactive
    simp [hactive]
  | ban newUuid =>
    rw [hop] at h
    simp only [hop] at hactive
    rw [(VlessCredentials.flush_ban_current newUuid h).1] at hactive
    cases hactive
  | unban =>
    rw [hop] at h
    cases htarget : t.target ran with
    | false => simp
    | true =>
      have hlt := (VlessCredentials.flush_unban_current (h htarget)).2
      simp only [hop, htarget, if_true] at hversion
      exact absurd hlt (not_lt.mpr (le_of_eq hversion))
  | retentionGrace newUuid =>
    have htarget := target_of_retention hop hp hstarted
    rw [hop, htarget] at h
    simp only [hop, htarget] at hactive
    split_ifs at hactive
    · rw [VlessCredentials.retire_isActive] at hactive
      cases hactive
    · rw [(VlessCredentials.flush_syncAccess h).1] at hactive
      cases hactive

end AccessTransaction

/-! ### What every step keeps -/

namespace AccessState
open VlessCredentials (Advances)

/-- The times an open transaction took are in order, and not after `now`. -/
def Timed (now : Time) (t : AccessTransaction) : Prop :=
  t.started ≤ now ∧ ∀ r ∈ t.read, t.started ≤ r.2 ∧ r.2 ≤ now

theorem Timed.mono {now now' : Time} (h : now ≤ now') {t : AccessTransaction} (ht : Timed now t) :
    Timed now' t :=
  ⟨ht.1.trans h, fun r hr => ⟨(ht.2 r hr).1, (ht.2 r hr).2.trans h⟩⟩

/-- What is known of the transactions in flight: a feed deactivates a row it read as active, and a
    clean-up that holds the lock has the user as stored. -/
structure Flights (s : AccessState) : Prop where
  feeds : ∀ f ∈ s.feeds, f.deactivates = some true → f.sub.isActive = true
  waiting : ∀ t ∈ s.waiting, Timed s.now t
  holder : ∀ t ∈ s.holder, Timed s.now t
  cleanup : ∀ t ∈ s.holder, t.op.isCleanup = true → t.user = s.user

theorem flights_opened (now : Time) (user : User) (sub : VlessCredentials) :
    Flights (opened now user sub) := by
  constructor <;> simp [opened]

/-- What a step can do: it moves the transactions in flight, or a feed request deactivates, or an
    operation commits. -/
theorem step_cases (s : AccessState) (e : AccessEvent) :
    (∃ now feeds waiting holder, s.step e = { s with now, feeds, waiting, holder } ∧
      (now = s.now ∨ ∃ d : ℕ, e = .tick d ∧ now = s.now + d)) ∨
    (∃ i f, e = .feedCommits i ∧ s.feeds[i]? = some f ∧ f.deactivates = some true ∧
      s.step e = { s with feeds := s.feeds.eraseIdx i }.put s.user
        (f.sub.flush f.sub.feedDeactivate s.sub)) ∨
    ∃ t loaded ran, e = .commit ∧ s.holder = some t ∧ t.read = some (loaded, ran) ∧
      s.step e = { s with
        holder := none, granted := s.granted || (t.proceeds ran && t.op.gives) }.put
          (t.leavesUser ran s.user) (t.leavesSub loaded ran s.sub) := by
  cases e with
  | tick d => exact .inl ⟨_, _, _, _, rfl, .inr ⟨d, rfl, rfl⟩⟩
  | feedReadsUser i =>
    refine .inl ?_
    rw [step]
    split
    · exact ⟨_, _, _, _, rfl, .inl rfl⟩
    · split_ifs
      · exact ⟨_, _, _, _, rfl, .inl rfl⟩
      · exact ⟨_, _, _, _, rfl, .inl rfl⟩
  | feedCommits i =>
    rw [step]
    split
    · exact .inl ⟨_, _, _, _, rfl, .inl rfl⟩
    · rename_i f hi
      split_ifs with hd
      · exact .inr (.inl ⟨i, f, rfl, hi, hd, rfl⟩)
      · exact .inl ⟨_, _, _, _, rfl, .inl rfl⟩
  | lock i =>
    refine .inl ?_
    rw [step]
    split
    · exact ⟨_, _, _, _, rfl, .inl rfl⟩
    · exact ⟨_, _, _, _, rfl, .inl rfl⟩
  | readSub =>
    refine .inl ?_
    rw [step]
    split
    · split_ifs
      · exact ⟨_, _, _, _, rfl, .inl rfl⟩
      · exact ⟨_, _, _, _, rfl, .inl rfl⟩
    · exact ⟨_, _, _, _, rfl, .inl rfl⟩
  | commit =>
    rw [step]
    split
    · rename_i t hholder
      split
      · rename_i loaded ran hread
        exact .inr (.inr ⟨t, loaded, ran, rfl, hholder, hread, rfl⟩)
      · exact .inl ⟨_, _, _, _, rfl, .inl rfl⟩
    · exact .inl ⟨_, _, _, _, rfl, .inl rfl⟩
  | feedReadsSub | feedFails | begin | rollback => exact .inl ⟨_, _, _, _, rfl, .inl rfl⟩

theorem flights_step (s : AccessState) (e : AccessEvent) (h : Flights s) : Flights (s.step e) := by
  have hfeeds : ∀ {i : ℕ}, ∀ f ∈ s.feeds.eraseIdx i, f.deactivates = some true →
      f.sub.isActive = true := fun f hf => h.feeds f (List.mem_of_mem_eraseIdx hf)
  have hempty {P : AccessTransaction → Prop} :
      ∀ t ∈ (none : Option AccessTransaction), P t := by
    simp
  cases e with
  | tick d =>
    have hle : s.now ≤ s.now + (d : ℤ) := by linarith [Int.natCast_nonneg d]
    exact ⟨h.feeds, fun t ht => (h.waiting t ht).mono hle, fun t ht => (h.holder t ht).mono hle,
      h.cleanup⟩
  | feedReadsSub =>
    refine ⟨fun f hf => ?_, h.waiting, h.holder, h.cleanup⟩
    rcases List.mem_append.mp hf with hf | hf
    · exact h.feeds f hf
    · rw [List.mem_singleton.mp hf]
      rintro ⟨⟩
  | feedReadsUser i =>
    rw [step]
    cases hi : s.feeds[i]? with
    | none => exact h
    | some f =>
      simp only
      split_ifs
      · refine ⟨fun g hg => ?_, h.waiting, h.holder, h.cleanup⟩
        rcases List.mem_or_eq_of_mem_set hg with hg | rfl
        · exact h.feeds g hg
        · intro hd
          have hd := Option.some.inj hd
          simp only [feedDeactivates, Bool.and_eq_true] at hd
          exact hd.1.2
      · exact h
  | feedCommits i =>
    rw [step]
    cases hi : s.feeds[i]? with
    | none => exact h
    | some f =>
      simp only
      split_ifs
      · exact ⟨hfeeds, h.waiting, h.holder, h.cleanup⟩
      · exact ⟨hfeeds, h.waiting, h.holder, h.cleanup⟩
  | feedFails i => exact ⟨hfeeds, h.waiting, h.holder, h.cleanup⟩
  | begin op =>
    refine ⟨h.feeds, fun t ht => ?_, h.holder, h.cleanup⟩
    rcases List.mem_append.mp ht with ht | ht
    · exact h.waiting t ht
    · rw [List.mem_singleton.mp ht]
      exact ⟨le_rfl, by simp⟩
  | lock i =>
    rw [step]
    split
    case h_1 t hholder hi =>
      have ht := h.waiting t (List.mem_of_getElem? hi)
      have hwaiting : ∀ t ∈ s.waiting.eraseIdx i, Timed s.now t :=
        fun t ht => h.waiting t (List.mem_of_mem_eraseIdx ht)
      by_cases hc : t.op.isCleanup
      · simp only [if_pos hc]
        refine ⟨h.feeds, hwaiting, ?_, ?_⟩
        · rintro _ ⟨⟩
          exact ht
        · rintro _ ⟨⟩ -
          rfl
      · simp only [if_neg hc]
        refine ⟨h.feeds, hwaiting, ?_, ?_⟩
        · rintro _ ⟨⟩
          exact ht
        · rintro _ ⟨⟩ hc'
          exact absurd hc' hc
    case h_2 => exact h
  | readSub =>
    rw [step]
    cases hholder : s.holder with
    | none => exact h
    | some t =>
      simp only
      split_ifs
      · refine ⟨h.feeds, h.waiting, ?_, ?_⟩
        · rintro _ ⟨⟩
          refine ⟨(h.holder t hholder).1, ?_⟩
          rintro _ ⟨⟩
          exact ⟨(h.holder t hholder).1, le_rfl⟩
        · rintro _ ⟨⟩
          exact h.cleanup t hholder
      · exact h
  | commit =>
    rw [step]
    cases hholder : s.holder with
    | none => exact h
    | some t =>
      simp only
      cases t.read with
      | none => exact h
      | some r => exact ⟨h.feeds, h.waiting, hempty, hempty⟩
  | rollback => exact ⟨h.feeds, h.waiting, hempty, hempty⟩

/-- What is kept of the rows: access that was given is there, and every version that a change
    carries is used once and at most the stored one. -/
structure Sound (s : AccessState) : Prop where
  renewed : s.granted = true → checkVpnAccess s.now s.user = true → s.sub.isActive = true
  bounded : ∀ v ∈ s.changes, v ≤ s.sub.version
  distinct : s.changes.Nodup

theorem sound_opened (now : Time) (user : User) (sub : VlessCredentials) :
    Sound (opened now user sub) := by
  constructor <;> simp [opened]

/-- A commit that advances the subscription uses a new version for a change. -/
theorem sound_put {s : AccessState} {user : User} {sub : VlessCredentials}
    (hbounded : ∀ v ∈ s.changes, v ≤ s.sub.version) (hdistinct : s.changes.Nodup)
    (hadv : Advances s.sub sub)
    (hactive : s.granted = true → checkVpnAccess s.now user = true → sub.isActive = true) :
    Sound (s.put user sub) := by
  refine ⟨hactive, fun v hv => ?_, ?_⟩
  · simp only [put] at hv ⊢
    split_ifs at hv
    · exact (hbounded v hv).trans hadv.le
    · rcases List.mem_cons.mp hv with rfl | hv
      · exact le_rfl
      · exact (hbounded v hv).trans hadv.le
  · simp only [put]
    split_ifs with hsame
    · exact hdistinct
    · refine List.nodup_cons.mpr ⟨fun hmem => ?_, hdistinct⟩
      exact absurd (hbounded _ hmem) (not_le.mpr (hadv.lt hsame))

/-- A feed request deactivates a row as an access sync would. -/
theorem feedDeactivate_eq {sub : VlessCredentials} (h : sub.isActive = true) :
    sub.feedDeactivate = sub.syncAccess false := (if_neg (by simp [h])).symm

/-- Where the reads are current, a step changes the flag or the UUID under a higher version, and
    never lowers the version. -/
theorem advances_step {s : AccessState} (hf : Flights s) {e : AccessEvent}
    (h : ReadsCurrent s e) : Advances s.sub (s.step e).sub := by
  rcases step_cases s e with ⟨_, _, _, _, hstep, -⟩ | ⟨i, f, rfl, hi, hd, hstep⟩ |
    ⟨t, loaded, ran, rfl, hholder, hread, hstep⟩
  · rw [hstep]
    exact Advances.refl s.sub
  · rw [hstep, feedDeactivate_eq (hf.feeds f (List.mem_of_getElem? hi) hd)]
    exact (VlessCredentials.flush_syncAccess (h f hi hd)).2
  · rw [hstep]
    change Advances s.sub (t.leavesSub loaded ran s.sub)
    rw [AccessTransaction.leavesSub]
    split_ifs with hp
    · exact (AccessTransaction.writes_spec (h t hholder (loaded, ran) hread hp)).1
    · exact Advances.refl s.sub

/-- Every undisturbed step keeps the rows sound. -/
theorem sound_step (s : AccessState) (e : AccessEvent) (hf : Flights s) (h : Sound s)
    (hu : Undisturbed s e) : Sound (s.step e) := by
  have hadv := advances_step hf hu.1
  rcases step_cases s e with ⟨_, _, _, _, hstep, hnow⟩ | ⟨i, f, rfl, hi, hd, hstep⟩ |
    ⟨t, loaded, ran, rfl, hholder, hread, hstep⟩
  · rw [hstep]
    refine ⟨fun hg ha => h.renewed hg (checkVpnAccess_of_le ?_ ha), h.bounded, h.distinct⟩
    rcases hnow with rfl | ⟨d, -, rfl⟩
    · exact le_rfl
    · linarith [Int.natCast_nonneg d]
  · rw [hstep] at hadv ⊢
    refine sound_put h.bounded h.distinct hadv fun _ ha => ?_
    rw [hu.2 f hi hd] at ha
    cases ha
  · rw [hstep] at hadv ⊢
    refine sound_put h.bounded h.distinct hadv fun hg ha => ?_
    obtain ⟨hstarted, hnow⟩ := (hf.holder t hholder).2 (loaded, ran) hread
    rw [AccessTransaction.leavesSub]
    split_ifs with hp
    · have htarget := hu.2 t hholder (loaded, ran) hread hp (checkVpnAccess_of_le hnow ha)
      refine (AccessTransaction.writes_spec (hu.1 t hholder (loaded, ran) hread hp)).2 htarget ?_
      intro u hop
      rw [AccessTransaction.target_of_retention hop hp hstarted] at htarget
      cases htarget
    · rw [AccessTransaction.leavesUser, if_neg hp] at ha
      exact h.renewed (by simpa [hp] using hg) ha

end AccessState

end Just1kBot
