import Just1kBot.Vless.AccessSync
import Mathlib.Data.List.Sort

/-! The expiry reminders of `services/workers/notifications.py` on one user, and the operations that
    change `subscription_end`, each with the reminder columns it writes.

    A reminder is told by its level; its text and keyboard are not kept. `_last_notification_type`
    is a cache in memory: an attempt is given what it holds of the user and leaves what it holds
    next. -/

namespace Just1kBot

def maxRetryCount : ℕ := 4
def notificationInterval : ℤ := 1800
def notificationSelectLimit : ℕ := 500

/-- The levels of reminders, the least urgent first. -/
inductive NotificationType
  | threeDays | oneDay | twoHours | expired | grace12h
  deriving DecidableEq, Repr

def NotificationType.urgency : NotificationType → ℕ
  | .threeDays => 1
  | .oneDay => 2
  | .twoHours => 3
  | .expired => 4
  | .grace12h => 5

/-- What became of the message. -/
inductive SendOutcome
  | delivered
  /-- `TelegramForbiddenError`. -/
  | forbidden
  /-- Any other exception. -/
  | failed
  deriving DecidableEq, Repr

/-- `_get_backoff_delay`. -/
def backoffDelay (retryCount : ℕ) : ℤ :=
  seconds (notificationInterval * 2 ^ min retryCount maxRetryCount)

/-! ### The columns of a user -/

namespace User

/-- The flag of a level. -/
def notified (u : User) : NotificationType → Bool
  | .threeDays => u.notified3d
  | .oneDay => u.notified1d
  | .twoHours => u.notified2h
  | .expired => u.notifiedExpired
  | .grace12h => u.notifiedGrace12h

/-- Every level is armed. -/
def armed (u : User) : Bool :=
  !u.notified3d && !u.notified1d && !u.notified2h && !u.notifiedExpired && !u.notifiedGrace12h

/-- A more urgent reminder settles the less urgent ones of its kind. -/
def recordSent (u : User) : NotificationType → User
  | .threeDays => { u with notified3d := true }
  | .oneDay => { u with notified1d := true, notified3d := true }
  | .twoHours => { u with notified2h := true, notified1d := true, notified3d := true }
  | .expired => { u with notifiedExpired := true }
  | .grace12h => { u with notifiedGrace12h := true, notifiedExpired := true }

/-- `_infer_last_notification_type`. -/
def inferLastNotificationType (u : User) : Option NotificationType :=
  if u.notifiedGrace12h then some .grace12h
  else if u.notifiedExpired then some .expired
  else if u.notified2h then some .twoHours
  else if u.notified1d then some .oneDay
  else if u.notified3d then some .threeDays
  else none

/-- `_maybe_reset_retry_on_type_change`. -/
def maybeResetRetryOnTypeChange (u : User) (last : Option NotificationType)
    (type : NotificationType) : User :=
  if (last.or u.inferLastNotificationType).any (· ≠ type) then
    { u with notificationRetryCount := 0, lastNotificationAttempt := none }
  else u

/-- The level due before the end of the subscription. -/
def preExpiryType (u : User) (now endsAt : Time) : Option NotificationType :=
  if endsAt - now ≤ hours 2 ∧ u.notified2h = false then some .twoHours
  else if endsAt - now ≤ days 1 ∧ u.notified1d = false then some .oneDay
  else if endsAt - now ≤ days 3 ∧ u.notified3d = false then some .threeDays
  else none

/-- The level due after it. -/
def postExpiryType (u : User) (now endsAt : Time) : Option NotificationType :=
  if u.notifiedGrace12h = false ∧ endsAt + hours gracePeriodHours - hours 12 ≤ now then
    some .grace12h
  else if u.notifiedExpired = false then some .expired
  else none

end User

/-- A row of `users`, with the column that only the senders of messages read. -/
structure NotifiedUser where
  user : User
  isBotBlocked : Bool := false
  deriving DecidableEq, Repr

/-- What an attempt leaves: the row, the cached level, and the level it delivered. -/
structure Attempt where
  row : NotifiedUser
  lastType : Option NotificationType
  sent : Option NotificationType := none
  deriving DecidableEq, Repr

namespace NotifiedUser

def id (r : NotifiedUser) : UserId := r.user.id

/-- No reminder is sent to the user. -/
def excluded (r : NotifiedUser) : Bool := r.user.isBanned || r.isBotBlocked || r.user.isDeleted

/-- The retries are still backing off. -/
def backsOff (r : NotifiedUser) (now : Time) : Bool :=
  decide (0 < r.user.notificationRetryCount) && r.user.lastNotificationAttempt.any fun last =>
    decide (now - last < backoffDelay (r.user.notificationRetryCount - 1))

/-- The message of a level is sent, under the row lock. -/
def send (r : NotifiedUser) (now : Time) (last : Option NotificationType) (outcome : SendOutcome)
    (type : NotificationType) : Attempt :=
  let user := r.user.maybeResetRetryOnTypeChange last type
  match outcome with
  | .delivered =>
    let user := { user with notificationRetryCount := 0, lastNotificationAttempt := some now }
    ⟨{ r with user := user.recordSent type }, some type, some type⟩
  | .forbidden => ⟨⟨user, true⟩, some type, none⟩
  | .failed =>
    let retryCount := user.notificationRetryCount + 1
    ⟨{ r with user := { user with
        notificationRetryCount := retryCount, lastNotificationAttempt := some now } },
      some type, none⟩

/-- What both senders do with a user who is to be reminded: exhausted retries start over at the next
    cycle, and otherwise the level that is due is sent. -/
def attempt (r : NotifiedUser) (now : Time) (last : Option NotificationType)
    (outcome : SendOutcome) (due : Option NotificationType) : Attempt :=
  if maxRetryCount ≤ r.user.notificationRetryCount then
    ⟨{ r with user := { r.user with
        notificationRetryCount := 0, lastNotificationAttempt := none } }, last, none⟩
  else if r.backsOff now then ⟨r, last, none⟩
  else
    match due with
    | none => ⟨r, last, none⟩
    | some type => r.send now last outcome type

/-- The `WHERE` of `_send_pre_expiry_notifications`. -/
def preExpirySelected (now : Time) (r : NotifiedUser) : Bool :=
  r.user.subscriptionEnd.any (fun e => now < e && e ≤ now + days 3) && !r.excluded &&
    (!r.user.notified3d || !r.user.notified1d || !r.user.notified2h)

/-- The `WHERE` of `_send_post_expiry_notifications`. -/
def postExpirySelected (now : Time) (r : NotifiedUser) : Bool :=
  r.user.subscriptionEnd.any (fun e => e < now && now - hours gracePeriodHours < e) &&
    !r.excluded && (!r.user.notifiedExpired || !r.user.notifiedGrace12h)

/-- A user of `_send_pre_expiry_notifications`, on the locked row. -/
def sendPreExpiry (r : NotifiedUser) (now : Time) (last : Option NotificationType)
    (outcome : SendOutcome) : Attempt :=
  match r.user.subscriptionEnd with
  | none => ⟨r, last, none⟩
  | some endsAt =>
    if r.excluded || endsAt ≤ now || now + days 3 < endsAt then ⟨r, last, none⟩
    else r.attempt now last outcome (r.user.preExpiryType now endsAt)

/-- A user of `_send_post_expiry_notifications`, on the locked row. -/
def sendPostExpiry (r : NotifiedUser) (now : Time) (last : Option NotificationType)
    (outcome : SendOutcome) : Attempt :=
  match r.user.subscriptionEnd with
  | none => ⟨r, last, none⟩
  | some endsAt =>
    if now ≤ endsAt || r.excluded || endsAt + hours gracePeriodHours ≤ now then ⟨r, last, none⟩
    else r.attempt now last outcome (r.user.postExpiryType now endsAt)

end NotifiedUser

/-- The ids a sender goes through, the earliest end first. -/
def selectIds (selected : NotifiedUser → Bool) (rows : List NotifiedUser) : List UserId :=
  (((rows.filter selected).insertionSort fun a b =>
    a.user.subscriptionEnd.getD 0 ≤ b.user.subscriptionEnd.getD 0).take
      notificationSelectLimit).map NotifiedUser.id

/-! ### The operations that change the end date -/

/-- What every operation but a revocation does to the reminder columns. -/
def User.clearNotifications (u : User) : User :=
  { u with
    notified3d := false
    notified1d := false
    notified2h := false
    notifiedExpired := false
    notifiedGrace12h := false
    notificationRetryCount := 0
    lastNotificationAttempt := none }

/-- `replace_subscription`, on the user's columns. -/
def replaceSubscription (subscriptionEnd : Time) (deviceLimit : ℕ) (tariffId : TariffId)
    (user : User) : User :=
  { user.clearNotifications with
    subscriptionEnd := some subscriptionEnd
    deviceLimit
    currentTariffId := some tariffId }

/-- `admin_sub_apply_reduce`, on the user's columns. -/
def adminSubApplyReduce (now : Time) (n : ℕ) (user : User) : User :=
  match user.subscriptionEnd with
  | none => user
  | some e =>
    let newEnd := e - days n
    let cutoff := now - hours (vpnAccessGraceHours + 1)
    { user.clearNotifications with
      subscriptionEnd := some (if newEnd ≤ now then cutoff else newEnd) }

/-- The operations, with the number of registered devices where they read it. -/
inductive EndOperation
  /-- `fulfill_order`. -/
  | fulfill (order : Order)
  /-- `revoke_order`. -/
  | revoke (order : Order)
  /-- `extend_subscription`. -/
  | extend (n : ℕ) (newDeviceLimit : Option ℕ) (newTariffId : Option TariffId) (vlessCount : ℕ)
  /-- `replace_subscription`. -/
  | replace (subscriptionEnd : Time) (deviceLimit : ℕ) (tariffId : TariffId) (vlessCount : ℕ)
  /-- `admin_sub_apply_reduce`. -/
  | reduce (n : ℕ)
  deriving DecidableEq

namespace EndOperation

/-- A settlement reads the user again once it holds the lock (`_load_settlement_user`); the others
    keep what their session loaded. -/
def reloads : EndOperation → Bool
  | .fulfill _ => true
  | _ => false

/-- The operation is carried out, and not refused, for a user whom the session holds as `user` and
    whose row is `stored`. -/
def permitted (now : Time) (user stored : User) : EndOperation → Bool
  | .fulfill order | .revoke order =>
    order.userId = user.id && (order.serviceType = .standard || order.serviceType = .awg)
  | .extend _ newDeviceLimit _ vlessCount =>
    !stored.isDeleted && newDeviceLimit.all fun limit => vlessCount ≤ limit
  | .replace subscriptionEnd deviceLimit _ vlessCount =>
    now < subscriptionEnd && vlessCount ≤ deviceLimit
  | .reduce n =>
    !stored.isDeleted && user.subscriptionEnd.isSome && !user.isBanned &&
      1 ≤ n && n ≤ permanentSubscriptionDays

/-- What it makes of the user its session holds. -/
def apply (now : Time) (user : User) : EndOperation → User
  | .fulfill order => grantStandard now order user
  | .revoke order => revokeStandard now order user
  | .extend n newDeviceLimit newTariffId _ =>
    extendSubscription now n newDeviceLimit newTariffId user
  | .replace subscriptionEnd deviceLimit tariffId _ =>
    replaceSubscription subscriptionEnd deviceLimit tariffId user
  | .reduce n => adminSubApplyReduce now n user

/-- The user it works on. -/
def copy (op : EndOperation) (loaded stored : User) : User := if op.reloads then stored else loaded

/-- The row its commit leaves. -/
def leaves (op : EndOperation) (now : Time) (loaded stored : User) : User :=
  let user := op.copy loaded stored
  if op.permitted now user stored then user.flush (op.apply now user) stored else stored

end EndOperation

/-! ### What an attempt does -/

/-- A more urgent flag is never up alone. -/
structure User.Coherent (u : User) : Prop where
  oneDay : u.notified .twoHours = true → u.notified .oneDay = true
  threeDays : u.notified .oneDay = true → u.notified .threeDays = true
  expired : u.notified .grace12h = true → u.notified .expired = true

/-- The urgency that the clock gives. -/
def urgencyAt (now endsAt : Time) : ℕ :=
  if endsAt < now then
    if endsAt + hours gracePeriodHours - hours 12 ≤ now then 5 else 4
  else if endsAt - now ≤ hours 2 then 3
  else if endsAt - now ≤ days 1 then 2
  else if endsAt - now ≤ days 3 then 1
  else 0

theorem urgencyAt_mono {now now' : Time} (h : now ≤ now') (endsAt : Time) :
    urgencyAt now endsAt ≤ urgencyAt now' endsAt := by
  have hleft : endsAt - now' ≤ endsAt - now := Int.sub_le_sub_left h endsAt
  simp only [urgencyAt]
  split_ifs <;> first | omega | (simp only [hours, days, seconds] at *; linarith)

/-- The flags that a level raises. -/
def NotificationType.settles : NotificationType → NotificationType → Bool
  | .threeDays, .threeDays => true
  | .oneDay, .threeDays | .oneDay, .oneDay => true
  | .twoHours, .threeDays | .twoHours, .oneDay | .twoHours, .twoHours => true
  | .expired, .expired => true
  | .grace12h, .expired | .grace12h, .grace12h => true
  | _, _ => false

namespace User

theorem notified_recordSent (u : User) (type t : NotificationType) :
    (u.recordSent type).notified t = (type.settles t || u.notified t) := by
  cases type <;> cases t <;> rfl

theorem Coherent.recordSent {u : User} (h : u.Coherent) (type : NotificationType) :
    (u.recordSent type).Coherent := by
  obtain ⟨hone, hthree, hexpired⟩ := h
  constructor <;> simp only [notified_recordSent] <;> cases type <;>
    simp_all [NotificationType.settles]

/-- The two rows are of one user, with one end date and the same reminders. -/
structure SameReminders (u u' : User) : Prop where
  id : u'.id = u.id
  subscriptionEnd : u'.subscriptionEnd = u.subscriptionEnd
  notified : u'.notified = u.notified

theorem SameReminders.refl (u : User) : u.SameReminders u := ⟨rfl, rfl, rfl⟩

theorem SameReminders.trans {u u' u'' : User} (h : u.SameReminders u')
    (h' : u'.SameReminders u'') : u.SameReminders u'' :=
  ⟨h'.id.trans h.id, h'.subscriptionEnd.trans h.subscriptionEnd, h'.notified.trans h.notified⟩

/-- The columns of the retries are not the reminders. -/
theorem sameReminders_retry (u : User) (retryCount : ℕ) (last : Option Time) :
    u.SameReminders
      { u with notificationRetryCount := retryCount, lastNotificationAttempt := last } :=
  ⟨rfl, rfl, funext fun t => by cases t <;> rfl⟩

theorem sameReminders_maybeReset (u : User) (last : Option NotificationType)
    (type : NotificationType) : u.SameReminders (u.maybeResetRetryOnTypeChange last type) := by
  rw [maybeResetRetryOnTypeChange]
  split_ifs
  · exact u.sameReminders_retry 0 none
  · exact .refl u

theorem SameReminders.recordSent {u u' : User} (h : u.SameReminders u')
    (type : NotificationType) : (u.recordSent type).SameReminders (u'.recordSent type) := by
  obtain ⟨hid, hend, hnotified⟩ := h
  refine ⟨?_, ?_, funext fun t => ?_⟩
  · cases type <;> exact hid
  · cases type <;> exact hend
  · rw [notified_recordSent, notified_recordSent, hnotified]

theorem recordSent_id (u : User) (type : NotificationType) : (u.recordSent type).id = u.id := by
  cases type <;> rfl

theorem recordSent_subscriptionEnd (u : User) (type : NotificationType) :
    (u.recordSent type).subscriptionEnd = u.subscriptionEnd := by
  cases type <;> rfl

/-- Before the end, the level that is due is the one the clock gives. -/
theorem preExpiryType_spec {u : User} {now endsAt : Time} (hnow : now < endsAt)
    {type : NotificationType} (h : u.preExpiryType now endsAt = some type) :
    u.notified type = false ∧ (u.Coherent → type.urgency = urgencyAt now endsAt) := by
  rw [preExpiryType] at h
  split_ifs at h with htwo hone hthree <;> injection h with h <;> subst h
  · refine ⟨htwo.2, fun _ => ?_⟩
    rw [urgencyAt, if_neg hnow.not_gt, if_pos htwo.1]
    rfl
  · refine ⟨hone.2, fun hc => ?_⟩
    have hleft : ¬ endsAt - now ≤ hours 2 := by
      intro hle
      have htwice : u.notified .twoHours = true := by simpa [User.notified, hle] using htwo
      exact absurd (hc.oneDay htwice) (by simp [notified, hone.2])
    rw [urgencyAt, if_neg hnow.not_gt, if_neg hleft, if_pos hone.1]
    rfl
  · refine ⟨hthree.2, fun hc => ?_⟩
    have hday : ¬ endsAt - now ≤ days 1 := by
      intro hle
      have honce : u.notified .oneDay = true := by simpa [User.notified, hle] using hone
      exact absurd (hc.threeDays honce) (by simp [notified, hthree.2])
    have hleft : ¬ endsAt - now ≤ hours 2 := fun hle =>
      hday (hle.trans (by decide))
    rw [urgencyAt, if_neg hnow.not_gt, if_neg hleft, if_neg hday, if_pos hthree.1]
    rfl

/-- So it is after the end. -/
theorem postExpiryType_spec {u : User} {now endsAt : Time} (hnow : endsAt < now)
    {type : NotificationType} (h : u.postExpiryType now endsAt = some type) :
    u.notified type = false ∧ (u.Coherent → type.urgency = urgencyAt now endsAt) := by
  rw [postExpiryType] at h
  split_ifs at h with hgrace hexpired <;> injection h with h <;> subst h
  · refine ⟨hgrace.1, fun _ => ?_⟩
    rw [urgencyAt, if_pos hnow, if_pos hgrace.2]
    rfl
  · refine ⟨hexpired, fun hc => ?_⟩
    have hearly : ¬ endsAt + hours gracePeriodHours - hours 12 ≤ now := by
      intro hle
      have hflag : u.notified .grace12h = true := by simpa [User.notified, hle] using hgrace
      exact absurd (hc.expired hflag) (by simp [notified, hexpired])
    rw [urgencyAt, if_pos hnow, if_neg hearly]
    rfl

end User

/-- The attempt delivers nothing and keeps the reminders, or it delivers and records the level that
    the clock gives, which was not recorded. -/
def Attempt.Reminds (a : Attempt) (r : NotifiedUser) (now : Time) : Prop :=
  (a.sent = none ∧ r.user.SameReminders a.row.user) ∨
    ∃ type endsAt, a.sent = some type ∧ r.user.subscriptionEnd = some endsAt ∧
      r.user.notified type = false ∧ (r.user.Coherent → type.urgency = urgencyAt now endsAt) ∧
      (r.user.recordSent type).SameReminders a.row.user

namespace NotifiedUser

theorem attempt_reminds {r : NotifiedUser} {now endsAt : Time} {due : Option NotificationType}
    (hend : r.user.subscriptionEnd = some endsAt)
    (hdue : ∀ type, due = some type → r.user.notified type = false ∧
      (r.user.Coherent → type.urgency = urgencyAt now endsAt))
    (last : Option NotificationType) (outcome : SendOutcome) :
    (r.attempt now last outcome due).Reminds r now := by
  unfold attempt
  split_ifs
  · exact .inl ⟨rfl, r.user.sameReminders_retry 0 none⟩
  · exact .inl ⟨rfl, .refl _⟩
  · rcases due with _ | type
    · exact .inl ⟨rfl, .refl _⟩
    · have hsame := r.user.sameReminders_maybeReset last type
      cases outcome with
      | delivered =>
        refine .inr ⟨type, endsAt, rfl, hend, (hdue type rfl).1, (hdue type rfl).2, ?_⟩
        exact (hsame.trans (User.sameReminders_retry _ 0 (some now))).recordSent type
      | forbidden => exact .inl ⟨rfl, hsame⟩
      | failed => exact .inl ⟨rfl, hsame.trans (User.sameReminders_retry ..)⟩

theorem sendPreExpiry_reminds (r : NotifiedUser) (now : Time) (last : Option NotificationType)
    (outcome : SendOutcome) : (r.sendPreExpiry now last outcome).Reminds r now := by
  rw [sendPreExpiry]
  rcases hend : r.user.subscriptionEnd with _ | endsAt
  · exact .inl ⟨rfl, .refl _⟩
  · dsimp only
    split_ifs with hskip
    · exact .inl ⟨rfl, .refl _⟩
    · simp only [Bool.or_eq_true, decide_eq_true_eq, not_or, not_le] at hskip
      exact attempt_reminds hend (fun type => User.preExpiryType_spec hskip.1.2) last outcome

theorem sendPostExpiry_reminds (r : NotifiedUser) (now : Time) (last : Option NotificationType)
    (outcome : SendOutcome) : (r.sendPostExpiry now last outcome).Reminds r now := by
  rw [sendPostExpiry]
  rcases hend : r.user.subscriptionEnd with _ | endsAt
  · exact .inl ⟨rfl, .refl _⟩
  · dsimp only
    split_ifs with hskip
    · exact .inl ⟨rfl, .refl _⟩
    · simp only [Bool.or_eq_true, decide_eq_true_eq, not_or, not_le] at hskip
      exact attempt_reminds hend (fun type => User.postExpiryType_spec hskip.1.1) last outcome

end NotifiedUser

end Just1kBot
