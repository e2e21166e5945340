import Just1kBot.Models

/-! Operations on White Internet subscriptions: the atomic operations of
    `database/repositories/white_internet_repo.py` and the row changes of
    `services/white_internet_service.py`.

    Every one of them locks the row and works on its fresh state, so each is a function of the row.
    Settings that come from the environment have their defaults. -/

namespace Just1kBot

def whiteInternetBaseTrafficBytes : ℕ := 53687091200
def whiteInternetExtraDeviceTrafficBytes : ℕ := 53687091200
def whiteInternetMaxQuotaBytes : ℕ := 161061273600
def whiteInternetBaseDurationDays : ℤ := 30
def whiteInternetMaxExpiryDays : ℤ := 60
def whiteInternetDefaultDeviceLimit : ℕ := 1

def permanentSubscriptionDays : ℤ := 36500
/-- 2100-01-01. -/
def permanentEndDate : Time := seconds 4102444800

/-- `calculate_extension_end`. -/
def calculateExtensionEnd (currentEnd : Option Time) (n : ℤ) (now : Time) : Time :=
  if permanentSubscriptionDays ≤ n then permanentEndDate
  else
    match currentEnd with
    | some e => if now < e then e + days n else now + days n
    | none => now + days n

/-- `value or 1`. -/
def orOne (n : ℕ) : ℕ := if n = 0 then 1 else n

namespace WhiteInternetTables

/-- The row with this id, as `get_subscription_with_lock` finds it. -/
def subscription (t : WhiteInternetTables) (id : ℕ) : Option WhiteInternetSubscription :=
  if id < 1 ∨ 2147483647 < id then none
  else Lib.Table.lookup WhiteInternetSubscription.id id t.subscriptions

def putSubscription (t : WhiteInternetTables) (s : WhiteInternetSubscription) :
    WhiteInternetTables :=
  { t with subscriptions := Lib.Table.put WhiteInternetSubscription.id s t.subscriptions }

/-- `get_subscription_by_user_id`: the latest row of the user. -/
def subscriptionByUserId (t : WhiteInternetTables) (u : UserId) :
    Option WhiteInternetSubscription :=
  if u < 1 ∨ 2147483647 < u then none
  else (t.subscriptions.filter fun s => s.userId = u).foldl
    (fun best s => if best.any (fun b => s.id ≤ b.id) then best else some s) none

theorem id_of_subscription {t : WhiteInternetTables} {id : ℕ} {row : WhiteInternetSubscription}
    (h : t.subscription id = some row) : row.id = id := by
  unfold subscription at h
  split_ifs at h
  exact Lib.Table.key_of_lookup _ h

theorem subscription_of_mem {t : WhiteInternetTables} {row found : WhiteInternetSubscription}
    (hnd : (t.subscriptions.map WhiteInternetSubscription.id).Nodup) (hmem : row ∈ t.subscriptions)
    (h : t.subscription row.id = some found) : found = row := by
  unfold subscription at h
  split_ifs at h
  exact Option.some.inj (h.symm.trans (Lib.Table.lookup_of_mem _ hnd hmem))

/-- After a row is written back it is found under its id, and every other row as before. -/
theorem subscription_putSubscription {t : WhiteInternetTables} {id : ℕ}
    {old : WhiteInternetSubscription} (h : t.subscription id = some old)
    {row : WhiteInternetSubscription} (hid : row.id = id) (k : ℕ) :
    (t.putSubscription row).subscription k = if k = id then some row else t.subscription k := by
  subst hid
  unfold subscription at h
  split_ifs at h with hbounds
  by_cases hk : k = row.id
  · subst hk
    rw [if_pos rfl, subscription, if_neg hbounds]
    exact Lib.Table.lookup_put_self _ h rfl
  · simp only [subscription, putSubscription]
    rw [Lib.Table.lookup_put_ne _ _ hk, if_neg hk]

end WhiteInternetTables

namespace WhiteInternetSubscription

/-- A fresh row of `create_white_internet_subscription`. -/
def create (id : ℕ) (userId : UserId) (originNodeId : ServerId) (uuid : Uuid) (baseBytes : ℕ)
    (durationDays : ℤ) (isTrial : Bool) (now : Time) : WhiteInternetSubscription :=
  { id := id, userId := userId, originNodeId := originNodeId, uuid := uuid, status := .pending
    startedAt := now, expiresAt := now + days durationDays, baseTrafficBytes := baseBytes
    isTrial := isTrial, notified3d := isTrial }

/-- `expire_subscription_atomic`. -/
def expire (reason : String) (sub : WhiteInternetSubscription) : WhiteInternetSubscription :=
  if sub.status ≠ .expired ∧ sub.status ≠ .disabled then
    { sub with
      status := .expired, statusReason := reason, desiredVersion := sub.desiredVersion + 1
      provisioningStatus := .pendingDelete }
  else sub

@[simp] theorem expire_id (reason : String) (sub : WhiteInternetSubscription) :
    (sub.expire reason).id = sub.id := by
  rw [expire]
  split <;> rfl

@[simp] theorem expire_expiresAt (reason : String) (sub : WhiteInternetSubscription) :
    (sub.expire reason).expiresAt = sub.expiresAt := by
  rw [expire]
  split <;> rfl

/-- The expiry moves exactly the rows that are neither expired nor disabled. -/
theorem expire_moves_iff (reason : String) {sub : WhiteInternetSubscription} :
    sub.status ≠ .expired ∧ (sub.expire reason).status = .expired ↔
      sub.status ≠ .expired ∧ sub.status ≠ .disabled := by
  rw [expire]
  split
  · rename_i h
    exact iff_of_true ⟨h.1, rfl⟩ h
  · rename_i h
    exact iff_of_false (fun hm => hm.1 hm.2) h

/-- What `deactivate_user_subscriptions` does to a row it selects. -/
def disable (reason : String) (sub : WhiteInternetSubscription) : WhiteInternetSubscription :=
  { sub with
    status := .disabled, statusReason := reason, desiredVersion := sub.desiredVersion + 1
    provisioningStatus := .pendingDelete }

/-- What `reset_user_trial` does to a trial row. -/
def resetTrial (sub : WhiteInternetSubscription) : WhiteInternetSubscription :=
  { sub.disable "trial_reset" with pendingHardDelete := true }

/-- What a refunded traffic pack takes back. -/
def revokePack (bytes : ℕ) (sub : WhiteInternetSubscription) : WhiteInternetSubscription :=
  { sub with
    extraTrafficBytes := sub.extraTrafficBytes - bytes, desiredVersion := sub.desiredVersion + 1 }

@[simp] theorem revokePack_id (bytes : ℕ) (sub : WhiteInternetSubscription) :
    (sub.revokePack bytes).id = sub.id := rfl

@[simp] theorem revokePack_userId (bytes : ℕ) (sub : WhiteInternetSubscription) :
    (sub.revokePack bytes).userId = sub.userId := rfl

@[simp] theorem revokePack_actualVersion (bytes : ℕ) (sub : WhiteInternetSubscription) :
    (sub.revokePack bytes).actualVersion = sub.actualVersion := rfl

@[simp] theorem revokePack_desiredVersion (bytes : ℕ) (sub : WhiteInternetSubscription) :
    (sub.revokePack bytes).desiredVersion = sub.desiredVersion + 1 := rfl

/-- What a refunded device slot takes back. -/
def revokeSlot (sub : WhiteInternetSubscription) : WhiteInternetSubscription :=
  { sub with
    deviceLimit := max whiteInternetDefaultDeviceLimit (orOne sub.deviceLimit - 1) }.revokePack
      whiteInternetExtraDeviceTrafficBytes

@[simp] theorem revokeSlot_id (sub : WhiteInternetSubscription) : sub.revokeSlot.id = sub.id := by
  rw [revokeSlot, revokePack_id]

@[simp] theorem revokeSlot_userId (sub : WhiteInternetSubscription) :
    sub.revokeSlot.userId = sub.userId := by
  rw [revokeSlot, revokePack_userId]

@[simp] theorem revokeSlot_actualVersion (sub : WhiteInternetSubscription) :
    sub.revokeSlot.actualVersion = sub.actualVersion := by
  rw [revokeSlot, revokePack_actualVersion]

@[simp] theorem revokeSlot_desiredVersion (sub : WhiteInternetSubscription) :
    sub.revokeSlot.desiredVersion = sub.desiredVersion + 1 := by
  rw [revokeSlot, revokePack_desiredVersion]

/-- The flags a new paid period clears. -/
def clearNotified (sub : WhiteInternetSubscription) : WhiteInternetSubscription :=
  { sub with
    notified3d := false, notified1d := false, notified2h := false, notifiedExpired := false }

/-- The usage counters a new period clears; the snapshots stay. -/
def clearUsage (sub : WhiteInternetSubscription) : WhiteInternetSubscription :=
  { sub with
    trafficUsedBytes := 0, trafficUplinkBytes := 0, trafficDownlinkBytes := 0
    trafficOverageBytes := 0 }

/-- What the row has used of its quota. -/
def usedQuota (sub : WhiteInternetSubscription) : ℕ :=
  sub.trafficUsedBytes - sub.trafficOverageBytes

def totalQuota (sub : WhiteInternetSubscription) : ℕ :=
  sub.baseTrafficBytes + sub.extraTrafficBytes

/-- `renew_subscription_atomic`. -/
def renew (durationDays : ℤ) (baseBytes : Option ℕ) (maxExpiryDays : ℤ) (now : Time)
    (sub : WhiteInternetSubscription) : Except Err WhiteInternetSubscription :=
  if sub.status = .disabled ∨ sub.status = .pending then
    .error (.inactiveSubscription "Subscription is not eligible for renewal")
  else
    let baseTime := if now < sub.expiresAt then sub.expiresAt else now
    let newExpiresAt := baseTime + days durationDays
    if now + days maxExpiryDays < newExpiresAt then
      .error (.renewalHorizonExceeded s!"Renewal exceeds maximum horizon of {maxExpiryDays} days")
    else
      let effectiveDevices := max 1 sub.deviceLimit
      let extraRollover := min sub.extraTrafficBytes (sub.totalQuota - sub.usedQuota)
      let newExtra :=
        if sub.isTrial then 0
        else if now ≤ sub.expiresAt + days 7 then
          min extraRollover (effectiveDevices * whiteInternetMaxQuotaBytes)
        else 0
      .ok { sub.clearNotified.clearUsage with
        isTrial := false
        baseTrafficBytes := baseBytes.getD (effectiveDevices * whiteInternetBaseTrafficBytes)
        extraTrafficBytes := newExtra
        expiresAt := newExpiresAt
        status := .active
        statusReason := none
        desiredVersion := sub.desiredVersion + 1
        provisioningStatus := .pendingUpdate
        notified90p := false }

theorem renew_id {durationDays maxExpiryDays : ℤ} {baseBytes : Option ℕ} {now : Time}
    {sub sub' : WhiteInternetSubscription}
    (h : sub.renew durationDays baseBytes maxExpiryDays now = .ok sub') : sub'.id = sub.id := by
  unfold renew at h
  split at h
  · cases h
  · extract_lets baseTime newExpiresAt at h
    split at h
    · cases h
    · cases h
      rfl

/-- `extend_subscription_atomic`. -/
def extend (n : ℤ) (now : Time) (sub : WhiteInternetSubscription) :
    Except Err WhiteInternetSubscription :=
  if n < 1 then .error (.valueError s!"Invalid days to extend: {n}. Must be an integer >= 1.")
  else if sub.status = .disabled then .error (.inactiveSubscription "Subscription is disabled")
  else if sub.isTrial then .error (.trialSubscription "Cannot extend trial subscription")
  else
    let isNewCycle := sub.expiresAt ≤ now ∨ sub.status = .expired ∨ sub.status = .exhausted ∨
      sub.status = .pending
    let extended := { sub.clearNotified with
      expiresAt := calculateExtensionEnd sub.expiresAt n now
      desiredVersion := sub.desiredVersion + 1 }
    if isNewCycle then
      .ok { extended.clearUsage with
        extraTrafficBytes := 0, notified90p := false, status := .active, statusReason := none
        provisioningStatus := .pendingUpdate }
    else .ok extended

/-- An extension that goes through: the row was not disabled, and its desired version moves on. -/
theorem extend_ok {n : ℤ} {now : Time} {sub sub' : WhiteInternetSubscription}
    (h : sub.extend n now = .ok sub') :
    sub'.id = sub.id ∧ sub.status ≠ .disabled ∧
      sub'.actualVersion = sub.actualVersion ∧ sub'.desiredVersion = sub.desiredVersion + 1 := by
  unfold extend at h
  split at h
  · cases h
  · split at h
    · cases h
    · rename_i hdisabled
      split at h
      · cases h
      · dsimp only at h
        split at h
        · cases h
          exact ⟨rfl, hdisabled, rfl, rfl⟩
        · cases h
          exact ⟨rfl, hdisabled, rfl, rfl⟩

/-- Moving a trial to another origin before its conversion. -/
def migrateTo (origin : ServerId) (sub : WhiteInternetSubscription) : WhiteInternetSubscription :=
  { sub with
    originNodeId := origin, actualVersion := 0, lastReconciledNodeEpoch := none
    provisioningStatus := .pendingCreate }

/-- What `migrate_origin_subscriptions` does to a row it moves. -/
def migrateOrigin (target : ServerId) (sub : WhiteInternetSubscription) :
    WhiteInternetSubscription :=
  { sub with
    originNodeId := target, desiredVersion := sub.desiredVersion + 1
    provisioningStatus := .pendingUpdate }

/-- The change of the row in `convert_trial_to_paid`, after a move when its origin is not usable. -/
def convertTrial (durationDays : ℤ) (newOrigin : Option ServerId) (now : Time)
    (sub : WhiteInternetSubscription) : WhiteInternetSubscription :=
  let baseTime := if now < sub.expiresAt then sub.expiresAt else now
  { (newOrigin.elim sub fun origin => sub.migrateTo origin).clearNotified.clearUsage with
    isTrial := false
    baseTrafficBytes := max 1 (orOne sub.deviceLimit) * whiteInternetBaseTrafficBytes
    extraTrafficBytes := 0
    expiresAt := baseTime + days durationDays
    status := .active
    statusReason := none
    desiredVersion := sub.desiredVersion + 1
    provisioningStatus := .pendingUpdate
    notified90p := false }

theorem convertTrial_id (sub : WhiteInternetSubscription) (durationDays : ℤ)
    (newOrigin : Option ServerId) (now : Time) :
    (sub.convertTrial durationDays newOrigin now).id = sub.id := by
  cases newOrigin with
  | none => rfl
  | some origin => rfl

theorem convertTrial_versions (sub : WhiteInternetSubscription) (durationDays : ℤ)
    (newOrigin : Option ServerId) (now : Time) :
    (sub.convertTrial durationDays newOrigin now).actualVersion ≤ sub.actualVersion ∧
      (sub.convertTrial durationDays newOrigin now).desiredVersion = sub.desiredVersion + 1 := by
  simp only [convertTrial, clearUsage, clearNotified, and_true]
  cases newOrigin with
  | none => simp only [Option.elim_none, le_refl]
  | some origin => simp only [Option.elim_some, migrateTo, Nat.zero_le]

end WhiteInternetSubscription

/-- `deactivate_user_subscriptions`: the rows of the user that are not disabled, or the one
    named. -/
def WhiteInternetTables.deactivateUserSubscriptions (t : WhiteInternetTables) (u : UserId)
    (reason : String) (target : Option ℕ := none) : WhiteInternetTables :=
  { t with subscriptions := t.subscriptions.map fun s =>
      if s.userId = u ∧ s.status ≠ .disabled ∧ target.all (· = s.id) then s.disable reason else s }

end Just1kBot
