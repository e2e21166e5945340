import Just1kBot.WhiteInternet.Quota
import Just1kBot.Web.Devices
import Just1kBot.Lib.Tracked

/-! The atomic operations of `database/repositories/white_internet_repo.py`, statement by statement.

    Each of them loads the row under its lock and then works on that object, which the session
    tracks: what it has assigned before it raises is still assigned afterwards, and is written if
    the caller commits. The numbers are those of the language, of any size and sign; what the
    columns refuse is found at the flush. -/

namespace Just1kBot
open Lib.Tracked (refuseIf)

/-- The tracked object: the columns that the operations read or assign. -/
structure LockedSubscription where
  status : WhiteInternetStatus := .active
  statusReason : Option String := none
  expiresAt : Time := 0
  baseTrafficBytes : ℤ := 0
  extraTrafficBytes : ℤ := 0
  trafficUsedBytes : ℤ := 0
  trafficOverageBytes : ℤ := 0
  trafficUplinkBytes : ℤ := 0
  trafficDownlinkBytes : ℤ := 0
  lastUplinkSnapshot : ℤ := 0
  lastDownlinkSnapshot : ℤ := 0
  trafficStatsEpoch : Option Epoch := none
  deviceLimit : ℤ := 1
  isTrial : Bool := false
  desiredVersion : ℤ := 1
  provisioningStatus : WhiteInternetProvisioningStatus := .active
  notified3d : Bool := false
  notified1d : Bool := false
  notified2h : Bool := false
  notifiedExpired : Bool := false
  notified90p : Bool := false
  activeHwids : Devices := []
  lastDeviceResetAt : Option Time := none
  deriving DecidableEq

/-- What leaves an operation: the exceptions of the other modules, and the cooldown of a reset. -/
inductive AtomicError
  | err (e : Err)
  | resetCooldown (msg : String) (remainingSeconds : ℤ)
  deriving DecidableEq

/-- The operation itself refused; a failed flush is an error of the database. -/
def AtomicError.IsDomain : AtomicError → Prop
  | .err (.integrityError _) => False
  | _ => True

instance : DecidablePred AtomicError.IsDomain
  | .err e =>
    match e with
    | .integrityError _ => .isFalse id
    | .lookupError _ | .valueError _ | .typeError _ | .invalidOperation | .ledgerConflict _
    | .ledgerInvariant _ | .insufficientBalance _ | .runtimeError _ | .subscriptionNotFound _
    | .inactiveSubscription _ | .trialSubscription _ | .renewalHorizonExceeded _
    | .deviceLimitExceeded _ | .quotaCapExceeded _ | .whiteInternetError _
    | .financialHoldBlocked _ | .accountDebtBlocked _ => .isTrue trivial
  | .resetCooldown _ _ => .isTrue trivial

/-- An operation on the locked object. -/
abbrev Atomic := EStateM AtomicError LockedSubscription

namespace LockedSubscription

/-! ### What the operations compute -/

/-- `_effective_device_limit`. -/
def effectiveDeviceLimit (sub : LockedSubscription) : ℤ := max 1 sub.deviceLimit

def totalQuota (sub : LockedSubscription) : ℤ := sub.baseTrafficBytes + sub.extraTrafficBytes

/-- `used_before`, `used_quota` and `used`. -/
def usedQuota (sub : LockedSubscription) : ℤ :=
  max 0 (sub.trafficUsedBytes - sub.trafficOverageBytes)

/-- `available_before`, `available_after` and `total_left`. -/
def availableQuota (sub : LockedSubscription) : ℤ := max 0 (sub.totalQuota - sub.usedQuota)

/-- `max_extra_allowed`. -/
def maxExtraAllowed (sub : LockedSubscription) : ℤ :=
  sub.effectiveDeviceLimit * whiteInternetMaxQuotaBytes

/-- The subscription is over, by its status or by its end. -/
def Ended (now : Time) (sub : LockedSubscription) : Prop :=
  sub.status = .expired ∨ sub.expiresAt ≤ now

instance (now : Time) : DecidablePred (Ended now) :=
  fun sub => inferInstanceAs (Decidable (sub.status = .expired ∨ sub.expiresAt ≤ now))

/-- The statuses in which a pool may be changed. -/
def Adjustable (sub : LockedSubscription) : Prop :=
  sub.status = .active ∨ sub.status = .exhausted ∨ sub.status = .pending

instance : DecidablePred Adjustable := fun sub =>
  inferInstanceAs (Decidable (sub.status = .active ∨ sub.status = .exhausted ∨
    sub.status = .pending))

/-- `ck_white_internet_subscriptions_traffic_nonnegative`. -/
def NonNegative (sub : LockedSubscription) : Prop :=
  0 ≤ sub.baseTrafficBytes ∧ 0 ≤ sub.extraTrafficBytes ∧ 0 ≤ sub.trafficUsedBytes ∧
    0 ≤ sub.trafficUplinkBytes ∧ 0 ≤ sub.trafficDownlinkBytes

instance : DecidablePred NonNegative := fun sub =>
  inferInstanceAs (Decidable (0 ≤ sub.baseTrafficBytes ∧ 0 ≤ sub.extraTrafficBytes ∧
    0 ≤ sub.trafficUsedBytes ∧ 0 ≤ sub.trafficUplinkBytes ∧ 0 ≤ sub.trafficDownlinkBytes))

/-- The assignments that make an exhausted or new subscription active. -/
def reactivate (sub : LockedSubscription) : LockedSubscription :=
  { sub with
    status := .active, statusReason := none, desiredVersion := sub.desiredVersion + 1
    provisioningStatus := .pendingUpdate }

def reactivateExhausted (sub : LockedSubscription) : LockedSubscription :=
  if sub.status = .exhausted then sub.reactivate else sub

/-- The warning is due again once less than nine tenths of the quota are used. -/
def clear90p (sub : LockedSubscription) : LockedSubscription :=
  if 0 < sub.totalQuota ∧ (sub.usedQuota : ℚ) < 9 / 10 * sub.totalQuota then
    { sub with notified90p := false }
  else sub

/-- The end of both changes of a pool. -/
def afterAdjustment (sub : LockedSubscription) : LockedSubscription :=
  (if sub.status = .exhausted ∧ sub.usedQuota < sub.totalQuota then sub.reactivate
    else sub).clear90p

def clearUsage (sub : LockedSubscription) : LockedSubscription :=
  { sub with
    trafficUsedBytes := 0, trafficOverageBytes := 0, trafficUplinkBytes := 0
    trafficDownlinkBytes := 0, notified90p := false }

def clearNotified (sub : LockedSubscription) : LockedSubscription :=
  { sub with
    notified3d := false, notified1d := false, notified2h := false, notifiedExpired := false }

def addExtra (bytes : ℤ) (sub : LockedSubscription) : LockedSubscription :=
  { sub with extraTrafficBytes := sub.extraTrafficBytes + bytes }

/-- `new_expires_at`. -/
def renewedUntil (durationDays : ℤ) (now : Time) (sub : LockedSubscription) : Time :=
  (if now < sub.expiresAt then sub.expiresAt else now) + days durationDays

/-- `new_extra`. -/
def carriedExtra (now : Time) (sub : LockedSubscription) : ℤ :=
  if sub.isTrial then 0
  else if now ≤ sub.expiresAt + days 7 then
    min (min sub.extraTrafficBytes sub.availableQuota) (max 0 sub.maxExtraAllowed)
  else 0

/-- The assignments of a renewal. -/
def renewed (durationDays : ℤ) (baseBytes : Option ℤ) (now : Time) (sub : LockedSubscription) :
    LockedSubscription :=
  { sub.reactivate.clearUsage.clearNotified with
    isTrial := false
    baseTrafficBytes := baseBytes.getD (sub.effectiveDeviceLimit * whiteInternetBaseTrafficBytes)
    extraTrafficBytes := sub.carriedExtra now
    expiresAt := sub.renewedUntil durationDays now }

/-- The assignments of an extension. -/
def extended (n : ℤ) (now : Time) (sub : LockedSubscription) : LockedSubscription :=
  let moved := { sub.clearNotified with
    expiresAt := calculateExtensionEnd sub.expiresAt n now
    desiredVersion := sub.desiredVersion + 1 }
  if sub.expiresAt ≤ now ∨ sub.status = .expired ∨ sub.status = .exhausted ∨
      sub.status = .pending then
    { moved.clearUsage with
      extraTrafficBytes := 0, status := .active, statusReason := none
      provisioningStatus := .pendingUpdate }
  else moved

/-- The assignments of a new device limit. -/
def withDeviceLimit (limit : ℤ) (sub : LockedSubscription) : LockedSubscription :=
  { sub with
    deviceLimit := limit
    extraTrafficBytes := min sub.extraTrafficBytes (limit * whiteInternetMaxQuotaBytes)
    activeHwids := sub.activeHwids.keepRecent limit.toNat }

/-- The counters after `consumed` bytes: what does not fit into the quota is overage, and
    everything is on a row that is disabled or expired. -/
def overage (consumed : ℤ) (sub : LockedSubscription) : ℤ :=
  if sub.status = .disabled ∨ sub.status = .expired then consumed
  else max 0 (consumed - sub.availableQuota)

def charge (consumed : ℤ) (sub : LockedSubscription) : LockedSubscription :=
  { sub with
    trafficUsedBytes := sub.trafficUsedBytes + consumed
    trafficOverageBytes := sub.trafficOverageBytes + sub.overage consumed }

/-- An active subscription without quota left is exhausted. -/
def exhaust (sub : LockedSubscription) : LockedSubscription :=
  { sub with
    status := .exhausted, statusReason := some "quota_exhausted"
    desiredVersion := sub.desiredVersion + 1, provisioningStatus := .pendingUpdate }

/-! ### The operations -/

/-- `session.flush()`: the constraints of the table. -/
def flush : Atomic PUnit := do
  let sub ← get
  refuseIf (¬ sub.NonNegative)
    (.err (.integrityError "ck_white_internet_subscriptions_traffic_nonnegative"))
  refuseIf (sub.deviceLimit < 1 ∨ 3 < sub.deviceLimit)
    (.err (.integrityError "ck_white_internet_subscriptions_device_limit"))

/-- `renew_subscription_atomic`. -/
def renewSubscription (durationDays : ℤ) (baseBytes : Option ℤ) (maxExpiryDays : ℤ) (now : Time) :
    Atomic PUnit := do
  let sub ← get
  refuseIf (sub.status = .disabled ∨ sub.status = .pending)
    (.err (.inactiveSubscription "Subscription is not eligible for renewal"))
  refuseIf (now + days maxExpiryDays < sub.renewedUntil durationDays now)
    (.err (.renewalHorizonExceeded s!"Renewal exceeds maximum horizon of {maxExpiryDays} days"))
  modify (renewed durationDays baseBytes now)
  flush

/-- `add_device_slot_atomic`. -/
def addDeviceSlot (extraBytes maxDevices maxQuotaBytes : ℤ) (now : Time) : Atomic PUnit := do
  let sub ← get
  refuseIf sub.isTrial (.err (.trialSubscription "Cannot add device slot to trial subscription"))
  refuseIf (sub.status = .disabled ∨ sub.status = .pending)
    (.err (.inactiveSubscription "Subscription is not eligible for device slot upgrade"))
  refuseIf (sub.Ended now)
    (.err (.inactiveSubscription "Cannot upgrade an expired subscription"))
  refuseIf (maxDevices ≤ sub.effectiveDeviceLimit)
    (.err (.deviceLimitExceeded s!"Cannot exceed maximum limit of {maxDevices} devices."))
  refuseIf ((sub.effectiveDeviceLimit + 1) * maxQuotaBytes < sub.extraTrafficBytes + extraBytes)
    (.err (.quotaCapExceeded ("Adding device slot would exceed maximum quota cap of " ++
      s!"{(sub.effectiveDeviceLimit + 1) * maxQuotaBytes} bytes.")))
  modify fun sub =>
    ({ sub with deviceLimit := sub.effectiveDeviceLimit + 1 }.addExtra
      extraBytes).reactivateExhausted
  flush

/-- `topup_quota_atomic`. -/
def topupQuota (packGb : ℤ) (now : Time) : Atomic PUnit := do
  let sub ← get
  refuseIf sub.isTrial (.err (.trialSubscription "Cannot top up trial subscription"))
  refuseIf (sub.status = .pending ∨ sub.status = .disabled)
    (.err (.inactiveSubscription "Subscription is not eligible for top-up"))
  refuseIf (sub.Ended now) (.err (.inactiveSubscription "Cannot top up an expired subscription"))
  refuseIf (sub.maxExtraAllowed < sub.extraTrafficBytes + packGb * gib)
    (.err (.quotaCapExceeded (s!"Adding {packGb} GiB would exceed the maximum extra traffic " ++
      s!"cap of {sub.effectiveDeviceLimit * (whiteInternetMaxQuotaBytes / gib : ℕ)} GiB.")))
  modify fun sub => (sub.addExtra (packGb * gib)).reactivateExhausted.clear90p
  flush

/-- `add_extra_traffic_atomic`. The pool is raised before it is compared with its cap. -/
def addExtraTraffic (extraBytes : ℤ) : Atomic PUnit := do
  refuseIf (extraBytes ≤ 0) (.err (.whiteInternetError "Extra traffic bytes must be positive"))
  let sub ← get
  refuseIf sub.isTrial
    (.err (.trialSubscription "Cannot add extra traffic to trial subscription"))
  refuseIf (¬ sub.Adjustable)
    (.err (.inactiveSubscription
      s!"Cannot add traffic to subscription in {sub.status.text} state"))
  modify (addExtra extraBytes)
  let sub ← get
  refuseIf (sub.maxExtraAllowed < sub.extraTrafficBytes)
    (.err (.quotaCapExceeded (s!"Extra traffic ({sub.extraTrafficBytes} bytes) exceeds maximum " ++
      s!"allowed limit ({sub.maxExtraAllowed} bytes)")))
  modify afterAdjustment
  flush

/-- `set_base_traffic_quota_atomic`. -/
def setBaseTrafficQuota (baseBytes : ℤ) : Atomic PUnit := do
  refuseIf (baseBytes ≤ 0) (.err (.whiteInternetError "Base traffic quota must be positive"))
  let sub ← get
  refuseIf sub.isTrial
    (.err (.trialSubscription "Cannot change base quota for trial subscription"))
  refuseIf (¬ sub.Adjustable)
    (.err (.inactiveSubscription
      s!"Cannot change quota for subscription in {sub.status.text} state"))
  refuseIf (sub.maxExtraAllowed < baseBytes)
    (.err (.quotaCapExceeded (s!"Base quota ({baseBytes} bytes) exceeds maximum allowed limit " ++
      s!"({sub.maxExtraAllowed} bytes)")))
  modify fun sub => { sub with baseTrafficBytes := baseBytes }.afterAdjustment
  flush

/-- `set_device_limit_atomic`. -/
def setDeviceLimit (limit : ℤ) : Atomic PUnit := do
  refuseIf (limit < 1 ∨ whiteInternetMaxDeviceLimit < limit)
    (.err (.deviceLimitExceeded
      s!"Device limit must be between 1 and {whiteInternetMaxDeviceLimit}"))
  let sub ← get
  refuseIf sub.isTrial
    (.err (.trialSubscription "Cannot change device limit for trial subscription"))
  modify (withDeviceLimit limit)
  flush

/-- `extend_subscription_atomic`. -/
def extendSubscription (n : ℤ) (now : Time) : Atomic PUnit := do
  refuseIf (n < 1)
    (.err (.valueError s!"Invalid days to extend: {n}. Must be an integer >= 1."))
  let sub ← get
  refuseIf (sub.status = .disabled) (.err (.inactiveSubscription "Subscription is disabled"))
  refuseIf sub.isTrial (.err (.trialSubscription "Cannot extend trial subscription"))
  modify (extended n now)
  flush

/-- `reset_traffic_used_atomic`. -/
def resetTrafficUsed : Atomic PUnit := do
  let sub ← get
  refuseIf sub.isTrial (.err (.trialSubscription "Cannot reset traffic for trial subscription"))
  refuseIf (sub.status ≠ .active ∧ sub.status ≠ .exhausted)
    (.err (.inactiveSubscription
      s!"Cannot reset traffic for subscription in {sub.status.text} state"))
  modify fun sub => sub.clearUsage.reactivateExhausted
  flush

/-- `remaining`: what is left of the cooldown, in whole seconds. -/
def cooldownLeft (cooldownSeconds : ℤ) (now last : Time) : ℤ :=
  (seconds cooldownSeconds - (now - last)) / seconds 1

/-- `reset_active_hwids_atomic`. -/
def resetActiveHwids (cooldownSeconds : ℤ) (now : Time) : Atomic PUnit := do
  let sub ← get
  refuseIf (∃ last ∈ sub.lastDeviceResetAt, now - last < seconds cooldownSeconds)
    (.resetCooldown
      ("Device reset cooldown is active. Wait " ++
        s!"{cooldownLeft cooldownSeconds now (sub.lastDeviceResetAt.getD 0)} seconds.")
      (cooldownLeft cooldownSeconds now (sub.lastDeviceResetAt.getD 0)))
  modify fun sub => { sub with activeHwids := [], lastDeviceResetAt := some now }
  flush

/-- `deduct_traffic_atomic`. -/
def deductTraffic (deltaBytes deltaUplink deltaDownlink : ℤ) : Atomic PUnit := do
  if deltaBytes ≤ 0 then pure ⟨⟩
  else
    modify fun sub =>
      { sub.charge deltaBytes with
        trafficUplinkBytes := sub.trafficUplinkBytes + max 0 deltaUplink
        trafficDownlinkBytes := sub.trafficDownlinkBytes + max 0 deltaDownlink }
    modify fun sub =>
      if sub.availableQuota = 0 ∧ sub.status = .active then sub.exhaust else sub
    flush

/-- What a counter grew by; a counter that went back was reset. -/
def counterDelta (before after : ℤ) : ℤ :=
  if after - before < 0 then max 0 after else after - before

/-- `record_and_deduct_traffic_atomic`. -/
def recordAndDeductTraffic (nodeEpoch : Epoch) (uplinkAfter downlinkAfter : ℤ)
    (uplinkBefore downlinkBefore : Option ℤ) : Atomic PUnit := do
  let sub ← get
  let deltaUplink := counterDelta (uplinkBefore.getD sub.lastUplinkSnapshot) uplinkAfter
  let deltaDownlink := counterDelta (downlinkBefore.getD sub.lastDownlinkSnapshot) downlinkAfter
  if deltaUplink ≤ 0 ∧ deltaDownlink ≤ 0 then pure ⟨⟩
  else
    modify fun sub =>
      { sub.charge (max 0 deltaDownlink) with
        trafficUplinkBytes := sub.trafficUplinkBytes + deltaUplink
        trafficDownlinkBytes := sub.trafficDownlinkBytes + deltaDownlink
        lastUplinkSnapshot := uplinkAfter
        lastDownlinkSnapshot := downlinkAfter
        trafficStatsEpoch := some nodeEpoch }
    modify fun sub =>
      if sub.availableQuota = 0 ∧ sub.status = .active then
        { sub.exhaust with notified90p := true }
      else sub
    flush

end LockedSubscription

end Just1kBot
