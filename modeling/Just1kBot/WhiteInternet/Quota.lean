import Just1kBot.WhiteInternet.Traffic

/-! The operations on the traffic pools of a White Internet subscription: device slots, traffic
    packs, and the changes an admin makes, from `database/repositories/white_internet_repo.py`.

    A subscription has a base pool, which every period fills, and an extra pool of bought or granted
    traffic. The extra pool is capped by the device limit. `RowOp` is every operation on a row that
    is there, each under the checks it makes itself. -/

namespace Just1kBot

def whiteInternetMaxDeviceLimit : ℕ := 3
def whiteInternetTrialDurationDays : ℤ := 3
def whiteInternetTrialTrafficBytes : ℕ := 5368709120

/-- `WHITE_INTERNET_TOPUP_PACKS`: the sizes of the packs in GiB, with their prices. -/
def whiteInternetTopupPacks : List (ℕ × ℕ) := [(10, 40), (25, 100), (50, 200)]

def gib : ℕ := 1024 ^ 3

namespace WhiteInternetSubscription

/-- `_effective_device_limit`. -/
def effectiveDeviceLimit (sub : WhiteInternetSubscription) : ℕ := max 1 sub.deviceLimit

/-- `max_extra_allowed`. -/
def maxExtraAllowed (sub : WhiteInternetSubscription) : ℕ :=
  sub.effectiveDeviceLimit * whiteInternetMaxQuotaBytes

/-- The extra pool is within its cap. -/
def WithinCap (sub : WhiteInternetSubscription) : Prop :=
  sub.extraTrafficBytes ≤ sub.maxExtraAllowed

instance : DecidablePred WithinCap := fun s => by unfold WithinCap; infer_instance

/-- The row becomes active again, and the node is to be told. -/
def reactivate (sub : WhiteInternetSubscription) : WhiteInternetSubscription :=
  { sub with
    status := .active, statusReason := none, desiredVersion := sub.desiredVersion + 1
    provisioningStatus := .pendingUpdate }

def reactivateExhausted (sub : WhiteInternetSubscription) : WhiteInternetSubscription :=
  if sub.status = .exhausted then sub.reactivate else sub

/-- The warning is due again once less than nine tenths of the quota are used. -/
def clear90p (sub : WhiteInternetSubscription) : WhiteInternetSubscription :=
  if 0 < sub.totalQuota ∧ (sub.usedQuota : ℚ) < 9 / 10 * sub.totalQuota then
    { sub with notified90p := false }
  else sub

/-- The subscription is over, by its status or by its end. -/
def Ended (now : Time) (sub : WhiteInternetSubscription) : Prop :=
  sub.status = .expired ∨ sub.expiresAt ≤ now

instance (now : Time) : DecidablePred (Ended now) := fun s => by unfold Ended; infer_instance

def addExtra (bytes : ℕ) (sub : WhiteInternetSubscription) : WhiteInternetSubscription :=
  { sub with extraTrafficBytes := sub.extraTrafficBytes + bytes }

/-- One more slot, with its traffic. -/
def addSlot (sub : WhiteInternetSubscription) : WhiteInternetSubscription :=
  { sub with deviceLimit := sub.effectiveDeviceLimit + 1 }.addExtra
    whiteInternetExtraDeviceTrafficBytes

@[simp] theorem addExtra_id (bytes : ℕ) (sub : WhiteInternetSubscription) :
    (sub.addExtra bytes).id = sub.id := rfl

@[simp] theorem addExtra_userId (bytes : ℕ) (sub : WhiteInternetSubscription) :
    (sub.addExtra bytes).userId = sub.userId := rfl

@[simp] theorem addSlot_id (sub : WhiteInternetSubscription) : sub.addSlot.id = sub.id := by
  rw [addSlot, addExtra_id]

/-- `add_device_slot_atomic`. -/
def addDeviceSlot (now : Time) (sub : WhiteInternetSubscription) :
    Except Err WhiteInternetSubscription :=
  if sub.isTrial then
    .error (.trialSubscription "Cannot add device slot to trial subscription")
  else if sub.status = .disabled ∨ sub.status = .pending then
    .error (.inactiveSubscription "Subscription is not eligible for device slot upgrade")
  else if sub.Ended now then
    .error (.inactiveSubscription "Cannot upgrade an expired subscription")
  else if whiteInternetMaxDeviceLimit ≤ sub.effectiveDeviceLimit then
    .error (.deviceLimitExceeded
      s!"Cannot exceed maximum limit of {whiteInternetMaxDeviceLimit} devices.")
  else if ¬ sub.addSlot.WithinCap then
    .error (.quotaCapExceeded ("Adding device slot would exceed maximum quota cap of " ++
      s!"{sub.addSlot.maxExtraAllowed} bytes."))
  else .ok sub.addSlot.reactivateExhausted

/-- `topup_quota_atomic`. -/
def topupQuota (packGb : ℕ) (now : Time) (sub : WhiteInternetSubscription) :
    Except Err WhiteInternetSubscription :=
  if sub.isTrial then .error (.trialSubscription "Cannot top up trial subscription")
  else if sub.status = .pending ∨ sub.status = .disabled then
    .error (.inactiveSubscription "Subscription is not eligible for top-up")
  else if sub.Ended now then
    .error (.inactiveSubscription "Cannot top up an expired subscription")
  else if ¬ (sub.addExtra (packGb * gib)).WithinCap then
    .error (.quotaCapExceeded (s!"Adding {packGb} GiB would exceed the maximum extra traffic " ++
      s!"cap of {sub.effectiveDeviceLimit * (whiteInternetMaxQuotaBytes / gib)} GiB."))
  else .ok (sub.addExtra (packGb * gib)).reactivateExhausted.clear90p

/-- The statuses in which an admin may change a pool. -/
def Adjustable (sub : WhiteInternetSubscription) : Prop :=
  sub.status = .active ∨ sub.status = .exhausted ∨ sub.status = .pending

instance : DecidablePred Adjustable := fun s => by unfold Adjustable; infer_instance

/-- The end of both changes: an exhausted row that has quota left is active again. -/
def afterAdjustment (sub : WhiteInternetSubscription) : WhiteInternetSubscription :=
  (if sub.status = .exhausted ∧ sub.usedQuota < sub.totalQuota then sub.reactivate
    else sub).clear90p

/-- `add_extra_traffic_atomic`. -/
def addExtraTraffic (extraBytes : ℤ) (sub : WhiteInternetSubscription) :
    Except Err WhiteInternetSubscription :=
  if extraBytes ≤ 0 then .error (.whiteInternetError "Extra traffic bytes must be positive")
  else if sub.isTrial then
    .error (.trialSubscription "Cannot add extra traffic to trial subscription")
  else if ¬ sub.Adjustable then
    .error (.inactiveSubscription
      s!"Cannot add traffic to subscription in {sub.status.text} state")
  else if ¬ (sub.addExtra extraBytes.toNat).WithinCap then
    .error (.quotaCapExceeded (s!"Extra traffic ({sub.extraTrafficBytes + extraBytes} bytes) " ++
      s!"exceeds maximum allowed limit ({sub.maxExtraAllowed} bytes)"))
  else .ok (sub.addExtra extraBytes.toNat).afterAdjustment

def withBase (bytes : ℕ) (sub : WhiteInternetSubscription) : WhiteInternetSubscription :=
  { sub with baseTrafficBytes := bytes }

/-- `set_base_traffic_quota_atomic`. -/
def setBaseTrafficQuota (baseBytes : ℤ) (sub : WhiteInternetSubscription) :
    Except Err WhiteInternetSubscription :=
  if baseBytes ≤ 0 then .error (.whiteInternetError "Base traffic quota must be positive")
  else if sub.isTrial then
    .error (.trialSubscription "Cannot change base quota for trial subscription")
  else if ¬ sub.Adjustable then
    .error (.inactiveSubscription
      s!"Cannot change quota for subscription in {sub.status.text} state")
  else if sub.maxExtraAllowed < baseBytes.toNat then
    .error (.quotaCapExceeded (s!"Base quota ({baseBytes} bytes) exceeds maximum allowed limit " ++
      s!"({sub.maxExtraAllowed} bytes)"))
  else .ok (sub.withBase baseBytes.toNat).afterAdjustment

/-- A new device limit, with the extra pool cut down to its cap. -/
def withDeviceLimit (limit : ℕ) (sub : WhiteInternetSubscription) : WhiteInternetSubscription :=
  { sub with
    deviceLimit := limit
    extraTrafficBytes := min sub.extraTrafficBytes (limit * whiteInternetMaxQuotaBytes) }

@[simp] theorem withDeviceLimit_id (limit : ℕ) (sub : WhiteInternetSubscription) :
    (sub.withDeviceLimit limit).id = sub.id := rfl

/-- `set_device_limit_atomic`. -/
def setDeviceLimit (limit : ℤ) (sub : WhiteInternetSubscription) :
    Except Err WhiteInternetSubscription :=
  if limit < 1 ∨ whiteInternetMaxDeviceLimit < limit then
    .error (.deviceLimitExceeded
      s!"Device limit must be between 1 and {whiteInternetMaxDeviceLimit}")
  else if sub.isTrial then
    .error (.trialSubscription "Cannot change device limit for trial subscription")
  else .ok (sub.withDeviceLimit limit.toNat)

/-- `reset_traffic_used_atomic`. -/
def resetTrafficUsed (sub : WhiteInternetSubscription) : Except Err WhiteInternetSubscription :=
  if sub.isTrial then
    .error (.trialSubscription "Cannot reset traffic for trial subscription")
  else if sub.status ≠ .active ∧ sub.status ≠ .exhausted then
    .error (.inactiveSubscription
      s!"Cannot reset traffic for subscription in {sub.status.text} state")
  else .ok { sub.clearUsage with notified90p := false }.reactivateExhausted

/-! ### What they do to the pools -/

/-- Two rows of one user on the same origin, with the same device limit, pools and usage. -/
structure SameQuota (a b : WhiteInternetSubscription) : Prop where
  id : b.id = a.id
  userId : b.userId = a.userId
  origin : b.originNodeId = a.originNodeId
  deviceLimit : b.deviceLimit = a.deviceLimit
  base : b.baseTrafficBytes = a.baseTrafficBytes
  extra : b.extraTrafficBytes = a.extraTrafficBytes
  used : b.trafficUsedBytes = a.trafficUsedBytes
  overage : b.trafficOverageBytes = a.trafficOverageBytes

namespace SameQuota
variable {a b c : WhiteInternetSubscription}

theorem refl (a : WhiteInternetSubscription) : SameQuota a a :=
  ⟨rfl, rfl, rfl, rfl, rfl, rfl, rfl, rfl⟩

theorem trans (h : SameQuota a b) (h' : SameQuota b c) : SameQuota a c :=
  ⟨h'.id.trans h.id, h'.userId.trans h.userId, h'.origin.trans h.origin,
    h'.deviceLimit.trans h.deviceLimit, h'.base.trans h.base,
    h'.extra.trans h.extra, h'.used.trans h.used, h'.overage.trans h.overage⟩

theorem totalQuota (h : SameQuota a b) : b.totalQuota = a.totalQuota := by
  simp only [WhiteInternetSubscription.totalQuota, h.base, h.extra]

theorem usedQuota (h : SameQuota a b) : b.usedQuota = a.usedQuota := by
  simp only [WhiteInternetSubscription.usedQuota, h.used, h.overage]

end SameQuota

theorem reactivateExhausted_sameQuota (sub : WhiteInternetSubscription) :
    SameQuota sub sub.reactivateExhausted := by
  rw [reactivateExhausted]
  split
  · exact ⟨rfl, rfl, rfl, rfl, rfl, rfl, rfl, rfl⟩
  · exact .refl sub

theorem clear90p_sameQuota (sub : WhiteInternetSubscription) : SameQuota sub sub.clear90p := by
  rw [clear90p]
  split
  · exact ⟨rfl, rfl, rfl, rfl, rfl, rfl, rfl, rfl⟩
  · exact .refl sub

theorem afterAdjustment_sameQuota (sub : WhiteInternetSubscription) :
    SameQuota sub sub.afterAdjustment := by
  rw [afterAdjustment]
  split
  · exact .trans (b := sub.reactivate) ⟨rfl, rfl, rfl, rfl, rfl, rfl, rfl, rfl⟩
      (clear90p_sameQuota _)
  · exact clear90p_sameQuota sub

@[simp] theorem clear90p_status (sub : WhiteInternetSubscription) :
    sub.clear90p.status = sub.status := by
  rw [clear90p]
  split <;> rfl

/-- The conditions under which a slot is added. -/
structure SlotAllowed (now : Time) (sub : WhiteInternetSubscription) : Prop where
  paid : sub.isTrial = false
  live : sub.status ≠ .disabled ∧ sub.status ≠ .pending ∧ ¬ sub.Ended now
  limit : sub.effectiveDeviceLimit < whiteInternetMaxDeviceLimit
  cap : sub.addSlot.WithinCap

/-- The conditions under which a pack is added. -/
structure PackAllowed (packGb : ℕ) (now : Time) (sub : WhiteInternetSubscription) : Prop where
  paid : sub.isTrial = false
  live : sub.status ≠ .disabled ∧ sub.status ≠ .pending ∧ ¬ sub.Ended now
  cap : (sub.addExtra (packGb * gib)).WithinCap

/-- The conditions under which an admin grants extra traffic. -/
structure GrantAllowed (extraBytes : ℤ) (sub : WhiteInternetSubscription) : Prop where
  positive : 0 < extraBytes
  paid : sub.isTrial = false
  status : sub.Adjustable
  cap : (sub.addExtra extraBytes.toNat).WithinCap

/-- The conditions under which an admin sets the base pool. -/
structure BaseAllowed (baseBytes : ℤ) (sub : WhiteInternetSubscription) : Prop where
  positive : 0 < baseBytes
  paid : sub.isTrial = false
  status : sub.Adjustable
  cap : baseBytes.toNat ≤ sub.maxExtraAllowed

/-- The conditions under which an admin sets the device limit. -/
structure LimitAllowed (limit : ℤ) (sub : WhiteInternetSubscription) : Prop where
  range : 1 ≤ limit ∧ limit ≤ whiteInternetMaxDeviceLimit
  paid : sub.isTrial = false

section Accepted
variable {sub sub' : WhiteInternetSubscription}

theorem addDeviceSlot_ok_iff {now : Time} : sub.addDeviceSlot now = .ok sub' ↔
    sub.SlotAllowed now ∧ sub.addSlot.reactivateExhausted = sub' := by
  rw [addDeviceSlot]
  split_ifs with htrial hstatus hended hlimit hcap
  · exact iff_of_false (by simp) fun h => absurd h.1.paid (by simp [htrial])
  · exact iff_of_false (by simp) fun h => absurd hstatus (by simp [h.1.live.1, h.1.live.2.1])
  · exact iff_of_false (by simp) fun h => absurd hended h.1.live.2.2
  · exact iff_of_false (by simp) fun h => absurd h.1.limit (by omega)
  · have hlive := not_or.mp hstatus
    have hallowed : sub.SlotAllowed now := ⟨by simpa using htrial,
      ⟨hlive.1, hlive.2, hended⟩, by omega, hcap⟩
    simp [hallowed]
  · exact iff_of_false (by simp) fun h => absurd h.1.cap hcap

theorem topupQuota_ok_iff {packGb : ℕ} {now : Time} : sub.topupQuota packGb now = .ok sub' ↔
    sub.PackAllowed packGb now ∧
      (sub.addExtra (packGb * gib)).reactivateExhausted.clear90p = sub' := by
  rw [topupQuota]
  split_ifs with htrial hstatus hended hcap
  · exact iff_of_false (by simp) fun h => absurd h.1.paid (by simp [htrial])
  · exact iff_of_false (by simp) fun h => absurd hstatus (by simp [h.1.live.1, h.1.live.2.1])
  · exact iff_of_false (by simp) fun h => absurd hended h.1.live.2.2
  · have hlive := not_or.mp hstatus
    have hallowed : sub.PackAllowed packGb now := ⟨by simpa using htrial,
      ⟨hlive.2, hlive.1, hended⟩, hcap⟩
    simp [hallowed]
  · exact iff_of_false (by simp) fun h => absurd h.1.cap hcap

theorem addExtraTraffic_ok_iff {extraBytes : ℤ} : sub.addExtraTraffic extraBytes = .ok sub' ↔
    sub.GrantAllowed extraBytes ∧ (sub.addExtra extraBytes.toNat).afterAdjustment = sub' := by
  rw [addExtraTraffic]
  split_ifs with hpos htrial hstatus hcap
  · exact iff_of_false (by simp) fun h => absurd h.1.positive (by omega)
  · exact iff_of_false (by simp) fun h => absurd h.1.paid (by simp [htrial])
  · have hallowed : sub.GrantAllowed extraBytes := ⟨by omega, by simpa using htrial, hstatus, hcap⟩
    simp [hallowed]
  · exact iff_of_false (by simp) fun h => absurd h.1.cap hcap
  · exact iff_of_false (by simp) fun h => absurd h.1.status hstatus

theorem setBaseTrafficQuota_ok_iff {baseBytes : ℤ} :
    sub.setBaseTrafficQuota baseBytes = .ok sub' ↔
      sub.BaseAllowed baseBytes ∧ (sub.withBase baseBytes.toNat).afterAdjustment = sub' := by
  rw [setBaseTrafficQuota]
  split_ifs with hpos htrial hstatus hcap
  · exact iff_of_false (by simp) fun h => absurd h.1.positive (by omega)
  · exact iff_of_false (by simp) fun h => absurd h.1.paid (by simp [htrial])
  · exact iff_of_false (by simp) fun h => absurd h.1.cap (by omega)
  · have hallowed : sub.BaseAllowed baseBytes :=
      ⟨by omega, by simpa using htrial, hstatus, by omega⟩
    simp [hallowed]
  · exact iff_of_false (by simp) fun h => absurd h.1.status hstatus

theorem setDeviceLimit_ok_iff {limit : ℤ} : sub.setDeviceLimit limit = .ok sub' ↔
    sub.LimitAllowed limit ∧ sub.withDeviceLimit limit.toNat = sub' := by
  rw [setDeviceLimit]
  split_ifs with hrange htrial
  · exact iff_of_false (by simp) fun h => absurd h.1.range (by omega)
  · exact iff_of_false (by simp) fun h => absurd h.1.paid (by simp [htrial])
  · have hallowed : sub.LimitAllowed limit := ⟨by omega, by simpa using htrial⟩
    simp [hallowed]

theorem resetTrafficUsed_ok_iff : sub.resetTrafficUsed = .ok sub' ↔
    (sub.isTrial = false ∧ (sub.status = .active ∨ sub.status = .exhausted)) ∧
      ({ sub.clearUsage with notified90p := false }.reactivateExhausted) = sub' := by
  rw [resetTrafficUsed]
  split_ifs with htrial hstatus
  · exact iff_of_false (by simp) fun h => absurd h.1.1 (by simp [htrial])
  · exact iff_of_false (by simp) fun h => absurd h.1.2 (by simp [hstatus.1, hstatus.2])
  · have hallowed : sub.isTrial = false ∧ (sub.status = .active ∨ sub.status = .exhausted) :=
      ⟨by simpa using htrial, by tauto⟩
    simp [hallowed]

end Accepted

end WhiteInternetSubscription

end Just1kBot
