import Just1kBot.WhiteInternet.LockedRow

/-! What a refused operation leaves of the locked row.

    A caller that catches the error of an atomic operation and commits writes whatever the operation
    has assigned by then. All of them check before they assign, except that extra traffic is added
    to the pool before the pool is compared with its cap. -/

namespace Just1kBot
open Lib.Tracked (Restores Avoids)

/-- The operations that may refuse, with their arguments. -/
inductive AtomicCall
  | renewSubscription (durationDays : ℤ) (baseBytes : Option ℤ) (maxExpiryDays : ℤ) (now : Time)
  | addDeviceSlot (extraBytes maxDevices maxQuotaBytes : ℤ) (now : Time)
  | topupQuota (packGb : ℤ) (now : Time)
  | addExtraTraffic (extraBytes : ℤ)
  | setBaseTrafficQuota (baseBytes : ℤ)
  | setDeviceLimit (limit : ℤ)
  | extendSubscription (n : ℤ) (now : Time)
  | resetTrafficUsed
  | resetActiveHwids (cooldownSeconds : ℤ) (now : Time)

namespace AtomicCall

def run : AtomicCall → Atomic PUnit
  | .renewSubscription durationDays baseBytes maxExpiryDays now =>
    LockedSubscription.renewSubscription durationDays baseBytes maxExpiryDays now
  | .addDeviceSlot extraBytes maxDevices maxQuotaBytes now =>
    LockedSubscription.addDeviceSlot extraBytes maxDevices maxQuotaBytes now
  | .topupQuota packGb now => LockedSubscription.topupQuota packGb now
  | .addExtraTraffic extraBytes => LockedSubscription.addExtraTraffic extraBytes
  | .setBaseTrafficQuota baseBytes => LockedSubscription.setBaseTrafficQuota baseBytes
  | .setDeviceLimit limit => LockedSubscription.setDeviceLimit limit
  | .extendSubscription n now => LockedSubscription.extendSubscription n now
  | .resetTrafficUsed => LockedSubscription.resetTrafficUsed
  | .resetActiveHwids cooldownSeconds now =>
    LockedSubscription.resetActiveHwids cooldownSeconds now

/-- The call adds extra traffic to a row that takes it, and the sum is above the cap. -/
def OverfillsExtra (call : AtomicCall) (sub : LockedSubscription) : Prop :=
  match call with
  | .addExtraTraffic extraBytes => 0 < extraBytes ∧ sub.isTrial = false ∧ sub.Adjustable ∧
      sub.maxExtraAllowed < sub.extraTrafficBytes + extraBytes
  | _ => False

/-- Where the call refuses, every column of the object is as it was. -/
def LeavesOnRefusal (call : AtomicCall) (sub : LockedSubscription) : Prop :=
  ∀ e left, call.run sub = .error e left → e.IsDomain → left = sub

end AtomicCall

namespace LockedSubscription

/-- A failed flush is no refusal. -/
theorem flush_avoids : Avoids AtomicError.IsDomain flush := by
  intro s e s' hs hdomain
  rw [flush, Lib.Tracked.get_bind_apply] at hs
  by_cases hneg : ¬ s.NonNegative
  · rw [Lib.Tracked.refuseIf_bind_of_pos hneg] at hs
    cases hs
    exact hdomain
  · rw [Lib.Tracked.refuseIf_bind_of_neg hneg, Lib.Tracked.refuseIf] at hs
    split_ifs at hs
    · cases hs
      exact hdomain
    · cases hs

/-- An operation that has only its assignments left refuses no more. -/
theorem assign_restores (g : LockedSubscription → LockedSubscription) :
    Restores AtomicError.IsDomain (modify g >>= fun _ => flush) :=
  (Avoids.modify_bind flush_avoids).restores

theorem renewSubscription_restores (durationDays : ℤ) (baseBytes : Option ℤ) (maxExpiryDays : ℤ)
    (now : Time) : Restores AtomicError.IsDomain
      (renewSubscription durationDays baseBytes maxExpiryDays now) :=
  .get_bind fun _ => .refuseIf_bind <| .refuseIf_bind <| assign_restores _

theorem addDeviceSlot_restores (extraBytes maxDevices maxQuotaBytes : ℤ) (now : Time) :
    Restores AtomicError.IsDomain (addDeviceSlot extraBytes maxDevices maxQuotaBytes now) :=
  .get_bind fun _ => .refuseIf_bind <| .refuseIf_bind <| .refuseIf_bind <| .refuseIf_bind <|
    .refuseIf_bind <| assign_restores _

theorem topupQuota_restores (packGb : ℤ) (now : Time) :
    Restores AtomicError.IsDomain (topupQuota packGb now) :=
  .get_bind fun _ => .refuseIf_bind <| .refuseIf_bind <| .refuseIf_bind <| .refuseIf_bind <|
    assign_restores _

theorem setBaseTrafficQuota_restores (baseBytes : ℤ) :
    Restores AtomicError.IsDomain (setBaseTrafficQuota baseBytes) :=
  .refuseIf_bind <| .get_bind fun _ => .refuseIf_bind <| .refuseIf_bind <| .refuseIf_bind <|
    assign_restores _

theorem setDeviceLimit_restores (limit : ℤ) :
    Restores AtomicError.IsDomain (setDeviceLimit limit) :=
  .refuseIf_bind <| .get_bind fun _ => .refuseIf_bind <| assign_restores _

theorem extendSubscription_restores (n : ℤ) (now : Time) :
    Restores AtomicError.IsDomain (extendSubscription n now) :=
  .refuseIf_bind <| .get_bind fun _ => .refuseIf_bind <| .refuseIf_bind <| assign_restores _

theorem resetTrafficUsed_restores : Restores AtomicError.IsDomain resetTrafficUsed :=
  .get_bind fun _ => .refuseIf_bind <| .refuseIf_bind <| assign_restores _

theorem resetActiveHwids_restores (cooldownSeconds : ℤ) (now : Time) :
    Restores AtomicError.IsDomain (resetActiveHwids cooldownSeconds now) :=
  .get_bind fun _ => .refuseIf_bind <| assign_restores _

/-- A pool that was overfilled stays so. -/
theorem addExtraTraffic_overfilled {extraBytes : ℤ} {sub : LockedSubscription}
    (h : (AtomicCall.addExtraTraffic extraBytes).OverfillsExtra sub) :
    ∃ e, e.IsDomain ∧ addExtraTraffic extraBytes sub = .error e (sub.addExtra extraBytes) := by
  obtain ⟨hpos, htrial, hstatus, hcap⟩ := h
  have hcap' : (sub.addExtra extraBytes).maxExtraAllowed <
      (sub.addExtra extraBytes).extraTrafficBytes := hcap
  have htrial' : ¬ sub.isTrial = true := by simp [htrial]
  rw [addExtraTraffic, Lib.Tracked.refuseIf_bind_of_neg (not_le.mpr hpos),
    Lib.Tracked.get_bind_apply, Lib.Tracked.refuseIf_bind_of_neg htrial',
    Lib.Tracked.refuseIf_bind_of_neg (not_not_intro hstatus), Lib.Tracked.modify_bind_apply,
    Lib.Tracked.get_bind_apply, Lib.Tracked.refuseIf_bind_of_pos hcap']
  exact ⟨.err (.quotaCapExceeded _), trivial, rfl⟩

/-- Extra traffic is refused after the pool was raised, or before anything was assigned. -/
theorem addExtraTraffic_leaves_iff (extraBytes : ℤ) (sub : LockedSubscription) :
    (AtomicCall.addExtraTraffic extraBytes).LeavesOnRefusal sub ↔
      ¬ (AtomicCall.addExtraTraffic extraBytes).OverfillsExtra sub := by
  constructor
  · intro h hover
    obtain ⟨e, hdomain, heq⟩ := addExtraTraffic_overfilled hover
    have hsame := congrArg extraTrafficBytes (h e _ heq hdomain)
    have hpos := hover.1
    simp only [addExtra] at hsame
    omega
  · intro hfits e left h hdomain
    rw [AtomicCall.run, addExtraTraffic] at h
    by_cases hpos : extraBytes ≤ 0
    · rw [Lib.Tracked.refuseIf_bind_of_pos hpos] at h
      cases h
      rfl
    rw [Lib.Tracked.refuseIf_bind_of_neg hpos, Lib.Tracked.get_bind_apply] at h
    by_cases htrial : sub.isTrial = true
    · rw [Lib.Tracked.refuseIf_bind_of_pos htrial] at h
      cases h
      rfl
    rw [Lib.Tracked.refuseIf_bind_of_neg htrial] at h
    by_cases hstatus : ¬ sub.Adjustable
    · rw [Lib.Tracked.refuseIf_bind_of_pos hstatus] at h
      cases h
      rfl
    rw [Lib.Tracked.refuseIf_bind_of_neg hstatus, Lib.Tracked.modify_bind_apply,
      Lib.Tracked.get_bind_apply] at h
    -- the pool was raised within its cap, so only the flush is left
    have hcap : ¬ (sub.addExtra extraBytes).maxExtraAllowed <
        (sub.addExtra extraBytes).extraTrafficBytes := fun hcap =>
      hfits ⟨not_le.mp hpos, by simpa using htrial, not_not.mp hstatus, hcap⟩
    rw [Lib.Tracked.refuseIf_bind_of_neg hcap] at h
    exact absurd hdomain (Avoids.modify_bind flush_avoids _ e left h)

end LockedSubscription

open LockedSubscription

/-- Every refused operation leaves the object as it was, except that of extra traffic above the
    cap. -/
theorem AtomicCall.leavesOnRefusal_iff (call : AtomicCall) (sub : LockedSubscription) :
    call.LeavesOnRefusal sub ↔ ¬ call.OverfillsExtra sub := by
  cases call with
  | addExtraTraffic extraBytes => exact addExtraTraffic_leaves_iff extraBytes sub
  | renewSubscription durationDays baseBytes maxExpiryDays now =>
    exact iff_of_true (renewSubscription_restores durationDays baseBytes maxExpiryDays now sub) id
  | addDeviceSlot extraBytes maxDevices maxQuotaBytes now =>
    exact iff_of_true (addDeviceSlot_restores extraBytes maxDevices maxQuotaBytes now sub) id
  | topupQuota packGb now => exact iff_of_true (topupQuota_restores packGb now sub) id
  | setBaseTrafficQuota baseBytes =>
    exact iff_of_true (setBaseTrafficQuota_restores baseBytes sub) id
  | setDeviceLimit limit => exact iff_of_true (setDeviceLimit_restores limit sub) id
  | extendSubscription n now => exact iff_of_true (extendSubscription_restores n now sub) id
  | resetTrafficUsed => exact iff_of_true (resetTrafficUsed_restores sub) id
  | resetActiveHwids cooldownSeconds now =>
    exact iff_of_true (resetActiveHwids_restores cooldownSeconds now sub) id

/-- One byte more than the cap of one device: the call is refused, and the object holds it. -/
theorem AtomicCall.refused_extra_stays :
    ¬ (AtomicCall.addExtraTraffic (whiteInternetMaxQuotaBytes + 1)).LeavesOnRefusal {} := by
  intro h
  have hsame := congrArg extraTrafficBytes (h _ _ rfl trivial)
  revert hsame
  decide

end Just1kBot
