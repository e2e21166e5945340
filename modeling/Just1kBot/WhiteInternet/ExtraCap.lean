import Just1kBot.WhiteInternet.Operations
import Just1kBot.Lib.Transition

/-! The cap of the extra pool: invariant 4 of `scripts/audit_invariants.py`.

    The cap grows with the device limit. Every operation that raises the pool checks it against the
    cap, and an admin who lowers the limit cuts the pool down. The refund of a device slot lowers
    the limit and takes the traffic of one slot, but the cap falls by more than that. -/

namespace Just1kBot

namespace WhiteInternetSubscription
variable {sub sub' : WhiteInternetSubscription}

theorem SameQuota.withinCap_iff (h : SameQuota sub sub') : sub'.WithinCap ↔ sub.WithinCap := by
  simp only [WithinCap, maxExtraAllowed, effectiveDeviceLimit, h.extra, h.deviceLimit]

theorem record_withinCap {nodeEpoch : Epoch} {up down : ℕ} {upBefore downBefore : Option ℕ}
    (h : sub.WithinCap) :
    (sub.recordAndDeductTraffic nodeEpoch up down upBefore downBefore).2.WithinCap := by
  unfold recordAndDeductTraffic
  extract_lets deltaUplink deltaDownlink sub'
  split_ifs
  · exact h
  · exact h
  · exact h

theorem extend_withinCap {n : ℤ} {now : Time} (h : sub.WithinCap)
    (hext : sub.extend n now = .ok sub') : sub'.WithinCap := by
  unfold extend at hext
  extract_lets isNewCycle extended at hext
  split_ifs at hext
  · rw [← Except.ok.inj hext]
    exact Nat.zero_le _
  · rw [← Except.ok.inj hext]
    exact h

end WhiteInternetSubscription

open WhiteInternetSubscription

/-- Every operation on a row leaves its extra pool within the cap. -/
theorem RowOp.apply_withinCap {sub sub' : WhiteInternetSubscription} {op : RowOp}
    (h : sub.WithinCap) (hop : op.apply sub = some sub') : sub'.WithinCap := by
  cases op with
  | record =>
    cases hop
    exact record_withinCap h
  | renew durationDays now =>
    simp only [apply] at hop
    split_ifs at hop
    have hr := renew_ok (Lib.toOption_eq_some hop)
    rw [WithinCap]
    rw [maxExtraAllowed, effectiveDeviceLimit, hr.deviceLimit]
    exact hr.extra
  | convertTrial durationDays newOrigin now =>
    simp only [apply] at hop
    split_ifs at hop
    cases hop
    exact Nat.zero_le _
  | addDeviceSlot now =>
    obtain ⟨hallowed, rfl⟩ := addDeviceSlot_ok_iff.mp (Lib.toOption_eq_some hop)
    exact (reactivateExhausted_sameQuota _).withinCap_iff.mpr hallowed.cap
  | topupQuota packGb now =>
    obtain ⟨hallowed, rfl⟩ := topupQuota_ok_iff.mp (Lib.toOption_eq_some hop)
    rw [(clear90p_sameQuota _).withinCap_iff, (reactivateExhausted_sameQuota _).withinCap_iff]
    exact hallowed.cap
  | addExtraTraffic extraBytes =>
    obtain ⟨hallowed, rfl⟩ := addExtraTraffic_ok_iff.mp (Lib.toOption_eq_some hop)
    exact (afterAdjustment_sameQuota _).withinCap_iff.mpr hallowed.cap
  | setBaseTrafficQuota baseBytes =>
    obtain ⟨-, rfl⟩ := setBaseTrafficQuota_ok_iff.mp (Lib.toOption_eq_some hop)
    exact (afterAdjustment_sameQuota (sub.withBase baseBytes.toNat)).withinCap_iff.mpr h
  | setDeviceLimit limit =>
    obtain ⟨-, rfl⟩ := setDeviceLimit_ok_iff.mp (Lib.toOption_eq_some hop)
    -- the pool was cut down to the cap of the new limit
    exact (min_le_right ..).trans (Nat.mul_le_mul_right _ (le_max_right 1 limit.toNat))
  | resetTrafficUsed =>
    obtain ⟨-, rfl⟩ := resetTrafficUsed_ok_iff.mp (Lib.toOption_eq_some hop)
    exact (reactivateExhausted_sameQuota _).withinCap_iff.mpr h
  | extend n now => exact extend_withinCap h (Lib.toOption_eq_some hop)
  | expire reason =>
    cases hop
    exact (expire_sameQuota reason sub).withinCap_iff.mpr h
  | disable reason =>
    simp only [apply] at hop
    split_ifs at hop
    cases hop
    exact h
  | resetTrial =>
    simp only [apply] at hop
    split_ifs at hop
    cases hop
    exact h
  | migrateTo origin =>
    cases hop
    exact h
  | reconcile task answer now =>
    cases hop
    exact (reconcile_sameQuota task answer now sub).withinCap_iff.mpr h
  | inlineSync sync now =>
    cases hop
    exact (inlineSync_sameQuota sync now sub).withinCap_iff.mpr h

/-- The refund of a slot leaves the pool within the cap of the limit it leaves. -/
theorem revokeSlot_withinCap_iff (sub : WhiteInternetSubscription) :
    sub.revokeSlot.WithinCap ↔ sub.extraTrafficBytes ≤
      max 1 (sub.deviceLimit - 1) * whiteInternetMaxQuotaBytes +
        whiteInternetExtraDeviceTrafficBytes := by
  have hlimit : max 1 (max whiteInternetDefaultDeviceLimit (orOne sub.deviceLimit - 1)) =
      max 1 (sub.deviceLimit - 1) := by
    rw [orOne, whiteInternetDefaultDeviceLimit]
    split <;> omega
  show sub.extraTrafficBytes - whiteInternetExtraDeviceTrafficBytes ≤
    max 1 (max whiteInternetDefaultDeviceLimit (orOne sub.deviceLimit - 1)) *
      whiteInternetMaxQuotaBytes ↔ _
  rw [hlimit]
  omega

/-! ### Runs -/

/-- Every subscription is within its cap. -/
def ExtraWithinCap (t : WhiteInternetTables) : Prop := t.Rows WithinCap

instance : DecidablePred ExtraWithinCap := fun t => by unfold ExtraWithinCap; infer_instance

/-- A refund that takes a device slot finds no more extra traffic than the slot's own and the cap of
    the remaining limit. -/
def SlotRefundFits (t : WhiteInternetTables) : SubscriptionEvent → Prop
  | .revoke order user => ¬ order.IsTrafficPack → order.IsDeviceSlot →
      ∀ sub ∈ t.subscriptionByUserId user.id, sub.extraTrafficBytes ≤
        max 1 (sub.deviceLimit - 1) * whiteInternetMaxQuotaBytes +
          whiteInternetExtraDeviceTrafficBytes
  | _ => True

theorem fresh_withinCap (id : ℕ) (userId : UserId) (origin : ServerId) (uuid : Uuid)
    (isTrial : Bool) (now : Time) : (fresh id userId origin uuid isTrial now).WithinCap := by
  rw [fresh]
  split_ifs <;> exact Nat.zero_le _

/-- A step keeps the caps exactly when no slot refund takes one below the pool. -/
theorem extraWithinCap_step_iff {t : WhiteInternetTables} (h : ExtraWithinCap t)
    (e : SubscriptionEvent) : ExtraWithinCap (t.step e) ↔ SlotRefundFits t e := by
  refine (WhiteInternetTables.Rows.step_iff fresh_withinCap (fun reason sub hsub =>
    (disable_sameQuota reason sub).withinCap_iff.mpr hsub) h e).trans ?_
  cases e with
  | create => rfl
  | delete => rfl
  | row id op =>
    refine iff_of_true (fun sub hsub sub' hop => ?_) trivial
    exact RowOp.apply_withinCap (h sub (WhiteInternetTables.mem_of_subscription hsub)) hop
  | revoke order user =>
    simp only [WhiteInternetTables.Writes, SlotRefundFits]
    constructor
    · intro hw hpack hslot sub hsub
      exact (revokeSlot_withinCap_iff sub).mp ((hw sub hsub).2 hpack hslot)
    · intro hfits sub hsub
      refine ⟨fun _ => ?_, fun hpack hslot =>
        (revokeSlot_withinCap_iff sub).mpr (hfits hpack hslot sub hsub)⟩
      have hsub' := h sub (WhiteInternetTables.mem_of_subscriptionByUserId hsub).1
      exact (Nat.sub_le ..).trans hsub'

/-- From the empty tables on, every subscription stays within its cap in every state of a run
    exactly when every refund of a device slot fits. -/
theorem extra_within_cap_iff (es : List SubscriptionEvent) :
    Lib.Throughout WhiteInternetTables.step ExtraWithinCap {} es ↔
      Lib.Always WhiteInternetTables.step SlotRefundFits {} es :=
  Lib.throughout_iff (J := fun _ => True) WhiteInternetTables.step (fun _ _ _ => trivial)
    (fun _ e _ h => extraWithinCap_step_iff h e) es {} trivial (fun _ h => by cases h)

/-- A purchase by user 1, confirmed by the node: an active subscription. -/
def activePurchase : List SubscriptionEvent :=
  [.create 1 1 1 1 false 0,
    .row 1 (.reconcile { desiredActive := true, targetVersion := 1, targetEpoch := 1 }
      { sync := { result := .applied } } 0)]

/-- A bought slot and four packs of 50 GiB fill the pool to 250 GiB; the refund of the slot leaves
    200 GiB with one device, whose cap is 150 GiB. -/
theorem slot_refund_breaks_cap : ¬ Lib.Throughout WhiteInternetTables.step ExtraWithinCap {}
    (activePurchase ++ [.row 1 (.addDeviceSlot 0), .row 1 (.topupQuota 50 0),
      .row 1 (.topupQuota 50 0), .row 1 (.topupQuota 50 0), .row 1 (.topupQuota 50 0),
      .revoke { id := 1, userId := 1, serviceType := .whiteInternet, amountRub := 100,
                deviceLimit := some 2, metadata := { operation := some "add_device_slot" } }
        { id := 1, telegramId := 1 }]) := by
  decide +kernel

end Just1kBot
