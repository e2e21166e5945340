import Just1kBot.WhiteInternet.AtomicFailure
import Just1kBot.Lib.Transition

/-! The arithmetic of the traffic counters.

    What was used within the quota is the difference of the used and the overage bytes. Two
    operations meter, three add to the extra pool, and a renewal starts the counters anew and
    carries the rest of the extra pool over. Nothing of this is lost in a saturating subtraction as
    long as what was used within the quota does exceed the quota. -/

namespace Just1kBot

/-- The calls that change the counters or the pools. -/
inductive TrafficCall
  | recordAndDeductTraffic (nodeEpoch : Epoch) (uplinkAfter downlinkAfter : ℤ)
      (uplinkBefore downlinkBefore : Option ℤ)
  | deductTraffic (deltaBytes deltaUplink deltaDownlink : ℤ)
  | topupQuota (packGb : ℤ) (now : Time)
  | addDeviceSlot (extraBytes maxDevices maxQuotaBytes : ℤ) (now : Time)
  | addExtraTraffic (extraBytes : ℤ)
  | renewSubscription (durationDays : ℤ) (baseBytes : Option ℤ) (maxExpiryDays : ℤ) (now : Time)

namespace TrafficCall

def run : TrafficCall → Atomic PUnit
  | .recordAndDeductTraffic nodeEpoch uplinkAfter downlinkAfter uplinkBefore downlinkBefore =>
    LockedSubscription.recordAndDeductTraffic nodeEpoch uplinkAfter downlinkAfter uplinkBefore
      downlinkBefore
  | .deductTraffic deltaBytes deltaUplink deltaDownlink =>
    LockedSubscription.deductTraffic deltaBytes deltaUplink deltaDownlink
  | .topupQuota packGb now => LockedSubscription.topupQuota packGb now
  | .addDeviceSlot extraBytes maxDevices maxQuotaBytes now =>
    LockedSubscription.addDeviceSlot extraBytes maxDevices maxQuotaBytes now
  | .addExtraTraffic extraBytes => LockedSubscription.addExtraTraffic extraBytes
  | .renewSubscription durationDays baseBytes maxExpiryDays now =>
    LockedSubscription.renewSubscription durationDays baseBytes maxExpiryDays now

/-- A pack or a slot adds to the pool, as all that are sold do. -/
def Adds : TrafficCall → Prop
  | .topupQuota packGb _ => 0 ≤ packGb
  | .addDeviceSlot extraBytes _ _ _ => 0 ≤ extraBytes
  | _ => True

instance : DecidablePred Adds
  | .topupQuota packGb _ => inferInstanceAs (Decidable (0 ≤ packGb))
  | .addDeviceSlot extraBytes _ _ _ => inferInstanceAs (Decidable (0 ≤ extraBytes))
  | .recordAndDeductTraffic _ _ _ _ _ | .deductTraffic _ _ _ | .addExtraTraffic _
  | .renewSubscription _ _ _ _ => .isTrue trivial

end TrafficCall

namespace LockedSubscription

/-- The row after a call, of which a caller may commit even what a refused one left. -/
def step (sub : LockedSubscription) (call : TrafficCall) : LockedSubscription :=
  Lib.Tracked.after AtomicError.IsDomain call.run sub

/-- The overage is part of what was used, and the rest of it is within the quota. -/
structure Accounted (sub : LockedSubscription) : Prop where
  overage : 0 ≤ sub.trafficOverageBytes ∧ sub.trafficOverageBytes ≤ sub.trafficUsedBytes
  quota : sub.trafficUsedBytes - sub.trafficOverageBytes ≤
    sub.baseTrafficBytes + sub.extraTrafficBytes

instance : DecidablePred Accounted := fun sub =>
  decidable_of_iff ((0 ≤ sub.trafficOverageBytes ∧ sub.trafficOverageBytes ≤ sub.trafficUsedBytes) ∧
      sub.trafficUsedBytes - sub.trafficOverageBytes ≤
        sub.baseTrafficBytes + sub.extraTrafficBytes)
    ⟨fun h => ⟨h.1, h.2⟩, fun h => ⟨h.overage, h.quota⟩⟩

/-- The part of `consumed` bytes that does not fit into the quota. -/
def unfit (consumed : ℤ) (sub : LockedSubscription) : ℤ :=
  if sub.status = .disabled ∨ sub.status = .expired then consumed
  else max 0 (consumed - (sub.baseTrafficBytes + sub.extraTrafficBytes -
    (sub.trafficUsedBytes - sub.trafficOverageBytes)))

/-- The counters moved on by what was consumed, and the overage by what did not fit. -/
def Charged (consumed : ℤ) (sub sub' : LockedSubscription) : Prop :=
  sub'.trafficUsedBytes = sub.trafficUsedBytes + consumed ∧
    sub'.trafficOverageBytes = sub.trafficOverageBytes + sub.unfit consumed

/-- What a call that succeeds does to the counters and the extra pool: a sample charges what the
    downlink counter grew by, a deduction its bytes, and a renewal carries over what is left. -/
def Exact (sub : LockedSubscription) (call : TrafficCall) : Prop :=
  ∀ sub', call.run sub = .ok ⟨⟩ sub' →
    match call with
    | .recordAndDeductTraffic _ _ downlinkAfter _ downlinkBefore =>
      Charged (counterDelta (downlinkBefore.getD sub.lastDownlinkSnapshot) downlinkAfter) sub sub'
    | .deductTraffic deltaBytes _ _ => Charged (max 0 deltaBytes) sub sub'
    | .renewSubscription _ _ _ now =>
      sub'.extraTrafficBytes =
        if sub.isTrial = false ∧ now ≤ sub.expiresAt + days 7 then
          min (min sub.extraTrafficBytes (sub.baseTrafficBytes + sub.extraTrafficBytes -
            (sub.trafficUsedBytes - sub.trafficOverageBytes)))
            (sub.effectiveDeviceLimit * whiteInternetMaxQuotaBytes)
        else 0
    | _ => True

/-! ### The operations, once they succeed -/

/-- Two rows with the same counters and pools. -/
structure SamePools (a b : LockedSubscription) : Prop where
  base : b.baseTrafficBytes = a.baseTrafficBytes
  extra : b.extraTrafficBytes = a.extraTrafficBytes
  used : b.trafficUsedBytes = a.trafficUsedBytes
  overage : b.trafficOverageBytes = a.trafficOverageBytes

namespace SamePools
variable {a b c : LockedSubscription}

theorem trans (h : SamePools a b) (h' : SamePools b c) : SamePools a c :=
  ⟨h'.base.trans h.base, h'.extra.trans h.extra, h'.used.trans h.used,
    h'.overage.trans h.overage⟩

theorem accounted (h : SamePools a b) (ha : Accounted a) : Accounted b := by
  obtain ⟨⟨hnonneg, hle⟩, hquota⟩ := ha
  refine ⟨⟨?_, ?_⟩, ?_⟩
  · rw [h.overage]
    exact hnonneg
  · rw [h.overage, h.used]
    exact hle
  · rw [h.overage, h.used, h.base, h.extra]
    exact hquota

theorem charged {consumed : ℤ} (h : SamePools b c) (hb : Charged consumed a b) :
    Charged consumed a c :=
  ⟨h.used.trans hb.1, h.overage.trans hb.2⟩

end SamePools

theorem reactivateExhausted_samePools (sub : LockedSubscription) :
    SamePools sub sub.reactivateExhausted := by
  rw [reactivateExhausted]
  split_ifs <;> exact ⟨rfl, rfl, rfl, rfl⟩

theorem clear90p_samePools (sub : LockedSubscription) : SamePools sub sub.clear90p := by
  rw [clear90p]
  split_ifs <;> exact ⟨rfl, rfl, rfl, rfl⟩

theorem afterAdjustment_samePools (sub : LockedSubscription) :
    SamePools sub sub.afterAdjustment := by
  rw [afterAdjustment]
  split_ifs
  · exact .trans (b := sub.reactivate) ⟨rfl, rfl, rfl, rfl⟩ (clear90p_samePools _)
  · exact clear90p_samePools sub

variable {sub sub' : LockedSubscription}

theorem flush_ok {a : PUnit} (h : flush sub = .ok a sub') : sub' = sub ∧ sub.NonNegative := by
  rw [flush, Lib.Tracked.get_bind_apply, Lib.Tracked.refuseIf_bind_ok, Lib.Tracked.refuseIf] at h
  obtain ⟨hneg, hlimit⟩ := h
  split_ifs at hlimit
  · cases hlimit
  · cases hlimit
    exact ⟨rfl, not_not.mp hneg⟩

section Succeeds
open Lib.Tracked (get_bind_apply modify_bind_apply refuseIf_bind_ok)
variable {a : PUnit}

theorem renewSubscription_ok {durationDays maxExpiryDays : ℤ} {baseBytes : Option ℤ} {now : Time}
    (h : renewSubscription durationDays baseBytes maxExpiryDays now sub = .ok a sub') :
    sub' = sub.renewed durationDays baseBytes now ∧ sub'.NonNegative := by
  simp only [renewSubscription, get_bind_apply, refuseIf_bind_ok, modify_bind_apply] at h
  obtain ⟨-, -, hflush⟩ := h
  obtain ⟨rfl, hnonneg⟩ := flush_ok hflush
  exact ⟨rfl, hnonneg⟩

theorem addDeviceSlot_ok {extraBytes maxDevices maxQuotaBytes : ℤ} {now : Time}
    (h : addDeviceSlot extraBytes maxDevices maxQuotaBytes now sub = .ok a sub') :
    SamePools (sub.addExtra extraBytes) sub' := by
  simp only [addDeviceSlot, get_bind_apply, refuseIf_bind_ok, modify_bind_apply] at h
  obtain ⟨-, -, -, -, -, hflush⟩ := h
  obtain ⟨rfl, -⟩ := flush_ok hflush
  have hactive := reactivateExhausted_samePools
    ({ sub with deviceLimit := sub.effectiveDeviceLimit + 1 }.addExtra extraBytes)
  exact ⟨hactive.base, hactive.extra, hactive.used, hactive.overage⟩

theorem topupQuota_ok {packGb : ℤ} {now : Time} (h : topupQuota packGb now sub = .ok a sub') :
    SamePools (sub.addExtra (packGb * gib)) sub' := by
  simp only [topupQuota, get_bind_apply, refuseIf_bind_ok, modify_bind_apply] at h
  obtain ⟨-, -, -, -, hflush⟩ := h
  obtain ⟨rfl, -⟩ := flush_ok hflush
  exact (reactivateExhausted_samePools _).trans (clear90p_samePools _)

theorem addExtraTraffic_ok {extraBytes : ℤ} (h : addExtraTraffic extraBytes sub = .ok a sub') :
    0 < extraBytes ∧ SamePools (sub.addExtra extraBytes) sub' := by
  simp only [addExtraTraffic, get_bind_apply, refuseIf_bind_ok, modify_bind_apply] at h
  obtain ⟨hpos, -, -, -, hflush⟩ := h
  obtain ⟨rfl, -⟩ := flush_ok hflush
  exact ⟨not_le.mp hpos, afterAdjustment_samePools _⟩

theorem deductTraffic_ok {deltaBytes deltaUplink deltaDownlink : ℤ}
    (h : deductTraffic deltaBytes deltaUplink deltaDownlink sub = .ok a sub') :
    deltaBytes ≤ 0 ∧ sub' = sub ∨ 0 < deltaBytes ∧ SamePools (sub.charge deltaBytes) sub' := by
  rw [deductTraffic] at h
  by_cases hzero : deltaBytes ≤ 0
  · rw [if_pos hzero] at h
    cases h
    exact .inl ⟨hzero, rfl⟩
  · rw [if_neg hzero, modify_bind_apply, modify_bind_apply] at h
    obtain ⟨rfl, -⟩ := flush_ok h
    refine .inr ⟨not_le.mp hzero, ?_⟩
    split_ifs <;> exact ⟨rfl, rfl, rfl, rfl⟩

theorem counterDelta_nonneg (before after : ℤ) : 0 ≤ counterDelta before after := by
  rw [counterDelta]
  split_ifs <;> omega

theorem recordAndDeductTraffic_ok {nodeEpoch : Epoch} {uplinkAfter downlinkAfter : ℤ}
    {uplinkBefore downlinkBefore : Option ℤ}
    (h : recordAndDeductTraffic nodeEpoch uplinkAfter downlinkAfter uplinkBefore downlinkBefore
      sub = .ok a sub') :
    let delta := counterDelta (downlinkBefore.getD sub.lastDownlinkSnapshot) downlinkAfter
    delta = 0 ∧ sub' = sub ∨ SamePools (sub.charge delta) sub' := by
  intro delta
  have hnonneg : 0 ≤ delta := counterDelta_nonneg ..
  rw [recordAndDeductTraffic, get_bind_apply] at h
  by_cases hzero : counterDelta (uplinkBefore.getD sub.lastUplinkSnapshot) uplinkAfter ≤ 0 ∧
      delta ≤ 0
  · simp only at h
    rw [if_pos hzero] at h
    cases h
    exact .inl ⟨by omega, rfl⟩
  · simp only at h
    rw [if_neg hzero, modify_bind_apply, modify_bind_apply] at h
    obtain ⟨rfl, -⟩ := flush_ok h
    rw [max_eq_right hnonneg]
    refine .inr ?_
    split_ifs <;> exact ⟨rfl, rfl, rfl, rfl⟩

end Succeeds

/-! ### What they keep -/

/-- The clamps of the quota do nothing. -/
theorem Accounted.availableQuota_eq (h : sub.Accounted) :
    sub.availableQuota = sub.baseTrafficBytes + sub.extraTrafficBytes -
      (sub.trafficUsedBytes - sub.trafficOverageBytes) := by
  obtain ⟨⟨hnonneg, hle⟩, hquota⟩ := h
  have hused : sub.usedQuota = sub.trafficUsedBytes - sub.trafficOverageBytes :=
    max_eq_right (by omega)
  rw [availableQuota, totalQuota, hused]
  exact max_eq_right (by omega)

theorem overage_eq_unfit (h : sub.Accounted) (consumed : ℤ) :
    sub.overage consumed = sub.unfit consumed := by
  rw [overage, unfit, h.availableQuota_eq]

theorem charge_charged (h : sub.Accounted) (consumed : ℤ) :
    Charged consumed sub (sub.charge consumed) :=
  ⟨rfl, by rw [← overage_eq_unfit h]; rfl⟩

/-- Nothing is charged for nothing. -/
theorem charged_zero (h : sub.Accounted) : Charged 0 sub sub := by
  refine ⟨(add_zero _).symm, ?_⟩
  have hzero : sub.unfit 0 = 0 := by
    have := h.quota
    rw [unfit]
    split_ifs <;> omega
  rw [hzero, add_zero]

theorem Accounted.charge (h : sub.Accounted) {consumed : ℤ} (hc : 0 ≤ consumed) :
    (sub.charge consumed).Accounted := by
  have hcharged := charge_charged h consumed
  obtain ⟨⟨hnonneg, hle⟩, hquota⟩ := h
  have hunfit : 0 ≤ sub.unfit consumed ∧ sub.unfit consumed ≤ consumed ∧
      consumed - sub.unfit consumed ≤ sub.baseTrafficBytes + sub.extraTrafficBytes -
        (sub.trafficUsedBytes - sub.trafficOverageBytes) := by
    rw [unfit]
    split_ifs <;> omega
  have hbase : (sub.charge consumed).baseTrafficBytes = sub.baseTrafficBytes := rfl
  have hextra : (sub.charge consumed).extraTrafficBytes = sub.extraTrafficBytes := rfl
  refine ⟨⟨?_, ?_⟩, ?_⟩
  · rw [hcharged.2]
    omega
  · rw [hcharged.1, hcharged.2]
    omega
  · rw [hcharged.1, hcharged.2, hbase, hextra]
    omega

theorem Accounted.addExtra (h : sub.Accounted) {bytes : ℤ} (hb : 0 ≤ bytes) :
    (sub.addExtra bytes).Accounted := by
  obtain ⟨hoverage, hquota⟩ := h
  refine ⟨hoverage, ?_⟩
  simp only [LockedSubscription.addExtra]
  omega

/-- A renewed row has used nothing of pools that are not negative. -/
theorem renewed_accounted {durationDays : ℤ} {baseBytes : Option ℤ} {now : Time}
    (h : (sub.renewed durationDays baseBytes now).NonNegative) :
    (sub.renewed durationDays baseBytes now).Accounted := by
  obtain ⟨hbase, hextra, -⟩ := h
  have hused : (sub.renewed durationDays baseBytes now).trafficUsedBytes = 0 := rfl
  have hoverage : (sub.renewed durationDays baseBytes now).trafficOverageBytes = 0 := rfl
  refine ⟨⟨hoverage.ge, (hoverage.trans hused.symm).le⟩, ?_⟩
  rw [hused, hoverage]
  omega

/-- A call that succeeds keeps the row accounted. -/
theorem Accounted.run_ok (h : sub.Accounted) {call : TrafficCall} (hadds : call.Adds) {a : PUnit}
    (hok : call.run sub = .ok a sub') : sub'.Accounted := by
  cases call with
  | recordAndDeductTraffic nodeEpoch uplinkAfter downlinkAfter uplinkBefore downlinkBefore =>
    rcases recordAndDeductTraffic_ok hok with ⟨-, rfl⟩ | hsame
    · exact h
    · exact hsame.accounted (h.charge (counterDelta_nonneg ..))
  | deductTraffic deltaBytes deltaUplink deltaDownlink =>
    rcases deductTraffic_ok hok with ⟨-, rfl⟩ | ⟨hpos, hsame⟩
    · exact h
    · exact hsame.accounted (h.charge hpos.le)
  | topupQuota packGb now =>
    exact (topupQuota_ok hok).accounted (h.addExtra (mul_nonneg hadds (Int.natCast_nonneg gib)))
  | addDeviceSlot extraBytes maxDevices maxQuotaBytes now =>
    exact (addDeviceSlot_ok hok).accounted (h.addExtra hadds)
  | addExtraTraffic extraBytes =>
    obtain ⟨hpos, hsame⟩ := addExtraTraffic_ok hok
    exact hsame.accounted (h.addExtra hpos.le)
  | renewSubscription durationDays baseBytes maxExpiryDays now =>
    obtain ⟨rfl, hnonneg⟩ := renewSubscription_ok hok
    exact renewed_accounted hnonneg

theorem deductTraffic_avoids (deltaBytes deltaUplink deltaDownlink : ℤ) :
    Lib.Tracked.Avoids AtomicError.IsDomain
      (deductTraffic deltaBytes deltaUplink deltaDownlink) := by
  rw [deductTraffic]
  split_ifs
  · exact Lib.Tracked.avoids_pure _
  · exact .modify_bind (.modify_bind flush_avoids)

theorem recordAndDeductTraffic_avoids (nodeEpoch : Epoch) (uplinkAfter downlinkAfter : ℤ)
    (uplinkBefore downlinkBefore : Option ℤ) :
    Lib.Tracked.Avoids AtomicError.IsDomain (recordAndDeductTraffic nodeEpoch uplinkAfter
      downlinkAfter uplinkBefore downlinkBefore) := by
  rw [recordAndDeductTraffic]
  refine .get_bind fun sub => ?_
  simp only
  split_ifs
  · exact Lib.Tracked.avoids_pure _
  · exact .modify_bind (.modify_bind flush_avoids)

/-- A call leaves the row as it was, or succeeds, or has added refused traffic to the pool. -/
theorem step_cases (sub : LockedSubscription) (call : TrafficCall) :
    sub.step call = sub ∨ (∃ a, call.run sub = .ok a (sub.step call)) ∨
      ∃ bytes, 0 < bytes ∧ sub.step call = sub.addExtra bytes := by
  have hrestores : Lib.Tracked.Restores AtomicError.IsDomain call.run →
      sub.step call = sub ∨ (∃ a, call.run sub = .ok a (sub.step call)) ∨
        ∃ bytes, 0 < bytes ∧ sub.step call = sub.addExtra bytes := by
    intro h
    rcases h.after_cases sub with hsame | hok
    · exact .inl hsame
    · exact .inr (.inl hok)
  cases call with
  | recordAndDeductTraffic nodeEpoch uplinkAfter downlinkAfter uplinkBefore downlinkBefore =>
    exact hrestores (recordAndDeductTraffic_avoids _ _ _ _ _).restores
  | deductTraffic deltaBytes deltaUplink deltaDownlink =>
    exact hrestores (deductTraffic_avoids _ _ _).restores
  | topupQuota packGb now => exact hrestores (topupQuota_restores packGb now)
  | addDeviceSlot extraBytes maxDevices maxQuotaBytes now =>
    exact hrestores (addDeviceSlot_restores extraBytes maxDevices maxQuotaBytes now)
  | renewSubscription durationDays baseBytes maxExpiryDays now =>
    exact hrestores (renewSubscription_restores durationDays baseBytes maxExpiryDays now)
  | addExtraTraffic extraBytes =>
    by_cases hover : (AtomicCall.addExtraTraffic extraBytes).OverfillsExtra sub
    · obtain ⟨e, hdomain, heq⟩ := addExtraTraffic_overfilled hover
      refine .inr (.inr ⟨extraBytes, hover.1, ?_⟩)
      simp only [step, TrafficCall.run, Lib.Tracked.after]
      rw [heq]
      exact if_pos hdomain
    · simp only [step, TrafficCall.run, Lib.Tracked.after]
      cases hrun : addExtraTraffic extraBytes sub with
      | ok a left => exact .inr (.inl ⟨a, rfl⟩)
      | error e left =>
        refine .inl ?_
        by_cases hdomain : e.IsDomain
        · exact (if_pos hdomain).trans
            ((addExtraTraffic_leaves_iff extraBytes sub).mpr hover e left hrun hdomain)
        · exact if_neg hdomain

theorem Accounted.step (h : sub.Accounted) {call : TrafficCall} (hadds : call.Adds) :
    (sub.step call).Accounted := by
  rcases step_cases sub call with hsame | ⟨a, hok⟩ | ⟨bytes, hpos, hadded⟩
  · rw [hsame]
    exact h
  · exact h.run_ok hadds hok
  · rw [hadded]
    exact h.addExtra hpos.le

theorem carriedExtra_eq (h : sub.Accounted) (now : Time) :
    sub.carriedExtra now =
      if sub.isTrial = false ∧ now ≤ sub.expiresAt + days 7 then
        min (min sub.extraTrafficBytes (sub.baseTrafficBytes + sub.extraTrafficBytes -
          (sub.trafficUsedBytes - sub.trafficOverageBytes)))
          (sub.effectiveDeviceLimit * whiteInternetMaxQuotaBytes)
      else 0 := by
  have hcap : max 0 sub.maxExtraAllowed =
      sub.effectiveDeviceLimit * whiteInternetMaxQuotaBytes :=
    max_eq_right (mul_nonneg (zero_le_one.trans (le_max_left ..)) (Int.natCast_nonneg _))
  rw [carriedExtra, h.availableQuota_eq, hcap]
  cases sub.isTrial with
  | true => simp
  | false => simp

/-- What a call that succeeds does to the counters is exact. -/
theorem Accounted.exact (h : sub.Accounted) (call : TrafficCall) : Exact sub call := by
  intro sub' hok
  cases call with
  | recordAndDeductTraffic nodeEpoch uplinkAfter downlinkAfter uplinkBefore downlinkBefore =>
    simp only
    rcases recordAndDeductTraffic_ok hok with ⟨hzero, rfl⟩ | hsame
    · rw [hzero]
      exact charged_zero h
    · exact hsame.charged (charge_charged h _)
  | deductTraffic deltaBytes deltaUplink deltaDownlink =>
    simp only
    rcases deductTraffic_ok hok with ⟨hzero, rfl⟩ | ⟨hpos, hsame⟩
    · rw [max_eq_left hzero]
      exact charged_zero h
    · rw [max_eq_right hpos.le]
      exact hsame.charged (charge_charged h _)
  | renewSubscription durationDays baseBytes maxExpiryDays now =>
    obtain ⟨rfl, -⟩ := renewSubscription_ok hok
    exact carriedExtra_eq h now
  | topupQuota packGb now => trivial
  | addDeviceSlot extraBytes maxDevices maxQuotaBytes now => trivial
  | addExtraTraffic extraBytes => trivial

/-! ### Runs -/

/-- From an accounted row on, every call of a run is exact and leaves the row accounted. -/
theorem traffic_accounted (sub : LockedSubscription) (h : sub.Accounted) (calls : List TrafficCall)
    (hadds : ∀ call ∈ calls, call.Adds) :
    Lib.Throughout step Accounted sub calls ∧ Lib.Always step Exact sub calls := by
  have hstep : ∀ (s : LockedSubscription) (call : TrafficCall), Accounted s → call.Adds →
      Accounted (s.step call) := fun s call hs hcall => hs.step hcall
  have hguard := Lib.always_of_forall step calls sub hadds
  exact ⟨Lib.throughout_of_always step hstep (fun _ hs => hs) calls sub h hguard,
    Lib.always_of_inv_of_always step hstep (fun _ call hs _ => hs.exact call) calls sub h hguard⟩

/-- A pack, five GiB metered, and a renewal that carries the rest of the pack over. -/
theorem traffic_accounted_renewal :
    Lib.Throughout step Accounted { baseTrafficBytes := 10, expiresAt := days 1 }
      [.topupQuota 10 0, .recordAndDeductTraffic 1 0 (5 * gib) none none,
        .renewSubscription 30 none 60 0] ∧
      Lib.Always step Exact { baseTrafficBytes := 10, expiresAt := days 1 }
        [.topupQuota 10 0, .recordAndDeductTraffic 1 0 (5 * gib) none none,
          .renewSubscription 30 none 60 0] :=
  traffic_accounted _ (by decide) _ (by decide)

/-- A base pool that an admin has set below what was used is over the quota from the start; a pack
    of negative size takes the pool below what was used; and a deduction charges its bytes, whatever
    the downlink was. -/
theorem traffic_not_accounted :
    ¬ Lib.Throughout step Accounted
      { trafficUsedBytes := 5, baseTrafficBytes := 1, extraTrafficBytes := 0 }
      [.recordAndDeductTraffic 1 0 1 none none] ∧
    ¬ Lib.Throughout step Accounted
      { trafficUsedBytes := gib, baseTrafficBytes := 0, extraTrafficBytes := gib
        expiresAt := days 1 } [.topupQuota (-1) 0] ∧
    ((({ baseTrafficBytes := 10 } : LockedSubscription).step
      (.deductTraffic 5 0 3)).trafficUsedBytes = 5 ∧
      (({ baseTrafficBytes := 10 } : LockedSubscription).step
        (.deductTraffic 5 0 3)).trafficDownlinkBytes = 3) := by
  decide +kernel

end LockedSubscription

end Just1kBot
