import Just1kBot.WhiteInternet.ExtraCap

/-! The enforcement of the quota: an active subscription should have quota left.

    Only the metering looks for exhaustion. A renewal, a conversion and a reset clear the usage, and
    a granted pool reactivates under a check, but the other operations on the pools and the syncs
    set or keep the status `active` whatever is used by then. -/

namespace Just1kBot

namespace WhiteInternetSubscription
variable {sub sub' : WhiteInternetSubscription}

/-- An active row has quota left. -/
def QuotaLeft (sub : WhiteInternetSubscription) : Prop :=
  sub.status = .active → sub.usedQuota < sub.totalQuota

instance : DecidablePred QuotaLeft := fun s => by unfold QuotaLeft; infer_instance

theorem SameQuota.quotaLeft_iff (h : SameQuota sub sub') (hstatus : sub'.status = sub.status) :
    sub'.QuotaLeft ↔ sub.QuotaLeft := by
  simp only [QuotaLeft, hstatus, h.usedQuota, h.totalQuota]

@[simp] theorem clear90p_quotaLeft_iff : sub.clear90p.QuotaLeft ↔ sub.QuotaLeft :=
  (clear90p_sameQuota sub).quotaLeft_iff (clear90p_status sub)

/-- Reactivation of an exhausted row asks for quota that is left on it. -/
@[simp] theorem reactivateExhausted_quotaLeft_iff : sub.reactivateExhausted.QuotaLeft ↔
    sub.QuotaLeft ∧ (sub.status = .exhausted → sub.usedQuota < sub.totalQuota) := by
  rw [reactivateExhausted]
  split_ifs with hstatus
  · simp only [QuotaLeft, hstatus, reactivate, reduceCtorEq, false_imp_iff, true_and, forall_const]
    exact Iff.rfl
  · simp only [hstatus, false_imp_iff, and_true]

/-- The changes of an admin reactivate a row that has quota left only. -/
@[simp] theorem afterAdjustment_quotaLeft_iff : sub.afterAdjustment.QuotaLeft ↔ sub.QuotaLeft := by
  rw [afterAdjustment]
  rw [clear90p_quotaLeft_iff]
  split_ifs with h
  · refine iff_of_true (fun _ => h.2) fun hactive => ?_
    rw [h.1] at hactive
    cases hactive
  · rfl

/-- A row with nothing used has its base pool left. -/
theorem quotaLeft_of_unused (hbase : 0 < sub.baseTrafficBytes) (hused : sub.usedQuota = 0) :
    sub.QuotaLeft := by
  intro _
  rw [hused, totalQuota]
  omega

theorem addExtra_status (bytes : ℕ) (sub : WhiteInternetSubscription) :
    (sub.addExtra bytes).status = sub.status := rfl

theorem addExtra_usedQuota (bytes : ℕ) (sub : WhiteInternetSubscription) :
    (sub.addExtra bytes).usedQuota = sub.usedQuota := rfl

theorem addExtra_totalQuota (bytes : ℕ) (sub : WhiteInternetSubscription) :
    (sub.addExtra bytes).totalQuota = sub.totalQuota + bytes :=
  (Nat.add_assoc ..).symm

theorem addSlot_totalQuota (sub : WhiteInternetSubscription) :
    sub.addSlot.totalQuota = sub.totalQuota + whiteInternetExtraDeviceTrafficBytes := by
  rw [addSlot, addExtra_totalQuota]
  rfl

theorem addSlot_usedQuota (sub : WhiteInternetSubscription) :
    sub.addSlot.usedQuota = sub.usedQuota := by
  rw [addSlot, addExtra_usedQuota]
  rfl

theorem addSlot_status (sub : WhiteInternetSubscription) : sub.addSlot.status = sub.status := by
  rw [addSlot, addExtra_status]

theorem withBase_quotaLeft_iff {bytes : ℕ} : (sub.withBase bytes).QuotaLeft ↔
    (sub.status = .active → sub.usedQuota < bytes + sub.extraTrafficBytes) :=
  Iff.rfl

theorem withDeviceLimit_quotaLeft_iff {limit : ℕ} : (sub.withDeviceLimit limit).QuotaLeft ↔
    (sub.status = .active → sub.usedQuota < sub.baseTrafficBytes +
      min sub.extraTrafficBytes (limit * whiteInternetMaxQuotaBytes)) := by
  simp only [QuotaLeft, withDeviceLimit, totalQuota, usedQuota]

theorem renew_quotaLeft {durationDays maxExpiryDays : ℤ} {baseBytes : ℕ} {now : Time}
    (hbase : 0 < baseBytes)
    (h : sub.renew durationDays (some baseBytes) maxExpiryDays now = .ok sub') :
    sub'.QuotaLeft := by
  have hr := renew_ok h
  exact quotaLeft_of_unused (by rwa [hr.base]) hr.unused

theorem convertTrial_quotaLeft (durationDays : ℤ) (newOrigin : Option ServerId) (now : Time) :
    (sub.convertTrial durationDays newOrigin now).QuotaLeft := by
  refine quotaLeft_of_unused (convertTrial_base_pos durationDays newOrigin now) ?_
  simp only [convertTrial, usedQuota, clearUsage]

theorem addExtra_quotaLeft {bytes : ℕ} (h : sub.QuotaLeft) : (sub.addExtra bytes).QuotaLeft := by
  intro hactive
  have hleft : sub.usedQuota < sub.baseTrafficBytes + sub.extraTrafficBytes := h hactive
  show sub.usedQuota < sub.baseTrafficBytes + (sub.extraTrafficBytes + bytes)
  omega

theorem addSlot_quotaLeft (h : sub.QuotaLeft) : sub.addSlot.QuotaLeft := by
  have hlimit : QuotaLeft { sub with deviceLimit := sub.effectiveDeviceLimit + 1 } := h
  exact addExtra_quotaLeft hlimit

/-- What a record leaves active has quota left. -/
theorem record_quotaLeft {nodeEpoch : Epoch} {up down : ℕ} {upBefore downBefore : Option ℕ}
    (h : sub.QuotaLeft) :
    (sub.recordAndDeductTraffic nodeEpoch up down upBefore downBefore).2.QuotaLeft := by
  unfold recordAndDeductTraffic
  extract_lets deltaUplink deltaDownlink sub'
  split_ifs with hnone hexhausted
  · exact h
  · rintro ⟨⟩
  · intro hactive
    have hleft : sub'.totalQuota - sub'.usedQuota ≠ 0 := fun h0 => hexhausted ⟨h0, hactive⟩
    show sub'.usedQuota < sub'.totalQuota
    omega

theorem extend_quotaLeft {n : ℤ} {now : Time} (hbase : 0 < sub.baseTrafficBytes)
    (h : sub.QuotaLeft) (hext : sub.extend n now = .ok sub') : sub'.QuotaLeft := by
  unfold extend at hext
  extract_lets isNewCycle extended at hext
  split_ifs at hext
  · rw [← Except.ok.inj hext]
    exact fun _ => Nat.lt_add_right _ hbase
  · rw [← Except.ok.inj hext]
    exact h

theorem expire_quotaLeft (reason : String) (h : sub.QuotaLeft) : (sub.expire reason).QuotaLeft := by
  rw [expire]
  split_ifs
  · rintro ⟨⟩
  · exact h

/-- A row of the same quota that is active leaves quota exactly when there was some. -/
theorem SameQuota.quotaLeft_active_iff (h : SameQuota sub sub') (hactive : sub'.status = .active) :
    sub'.QuotaLeft ↔ sub.usedQuota < sub.totalQuota := by
  simp only [QuotaLeft, hactive, forall_const, h.usedQuota, h.totalQuota]

/-- A confirmed task activates a pending row, whatever it has used. -/
theorem reconcile_quotaLeft_iff {task : ReconcileTask} {answer : ReconcileAnswer} {now : Time}
    (h : sub.QuotaLeft) : (sub.reconcile task answer now).QuotaLeft ↔
      (sub.status = .pending → task.desiredActive = true → answer.Confirms task sub →
        sub.usedQuota < sub.totalQuota) := by
  have hsame := reconcile_sameQuota task answer now sub
  by_cases hactive : answer.Confirms task sub ∧ sub.status = .pending ∧ task.desiredActive = true
  · have hstatus : (sub.reconcile task answer now).status = .active := by
      rw [reconcile, if_pos hactive.1]
      exact if_pos hactive.2
    rw [hsame.quotaLeft_active_iff hstatus]
    simp only [hactive, forall_const]
  · have hstatus : (sub.reconcile task answer now).status = sub.status := by
      rw [reconcile]
      split_ifs with hconfirms
      · exact if_neg fun hp => hactive ⟨hconfirms, hp⟩
      · rfl
    exact iff_of_true ((hsame.quotaLeft_iff hstatus).mpr h) fun hp hd hc =>
      absurd ⟨hc, hp, hd⟩ hactive

/-- A confirmed sync activates the row when its object was not loaded active. -/
theorem inlineSync_quotaLeft_iff {sync : InlineSync} {now : Time} (h : sub.QuotaLeft) :
    (sync.finish now sub).QuotaLeft ↔ (sync.confirmed.isSome = true →
      sync.loaded.status ≠ .active → sub.usedQuota < sub.totalQuota) := by
  have hsame := inlineSync_sameQuota sync now sub
  cases hconfirmed : sync.confirmed with
  | none =>
    refine iff_of_true ?_ (by simp)
    rwa [InlineSync.finish_of_unconfirmed hconfirmed]
  | some resp =>
    have hstatus := @InlineSync.finish_status sync sub resp now hconfirmed
    by_cases hloaded : sync.loaded.status = .active
    · rw [hloaded, Lib.written_loaded] at hstatus
      exact iff_of_true ((hsame.quotaLeft_iff hstatus).mpr h) fun _ hne => absurd hloaded hne
    · rw [Lib.written_of_ne (Ne.symm hloaded)] at hstatus
      rw [hsame.quotaLeft_active_iff hstatus]
      simp only [Option.isSome_some, hloaded, ne_eq, not_false_eq_true, forall_const]

end WhiteInternetSubscription

open WhiteInternetSubscription

/-! ### One operation -/

/-- The operation does not leave the row active with its quota used up. -/
def RowOp.LeavesQuota (sub : WhiteInternetSubscription) : RowOp → Prop
  | .addDeviceSlot now => sub.status = .exhausted → sub.SlotAllowed now →
      sub.usedQuota < sub.totalQuota + whiteInternetExtraDeviceTrafficBytes
  | .topupQuota packGb now => sub.status = .exhausted → sub.PackAllowed packGb now →
      sub.usedQuota < sub.totalQuota + packGb * gib
  | .setBaseTrafficQuota baseBytes => sub.status = .active → sub.BaseAllowed baseBytes →
      sub.usedQuota < baseBytes.toNat + sub.extraTrafficBytes
  | .setDeviceLimit limit => sub.status = .active → sub.LimitAllowed limit →
      sub.usedQuota < sub.baseTrafficBytes +
        min sub.extraTrafficBytes (limit.toNat * whiteInternetMaxQuotaBytes)
  | .reconcile task answer _ => sub.status = .pending → task.desiredActive = true →
      answer.Confirms task sub → sub.usedQuota < sub.totalQuota
  | .inlineSync sync _ => sync.confirmed.isSome = true → sync.loaded.status ≠ .active →
      sub.usedQuota < sub.totalQuota
  | _ => True

/-- The rows an operation can leave have quota left exactly when it says so. -/
theorem RowOp.leavesQuota_iff {sub : WhiteInternetSubscription} (hbase : 0 < sub.baseTrafficBytes)
    (h : sub.QuotaLeft) (op : RowOp) :
    op.LeavesQuota sub ↔ ∀ sub' ∈ op.apply sub, sub'.QuotaLeft := by
  cases op with
  | record =>
    refine iff_of_true trivial fun sub' hop => ?_
    cases hop
    exact record_quotaLeft h
  | renew durationDays now =>
    refine iff_of_true trivial fun sub' hop => ?_
    simp only [apply] at hop
    split_ifs at hop
    · cases hop
    · exact renew_quotaLeft (tierBase_pos sub) (Lib.toOption_eq_some hop)
  | convertTrial durationDays newOrigin now =>
    refine iff_of_true trivial fun sub' hop => ?_
    simp only [apply] at hop
    split_ifs at hop
    · cases hop
    · cases hop
      exact convertTrial_quotaLeft durationDays newOrigin now
  | addDeviceSlot now =>
    rw [apply, Lib.forall_mem_toOption_iff fun _ => addDeviceSlot_ok_iff,
      reactivateExhausted_quotaLeft_iff, and_iff_right (addSlot_quotaLeft h)]
    rw [addSlot_status, addSlot_usedQuota, addSlot_totalQuota]
    exact imp.swap
  | topupQuota packGb now =>
    rw [apply, Lib.forall_mem_toOption_iff fun _ => topupQuota_ok_iff, clear90p_quotaLeft_iff,
      reactivateExhausted_quotaLeft_iff, and_iff_right (addExtra_quotaLeft h)]
    rw [addExtra_status, addExtra_usedQuota, addExtra_totalQuota]
    exact imp.swap
  | addExtraTraffic extraBytes =>
    rw [apply, Lib.forall_mem_toOption_iff fun _ => addExtraTraffic_ok_iff]
    exact iff_of_true trivial fun _ => afterAdjustment_quotaLeft_iff.mpr (addExtra_quotaLeft h)
  | setBaseTrafficQuota baseBytes =>
    rw [apply, Lib.forall_mem_toOption_iff fun _ => setBaseTrafficQuota_ok_iff,
      afterAdjustment_quotaLeft_iff, withBase_quotaLeft_iff]
    exact imp.swap
  | setDeviceLimit limit =>
    rw [apply, Lib.forall_mem_toOption_iff fun _ => setDeviceLimit_ok_iff,
      withDeviceLimit_quotaLeft_iff]
    exact imp.swap
  | resetTrafficUsed =>
    rw [apply, Lib.forall_mem_toOption_iff fun _ => resetTrafficUsed_ok_iff]
    refine iff_of_true trivial fun _ => reactivateExhausted_quotaLeft_iff.mpr ?_
    have hleft : 0 < sub.totalQuota := Nat.lt_add_right _ hbase
    exact ⟨fun _ => hleft, fun _ => hleft⟩
  | extend n now =>
    exact iff_of_true trivial fun sub' hop =>
      extend_quotaLeft hbase h (Lib.toOption_eq_some hop)
  | expire reason =>
    refine iff_of_true trivial fun sub' hop => ?_
    cases hop
    exact expire_quotaLeft reason h
  | disable reason =>
    refine iff_of_true trivial fun sub' hop => ?_
    simp only [apply] at hop
    split_ifs at hop
    · cases hop
    · cases hop
      rintro ⟨⟩
  | resetTrial =>
    refine iff_of_true trivial fun sub' hop => ?_
    simp only [apply] at hop
    split_ifs at hop
    · cases hop
      rintro ⟨⟩
    · cases hop
  | migrateTo origin =>
    refine iff_of_true trivial fun sub' hop => ?_
    cases hop
    exact h
  | reconcile task answer now =>
    simp only [apply, Option.mem_some_iff, forall_eq', reconcile_quotaLeft_iff h]
    exact Iff.rfl
  | inlineSync sync now =>
    simp only [apply, Option.mem_some_iff, forall_eq', inlineSync_quotaLeft_iff h]
    exact Iff.rfl

/-! ### Runs -/

/-- Every active subscription has quota left. -/
def QuotaEnforced (t : WhiteInternetTables) : Prop := t.Rows QuotaLeft

instance : DecidablePred QuotaEnforced := fun t => by unfold QuotaEnforced; infer_instance

/-- No operation leaves a row active with its quota used up; a refund of a pack or a slot finds more
    quota left on an active row than it takes. -/
def LeavesQuota (t : WhiteInternetTables) : SubscriptionEvent → Prop
  | .row target op => ∀ sub ∈ t.subscription target, op.LeavesQuota sub
  | .revoke order user => order.IsTrafficPack ∨ order.IsDeviceSlot →
      ∀ sub ∈ t.subscriptionByUserId user.id, sub.status = .active →
        sub.usedQuota < sub.baseTrafficBytes + (sub.extraTrafficBytes -
          if order.IsTrafficPack then order.trafficBytes
          else whiteInternetExtraDeviceTrafficBytes)
  | _ => True

theorem revokePack_base (bytes : ℕ) (sub : WhiteInternetSubscription) :
    (sub.revokePack bytes).baseTrafficBytes = sub.baseTrafficBytes := rfl

theorem revokePack_quotaLeft_iff {bytes : ℕ} {sub : WhiteInternetSubscription} :
    (sub.revokePack bytes).QuotaLeft ↔ (sub.status = .active →
      sub.usedQuota < sub.baseTrafficBytes + (sub.extraTrafficBytes - bytes)) :=
  Iff.rfl

theorem revokeSlot_quotaLeft_iff {sub : WhiteInternetSubscription} :
    sub.revokeSlot.QuotaLeft ↔ (sub.status = .active → sub.usedQuota < sub.baseTrafficBytes +
      (sub.extraTrafficBytes - whiteInternetExtraDeviceTrafficBytes)) := by
  rw [revokeSlot, revokePack_quotaLeft_iff]
  rfl

theorem fresh_base_pos (id : ℕ) (userId : UserId) (origin : ServerId) (uuid : Uuid)
    (isTrial : Bool) (now : Time) :
    0 < (fresh id userId origin uuid isTrial now).baseTrafficBytes := by
  rw [fresh]
  split_ifs
  · exact (by decide : 0 < whiteInternetTrialTrafficBytes)
  · exact (by decide : 0 < whiteInternetBaseTrafficBytes)

theorem fresh_quotaLeft (id : ℕ) (userId : UserId) (origin : ServerId) (uuid : Uuid)
    (isTrial : Bool) (now : Time) : (fresh id userId origin uuid isTrial now).QuotaLeft := by
  rw [fresh]
  split_ifs
  · rintro ⟨⟩
  · rintro ⟨⟩

/-- Every step leaves every subscription a base pool. -/
theorem basePos_step {t : WhiteInternetTables} (h : t.Rows fun sub => 0 < sub.baseTrafficBytes)
    (e : SubscriptionEvent) : (t.step e).Rows fun sub => 0 < sub.baseTrafficBytes := by
  rw [WhiteInternetTables.Rows.step_iff fresh_base_pos
    (fun reason sub hsub => by rwa [(disable_sameQuota reason sub).base]) h]
  cases e with
  | create => trivial
  | delete => trivial
  | row target op =>
    intro sub hsub sub' hop
    exact (RowOp.apply_kept hop).base (h sub (WhiteInternetTables.mem_of_subscription hsub))
  | revoke order user =>
    intro sub hsub
    have hpos := h sub (WhiteInternetTables.mem_of_subscriptionByUserId hsub).1
    refine ⟨fun _ => ?_, fun _ _ => ?_⟩
    · show 0 < (sub.revokePack order.trafficBytes).baseTrafficBytes
      rwa [revokePack_base]
    · show 0 < sub.revokeSlot.baseTrafficBytes
      rwa [revokeSlot, revokePack_base]

/-- A step keeps the quotas enforced exactly when it leaves quota. -/
theorem quotaEnforced_step_iff {t : WhiteInternetTables}
    (hbase : t.Rows fun sub => 0 < sub.baseTrafficBytes) (h : QuotaEnforced t)
    (e : SubscriptionEvent) : QuotaEnforced (t.step e) ↔ LeavesQuota t e := by
  have hdisable : ∀ reason (sub : WhiteInternetSubscription), sub.QuotaLeft →
      (sub.disable reason).QuotaLeft := by
    rintro reason sub - ⟨⟩
  refine (WhiteInternetTables.Rows.step_iff fresh_quotaLeft hdisable h e).trans ?_
  cases e with
  | create => rfl
  | delete => rfl
  | row target op =>
    refine forall₂_congr fun sub hsub => (RowOp.leavesQuota_iff ?_ ?_ op).symm
    · exact hbase sub (WhiteInternetTables.mem_of_subscription hsub)
    · exact h sub (WhiteInternetTables.mem_of_subscription hsub)
  | revoke order user =>
    simp only [WhiteInternetTables.Writes, LeavesQuota, revokePack_quotaLeft_iff,
      revokeSlot_quotaLeft_iff]
    by_cases hpack : order.IsTrafficPack
    · simp only [hpack, if_true, true_or, forall_const, not_true_eq_false, false_imp_iff, and_true]
    · simp only [hpack, if_false, false_or, false_imp_iff, not_false_eq_true, forall_const,
        true_and]
      exact ⟨fun hw hslot sub hsub => hw sub hsub hslot, fun hw sub hsub hslot => hw hslot sub hsub⟩

/-- From the empty tables on, every active subscription has quota left in every state of a run
    exactly when every step leaves some. -/
theorem quota_enforced_iff (es : List SubscriptionEvent) :
    Lib.Throughout WhiteInternetTables.step QuotaEnforced {} es ↔
      Lib.Always WhiteInternetTables.step LeavesQuota {} es :=
  Lib.throughout_iff WhiteInternetTables.step (fun _ e h => basePos_step h e)
    (fun _ e hbase h => quotaEnforced_step_iff hbase h e) es {} (fun _ h => by cases h)
    (fun _ h => by cases h)

/-- With 20 GiB of the quota used, an admin sets the base pool to 10 GiB: the subscription stays
    active. -/
theorem shrunk_quota_stays_active : ¬ Lib.Throughout WhiteInternetTables.step QuotaEnforced {}
    (activePurchase ++ [.row 1 (.record 1 0 (20 * gib) none none),
      .row 1 (.setBaseTrafficQuota (10 * gib))]) := by
  decide +kernel

end Just1kBot
