import Just1kBot.WhiteInternet.HardDelete

/-! What becomes of bought traffic: the part of the extra pool that is not spent.

    The base pool is spent first. A renewal within seven days of the end carries what is left of the
    extra pool over, up to the cap; an extension keeps the pool in mid-period and empties it when it
    starts a new one. The other operations leave the pool, add to it, or take what a refunded order
    bought. -/

namespace Just1kBot

namespace WhiteInternetSubscription

/-- The extra traffic that is not spent. -/
def unspentExtra (sub : WhiteInternetSubscription) : ℕ :=
  min sub.extraTrafficBytes sub.availableQuota

/-- `is_grace_valid`. -/
def InGrace (now : Time) (sub : WhiteInternetSubscription) : Prop := now ≤ sub.expiresAt + days 7

/-- `is_new_cycle`. -/
def NewCycle (now : Time) (sub : WhiteInternetSubscription) : Prop :=
  sub.expiresAt ≤ now ∨ sub.status = .expired ∨ sub.status = .exhausted ∨ sub.status = .pending

/-- The conditions under which a period is renewed. -/
structure Renewable (durationDays : ℤ) (now : Time) (sub : WhiteInternetSubscription) : Prop where
  settled : ¬ sub.DeactivationPending
  ready : sub.status ≠ .disabled ∧ sub.status ≠ .pending
  horizon : (if now < sub.expiresAt then sub.expiresAt else now) + days durationDays ≤
    now + days whiteInternetMaxExpiryDays

end WhiteInternetSubscription

open WhiteInternetSubscription

/-- Metering, a renewal after the grace period, and an admin's reduction of the device limit or of
    the base pool. -/
def RowOp.Excepted (sub : WhiteInternetSubscription) : RowOp → Prop
  | .record .. => True
  | .renew _ now => ¬ sub.InGrace now
  | .setDeviceLimit limit => limit < sub.effectiveDeviceLimit
  | .setBaseTrafficQuota baseBytes => baseBytes < sub.baseTrafficBytes
  | _ => False

/-- No unspent traffic is in the way of the operation: an extension into a new period finds none, a
    renewal finds no more than the cap, and a device limit that is not lowered does not cut. -/
def RowOp.Clear (sub : WhiteInternetSubscription) : RowOp → Prop
  | .extend n now => 1 ≤ n → sub.status ≠ .disabled → sub.NewCycle now → sub.unspentExtra = 0
  | .renew durationDays now =>
    sub.Renewable durationDays now → sub.unspentExtra ≤ sub.maxExtraAllowed
  | .setDeviceLimit limit => limit ≤ whiteInternetMaxDeviceLimit →
    sub.extraTrafficBytes ≤ limit.toNat * whiteInternetMaxQuotaBytes ∨ sub.unspentExtra = 0
  | _ => True

/-! ### The machine of one row -/

/-- A change of the row, the final write of a reconciliation or of an inline sync, a force purge of
    its server, and the finaliser. -/
inductive ExtraEvent
  | change (c : RowChange)
  | reconcile (task : ReconcileTask) (answer : ReconcileAnswer) (now : Time)
  | inlineSync (sync : InlineSync) (now : Time)
  | purge
  | finalize

namespace WhiteInternetSubscription

/-- What a force purge of its server makes of a row. -/
def purge (sub : WhiteInternetSubscription) : WhiteInternetSubscription :=
  { sub with
    status := .disabled, statusReason := some "force_purged_node_destroyed"
    provisioningStatus := .syncedInactive, originNodeId := none, pendingHardDelete := false }

/-- The row after an event. -/
def after (sub : WhiteInternetSubscription) : ExtraEvent → Option WhiteInternetSubscription
  | .change c => (c.apply sub).getD sub
  | .reconcile task answer now => sub.reconcile task answer now
  | .inlineSync sync now => sync.finish now sub
  | .purge => sub.purge
  | .finalize => if sub.HardDeletable then none else sub

end WhiteInternetSubscription

namespace ExtraEvent

def step (row : Option WhiteInternetSubscription) (e : ExtraEvent) :
    Option WhiteInternetSubscription := row.bind (·.after e)

/-- The operation of the repository that the event is, if any. -/
def rowOp : ExtraEvent → Option RowOp
  | .change (.op o) => some o
  | .change (.moved o _) => if o.Served then some o else none
  | _ => none

/-- What a refunded order bought. -/
def refunded : ExtraEvent → ℕ
  | .change (.revokePack bytes) => bytes
  | .change .revokeSlot => whiteInternetExtraDeviceTrafficBytes
  | _ => 0

/-- The row of a paid subscription stays, and of its unspent traffic goes at most what a refunded
    order bought; an extension within the grace period leaves at least what a renewal would. -/
def KeepsExtra (row : Option WhiteInternetSubscription) (e : ExtraEvent) : Prop :=
  ∀ sub ∈ row, sub.isTrial = false → (∀ o ∈ e.rowOp, ¬ o.Excepted sub) →
    ∃ sub' ∈ step row e, sub.unspentExtra ≤ sub'.unspentExtra + e.refunded ∧
      ∀ n now, e = .change (.op (.extend n now)) → sub.InGrace now →
        ∀ extended, sub.extend n now = .ok extended →
          ∀ durationDays baseBytes maxExpiryDays renewed,
            sub.renew durationDays baseBytes maxExpiryDays now = .ok renewed →
              renewed.unspentExtra ≤ extended.unspentExtra

/-- No unspent traffic of a paid subscription is in the way. -/
def Clear (row : Option WhiteInternetSubscription) (e : ExtraEvent) : Prop :=
  ∀ sub ∈ row, sub.isTrial = false → ∀ o ∈ e.rowOp, ¬ o.Excepted sub → o.Clear sub

end ExtraEvent

/-! ### What the operations leave -/

namespace WhiteInternetSubscription
variable {sub sub' : WhiteInternetSubscription}

theorem SameQuota.unspentExtra (h : SameQuota sub sub') :
    sub'.unspentExtra = sub.unspentExtra := by
  rw [WhiteInternetSubscription.unspentExtra, availableQuota, h.extra, h.totalQuota, h.usedQuota]
  rfl

/-- A larger pool that nothing more is spent of has no less left. -/
theorem unspentExtra_mono (hbase : sub.baseTrafficBytes ≤ sub'.baseTrafficBytes)
    (hextra : sub.extraTrafficBytes ≤ sub'.extraTrafficBytes)
    (hused : sub'.usedQuota ≤ sub.usedQuota) :
    sub.unspentExtra ≤ sub'.unspentExtra :=
  min_le_min hextra (tsub_le_tsub (Nat.add_le_add hbase hextra) hused)

theorem addExtra_unspentExtra (bytes : ℕ) (sub : WhiteInternetSubscription) :
    sub.unspentExtra ≤ (sub.addExtra bytes).unspentExtra :=
  unspentExtra_mono le_rfl (Nat.le_add_right _ _) le_rfl

theorem addSlot_unspentExtra (sub : WhiteInternetSubscription) :
    sub.unspentExtra ≤ sub.addSlot.unspentExtra := by
  rw [addSlot]
  exact addExtra_unspentExtra _ { sub with deviceLimit := sub.effectiveDeviceLimit + 1 }

/-- Where nothing is spent, all of the pool is left. -/
theorem unspentExtra_of_unused (h : sub.usedQuota = 0) :
    sub.unspentExtra = sub.extraTrafficBytes := by
  rw [unspentExtra, availableQuota, h]
  exact min_eq_left (Nat.le_add_left _ _)

/-- What a renewal leaves of the extra pool. -/
theorem renew_unspentExtra {durationDays maxExpiryDays : ℤ} {baseBytes : Option ℕ} {now : Time}
    (h : sub.renew durationDays baseBytes maxExpiryDays now = .ok sub') :
    sub'.unspentExtra ≤ sub.unspentExtra ∧ (sub.isTrial = false → sub.InGrace now →
      sub'.unspentExtra = min sub.unspentExtra sub.maxExtraAllowed) := by
  unfold renew at h
  split at h
  · cases h
  · extract_lets baseTime newExpiresAt effectiveDevices extraRollover newExtra at h
    split at h
    · cases h
    · cases h
      rw [unspentExtra_of_unused rfl]
      show newExtra ≤ _ ∧ (_ → _ → newExtra = _)
      constructor
      · show (if _ then _ else if _ then _ else _) ≤ _
        split_ifs
        · exact Nat.zero_le _
        · exact min_le_left ..
        · exact Nat.zero_le _
      · intro hpaid hgrace
        show (if _ then _ else if _ then _ else _) = _
        rw [InGrace] at hgrace
        rw [if_neg (by simp [hpaid]), if_pos hgrace]
        rfl

theorem renewable_of_renew {durationDays : ℤ} {baseBytes : Option ℕ} {now : Time}
    (hsettled : ¬ sub.DeactivationPending)
    (h : sub.renew durationDays baseBytes whiteInternetMaxExpiryDays now = .ok sub') :
    sub.Renewable durationDays now := by
  unfold renew at h
  split at h
  · cases h
  · rename_i hready
    extract_lets baseTime newExpiresAt at h
    split at h
    · cases h
    · rename_i hhorizon
      exact ⟨hsettled, not_or.mp hready, not_lt.mp hhorizon⟩

/-- An extension that goes through empties the pool or leaves what there is. -/
theorem extend_unspentExtra {n : ℤ} {now : Time} (h : sub.extend n now = .ok sub') :
    1 ≤ n ∧ sub.status ≠ .disabled ∧
      (sub.NewCycle now ∧ sub'.unspentExtra = 0 ∨
        ¬ sub.NewCycle now ∧ sub'.unspentExtra = sub.unspentExtra) := by
  unfold extend at h
  extract_lets isNewCycle extended at h
  split_ifs at h with hn hdisabled htrial hcycle
  · rw [← Except.ok.inj h]
    exact ⟨not_lt.mp hn, hdisabled, .inl ⟨hcycle, Nat.zero_min _⟩⟩
  · rw [← Except.ok.inj h]
    exact ⟨not_lt.mp hn, hdisabled, .inr ⟨hcycle, rfl⟩⟩

theorem renew_of_renewable {durationDays : ℤ} {now : Time} (baseBytes : Option ℕ)
    (h : sub.Renewable durationDays now) :
    ∃ sub', sub.renew durationDays baseBytes whiteInternetMaxExpiryDays now = .ok sub' := by
  rw [renew, if_neg (not_or.mpr h.ready)]
  extract_lets baseTime newExpiresAt
  rw [if_neg (not_lt.mpr h.horizon)]
  exact ⟨_, rfl⟩

theorem extend_isOk {n : ℤ} (now : Time) (hn : 1 ≤ n) (hdisabled : sub.status ≠ .disabled)
    (hpaid : sub.isTrial = false) : ∃ sub', sub.extend n now = .ok sub' := by
  rw [extend, if_neg (not_lt.mpr hn), if_neg hdisabled, if_neg (by simp [hpaid])]
  extract_lets isNewCycle extended
  split_ifs
  · exact ⟨_, rfl⟩
  · exact ⟨_, rfl⟩

/-- What is cut off the pool is missing from what is left, unless nothing is. -/
theorem withDeviceLimit_unspentExtra (limit : ℕ) (sub : WhiteInternetSubscription) :
    sub.unspentExtra ≤ (sub.withDeviceLimit limit).unspentExtra ↔
      sub.extraTrafficBytes ≤ limit * whiteInternetMaxQuotaBytes ∨ sub.unspentExtra = 0 := by
  have hextra : (sub.withDeviceLimit limit).unspentExtra =
      min (min sub.extraTrafficBytes (limit * whiteInternetMaxQuotaBytes))
        (sub.baseTrafficBytes + min sub.extraTrafficBytes (limit * whiteInternetMaxQuotaBytes) -
          sub.usedQuota) := rfl
  rw [hextra]
  simp only [unspentExtra, availableQuota, totalQuota]
  omega

theorem revokePack_unspentExtra (bytes : ℕ) (sub : WhiteInternetSubscription) :
    sub.unspentExtra ≤ (sub.revokePack bytes).unspentExtra + bytes := by
  have hextra : (sub.revokePack bytes).unspentExtra = min (sub.extraTrafficBytes - bytes)
      (sub.baseTrafficBytes + (sub.extraTrafficBytes - bytes) - sub.usedQuota) := rfl
  rw [hextra]
  simp only [unspentExtra, availableQuota, totalQuota]
  omega

theorem revokeSlot_unspentExtra (sub : WhiteInternetSubscription) :
    sub.unspentExtra ≤ sub.revokeSlot.unspentExtra + whiteInternetExtraDeviceTrafficBytes := by
  rw [revokeSlot]
  exact revokePack_unspentExtra _ { sub with
    deviceLimit := max whiteInternetDefaultDeviceLimit (orOne sub.deviceLimit - 1) }

end WhiteInternetSubscription

/-- An operation other than metering, a late renewal and a reduction keeps what is not spent exactly
    when nothing is in its way. -/
theorem RowOp.unspentExtra_le_iff {o : RowOp} {sub sub' : WhiteInternetSubscription}
    (h : o.apply sub = some sub') (hpaid : sub.isTrial = false) (hkeep : ¬ o.Excepted sub) :
    sub.unspentExtra ≤ sub'.unspentExtra ↔ o.Clear sub := by
  cases o with
  | record => exact (hkeep trivial).elim
  | renew durationDays now =>
    simp only [apply] at h
    split_ifs at h with hrefused
    have hrenew := Lib.toOption_eq_some h
    have hready := renewable_of_renew (not_or.mp hrefused).2 hrenew
    rw [(renew_unspentExtra hrenew).2 hpaid (not_not.mp hkeep), le_min_iff]
    exact ⟨fun hle _ => hle.2, fun hclear => ⟨le_rfl, hclear hready⟩⟩
  | convertTrial durationDays newOrigin now =>
    simp [apply, hpaid] at h
  | addDeviceSlot now =>
    obtain ⟨-, rfl⟩ := addDeviceSlot_ok_iff.mp (Lib.toOption_eq_some h)
    refine iff_of_true ?_ trivial
    rw [(reactivateExhausted_sameQuota _).unspentExtra]
    exact addSlot_unspentExtra sub
  | topupQuota packGb now =>
    obtain ⟨-, rfl⟩ := topupQuota_ok_iff.mp (Lib.toOption_eq_some h)
    refine iff_of_true ?_ trivial
    rw [(clear90p_sameQuota _).unspentExtra, (reactivateExhausted_sameQuota _).unspentExtra]
    exact addExtra_unspentExtra _ sub
  | addExtraTraffic extraBytes =>
    obtain ⟨-, rfl⟩ := addExtraTraffic_ok_iff.mp (Lib.toOption_eq_some h)
    refine iff_of_true ?_ trivial
    rw [(afterAdjustment_sameQuota _).unspentExtra]
    exact addExtra_unspentExtra _ sub
  | setBaseTrafficQuota baseBytes =>
    obtain ⟨-, rfl⟩ := setBaseTrafficQuota_ok_iff.mp (Lib.toOption_eq_some h)
    refine iff_of_true ?_ trivial
    have hbase : sub.baseTrafficBytes ≤ baseBytes.toNat := by
      have : (sub.baseTrafficBytes : ℤ) ≤ baseBytes := not_lt.mp hkeep
      omega
    rw [(afterAdjustment_sameQuota (sub.withBase baseBytes.toNat)).unspentExtra]
    exact unspentExtra_mono hbase le_rfl le_rfl
  | setDeviceLimit limit =>
    obtain ⟨hallowed, rfl⟩ := setDeviceLimit_ok_iff.mp (Lib.toOption_eq_some h)
    rw [withDeviceLimit_unspentExtra]
    exact ⟨fun hle _ => hle, fun hclear => hclear hallowed.range.2⟩
  | resetTrafficUsed =>
    obtain ⟨-, rfl⟩ := resetTrafficUsed_ok_iff.mp (Lib.toOption_eq_some h)
    refine iff_of_true ?_ trivial
    rw [(reactivateExhausted_sameQuota _).unspentExtra]
    exact unspentExtra_mono le_rfl le_rfl (Nat.zero_le _)
  | extend n now =>
    obtain ⟨hn, hdisabled, ⟨hcycle, hzero⟩ | ⟨hcycle, hsame⟩⟩ :=
      extend_unspentExtra (Lib.toOption_eq_some h)
    · rw [hzero, Nat.le_zero]
      exact ⟨fun hz _ _ _ => hz, fun hclear => hclear hn hdisabled hcycle⟩
    · exact iff_of_true hsame.ge fun _ _ hnew => absurd hnew hcycle
  | expire reason =>
    cases h
    exact iff_of_true (expire_sameQuota reason sub).unspentExtra.ge trivial
  | disable reason =>
    simp only [apply] at h
    split_ifs at h
    cases h
    exact iff_of_true (disable_sameQuota reason sub).unspentExtra.ge trivial
  | resetTrial => simp [apply, hpaid] at h
  | migrateTo origin =>
    cases h
    exact iff_of_true le_rfl trivial
  | reconcile task answer now =>
    cases h
    exact iff_of_true (reconcile_sameQuota task answer now sub).unspentExtra.ge trivial
  | inlineSync sync now =>
    cases h
    exact iff_of_true (inlineSync_sameQuota sync now sub).unspentExtra.ge trivial

/-- A refused operation has nothing in its way. -/
theorem RowOp.clear_of_refused {o : RowOp} {sub : WhiteInternetSubscription}
    (h : o.apply sub = none) (hpaid : sub.isTrial = false) (hkeep : ¬ o.Excepted sub) :
    o.Clear sub := by
  cases o with
  | renew durationDays now =>
    intro hready
    obtain ⟨sub', hrenew⟩ := renew_of_renewable (some (max 1 (orOne sub.deviceLimit) *
      whiteInternetBaseTrafficBytes)) hready
    simp [apply, hpaid, hready.settled, hrenew, Except.toOption] at h
  | setDeviceLimit limit =>
    intro hlimit
    have hrange : 1 ≤ limit := by
      have hlow : (sub.effectiveDeviceLimit : ℤ) ≤ limit := not_lt.mp hkeep
      have hone : 1 ≤ sub.effectiveDeviceLimit := le_max_left ..
      omega
    have hok := setDeviceLimit_ok_iff.mpr ⟨⟨⟨hrange, hlimit⟩, hpaid⟩, rfl⟩
    rw [apply, hok] at h
    cases h
  | extend n now =>
    intro hn hdisabled
    obtain ⟨sub', hext⟩ := extend_isOk now hn hdisabled hpaid
    rw [apply, hext] at h
    cases h
  | record | convertTrial | addDeviceSlot | topupQuota | addExtraTraffic | setBaseTrafficQuota
  | resetTrafficUsed | expire | disable | resetTrial | migrateTo | reconcile | inlineSync => trivial

/-! ### Only trials are deleted -/

/-- A row that waits for its deletion is a trial. -/
def WhiteInternetSubscription.DeletesTrial (sub : WhiteInternetSubscription) : Prop :=
  sub.pendingHardDelete = true → sub.isTrial = true

/-- The operations that could end a trial refuse one that waits for its deletion. -/
theorem RowOp.apply_isTrial {o : RowOp} {sub sub' : WhiteInternetSubscription} (hop : o.Atomic)
    (h : o.apply sub = some sub') (hflag : sub.pendingHardDelete = true)
    (htrial : sub.isTrial = true) : ¬ o.Served ∧ sub'.isTrial = true := by
  cases o with
  | record =>
    cases h
    refine ⟨id, ?_⟩
    unfold recordAndDeductTraffic
    extract_lets deltaUplink deltaDownlink sub'
    split_ifs
    · exact htrial
    · exact htrial
    · exact htrial
  | renew durationDays now => simp [apply, htrial] at h
  | convertTrial durationDays newOrigin now => simp [apply, DeactivationPending, hflag] at h
  | addDeviceSlot now =>
    obtain ⟨hallowed, -⟩ := addDeviceSlot_ok_iff.mp (Lib.toOption_eq_some h)
    exact absurd hallowed.paid (by simp [htrial])
  | topupQuota packGb now =>
    obtain ⟨hallowed, -⟩ := topupQuota_ok_iff.mp (Lib.toOption_eq_some h)
    exact absurd hallowed.paid (by simp [htrial])
  | addExtraTraffic extraBytes =>
    obtain ⟨hallowed, -⟩ := addExtraTraffic_ok_iff.mp (Lib.toOption_eq_some h)
    exact absurd hallowed.paid (by simp [htrial])
  | setBaseTrafficQuota baseBytes =>
    obtain ⟨hallowed, -⟩ := setBaseTrafficQuota_ok_iff.mp (Lib.toOption_eq_some h)
    exact absurd hallowed.paid (by simp [htrial])
  | setDeviceLimit limit =>
    obtain ⟨hallowed, -⟩ := setDeviceLimit_ok_iff.mp (Lib.toOption_eq_some h)
    exact absurd hallowed.paid (by simp [htrial])
  | resetTrafficUsed =>
    obtain ⟨hallowed, -⟩ := resetTrafficUsed_ok_iff.mp (Lib.toOption_eq_some h)
    exact absurd hallowed.1 (by simp [htrial])
  | extend n now =>
    have hext := Lib.toOption_eq_some h
    unfold WhiteInternetSubscription.extend at hext
    split_ifs at hext
  | expire reason =>
    cases h
    refine ⟨id, ?_⟩
    rw [WhiteInternetSubscription.expire]
    split
    · exact htrial
    · exact htrial
  | disable reason =>
    simp only [apply] at h
    split_ifs at h
    cases h
    exact ⟨id, htrial⟩
  | resetTrial =>
    simp only [apply] at h
    split_ifs at h
    cases h
    exact ⟨id, htrial⟩
  | migrateTo | reconcile | inlineSync => exact hop.elim

theorem RowChange.apply_deletesTrial {c : RowChange} {sub sub' : WhiteInternetSubscription}
    (h : c.apply sub = some sub') (hsub : sub.DeletesTrial) : sub'.DeletesTrial := by
  intro hflag'
  by_cases hflag : sub.pendingHardDelete = true
  · have htrial := hsub hflag
    cases c with
    | op o =>
      obtain ⟨hatomic, h⟩ := apply_op_iff.mp h
      exact (RowOp.apply_isTrial hatomic h hflag htrial).2
    | moved o target =>
      simp only [apply] at h
      split_ifs at h with hserved
      obtain ⟨_, hfirst, -⟩ := Option.bind_eq_some_iff.mp h
      have hatomic : o.Atomic := by cases o <;> trivial
      exact absurd hserved (RowOp.apply_isTrial hatomic hfirst hflag htrial).1
    | migrateOrigin | allocate =>
      simp only [apply] at h
      split_ifs at h
      cases h
      exact htrial
    | detach | revokePack =>
      cases h
      exact htrial
    | revokeSlot =>
      cases h
      rw [(revokeSlot_sameMark sub).trial]
      exact htrial
  · exact (RowChange.apply_flag h (Bool.not_eq_true _ ▸ hflag) hflag').2.1.trial

namespace ExtraEvent

/-- What every step keeps of the row. -/
def Inv (row : Option WhiteInternetSubscription) : Prop := ∀ sub ∈ row, sub.DeletesTrial

theorem Inv.step {row : Option WhiteInternetSubscription} (h : Inv row) (e : ExtraEvent) :
    Inv (step row e) := by
  intro sub' hsub'
  obtain ⟨sub, hrow, hafter⟩ := Option.bind_eq_some_iff.mp hsub'
  have hsub := h sub hrow
  cases e with
  | change c =>
    rw [WhiteInternetSubscription.after] at hafter
    cases hc : c.apply sub with
    | none =>
      rw [hc] at hafter
      cases hafter
      exact hsub
    | some sub₂ =>
      rw [hc] at hafter
      cases hafter
      exact RowChange.apply_deletesTrial hc hsub
  | reconcile task answer now =>
    cases hafter
    rw [WhiteInternetSubscription.reconcile]
    split
    · exact hsub
    · exact hsub
  | inlineSync sync now =>
    cases hafter
    rw [InlineSync.finish]
    split
    · exact hsub
    · exact hsub
  | purge =>
    cases hafter
    intro hflag
    cases hflag
  | finalize =>
    rw [WhiteInternetSubscription.after] at hafter
    split_ifs at hafter
    cases hafter
    exact hsub

theorem inv_fresh (id : ℕ) (userId : UserId) (origin : ServerId) (uuid : Uuid) (isTrial : Bool)
    (now : Time) : Inv (fresh id userId origin uuid isTrial now) := by
  intro sub hsub hflag
  cases hsub
  rw [fresh] at hflag
  split_ifs at hflag
  · cases hflag
  · cases hflag

end ExtraEvent

/-! ### The property -/

/-- A move before the operation is in no way of it. -/
theorem RowOp.clear_migrateTo {o : RowOp} {sub sub' : WhiteInternetSubscription}
    (hserved : o.Served) (h : o.apply sub = some sub') (target : ServerId) :
    o.Clear (sub.migrateTo target) ↔ o.Clear sub := by
  cases o with
  | renew durationDays now =>
    simp only [apply] at h
    split_ifs at h with hrefused
    obtain ⟨hsettled, hready, hhorizon⟩ :=
      renewable_of_renew (not_or.mp hrefused).2 (Lib.toOption_eq_some h)
    have hmoved : (sub.migrateTo target).Renewable durationDays now := by
      refine ⟨fun hpending => ?_, hready, hhorizon⟩
      rcases hpending with hflag | hdelete
      · exact hsettled (.inl hflag)
      · cases hdelete
    exact ⟨fun hclear _ => hclear hmoved, fun hclear _ => hclear ⟨hsettled, hready, hhorizon⟩⟩
  | convertTrial | addDeviceSlot | topupQuota => exact Iff.rfl
  | record | addExtraTraffic | setBaseTrafficQuota | setDeviceLimit | resetTrafficUsed | extend
  | expire | disable | resetTrial | migrateTo | reconcile | inlineSync => exact hserved.elim

namespace RowChange
variable {sub : WhiteInternetSubscription}

/-- The row the change leaves. -/
def result (c : RowChange) (sub : WhiteInternetSubscription) : WhiteInternetSubscription :=
  (c.apply sub).getD sub

theorem op_unspentExtra {o : RowOp} (hpaid : sub.isTrial = false) (hkeep : ¬ o.Excepted sub) :
    sub.unspentExtra ≤ ((RowChange.op o).result sub).unspentExtra ↔ o.Clear sub := by
  rw [result]
  cases h : (RowChange.op o).apply sub with
  | some sub' => exact RowOp.unspentExtra_le_iff (apply_op_iff.mp h).2 hpaid hkeep
  | none =>
    refine iff_of_true le_rfl ?_
    rw [apply] at h
    split_ifs at h with hatomic
    · exact RowOp.clear_of_refused h hpaid hkeep
    · cases o with
      | migrateTo | reconcile | inlineSync => trivial
      | _ => exact (hatomic trivial).elim

theorem moved_unspentExtra {o : RowOp} (hserved : o.Served) (target : ServerId)
    (hpaid : sub.isTrial = false) (hkeep : ¬ o.Excepted sub) :
    sub.unspentExtra ≤ ((RowChange.moved o target).result sub).unspentExtra ↔ o.Clear sub := by
  have hkeep' : ¬ o.Excepted (sub.migrateTo target) := by
    cases o <;> exact hkeep
  rw [result, apply, if_pos hserved]
  cases hfirst : o.apply sub with
  | none => exact iff_of_true le_rfl (RowOp.clear_of_refused hfirst hpaid hkeep)
  | some checked =>
    rw [← RowOp.clear_migrateTo hserved hfirst target, Option.bind_some]
    cases hmoved : o.apply (sub.migrateTo target) with
    | none => exact iff_of_true le_rfl (RowOp.clear_of_refused hmoved hpaid hkeep')
    | some sub' => exact RowOp.unspentExtra_le_iff hmoved hpaid hkeep'

/-- A change that is no operation of the repository takes at most what a refunded order bought. -/
theorem other_unspentExtra (c : RowChange) (hother : (ExtraEvent.change c).rowOp = none) :
    sub.unspentExtra ≤ (c.result sub).unspentExtra + (ExtraEvent.change c).refunded := by
  cases c with
  | op o => cases hother
  | moved o target =>
    rw [ExtraEvent.rowOp] at hother
    split_ifs at hother with hserved
    rw [result, apply, if_neg hserved]
    exact le_rfl
  | migrateOrigin target =>
    rw [result, apply]
    split_ifs
    · exact le_rfl
    · exact le_rfl
  | allocate target =>
    rw [result, apply]
    split_ifs
    · exact le_rfl
    · exact le_rfl
  | detach => exact le_rfl
  | revokePack bytes => exact revokePack_unspentExtra bytes sub
  | revokeSlot => exact revokeSlot_unspentExtra sub

end RowChange

namespace ExtraEvent
variable {row : Option WhiteInternetSubscription} {sub : WhiteInternetSubscription}

/-- An event that is no operation of the repository leaves the row of a paid subscription. -/
theorem other_kept {e : ExtraEvent} (hsub : sub.DeletesTrial) (hpaid : sub.isTrial = false)
    (hother : e.rowOp = none) :
    ∃ sub' ∈ sub.after e, sub.unspentExtra ≤ sub'.unspentExtra + e.refunded := by
  cases e with
  | change c => exact ⟨c.result sub, rfl, c.other_unspentExtra hother⟩
  | reconcile task answer now =>
    exact ⟨_, rfl, (reconcile_sameQuota task answer now sub).unspentExtra.ge⟩
  | inlineSync sync now => exact ⟨_, rfl, (inlineSync_sameQuota sync now sub).unspentExtra.ge⟩
  | purge => exact ⟨sub.purge, rfl, le_rfl⟩
  | finalize =>
    refine ⟨sub, if_neg fun hdelete => ?_, le_rfl⟩
    exact absurd (hsub hdelete.1) (by simp [hpaid])

/-- An extension that nothing is in the way of leaves no less than a renewal would. -/
theorem extend_ge_renew {n : ℤ} {now : Time} (hclear : (RowOp.extend n now).Clear sub)
    {extended renewed : WhiteInternetSubscription} (hext : sub.extend n now = .ok extended)
    {durationDays maxExpiryDays : ℤ} {baseBytes : Option ℕ}
    (hrenew : sub.renew durationDays baseBytes maxExpiryDays now = .ok renewed) :
    renewed.unspentExtra ≤ extended.unspentExtra := by
  have hle := (renew_unspentExtra hrenew).1
  obtain ⟨hn, hdisabled, ⟨hcycle, -⟩ | ⟨-, hsame⟩⟩ := extend_unspentExtra hext
  · rw [hclear hn hdisabled hcycle] at hle
    exact hle.trans (Nat.zero_le _)
  · rwa [hsame]

/-- A step keeps the unspent traffic exactly when none is in its way. -/
theorem keepsExtra_iff (hinv : Inv row) (e : ExtraEvent) : KeepsExtra row e ↔ Clear row e := by
  refine forall₂_congr fun sub hrow => forall_congr' fun hpaid => ?_
  have hstep : step row e = sub.after e := by
    rw [step, hrow]
    rfl
  rw [hstep]
  cases hop : e.rowOp with
  | none =>
    obtain ⟨sub', hsub', hle⟩ := other_kept (hinv sub hrow) hpaid hop
    refine iff_of_true (fun _ => ⟨sub', hsub', hle, ?_⟩) fun o ho => by cases ho
    rintro n now rfl
    cases hop
  | some o =>
    simp only [Option.mem_some_iff, forall_eq']
    refine imp_congr_right fun hkeep => ?_
    cases e with
    | reconcile | inlineSync | purge | finalize => cases hop
    | change c =>
      cases c with
      | op o =>
        cases hop
        have hiff := RowChange.op_unspentExtra hpaid hkeep
        constructor
        · rintro ⟨sub', hsub', hle, -⟩
          cases hsub'
          exact hiff.mp hle
        · intro hclear
          refine ⟨_, rfl, hiff.mpr hclear, ?_⟩
          rintro n now heq - extended hext durationDays baseBytes maxExpiryDays renewed hrenew
          cases heq
          exact extend_ge_renew hclear hext hrenew
      | moved o target =>
        rw [rowOp] at hop
        split_ifs at hop with hserved
        cases hop
        have hiff := RowChange.moved_unspentExtra hserved target hpaid hkeep
        constructor
        · rintro ⟨sub', hsub', hle, -⟩
          cases hsub'
          exact hiff.mp hle
        · intro hclear
          refine ⟨_, rfl, hiff.mpr hclear, fun n now heq => ?_⟩
          cases heq
      | migrateOrigin | allocate | detach | revokePack | revokeSlot => cases hop

/-- From a fresh subscription on, the unspent traffic is kept at every step of a run exactly when no
    step has any in its way. -/
theorem extra_kept_iff (id : ℕ) (userId : UserId) (origin : ServerId) (uuid : Uuid)
    (isTrial : Bool) (now : Time) (es : List ExtraEvent) :
    Lib.Always step KeepsExtra (fresh id userId origin uuid isTrial now) es ↔
      Lib.Always step Clear (fresh id userId origin uuid isTrial now) es :=
  Lib.always_congr_of_inv step (fun _ e h => h.step e) (fun _ e h => keepsExtra_iff h e) es _
    (inv_fresh id userId origin uuid isTrial now)

/-- A purchase, confirmed by the node; a pack of 10 GiB, none of which is spent; and a day after the
    end an extension, where a renewal would have carried the pack over. -/
theorem extension_destroys_extra : ¬ Lib.Always step KeepsExtra (fresh 1 1 1 1 false 0)
    [.reconcile { desiredActive := true, targetVersion := 1, targetEpoch := 1 }
      { sync := { result := .applied } } 0,
    .change (.op (.topupQuota 10 0)), .change (.op (.extend 30 (days 31)))] := by
  rintro ⟨-, -, h, -⟩
  obtain ⟨sub', hsub', hle, -⟩ := h _ rfl (by decide +kernel) (by rintro _ ⟨⟩; exact id)
  revert hle
  cases hsub'
  decide +kernel

end ExtraEvent

end Just1kBot
