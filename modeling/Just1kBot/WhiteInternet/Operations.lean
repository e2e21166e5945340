import Just1kBot.Orders.Fulfillment
import Just1kBot.WhiteInternet.Quota
import Just1kBot.WhiteInternet.Reconciliation

/-! Every operation on the White Internet subscriptions, as events of one machine.

    A row operation locks the row and works on it as it is by then; one that is refused, or finds no
    row, leaves the tables as they are. The refund of an order picks the row of its user. What every
    step preserves of all rows is then a matter of the rows it writes. -/

namespace Just1kBot

/-- The operations on a row that is there. `record` is the metering, `inlineSync` the final write of
    a sync whose object was loaded at any time before, and `reconcile` that of a task built at any
    time before. -/
inductive RowOp
  | record (nodeEpoch : Epoch) (uplinkAfter downlinkAfter : ℕ)
      (uplinkBefore downlinkBefore : Option ℕ)
  | renew (durationDays : ℤ) (now : Time)
  | convertTrial (durationDays : ℤ) (newOrigin : Option ServerId) (now : Time)
  | addDeviceSlot (now : Time)
  | topupQuota (packGb : ℕ) (now : Time)
  | addExtraTraffic (extraBytes : ℤ)
  | setBaseTrafficQuota (baseBytes : ℤ)
  | setDeviceLimit (limit : ℤ)
  | resetTrafficUsed
  | extend (n : ℤ) (now : Time)
  | expire (reason : String)
  | disable (reason : String)
  | resetTrial
  | migrateTo (origin : ServerId)
  | reconcile (task : ReconcileTask) (answer : ReconcileAnswer) (now : Time)
  | inlineSync (sync : InlineSync) (now : Time)

/-- The node is still to delete the client, so the service refuses to go on with the row. -/
def WhiteInternetSubscription.DeactivationPending (sub : WhiteInternetSubscription) : Prop :=
  sub.pendingHardDelete = true ∨ sub.provisioningStatus = .pendingDelete

instance : DecidablePred WhiteInternetSubscription.DeactivationPending := fun s => by
  unfold WhiteInternetSubscription.DeactivationPending; infer_instance

namespace RowOp

/-- The row an operation commits, if it goes through. A renewal gets the base pool of its tier from
    the service, which sends trials to the conversion. -/
def apply (sub : WhiteInternetSubscription) : RowOp → Option WhiteInternetSubscription
  | .record nodeEpoch uplinkAfter downlinkAfter uplinkBefore downlinkBefore =>
    some (sub.recordAndDeductTraffic nodeEpoch uplinkAfter downlinkAfter uplinkBefore
      downlinkBefore).2
  | .renew durationDays now =>
    if sub.isTrial ∨ sub.DeactivationPending then none
    else (sub.renew durationDays (some (max 1 (orOne sub.deviceLimit) *
      whiteInternetBaseTrafficBytes)) whiteInternetMaxExpiryDays now).toOption
  | .convertTrial durationDays newOrigin now =>
    if ¬ sub.isTrial ∨ sub.status = .disabled ∨ sub.DeactivationPending then none
    else some (sub.convertTrial durationDays newOrigin now)
  | .addDeviceSlot now => (sub.addDeviceSlot now).toOption
  | .topupQuota packGb now => (sub.topupQuota packGb now).toOption
  | .addExtraTraffic extraBytes => (sub.addExtraTraffic extraBytes).toOption
  | .setBaseTrafficQuota baseBytes => (sub.setBaseTrafficQuota baseBytes).toOption
  | .setDeviceLimit limit => (sub.setDeviceLimit limit).toOption
  | .resetTrafficUsed => sub.resetTrafficUsed.toOption
  | .extend n now => (sub.extend n now).toOption
  | .expire reason => some (sub.expire reason)
  | .disable reason => if sub.status = .disabled then none else some (sub.disable reason)
  | .resetTrial => if sub.isTrial then some sub.resetTrial else none
  | .migrateTo origin => some (sub.migrateTo origin)
  | .reconcile task answer now => some (sub.reconcile task answer now)
  | .inlineSync sync now => some (sync.finish now sub)

end RowOp

/-- What can happen to the subscriptions. `create` is a purchase or the start of a trial. -/
inductive SubscriptionEvent
  | create (id : ℕ) (userId : UserId) (origin : ServerId) (uuid : Uuid) (isTrial : Bool)
      (now : Time)
  | row (id : ℕ) (op : RowOp)
  | revoke (order : Order) (user : User)
  | delete (id : ℕ)

/-- A purchased or trial row. -/
def WhiteInternetSubscription.fresh (id : ℕ) (userId : UserId) (origin : ServerId) (uuid : Uuid)
    (isTrial : Bool) (now : Time) : WhiteInternetSubscription :=
  if isTrial then .create id userId origin uuid whiteInternetTrialTrafficBytes
    whiteInternetTrialDurationDays true now
  else .create id userId origin uuid whiteInternetBaseTrafficBytes whiteInternetBaseDurationDays
    false now

namespace WhiteInternetTables

/-- A row operation in its own transaction. -/
def rowOp (t : WhiteInternetTables) (id : ℕ) (op : RowOp) : WhiteInternetTables :=
  match (t.subscription id).bind (RowOp.apply · op) with
  | some sub' => t.putSubscription sub'
  | none => t

def step (t : WhiteInternetTables) : SubscriptionEvent → WhiteInternetTables
  | .create id userId origin uuid isTrial now =>
    if id ∈ t.subscriptions.map WhiteInternetSubscription.id then t
    else { t with subscriptions := t.subscriptions ++
      [.fresh id userId origin uuid isTrial now] }
  | .row id op => t.rowOp id op
  | .revoke order user => revokeWhiteInternet t order user
  | .delete id => { t with subscriptions := t.subscriptions.filter (·.id ≠ id) }

end WhiteInternetTables

/-! ### Rows an operation writes -/

namespace WhiteInternetTables

theorem mem_of_subscription {t : WhiteInternetTables} {id : ℕ} {sub : WhiteInternetSubscription}
    (h : t.subscription id = some sub) : sub ∈ t.subscriptions := by
  unfold subscription at h
  split_ifs at h
  exact Lib.Table.mem_of_lookup _ h

theorem mem_of_subscriptionByUserId {t : WhiteInternetTables} {u : UserId}
    {sub : WhiteInternetSubscription} (h : t.subscriptionByUserId u = some sub) :
    sub ∈ t.subscriptions ∧ sub.userId = u := by
  unfold subscriptionByUserId at h
  split_ifs at h
  have hfold : ∀ (subs : List WhiteInternetSubscription) (best : Option WhiteInternetSubscription),
      subs.foldl (fun best s => if best.any (fun b => s.id ≤ b.id) then best else some s) best =
        some sub → best = some sub ∨ sub ∈ subs := by
    intro subs
    induction subs with
    | nil => exact fun best h => .inl h
    | cons s subs ih =>
      intro best h
      rcases ih _ h with h | h
      · dsimp only at h
        split at h
        · exact .inl h
        · exact .inr (Option.some.inj h ▸ List.mem_cons_self ..)
      · exact .inr (List.mem_cons_of_mem _ h)
  rcases hfold _ _ h with h | h
  · cases h
  · simpa using h

/-- The latest row of a user is no earlier than any of the user's rows. -/
theorem le_subscriptionByUserId {t : WhiteInternetTables} {u : UserId}
    (hu : ¬ (u < 1 ∨ 2147483647 < u)) {row : WhiteInternetSubscription}
    (hrow : row ∈ t.subscriptions) (hrowu : row.userId = u) :
    ∃ sub ∈ t.subscriptionByUserId u, row.id ≤ sub.id := by
  rw [subscriptionByUserId]
  rw [if_neg hu]
  have hfold : ∀ (subs : List WhiteInternetSubscription) (best : Option WhiteInternetSubscription),
      (∃ b ∈ best, row.id ≤ b.id) ∨ (∃ s ∈ subs, row.id ≤ s.id) →
        ∃ sub ∈ subs.foldl (fun best s => if best.any (fun b => s.id ≤ b.id) then best
          else some s) best, row.id ≤ sub.id := by
    intro subs
    induction subs with
    | nil =>
      rintro best (h | ⟨s, hs, -⟩)
      · exact h
      · cases hs
    | cons s subs ih =>
      intro best h
      refine ih _ ?_
      rcases h with ⟨b, hb, hle⟩ | ⟨s', hs', hle⟩
      · refine .inl ?_
        cases hb
        simp only [Option.any_some, decide_eq_true_eq]
        split_ifs with hs
        · exact ⟨b, rfl, hle⟩
        · exact ⟨s, rfl, by omega⟩
      · rcases List.mem_cons.mp hs' with rfl | hs'
        · refine .inl ?_
          dsimp only
          split_ifs with hbest
          · obtain ⟨b, hb, hsb⟩ := (Option.any_eq_true ..).mp hbest
            exact ⟨b, hb, hle.trans (of_decide_eq_true hsb)⟩
          · exact ⟨s', rfl, hle⟩
        · exact .inr ⟨s', hs', hle⟩
  refine hfold _ _ (.inr ⟨row, ?_, le_rfl⟩)
  simpa using ⟨hrow, hrowu⟩

/-- After the row found for a user is written back it is the one found. -/
theorem subscriptionByUserId_put {t : WhiteInternetTables} {u : UserId}
    {sub sub' : WhiteInternetSubscription} (h : t.subscriptionByUserId u = some sub)
    (hid : sub'.id = sub.id) (huser : sub'.userId = sub.userId) :
    (t.putSubscription sub').subscriptionByUserId u = some sub' := by
  have hu : ¬ (u < 1 ∨ 2147483647 < u) := by
    intro hu
    rw [subscriptionByUserId, if_pos hu] at h
    cases h
  obtain ⟨hmem, hmemu⟩ := mem_of_subscriptionByUserId h
  have hmem' : sub' ∈ (t.putSubscription sub').subscriptions :=
    List.mem_map.mpr ⟨sub, hmem, if_pos hid.symm⟩
  obtain ⟨row, hrow, hle⟩ := le_subscriptionByUserId hu hmem' (huser.trans hmemu)
  rw [Option.mem_def] at hrow
  obtain ⟨hrowmem, hrowu⟩ := mem_of_subscriptionByUserId hrow
  -- a row that is not the new one was there before, and then it was no later than the old one
  obtain ⟨old, hold, rfl⟩ := List.mem_map.mp hrowmem
  split_ifs at hrow hrowu hle with hkey
  · exact hrow
  · obtain ⟨latest, hlatest, holdle⟩ := le_subscriptionByUserId hu hold hrowu
    rw [Option.mem_def, h] at hlatest
    cases hlatest
    exact absurd (by omega) hkey

end WhiteInternetTables

namespace WhiteInternetSubscription

/-- Two states of a row on the same origin, with the same base pool. -/
structure SameRow (sub sub' : WhiteInternetSubscription) : Prop where
  id : sub'.id = sub.id
  origin : sub'.originNodeId = sub.originNodeId
  base : sub'.baseTrafficBytes = sub.baseTrafficBytes

theorem SameRow.trans {a b c : WhiteInternetSubscription} (h : SameRow a b) (h' : SameRow b c) :
    SameRow a c :=
  ⟨h'.id.trans h.id, h'.origin.trans h.origin, h'.base.trans h.base⟩

theorem SameQuota.sameRow {a b : WhiteInternetSubscription} (h : SameQuota a b) : SameRow a b :=
  ⟨h.id, h.origin, h.base⟩

theorem record_sameRow (nodeEpoch : Epoch) (up down : ℕ) (upBefore downBefore : Option ℕ)
    (sub : WhiteInternetSubscription) :
    SameRow sub (sub.recordAndDeductTraffic nodeEpoch up down upBefore downBefore).2 := by
  unfold recordAndDeductTraffic
  extract_lets deltaUplink deltaDownlink sub'
  split_ifs
  · exact ⟨rfl, rfl, rfl⟩
  · exact ⟨rfl, rfl, rfl⟩
  · exact ⟨rfl, rfl, rfl⟩

theorem addExtra_sameRow (bytes : ℕ) (sub : WhiteInternetSubscription) :
    SameRow sub (sub.addExtra bytes) := ⟨rfl, rfl, rfl⟩

theorem addSlot_sameRow (sub : WhiteInternetSubscription) : SameRow sub sub.addSlot := by
  rw [addSlot]
  exact ⟨rfl, rfl, rfl⟩

theorem withDeviceLimit_sameRow (limit : ℕ) (sub : WhiteInternetSubscription) :
    SameRow sub (sub.withDeviceLimit limit) := ⟨rfl, rfl, rfl⟩

theorem extend_sameRow {n : ℤ} {now : Time} {sub sub' : WhiteInternetSubscription}
    (h : sub.extend n now = .ok sub') : SameRow sub sub' := by
  unfold extend at h
  extract_lets isNewCycle extended at h
  split_ifs at h
  · rw [← Except.ok.inj h]
    exact ⟨rfl, rfl, rfl⟩
  · rw [← Except.ok.inj h]
    exact ⟨rfl, rfl, rfl⟩

theorem expire_sameQuota (reason : String) (sub : WhiteInternetSubscription) :
    SameQuota sub (sub.expire reason) := by
  rw [expire]
  split
  · exact ⟨rfl, rfl, rfl, rfl, rfl, rfl, rfl, rfl⟩
  · exact .refl sub

theorem disable_sameQuota (reason : String) (sub : WhiteInternetSubscription) :
    SameQuota sub (sub.disable reason) := ⟨rfl, rfl, rfl, rfl, rfl, rfl, rfl, rfl⟩

theorem reconcile_sameQuota (task : ReconcileTask) (a : ReconcileAnswer) (now : Time)
    (sub : WhiteInternetSubscription) : SameQuota sub (sub.reconcile task a now) := by
  rw [reconcile]
  split
  · exact ⟨rfl, rfl, rfl, rfl, rfl, rfl, rfl, rfl⟩
  · exact ⟨rfl, rfl, rfl, rfl, rfl, rfl, rfl, rfl⟩

theorem inlineSync_sameQuota (sync : InlineSync) (now : Time) (sub : WhiteInternetSubscription) :
    SameQuota sub (sync.finish now sub) := by
  rw [InlineSync.finish]
  split
  · exact ⟨rfl, rfl, rfl, rfl, rfl, rfl, rfl, rfl⟩
  · exact .refl sub

/-- What a renewal that goes through leaves of the row. -/
structure Renewed (baseBytes : ℕ) (sub sub' : WhiteInternetSubscription) : Prop where
  id : sub'.id = sub.id
  deviceLimit : sub'.deviceLimit = sub.deviceLimit
  base : sub'.baseTrafficBytes = baseBytes
  extra : sub'.extraTrafficBytes ≤ sub.maxExtraAllowed
  unused : sub'.usedQuota = 0
  origin : sub'.originNodeId = sub.originNodeId
  status : sub'.status = .active
  provisioning : sub'.provisioningStatus = .pendingUpdate

theorem renew_ok {durationDays maxExpiryDays : ℤ} {baseBytes : ℕ} {now : Time}
    {sub sub' : WhiteInternetSubscription}
    (h : sub.renew durationDays (some baseBytes) maxExpiryDays now = .ok sub') :
    Renewed baseBytes sub sub' := by
  unfold renew at h
  split at h
  · cases h
  · extract_lets baseTime newExpiresAt effectiveDevices extraRollover newExtra at h
    have hextra : newExtra ≤ sub.maxExtraAllowed := by
      show (if _ then _ else if _ then _ else _) ≤ _
      split_ifs
      · exact Nat.zero_le _
      · exact min_le_right ..
      · exact Nat.zero_le _
    split at h
    · cases h
    · cases h
      exact ⟨rfl, rfl, rfl, hextra, rfl, rfl, rfl, rfl⟩

/-- The base pool of a tier, for a renewal or a conversion, is not empty. -/
theorem tierBase_pos (sub : WhiteInternetSubscription) :
    0 < max 1 (orOne sub.deviceLimit) * whiteInternetBaseTrafficBytes :=
  Nat.mul_pos (by omega) (by decide)

theorem convertTrial_base_pos {sub : WhiteInternetSubscription} (durationDays : ℤ)
    (newOrigin : Option ServerId) (now : Time) :
    0 < (sub.convertTrial durationDays newOrigin now).baseTrafficBytes := by
  simp only [convertTrial]
  exact tierBase_pos sub

end WhiteInternetSubscription

open WhiteInternetSubscription

/-- The operation leaves the row on its origin. -/
def RowOp.InPlace : RowOp → Prop
  | .convertTrial _ newOrigin _ => newOrigin = none
  | .migrateTo _ => False
  | _ => True

/-- What an operation that goes through keeps of its row. -/
structure RowOp.Kept (op : RowOp) (sub sub' : WhiteInternetSubscription) : Prop where
  id : sub'.id = sub.id
  origin : op.InPlace → sub'.originNodeId = sub.originNodeId
  base : 0 < sub.baseTrafficBytes → 0 < sub'.baseTrafficBytes

theorem WhiteInternetSubscription.SameRow.kept {op : RowOp} {sub sub' : WhiteInternetSubscription}
    (h : SameRow sub sub') : op.Kept sub sub' where
  id := h.id
  origin _ := h.origin
  base hbase := by rwa [h.base]

theorem RowOp.apply_kept {sub sub' : WhiteInternetSubscription} {op : RowOp}
    (h : op.apply sub = some sub') : op.Kept sub sub' := by
  cases op with
  | record =>
    cases h
    exact (record_sameRow ..).kept
  | renew durationDays now =>
    simp only [apply] at h
    split_ifs at h
    have hr := renew_ok (Lib.toOption_eq_some h)
    refine ⟨hr.id, fun _ => hr.origin, fun _ => ?_⟩
    rw [hr.base]
    exact tierBase_pos sub
  | convertTrial durationDays newOrigin now =>
    simp only [apply] at h
    split_ifs at h
    cases h
    refine ⟨convertTrial_id sub durationDays newOrigin now, fun hplace => ?_, fun _ => ?_⟩
    · cases hplace
      rfl
    · exact convertTrial_base_pos durationDays newOrigin now
  | addDeviceSlot now =>
    obtain ⟨-, rfl⟩ := addDeviceSlot_ok_iff.mp (Lib.toOption_eq_some h)
    exact ((addSlot_sameRow sub).trans (reactivateExhausted_sameQuota _).sameRow).kept
  | topupQuota packGb now =>
    obtain ⟨-, rfl⟩ := topupQuota_ok_iff.mp (Lib.toOption_eq_some h)
    refine ((addExtra_sameRow (packGb * gib) sub).trans (SameQuota.sameRow ?_)).kept
    exact (reactivateExhausted_sameQuota _).trans (clear90p_sameQuota _)
  | addExtraTraffic extraBytes =>
    obtain ⟨-, rfl⟩ := addExtraTraffic_ok_iff.mp (Lib.toOption_eq_some h)
    exact ((addExtra_sameRow _ sub).trans (afterAdjustment_sameQuota _).sameRow).kept
  | setBaseTrafficQuota baseBytes =>
    obtain ⟨hallowed, rfl⟩ := setBaseTrafficQuota_ok_iff.mp (Lib.toOption_eq_some h)
    have hsame := afterAdjustment_sameQuota (sub.withBase baseBytes.toNat)
    refine ⟨hsame.id, fun _ => hsame.origin, fun _ => ?_⟩
    rw [hsame.base]
    exact Int.lt_toNat.mpr hallowed.positive
  | setDeviceLimit limit =>
    obtain ⟨-, rfl⟩ := setDeviceLimit_ok_iff.mp (Lib.toOption_eq_some h)
    exact (withDeviceLimit_sameRow _ sub).kept
  | resetTrafficUsed =>
    obtain ⟨-, rfl⟩ := resetTrafficUsed_ok_iff.mp (Lib.toOption_eq_some h)
    have hclear : SameRow sub { sub.clearUsage with notified90p := false } := ⟨rfl, rfl, rfl⟩
    exact (hclear.trans (reactivateExhausted_sameQuota _).sameRow).kept
  | extend n now => exact (extend_sameRow (Lib.toOption_eq_some h)).kept
  | expire reason =>
    cases h
    exact (expire_sameQuota reason sub).sameRow.kept
  | disable reason =>
    simp only [apply] at h
    split_ifs at h
    cases h
    exact (disable_sameQuota reason sub).sameRow.kept
  | resetTrial =>
    simp only [apply] at h
    split_ifs at h
    cases h
    exact ⟨rfl, fun _ => rfl, id⟩
  | migrateTo origin =>
    cases h
    exact ⟨rfl, False.elim, id⟩
  | reconcile task answer now =>
    cases h
    exact (reconcile_sameQuota task answer now sub).sameRow.kept
  | inlineSync sync now =>
    cases h
    exact (inlineSync_sameQuota sync now sub).sameRow.kept

/-- No operation gives a row to another user. -/
theorem RowOp.apply_userId {sub sub' : WhiteInternetSubscription} {op : RowOp}
    (h : op.apply sub = some sub') : sub'.userId = sub.userId := by
  cases op with
  | record =>
    cases h
    unfold recordAndDeductTraffic
    extract_lets deltaUplink deltaDownlink sub'
    split_ifs
    · rfl
    · rfl
    · rfl
  | renew durationDays now =>
    simp only [apply] at h
    split_ifs at h
    have hrenew := Lib.toOption_eq_some h
    unfold WhiteInternetSubscription.renew at hrenew
    split at hrenew
    · cases hrenew
    · extract_lets baseTime newExpiresAt at hrenew
      split at hrenew
      · cases hrenew
      · cases hrenew
        rfl
  | convertTrial durationDays newOrigin now =>
    simp only [apply] at h
    split_ifs at h
    cases h
    cases newOrigin with
    | none => rfl
    | some origin => rfl
  | addDeviceSlot now =>
    obtain ⟨-, rfl⟩ := addDeviceSlot_ok_iff.mp (Lib.toOption_eq_some h)
    rw [(reactivateExhausted_sameQuota _).userId, addSlot, addExtra_userId]
  | topupQuota packGb now =>
    obtain ⟨-, rfl⟩ := topupQuota_ok_iff.mp (Lib.toOption_eq_some h)
    rw [(clear90p_sameQuota _).userId, (reactivateExhausted_sameQuota _).userId, addExtra_userId]
  | addExtraTraffic extraBytes =>
    obtain ⟨-, rfl⟩ := addExtraTraffic_ok_iff.mp (Lib.toOption_eq_some h)
    rw [(afterAdjustment_sameQuota _).userId, addExtra_userId]
  | setBaseTrafficQuota baseBytes =>
    obtain ⟨-, rfl⟩ := setBaseTrafficQuota_ok_iff.mp (Lib.toOption_eq_some h)
    rw [(afterAdjustment_sameQuota _).userId]
    rfl
  | setDeviceLimit limit =>
    obtain ⟨-, rfl⟩ := setDeviceLimit_ok_iff.mp (Lib.toOption_eq_some h)
    rfl
  | resetTrafficUsed =>
    obtain ⟨-, rfl⟩ := resetTrafficUsed_ok_iff.mp (Lib.toOption_eq_some h)
    rw [(reactivateExhausted_sameQuota _).userId]
    rfl
  | extend n now =>
    have hext := Lib.toOption_eq_some h
    unfold WhiteInternetSubscription.extend at hext
    extract_lets isNewCycle extended at hext
    split_ifs at hext
    · rw [← Except.ok.inj hext]
      rfl
    · rw [← Except.ok.inj hext]
      rfl
  | expire reason =>
    cases h
    exact (expire_sameQuota reason sub).userId
  | disable reason =>
    simp only [apply] at h
    split_ifs at h
    cases h
    rfl
  | resetTrial =>
    simp only [apply] at h
    split_ifs at h
    cases h
    rfl
  | migrateTo origin =>
    cases h
    rfl
  | reconcile task answer now =>
    cases h
    exact (reconcile_sameQuota task answer now sub).userId
  | inlineSync sync now =>
    cases h
    exact (inlineSync_sameQuota sync now sub).userId

/-! ### What holds of all rows -/

namespace WhiteInternetTables
variable {P : WhiteInternetSubscription → Prop} {t : WhiteInternetTables}

def Rows (P : WhiteInternetSubscription → Prop) (t : WhiteInternetTables) : Prop :=
  ∀ sub ∈ t.subscriptions, P sub

instance [DecidablePred P] : DecidablePred (Rows P) := fun t => by unfold Rows; infer_instance

/-- What the event writes over a row has `P`, the rows of a refunded period apart. -/
def Writes (P : WhiteInternetSubscription → Prop) (t : WhiteInternetTables) :
    SubscriptionEvent → Prop
  | .row target op => ∀ sub ∈ t.subscription target, ∀ sub' ∈ op.apply sub, P sub'
  | .revoke order user => ∀ sub ∈ t.subscriptionByUserId user.id,
      (order.IsTrafficPack → P (sub.revokePack order.trafficBytes)) ∧
      (¬ order.IsTrafficPack → order.IsDeviceSlot → P sub.revokeSlot)
  | _ => True

theorem Rows.put_iff {sub sub' : WhiteInternetSubscription} (h : t.Rows P)
    (hmem : sub ∈ t.subscriptions) (hid : sub'.id = sub.id) :
    (t.putSubscription sub').Rows P ↔ P sub' :=
  Lib.Table.forall_put_iff _ ⟨sub, hmem, hid.symm⟩ h

theorem Rows.rowOp_iff (h : t.Rows P) (target : ℕ) (op : RowOp) : (t.rowOp target op).Rows P ↔
    ∀ sub ∈ t.subscription target, ∀ sub' ∈ op.apply sub, P sub' := by
  rw [rowOp]
  cases hsub : t.subscription target with
  | none => simp only [Option.bind_none, h, Option.not_mem_none, false_imp_iff, implies_true]
  | some sub =>
    cases hop : op.apply sub with
    | none => simp [hop, h]
    | some sub' =>
      simp only [Option.bind_some, hop, Option.mem_some_iff, forall_eq']
      exact h.put_iff (mem_of_subscription hsub) (RowOp.apply_kept hop).id

theorem Rows.revoke_iff (hdisable : ∀ reason sub, P sub → P (sub.disable reason)) (h : t.Rows P)
    (order : Order) (user : User) : (revokeWhiteInternet t order user).Rows P ↔
      ∀ sub ∈ t.subscriptionByUserId user.id,
        (order.IsTrafficPack → P (sub.revokePack order.trafficBytes)) ∧
        (¬ order.IsTrafficPack → order.IsDeviceSlot → P sub.revokeSlot) := by
  rw [revokeWhiteInternet]
  split_ifs with hpack hslot
  · cases hsub : t.subscriptionByUserId user.id with
    | none => simp only [h, Option.not_mem_none, false_imp_iff, implies_true]
    | some sub =>
      simp only [Option.mem_some_iff, forall_eq', hpack, not_true_eq_false, false_imp_iff,
        and_true, forall_const]
      exact h.put_iff (mem_of_subscriptionByUserId hsub).1 (revokePack_id _ sub)
  · cases hsub : t.subscriptionByUserId user.id with
    | none => simp only [h, Option.not_mem_none, false_imp_iff, implies_true]
    | some sub =>
      simp only [Option.mem_some_iff, forall_eq', hpack, hslot, not_false_eq_true, false_imp_iff,
        true_and, forall_const]
      exact h.put_iff (mem_of_subscriptionByUserId hsub).1 (revokeSlot_id sub)
  · refine iff_of_true (fun sub hsub => ?_) fun _ _ =>
      ⟨fun hp => absurd hp hpack, fun _ hs => absurd hs hslot⟩
    obtain ⟨row, hrow, rfl⟩ := List.mem_map.mp hsub
    split_ifs
    · exact hdisable _ row (h row hrow)
    · exact h row hrow

/-- Where fresh and disabled rows have `P`, a step keeps it of all rows exactly when it writes rows
    that have it. -/
theorem Rows.step_iff
    (hfresh : ∀ id userId origin uuid isTrial now, P (fresh id userId origin uuid isTrial now))
    (hdisable : ∀ reason sub, P sub → P (sub.disable reason))
    (h : t.Rows P) (e : SubscriptionEvent) : (t.step e).Rows P ↔ t.Writes P e := by
  cases e with
  | create id userId origin uuid isTrial now =>
    refine iff_of_true ?_ trivial
    simp only [step]
    split_ifs
    · exact h
    · intro sub hsub
      rcases List.mem_append.mp hsub with hsub | hsub
      · exact h sub hsub
      · rw [List.mem_singleton.mp hsub]
        exact hfresh ..
  | delete id => exact iff_of_true (fun sub hsub => h sub (List.mem_of_mem_filter hsub)) trivial
  | row target op => exact h.rowOp_iff target op
  | revoke order user => exact h.revoke_iff hdisable order user

end WhiteInternetTables

end Just1kBot
