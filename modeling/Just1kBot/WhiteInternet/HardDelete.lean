import Just1kBot.WhiteInternet.Provisioning

/-! The two-phase hard delete: `reset_user_trial` flags the trial rows of a user, and
    `finalize_hard_delete_subscription` removes a flagged row once its node has it disabled.

    A flagged row is a disabled trial, and stays one: every operation that could make it active
    again refuses trials or disabled rows. What it can get is a newer version or another origin, and
    then it is not at its desired version until the node of that origin has applied the disable. -/

namespace Just1kBot

namespace WhiteInternetSubscription

/-- A row the finaliser may come to. -/
structure Flagged (sub : WhiteInternetSubscription) : Prop where
  flag : sub.pendingHardDelete = true
  trial : sub.isTrial = true
  disabled : sub.status = .disabled

/-- Nothing changes that makes a row a flagged one. -/
structure SameMark (a b : WhiteInternetSubscription) : Prop where
  flag : b.pendingHardDelete = a.pendingHardDelete
  trial : b.isTrial = a.isTrial
  status : b.status = a.status

theorem SameMark.refl (a : WhiteInternetSubscription) : SameMark a a := ⟨rfl, rfl, rfl⟩

variable {a b sub sub' : WhiteInternetSubscription}

theorem Flagged.of_same (h : a.Flagged) (hsame : SameMark a b) : b.Flagged :=
  ⟨hsame.flag.trans h.flag, hsame.trial.trans h.trial, hsame.status.trans h.disabled⟩

theorem Flagged.not_demandsActive (h : sub.Flagged) : ¬ sub.DemandsActive := by
  rw [DemandsActive, h.disabled]
  simp

/-- A flagged row is not expired any more. -/
theorem Flagged.expireDue (h : sub.Flagged) (now : Time) : sub.expireDue now = sub := by
  rw [WhiteInternetSubscription.expireDue]
  refine if_neg fun hdue => ?_
  rw [Expirable, h.disabled] at hdue
  simp at hdue

/-! ### The operations and the flag -/

@[simp] theorem reactivateExhausted_pendingHardDelete (sub : WhiteInternetSubscription) :
    sub.reactivateExhausted.pendingHardDelete = sub.pendingHardDelete := by
  rw [reactivateExhausted]
  split <;> rfl

@[simp] theorem clear90p_pendingHardDelete (sub : WhiteInternetSubscription) :
    sub.clear90p.pendingHardDelete = sub.pendingHardDelete := by
  rw [clear90p]
  split <;> rfl

@[simp] theorem afterAdjustment_pendingHardDelete (sub : WhiteInternetSubscription) :
    sub.afterAdjustment.pendingHardDelete = sub.pendingHardDelete := by
  rw [afterAdjustment, clear90p_pendingHardDelete]
  split <;> rfl

@[simp] theorem addSlot_pendingHardDelete (sub : WhiteInternetSubscription) :
    sub.addSlot.pendingHardDelete = sub.pendingHardDelete := by
  rw [addSlot]
  rfl

@[simp] theorem expire_pendingHardDelete (reason : String) (sub : WhiteInternetSubscription) :
    (sub.expire reason).pendingHardDelete = sub.pendingHardDelete := by
  rw [expire]
  split <;> rfl

@[simp] theorem expireDue_pendingHardDelete (now : Time) (sub : WhiteInternetSubscription) :
    (sub.expireDue now).pendingHardDelete = sub.pendingHardDelete := by
  rw [WhiteInternetSubscription.expireDue]
  split
  · exact expire_pendingHardDelete _ sub
  · rfl

@[simp] theorem record_pendingHardDelete (nodeEpoch : Epoch) (up down : ℕ)
    (upBefore downBefore : Option ℕ) (sub : WhiteInternetSubscription) :
    (sub.recordAndDeductTraffic nodeEpoch up down upBefore downBefore).2.pendingHardDelete =
      sub.pendingHardDelete := by
  unfold recordAndDeductTraffic
  extract_lets deltaUplink deltaDownlink next
  split_ifs <;> rfl

theorem renew_pendingHardDelete {durationDays maxExpiryDays : ℤ} {baseBytes : Option ℕ} {now : Time}
    (h : sub.renew durationDays baseBytes maxExpiryDays now = .ok sub') :
    sub'.pendingHardDelete = sub.pendingHardDelete := by
  unfold renew at h
  split at h
  · cases h
  · extract_lets baseTime newExpiresAt at h
    split at h
    · cases h
    · cases h
      rfl

theorem extend_pendingHardDelete {n : ℤ} {now : Time} (h : sub.extend n now = .ok sub') :
    sub'.pendingHardDelete = sub.pendingHardDelete := by
  unfold extend at h
  extract_lets isNewCycle extended at h
  split_ifs at h
  · rw [← Except.ok.inj h]
    rfl
  · rw [← Except.ok.inj h]
    rfl

theorem convertTrial_pendingHardDelete (durationDays : ℤ) (newOrigin : Option ServerId) (now : Time)
    (sub : WhiteInternetSubscription) :
    (sub.convertTrial durationDays newOrigin now).pendingHardDelete = sub.pendingHardDelete := by
  cases newOrigin with
  | none => rfl
  | some origin => rfl

theorem revokePack_sameMark (bytes : ℕ) (sub : WhiteInternetSubscription) :
    SameMark sub (sub.revokePack bytes) := ⟨rfl, rfl, rfl⟩

theorem revokeSlot_sameMark (sub : WhiteInternetSubscription) : SameMark sub sub.revokeSlot := by
  rw [revokeSlot]
  obtain ⟨hflag, htrial, hstatus⟩ := revokePack_sameMark whiteInternetExtraDeviceTrafficBytes
    { sub with
      deviceLimit := max whiteInternetDefaultDeviceLimit (orOne sub.deviceLimit - 1) }
  exact ⟨hflag, htrial, hstatus⟩

/-- The metering of a disabled row is all overage, and changes nothing else. -/
theorem record_disabled (nodeEpoch : Epoch) (up down : ℕ) (upBefore downBefore : Option ℕ)
    (h : sub.status = .disabled) :
    SameProvision sub (sub.recordAndDeductTraffic nodeEpoch up down upBefore downBefore).2 ∧
      SameMark sub (sub.recordAndDeductTraffic nodeEpoch up down upBefore downBefore).2 := by
  unfold recordAndDeductTraffic
  extract_lets deltaUplink deltaDownlink next
  have hstatus : next.status ≠ .active := by
    show sub.status ≠ .active
    rw [h]
    simp
  split_ifs with hnone hexhausted
  · exact ⟨.refl sub, .refl sub⟩
  · exact absurd hexhausted.2 hstatus
  · exact ⟨⟨rfl, rfl, rfl, rfl, rfl, rfl⟩, rfl, rfl, rfl⟩

end WhiteInternetSubscription

open WhiteInternetSubscription

/-- Only a trial reset flags a row. -/
theorem RowOp.apply_pendingHardDelete {o : RowOp} {sub sub' : WhiteInternetSubscription}
    (hop : o.Atomic) (h : o.apply sub = some sub') :
    o = .resetTrial ∨ sub'.pendingHardDelete = sub.pendingHardDelete := by
  cases o with
  | record =>
    cases h
    exact .inr (record_pendingHardDelete ..)
  | renew durationDays now =>
    simp only [apply] at h
    split_ifs at h
    exact .inr (renew_pendingHardDelete (Lib.toOption_eq_some h))
  | convertTrial durationDays newOrigin now =>
    simp only [apply] at h
    split_ifs at h
    cases h
    exact .inr (convertTrial_pendingHardDelete ..)
  | addDeviceSlot now =>
    obtain ⟨-, rfl⟩ := addDeviceSlot_ok_iff.mp (Lib.toOption_eq_some h)
    simp
  | topupQuota packGb now =>
    obtain ⟨-, rfl⟩ := topupQuota_ok_iff.mp (Lib.toOption_eq_some h)
    simp [addExtra]
  | addExtraTraffic extraBytes =>
    obtain ⟨-, rfl⟩ := addExtraTraffic_ok_iff.mp (Lib.toOption_eq_some h)
    simp [addExtra]
  | setBaseTrafficQuota baseBytes =>
    obtain ⟨-, rfl⟩ := setBaseTrafficQuota_ok_iff.mp (Lib.toOption_eq_some h)
    simp [withBase]
  | setDeviceLimit limit =>
    obtain ⟨-, rfl⟩ := setDeviceLimit_ok_iff.mp (Lib.toOption_eq_some h)
    exact .inr rfl
  | resetTrafficUsed =>
    obtain ⟨-, rfl⟩ := resetTrafficUsed_ok_iff.mp (Lib.toOption_eq_some h)
    simp [clearUsage]
  | extend n now => exact .inr (extend_pendingHardDelete (Lib.toOption_eq_some h))
  | expire reason =>
    cases h
    simp
  | disable reason =>
    simp only [apply] at h
    split_ifs at h
    cases h
    exact .inr rfl
  | resetTrial => exact .inl rfl
  | migrateTo | reconcile | inlineSync => exact hop.elim

/-- A disabled trial takes no operation but the metering, an expiry that does nothing, and another
    reset. -/
theorem RowOp.apply_flagged {o : RowOp} {sub sub' : WhiteInternetSubscription} (hop : o.Atomic)
    (h : o.apply sub = some sub') (hsub : sub.Flagged) :
    o = .resetTrial ∨ ¬ o.Served ∧ SameProvision sub sub' ∧ SameMark sub sub' := by
  obtain ⟨-, htrial, hdisabled⟩ := hsub
  cases o with
  | record =>
    cases h
    exact .inr ⟨id, record_disabled _ _ _ _ _ hdisabled⟩
  | renew durationDays now => simp [apply, htrial] at h
  | convertTrial durationDays newOrigin now => simp [apply, hdisabled] at h
  | addDeviceSlot now =>
    obtain ⟨hallowed, -⟩ := addDeviceSlot_ok_iff.mp (Lib.toOption_eq_some h)
    exact absurd hallowed.paid (by simp [htrial])
  | topupQuota packGb now =>
    obtain ⟨hallowed, -⟩ := topupQuota_ok_iff.mp (Lib.toOption_eq_some h)
    exact absurd hallowed.paid (by simp [htrial])
  | addExtraTraffic extraBytes =>
    obtain ⟨hallowed, -⟩ := addExtraTraffic_ok_iff.mp (Lib.toOption_eq_some h)
    exact absurd hallowed.paid (by simp [htrial])
  | setBaseTrafficQuota baseBytes =>
    obtain ⟨hallowed, -⟩ := setBaseTrafficQuota_ok_iff.mp (Lib.toOption_eq_some h)
    exact absurd hallowed.paid (by simp [htrial])
  | setDeviceLimit limit =>
    obtain ⟨hallowed, -⟩ := setDeviceLimit_ok_iff.mp (Lib.toOption_eq_some h)
    exact absurd hallowed.paid (by simp [htrial])
  | resetTrafficUsed =>
    obtain ⟨⟨hpaid, -⟩, -⟩ := resetTrafficUsed_ok_iff.mp (Lib.toOption_eq_some h)
    exact absurd hpaid (by simp [htrial])
  | extend n now =>
    obtain ⟨-, hlive, -⟩ := extend_ok (Lib.toOption_eq_some h)
    exact absurd hdisabled hlive
  | expire reason =>
    cases h
    have hsame : sub.expire reason = sub := by
      rw [WhiteInternetSubscription.expire]
      exact if_neg fun hlive => hlive.2 hdisabled
    rw [hsame]
    exact .inr ⟨id, .refl sub, .refl sub⟩
  | disable reason => simp [apply, hdisabled] at h
  | resetTrial => exact .inl rfl
  | migrateTo | reconcile | inlineSync => exact hop.elim

/-- What a change leaves of a flagged row: it stays flagged, and without a new version it keeps its
    origin or loses it, with the version the node confirmed. -/
structure WhiteInternetSubscription.FlaggedStep (a b : WhiteInternetSubscription) : Prop where
  flagged : b.Flagged
  origin : b.desiredVersion = a.desiredVersion → b.originNodeId = none ∨ SameProvision a b

theorem RowChange.apply_flagged {c : RowChange} {sub sub' : WhiteInternetSubscription}
    (h : c.apply sub = some sub') (hsub : sub.Flagged) : FlaggedStep sub sub' := by
  have hbump (hflagged : sub'.Flagged) (hdesired : sub'.desiredVersion = sub.desiredVersion + 1) :
      FlaggedStep sub sub' := ⟨hflagged, fun heq => absurd heq (by omega)⟩
  cases c with
  | op o =>
    obtain ⟨hatomic, h⟩ := apply_op_iff.mp h
    rcases RowOp.apply_flagged hatomic h hsub with rfl | ⟨-, hsame, hmark⟩
    · simp only [RowOp.apply, hsub.trial, if_true, Option.some.injEq] at h
      subst h
      exact hbump ⟨rfl, hsub.trial, rfl⟩ rfl
    · exact ⟨hsub.of_same hmark, fun _ => .inr hsame⟩
  | moved o target =>
    simp only [apply] at h
    split_ifs at h with hserved
    obtain ⟨_, hfirst, -⟩ := Option.bind_eq_some_iff.mp h
    have hatomic : o.Atomic := by cases o <;> trivial
    rcases RowOp.apply_flagged hatomic hfirst hsub with rfl | ⟨hunserved, -⟩
    · exact hserved.elim
    · exact absurd hserved hunserved
  | migrateOrigin target =>
    simp only [apply] at h
    split_ifs at h
    cases h
    exact hbump ⟨hsub.flag, hsub.trial, hsub.disabled⟩ rfl
  | allocate target =>
    simp only [apply] at h
    split_ifs at h
    cases h
    exact hbump ⟨hsub.flag, hsub.trial, hsub.disabled⟩ rfl
  | detach =>
    cases h
    exact ⟨⟨hsub.flag, hsub.trial, hsub.disabled⟩, fun _ => .inl rfl⟩
  | revokePack bytes =>
    cases h
    exact hbump ⟨hsub.flag, hsub.trial, hsub.disabled⟩ rfl
  | revokeSlot =>
    cases h
    exact hbump (hsub.of_same (revokeSlot_sameMark sub)) sub.revokeSlot_desiredVersion

/-- A change that flags a row is a trial reset. -/
theorem RowChange.apply_flag {c : RowChange} {sub sub' : WhiteInternetSubscription}
    (h : c.apply sub = some sub') (hsub : sub.pendingHardDelete = false)
    (hsub' : sub'.pendingHardDelete = true) :
    c.IsReset ∧ sub'.Flagged ∧ sub'.desiredVersion = sub.desiredVersion + 1 := by
  have hnot (hsame : sub'.pendingHardDelete = sub.pendingHardDelete) : False := by
    rw [hsub'] at hsame
    exact absurd (hsame.trans hsub) (by simp)
  cases c with
  | op o =>
    obtain ⟨hatomic, h⟩ := apply_op_iff.mp h
    rcases RowOp.apply_pendingHardDelete hatomic h with rfl | hsame
    · simp only [RowOp.apply] at h
      split_ifs at h with htrial
      cases h
      exact ⟨trivial, ⟨rfl, htrial, rfl⟩, rfl⟩
    · exact (hnot hsame).elim
  | moved o target =>
    simp only [apply] at h
    split_ifs at h with hserved
    obtain ⟨_, -, hmoved⟩ := Option.bind_eq_some_iff.mp h
    have hatomic : o.Atomic := by cases o <;> trivial
    rcases RowOp.apply_pendingHardDelete hatomic hmoved with rfl | hsame
    · exact hserved.elim
    · exact (hnot hsame).elim
  | migrateOrigin target =>
    simp only [apply] at h
    split_ifs at h
    cases h
    exact (hnot rfl).elim
  | allocate target =>
    simp only [apply] at h
    split_ifs at h
    cases h
    exact (hnot rfl).elim
  | detach =>
    cases h
    exact (hnot rfl).elim
  | revokePack bytes =>
    cases h
    exact (hnot rfl).elim
  | revokeSlot =>
    cases h
    exact (hnot (revokeSlot_sameMark sub).flag).elim

namespace ProvisioningState
variable {s : ProvisioningState} {sub sub' : WhiteInternetSubscription}

/-! ### The invariant -/

/-- What holds of a flagged row: no version from before the reset is its own; the tasks for its own
    version are its origin's; and once a version is confirmed, the origin has the client disabled at
    it. -/
structure Deleting (s : ProvisioningState) (sub : WhiteInternetSubscription) : Prop where
  flagged : sub.Flagged
  resetAt_le : s.resetAt ≤ s.applied.length
  before : ∀ e ∈ s.applied.take s.resetAt, e.version < sub.desiredVersion
  tasks : ∀ t ∈ s.tasks, t.2.targetVersion = sub.desiredVersion →
    ∀ server ∈ sub.originNodeId, t.1 = server
  running : ∀ run ∈ s.running, run.task.targetVersion = sub.desiredVersion →
    ∀ server ∈ sub.originNodeId, run.server = server
  confirmed : sub.actualVersion = sub.desiredVersion → ∀ server ∈ sub.originNodeId,
    (∃ epoch, ⟨server, epoch, sub.desiredVersion, false⟩ ∈ s.applied) ∧
      (s.nodes server).stored = some (sub.desiredVersion, false)

/-- The invariant of every run. -/
def FlagInv (s : ProvisioningState) : Prop :=
  ∀ sub ∈ s.row, s.Bounded sub ∧ (sub.pendingHardDelete = true → s.Deleting sub)

theorem FlagInv.inv (h : s.FlagInv) : s.Inv := fun sub hsub => (h sub hsub).1

/-- With a new version nothing that is about is the row's own. -/
theorem Bounded.deleting {s' : ProvisioningState} (h : s.Bounded sub) (hflagged : sub'.Flagged)
    (hlt : sub.desiredVersion < sub'.desiredVersion)
    (hactual : sub'.actualVersion ≤ sub.actualVersion) (htasks : s'.tasks = s.tasks)
    (hrunning : ∀ run ∈ s'.running, run ∈ s.running) (happlied : s'.applied = s.applied)
    (hreset : s'.resetAt ≤ s.applied.length) : s'.Deleting sub' where
  flagged := hflagged
  resetAt_le := happlied ▸ hreset
  before e he := (h.applied e (happlied ▸ List.mem_of_mem_take he)).le.trans_lt hlt
  tasks t ht heq := by
    have hle := (h.tasks t (htasks ▸ ht)).le
    omega
  running run hrun heq := by
    have hle := (h.running run (hrunning run hrun)).fits.le
    omega
  confirmed heq := by
    have hle := h.actual_le
    omega

/-- A flagged row that keeps its version and its origin, or loses the origin. -/
theorem Deleting.same {s' : ProvisioningState} (h : s.Deleting sub) (hflagged : sub'.Flagged)
    (hdesired : sub'.desiredVersion = sub.desiredVersion)
    (horigin : sub'.originNodeId = none ∨ sub'.originNodeId = sub.originNodeId ∧
      sub'.actualVersion = sub.actualVersion)
    (htasks : ∀ t ∈ s'.tasks, t ∈ s.tasks ∨ ∀ server ∈ sub'.originNodeId, t.1 = server)
    (hrunning : ∀ run ∈ s'.running, run ∈ s.running) (happlied : s'.applied = s.applied)
    (hstored : ∀ server, (s'.nodes server).stored = (s.nodes server).stored)
    (hreset : s'.resetAt = s.resetAt) : s'.Deleting sub' := by
  have hold (server : ServerId) (hserver : server ∈ sub'.originNodeId) :
      server ∈ sub.originNodeId ∧ sub'.actualVersion = sub.actualVersion := by
    rcases horigin with hnone | ⟨hsame, hactual⟩
    · rw [hnone] at hserver
      cases hserver
    · exact ⟨hsame ▸ hserver, hactual⟩
  refine ⟨hflagged, ?_, ?_, fun t ht heq server hserver => ?_,
    fun run hrun heq server hserver => ?_, fun heq server hserver => ?_⟩
  · rw [hreset, happlied]
    exact h.resetAt_le
  · rw [hreset, happlied, hdesired]
    exact h.before
  · rcases htasks t ht with ht | hplace
    · exact h.tasks t ht (heq.trans hdesired) server (hold server hserver).1
    · exact hplace server hserver
  · exact h.running run (hrunning run hrun) (heq.trans hdesired) server (hold server hserver).1
  · obtain ⟨hserver, hactual⟩ := hold server hserver
    rw [happlied, hstored, hdesired]
    exact h.confirmed (by rw [← hactual, heq, hdesired]) server hserver

/-- A request that reaches its node: a version confirmed there stays the one it stores. -/
theorem Deleting.deliver (h : s.Deleting sub) {r : SyncRequest} (hr : sub.Fits r.version r.active) :
    (s.deliver r).Deleting sub := by
  rcases s.deliver_cases r with heq | ⟨epoch, -, haccepts, heq⟩
  · rw [heq]
    exact h
  · rw [heq]
    have hreset := h.resetAt_le
    refine ⟨h.flagged, ?_, ?_, h.tasks, h.running, fun hactual server hserver => ?_⟩
    · rw [List.length_append]
      exact hreset.trans (Nat.le_add_right _ _)
    · rw [List.take_append_of_le_length hreset]
      exact h.before
    · obtain ⟨⟨e, he⟩, hstored⟩ := h.confirmed hactual server hserver
      refine ⟨⟨e, List.mem_append_left _ he⟩, ?_⟩
      by_cases hplace : server = r.server
      · subst hplace
        have hversion : r.version = sub.desiredVersion :=
          le_antisymm hr.le (haccepts _ hstored)
        have hactive : r.active = false := by
          rw [← Bool.not_eq_true, hr.demand hversion]
          exact h.flagged.not_demandsActive
        simp only [Function.update_self, hversion, hactive]
      · simp only [Function.update_of_ne hplace]
        exact hstored

theorem Deleting.dispatched (h : s.Deleting sub) (i : ℕ) (r : SyncRequest) :
    (s.dispatched i r).Deleting sub :=
  h.same h.flagged rfl (.inr ⟨rfl, rfl⟩) (fun _ ht => .inl (List.mem_of_mem_eraseIdx ht))
    (fun _ hrun => hrun) rfl (fun _ => rfl) rfl

theorem Deleting.withRun (h : s.Deleting sub) {run : ReconcileRun}
    (hrun : run.task.targetVersion = sub.desiredVersion →
      ∀ server ∈ sub.originNodeId, run.server = server) :
    { s with running := some run }.Deleting sub where
  flagged := h.flagged
  resetAt_le := h.resetAt_le
  before := h.before
  tasks := h.tasks
  running run' hrun' := by
    cases hrun'
    exact hrun
  confirmed := h.confirmed

theorem Deleting.call (h : s.Deleting sub) (hb : s.Bounded sub) (i : ℕ) (outcome : CallOutcome) :
    (s.call i outcome).Deleting sub := by
  rcases s.call_cases i outcome with heq | ⟨server, task, htask, ⟨tags, heq⟩ | ⟨result, hr, heq⟩⟩
  · rw [heq]
    exact h
  · have hmem := List.mem_of_getElem? htask
    rw [heq]
    exact ((h.dispatched i _).deliver (r := task.request server) (hb.tasks _ hmem)).withRun
      (h.tasks _ hmem)
  · have hmem := List.mem_of_getElem? htask
    rw [heq]
    exact (h.dispatched i _).withRun (h.tasks _ hmem)

theorem reconcile_flagged (h : sub.Flagged) (task : ReconcileTask) (a : ReconcileAnswer)
    (now : Time) : (sub.reconcile task a now).Flagged := by
  have hpending : ¬ (sub.status = .pending ∧ task.desiredActive = true) := by
    rw [h.disabled]
    simp
  rw [reconcile]
  split_ifs
  · refine ⟨h.flag, h.trial, ?_⟩
    simp only [WhiteInternetSubscription.synced, if_neg hpending]
    exact h.disabled
  · exact ⟨h.flag, h.trial, h.disabled⟩

/-- The write of a run. Only an answer for the row's own version can bring it to this version, and
    then the node that gave it is the row's origin and has the client disabled. -/
theorem Deleting.finish (h : s.Deleting sub) (hb : s.Bounded sub) {run : ReconcileRun}
    (hrun : run ∈ s.running) {a : ReconcileAnswer} (ha : a.sync = run.sync) (now : Time) :
    { s with running := none }.Deleting (sub.reconcile run.task a now) := by
  have hflagged := reconcile_flagged h.flagged run.task a now
  have hnone : ∀ r ∈ (none : Option ReconcileRun), r ∈ s.running :=
    fun _ hr => absurd hr (Option.not_mem_none _)
  by_cases hc : a.Confirms run.task sub
  · rw [reconcile_of_confirmed hc] at hflagged ⊢
    have hg := hb.running run hrun
    refine ⟨hflagged, h.resetAt_le, h.before, h.tasks,
      fun r hr => absurd hr (Option.not_mem_none _), fun heq server hserver => ?_⟩
    cases hresult : run.sync.result with
    | applied =>
      have hversion : sub.desiredVersion = run.task.targetVersion := by
        simp only [ReconcileAnswer.Confirms, ha, hresult] at hc
        exact hc.1
      obtain ⟨epoch, -, hmem, ⟨version, active⟩, hstored, hle⟩ := hg.applied hresult
      have hinactive : run.task.desiredActive = false := by
        rw [← Bool.not_eq_true, hg.fits.demand hversion.symm]
        exact h.flagged.not_demandsActive
      have hfits := hb.stored run.server _ hstored
      have hsame : version = sub.desiredVersion := le_antisymm hfits.le (hversion ▸ hle)
      have hdisabled : active = false := by
        rw [← Bool.not_eq_true, hfits.demand hsame]
        exact h.flagged.not_demandsActive
      rw [← h.running run hrun hversion.symm server hserver]
      refine ⟨⟨epoch, ?_⟩, ?_⟩
      · rw [hinactive, ← hversion] at hmem
        exact hmem
      · rw [hsame, hdisabled] at hstored
        exact hstored
    | alreadyNewer =>
      have hlt := hg.newer hresult
      have hactual : sub.actualVersion = sub.desiredVersion := by
        simp only [WhiteInternetSubscription.synced, ha, hresult, reduceCtorEq, if_false] at heq
        omega
      exact h.confirmed hactual server hserver
    | fenced => simp only [ReconcileAnswer.Confirms, ha, hresult] at hc
    | failed => simp only [ReconcileAnswer.Confirms, ha, hresult] at hc
  · rw [reconcile_of_unconfirmed hc] at hflagged ⊢
    by_cases hnew : a.sync.result = .alreadyNewer ∨ a.sync.result = .fenced
    · refine hb.deleting hflagged ?_ le_rfl rfl hnone rfl h.resetAt_le
      simp only [WhiteInternetSubscription.unsynced, if_pos hnew]
      omega
    · refine h.same hflagged ?_ (.inr ⟨rfl, rfl⟩) (fun _ ht => .inl ht) hnone rfl (fun _ => rfl) rfl
      simp only [WhiteInternetSubscription.unsynced, if_neg hnew]

theorem FlagInv.change (h : s.FlagInv) (c : RowChange) (hsub : sub ∈ (s.change c).row)
    (hflag : sub.pendingHardDelete = true) : (s.change c).Deleting sub := by
  rw [ProvisioningState.change] at hsub ⊢
  split at hsub
  · exact (h sub hsub).2 hflag
  · rename_i next hnext
    cases hsub
    obtain ⟨old, hrow, hc⟩ := Option.bind_eq_some_iff.mp hnext
    obtain ⟨hb, hdeleting⟩ := h old hrow
    have hev := RowChange.apply_evolves hc
    by_cases hold : old.pendingHardDelete = true
    · have hd := hdeleting hold
      have hstep := RowChange.apply_flagged hc hd.flagged
      rcases hev.desired_le.lt_or_eq with hlt | heq
      · refine hb.deleting hstep.flagged hlt hev.actual_le rfl (fun _ hrun => hrun) rfl ?_
        dsimp only
        split_ifs
        · exact le_rfl
        · exact hd.resetAt_le
      · -- a reset would have raised the version
        have hreset : ¬ c.IsReset := fun hreset => by
          unfold RowChange.IsReset at hreset
          split at hreset
          · obtain ⟨-, hr⟩ := RowChange.apply_op_iff.mp hc
            simp only [RowOp.apply] at hr
            split_ifs at hr
            cases hr
            exact absurd heq (Nat.ne_of_lt (Nat.lt_succ_self _))
          · exact hreset
        refine hd.same hstep.flagged heq.symm ?_ (fun _ ht => .inl ht) (fun _ hrun => hrun) rfl
          (fun _ => rfl) (if_neg hreset)
        rcases hstep.origin heq.symm with hnone | hkept
        · exact .inl hnone
        · exact .inr ⟨hkept.origin, hkept.actual⟩
    · obtain ⟨hreset, hflagged, hdesired⟩ :=
        RowChange.apply_flag hc (by simpa using hold) hflag
      refine hb.deleting hflagged (by omega) hev.actual_le rfl (fun _ hrun => hrun) rfl ?_
      simp only [if_pos hreset]
      exact le_rfl

theorem FlagInv.build (h : s.FlagInv) (targetEpoch : Epoch) (inboundTags : List String)
    (now : Time) (hsub : sub ∈ (s.build targetEpoch inboundTags now).row)
    (hflag : sub.pendingHardDelete = true) :
    (s.build targetEpoch inboundTags now).Deleting sub := by
  rw [ProvisioningState.build] at hsub ⊢
  split at hsub
  · exact (h sub hsub).2 hflag
  · rename_i old hrow
    split at hsub
    · exact (h sub hsub).2 hflag
    · rename_i server horigin
      split_ifs at hsub ⊢
      · cases hsub
        have hd := (h old hrow).2 ((expireDue_pendingHardDelete now old).symm.trans hflag)
        rw [hd.flagged.expireDue now]
        refine hd.same hd.flagged rfl (.inr ⟨rfl, rfl⟩) (fun t ht => ?_) (fun _ hrun => hrun) rfl
          (fun _ => rfl) rfl
        rcases List.mem_append.mp ht with ht | ht
        · exact .inl ht
        · rw [List.mem_singleton.mp ht]
          refine .inr fun k hk => ?_
          rw [horigin] at hk
          exact Option.some.inj hk
      · exact (h sub hsub).2 hflag

theorem FlagInv.step (s : ProvisioningState) (e : ProvisioningEvent) (h : s.FlagInv) :
    (s.step e).FlagInv := by
  have hinv : (s.step e).Inv := h.inv.step s e
  intro sub hsub
  refine ⟨hinv sub hsub, fun hflag => ?_⟩
  cases e with
  | change c => exact h.change c hsub hflag
  | build targetEpoch inboundTags now => exact h.build targetEpoch inboundTags now hsub hflag
  | call i outcome =>
    obtain ⟨hb, hd⟩ := h sub (s.call_row i outcome ▸ hsub)
    exact (hd hflag).call hb i outcome
  | deliver j =>
    rw [ProvisioningState.step] at hsub ⊢
    cases hj : s.sent[j]? with
    | none =>
      rw [hj] at hsub
      exact (h sub hsub).2 hflag
    | some r =>
      rw [hj] at hsub
      obtain ⟨hb, hd⟩ := h sub (s.deliver_row r ▸ hsub)
      exact (hd hflag).deliver (hb.sent r (List.mem_of_getElem? hj))
  | finish error inventory now =>
    rw [ProvisioningState.step, ProvisioningState.finish] at hsub ⊢
    split at hsub
    · exact (h sub hsub).2 hflag
    · rename_i run hrun
      obtain ⟨old, hrow, rfl⟩ := Option.map_eq_some_iff.mp hsub
      obtain ⟨hb, hd⟩ := h old hrow
      have hold : old.pendingHardDelete = true := by
        rw [reconcile] at hflag
        split_ifs at hflag
        · exact hflag
        · exact hflag
      have hd' := (hd hold).finish hb hrun (a := ⟨run.sync, error, inventory⟩) rfl now
      exact hd'.same hd'.flagged rfl (.inr ⟨rfl, rfl⟩) (fun _ ht => .inl ht) (fun _ hr => hr) rfl
        (fun _ => rfl) rfl
  | crash =>
    have hd := (h sub hsub).2 hflag
    exact hd.same hd.flagged rfl (.inr ⟨rfl, rfl⟩) (fun _ ht => absurd ht List.not_mem_nil)
      (fun _ hrun => absurd hrun (Option.not_mem_none _)) rfl (fun _ => rfl) rfl
  | restart server epoch =>
    rw [ProvisioningState.step] at hsub ⊢
    split_ifs at hsub ⊢
    · exact (h sub hsub).2 hflag
    · have hd := (h sub hsub).2 hflag
      refine hd.same hd.flagged rfl (.inr ⟨rfl, rfl⟩) (fun _ ht => .inl ht) (fun _ hrun => hrun) rfl
        (fun k => ?_) rfl
      by_cases hk : k = server
      · subst hk
        simp only [Function.update_self]
      · simp only [Function.update_of_ne hk]
  | finalize =>
    rw [ProvisioningState.step, ProvisioningState.finalize] at hsub ⊢
    split at hsub
    · exact (h sub hsub).2 hflag
    · split_ifs at hsub ⊢
      · cases hsub
      · exact (h sub hsub).2 hflag

theorem flagInv_created (id : ℕ) (userId : UserId) (origin : ServerId) (uuid : Uuid)
    (isTrial : Bool) (now : Time) : (created id userId origin uuid isTrial now).FlagInv := by
  intro sub hsub
  refine ⟨inv_created id userId origin uuid isTrial now sub hsub, fun hflag => ?_⟩
  cases hsub
  rw [fresh] at hflag
  split_ifs at hflag
  · cases hflag
  · cases hflag

/-! ### The property -/

/-- A row that goes was flagged, and its origin, if it still has one, has applied the disable of its
    desired version since the last reset and stores it; a flagged row that stays is a disabled one,
    still flagged. -/
def DeletesConfirmed (s : ProvisioningState) (e : ProvisioningEvent) : Prop :=
  ∀ sub ∈ s.row,
    ((s.step e).row = none → sub.pendingHardDelete = true ∧ ∀ server ∈ sub.originNodeId,
      (∃ epoch, ⟨server, epoch, sub.desiredVersion, false⟩ ∈ s.applied.drop s.resetAt) ∧
        (s.nodes server).stored = some (sub.desiredVersion, false)) ∧
    (sub.pendingHardDelete = true → sub.status = .disabled ∧
      ∀ sub' ∈ (s.step e).row, sub'.pendingHardDelete = true ∧ sub'.status = .disabled)

/-- A flagged row stays one, whatever happens next to it. -/
theorem step_flagged (s : ProvisioningState) (e : ProvisioningEvent) (h : s.row = some sub)
    (h' : (s.step e).row = some sub') (hflagged : sub.Flagged) : sub'.Flagged := by
  have hstep := s.step_row e h
  rw [h'] at hstep
  cases hstep with
  | kept => exact hflagged
  | changed hc => exact (RowChange.apply_flagged hc hflagged).flagged
  | expired now =>
    rw [hflagged.expireDue now]
    exact hflagged
  | reconciled task a now => exact reconcile_flagged hflagged task a now

/-- Only the finaliser removes a row. -/
theorem hardDeletable_of_gone {e : ProvisioningEvent} (hrow : s.row = some sub)
    (hgone : (s.step e).row = none) : sub.HardDeletable := by
  have hstep := s.step_row e hrow
  rw [hgone] at hstep
  cases hstep with
  | removed h => exact h

/-- A confirmed row was disabled at its own version after the reset. -/
theorem Deleting.removed (h : s.Deleting sub) (hdelete : sub.HardDeletable) {server : ServerId}
    (hserver : server ∈ sub.originNodeId) :
    (∃ epoch, ⟨server, epoch, sub.desiredVersion, false⟩ ∈ s.applied.drop s.resetAt) ∧
      (s.nodes server).stored = some (sub.desiredVersion, false) := by
  obtain ⟨-, -, ⟨-, hactual⟩ | hnone⟩ := hdelete
  · obtain ⟨⟨epoch, hmem⟩, hstored⟩ := h.confirmed hactual server hserver
    refine ⟨⟨epoch, ?_⟩, hstored⟩
    rw [← List.take_append_drop s.resetAt s.applied] at hmem
    rcases List.mem_append.mp hmem with hmem | hmem
    · exact absurd (h.before _ hmem) (Nat.lt_irrefl _)
    · exact hmem
  · rw [hnone] at hserver
    cases hserver

end ProvisioningState

end Just1kBot
