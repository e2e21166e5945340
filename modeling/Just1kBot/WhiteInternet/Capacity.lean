import Just1kBot.WhiteInternet.Servers
import Just1kBot.WhiteInternet.QuotaEnforcement

/-! The capacity of the origin servers: invariant 14 of `scripts/audit_invariants.py`.

    A new place is taken under the lock of the server and a count of its places. A row that gave its
    place up keeps its origin, and a renewal, a conversion, an extension, a ban and the syncs bring
    it back with no such count. -/

namespace Just1kBot

open WhiteInternetSubscription

/-! ### Rows without a place -/

namespace WhiteInternetSubscription
variable {sub sub' : WhiteInternetSubscription}

theorem consumes_of_status (h : sub.status = .active) : sub.ConsumesCapacity := .inr (.inl h)

theorem consumes_of_pendingDelete (h : sub.provisioningStatus = .pendingDelete) :
    sub.ConsumesCapacity :=
  .inr (.inr (.inr (.inr (.inr h))))

/-- A row without a place is expired or disabled. -/
theorem status_of_idle (h : ¬ sub.ConsumesCapacity) :
    sub.status = .expired ∨ sub.status = .disabled := by
  unfold ConsumesCapacity at h
  cases hs : sub.status <;> simp [hs] at h ⊢

/-- The conditions under which a subscription is renewed. -/
structure RenewAllowed (durationDays : ℤ) (now : Time) (sub : WhiteInternetSubscription) :
    Prop where
  paid : sub.isTrial = false
  settled : ¬ sub.DeactivationPending
  status : sub.status ≠ .disabled ∧ sub.status ≠ .pending
  horizon : (if now < sub.expiresAt then sub.expiresAt else now) + days durationDays ≤
    now + days whiteInternetMaxExpiryDays

/-- The conditions under which a trial is converted. -/
structure ConvertAllowed (sub : WhiteInternetSubscription) : Prop where
  trial : sub.isTrial = true
  settled : ¬ sub.DeactivationPending
  status : sub.status ≠ .disabled

/-- The conditions under which an admin extends a subscription. -/
structure ExtendAllowed (n : ℤ) (sub : WhiteInternetSubscription) : Prop where
  positive : 1 ≤ n
  status : sub.status ≠ .disabled
  paid : sub.isTrial = false

end WhiteInternetSubscription

open WhiteInternetSubscription

/-- The operation gives a row without a place one on its origin. -/
def RowOp.Revives (sub : WhiteInternetSubscription) : RowOp → Prop
  | .renew durationDays now => sub.RenewAllowed durationDays now
  | .convertTrial .. => sub.ConvertAllowed
  | .extend n _ => sub.ExtendAllowed n
  | .disable _ => sub.status ≠ .disabled
  | .resetTrial => sub.isTrial = true
  | .reconcile task answer _ => ¬ answer.Confirms task sub
  | .inlineSync sync _ => sync.confirmed.isSome = true ∧ sync.loaded.status ≠ .active
  | _ => False

section Idle
variable {sub sub' : WhiteInternetSubscription}

theorem record_idle (nodeEpoch : Epoch) (up down : ℕ) (upBefore downBefore : Option ℕ)
    (h : ¬ sub.ConsumesCapacity) :
    ¬ (sub.recordAndDeductTraffic nodeEpoch up down upBefore downBefore).2.ConsumesCapacity := by
  unfold recordAndDeductTraffic
  extract_lets deltaUplink deltaDownlink after
  split_ifs with hnone hexhausted
  · exact h
  · have hactive : sub.status = .active := hexhausted.2
    exact absurd (consumes_of_status hactive) h
  · exact h

theorem renew_ok_iff {durationDays maxExpiryDays : ℤ} {baseBytes : Option ℕ} {now : Time} :
    (∃ sub', sub.renew durationDays baseBytes maxExpiryDays now = .ok sub') ↔
      (sub.status ≠ .disabled ∧ sub.status ≠ .pending) ∧
        (if now < sub.expiresAt then sub.expiresAt else now) + days durationDays ≤
          now + days maxExpiryDays := by
  constructor
  · rintro ⟨sub', h⟩
    unfold renew at h
    split at h
    · cases h
    · rename_i hstatus
      extract_lets baseTime newExpiresAt at h
      split at h
      · cases h
      · rename_i hhorizon
        exact ⟨not_or.mp hstatus, not_lt.mp hhorizon⟩
  · rintro ⟨hstatus, hhorizon⟩
    simp only [renew, if_neg (not_or.mpr hstatus)]
    exact ⟨_, if_neg (not_lt.mpr hhorizon)⟩

theorem renew_revives_iff {durationDays : ℤ} {now : Time} :
    sub.RenewAllowed durationDays now ↔
      ∃ sub' ∈ (RowOp.renew durationDays now).apply sub, sub'.ConsumesCapacity := by
  simp only [RowOp.apply]
  by_cases hdeny : sub.isTrial = true ∨ sub.DeactivationPending
  · rw [if_pos hdeny]
    refine iff_of_false (fun h => ?_) (by simp)
    rcases hdeny with htrial | hpending
    · exact absurd h.paid (by simp [htrial])
    · exact h.settled hpending
  · rw [if_neg hdeny]
    constructor
    · intro h
      obtain ⟨sub', hok⟩ := renew_ok_iff.mpr ⟨h.status, h.horizon⟩
      exact ⟨sub', by rw [hok]; rfl, consumes_of_status (renew_ok hok).status⟩
    · rintro ⟨sub', hok, -⟩
      obtain ⟨hstatus, hhorizon⟩ := renew_ok_iff.mp ⟨sub', Lib.toOption_eq_some hok⟩
      have hdeny := not_or.mp hdeny
      exact ⟨by simpa using hdeny.1, hdeny.2, hstatus, hhorizon⟩

theorem convert_revives_iff {durationDays : ℤ} {now : Time} :
    sub.ConvertAllowed ↔
      ∃ sub' ∈ (RowOp.convertTrial durationDays none now).apply sub, sub'.ConsumesCapacity := by
  simp only [RowOp.apply]
  split_ifs with hdeny
  · refine iff_of_false (fun h => ?_) (by simp)
    rcases hdeny with htrial | hd | hpending
    · exact htrial h.trial
    · exact h.status hd
    · exact h.settled hpending
  · simp only [not_or, not_not] at hdeny
    refine iff_of_true ⟨hdeny.1, hdeny.2.2, hdeny.2.1⟩ ?_
    exact ⟨_, rfl, consumes_of_status rfl⟩

/-- An extension that goes through starts a new cycle on a row that is expired. -/
theorem extend_revives_iff (h : ¬ sub.ConsumesCapacity) {n : ℤ} {now : Time} :
    sub.ExtendAllowed n ↔ ∃ sub' ∈ (RowOp.extend n now).apply sub, sub'.ConsumesCapacity := by
  simp only [RowOp.apply, extend]
  split_ifs with hpos hdisabled htrial hcycle
  · exact iff_of_false (fun h => absurd h.positive (not_le.mpr hpos)) (by simp [Except.toOption])
  · exact iff_of_false (fun h => h.status hdisabled) (by simp [Except.toOption])
  · exact iff_of_false (fun h => absurd h.paid (by simp [htrial])) (by simp [Except.toOption])
  · refine iff_of_true ⟨not_lt.mp hpos, hdisabled, by simpa using htrial⟩ ?_
    exact ⟨_, rfl, consumes_of_status rfl⟩
  · have hexpired := (status_of_idle h).resolve_right hdisabled
    exact absurd (.inr (.inl hexpired)) hcycle

theorem reconcile_revives_iff (h : ¬ sub.ConsumesCapacity) {task : ReconcileTask}
    {answer : ReconcileAnswer} {now : Time} :
    ¬ answer.Confirms task sub ↔ (sub.reconcile task answer now).ConsumesCapacity := by
  rw [reconcile]
  split_ifs with hconfirms
  · refine iff_of_false (not_not_intro hconfirms) ?_
    rcases status_of_idle h with hs | hs
    · cases hd : task.desiredActive <;> simp [ConsumesCapacity, synced, hs, hd]
    · cases hd : task.desiredActive <;> simp [ConsumesCapacity, synced, hs, hd]
  · exact iff_of_true hconfirms (.inr (.inr (.inr (.inr (.inl rfl)))))

theorem inlineSync_revives_iff (h : ¬ sub.ConsumesCapacity) {sync : InlineSync} {now : Time} :
    (sync.confirmed.isSome = true ∧ sync.loaded.status ≠ .active) ↔
      (sync.finish now sub).ConsumesCapacity := by
  cases hconfirmed : sync.confirmed with
  | none =>
    rw [InlineSync.finish_of_unconfirmed hconfirmed]
    exact iff_of_false (by simp) h
  | some resp =>
    have hstatus := @InlineSync.finish_status sync sub resp now hconfirmed
    have hprov := @InlineSync.finish_provisioningStatus sync sub resp now hconfirmed
    by_cases hloaded : sync.loaded.status = .active
    · refine iff_of_false (fun hn => hn.2 hloaded) ?_
      rw [hloaded, Lib.written_loaded] at hstatus
      rw [ConsumesCapacity] at h ⊢
      rw [hstatus, hprov, Lib.written]
      split_ifs
      · exact h
      · simp only [not_or] at h
        simp [h.1, h.2.1, h.2.2.1]
    · rw [Lib.written_of_ne (Ne.symm hloaded)] at hstatus
      exact iff_of_true ⟨rfl, hloaded⟩ (consumes_of_status hstatus)

theorem expire_of_idle (h : ¬ sub.ConsumesCapacity) (reason : String) : sub.expire reason = sub :=
  if_neg fun hs => (status_of_idle h).elim hs.1 hs.2

/-- Slots, packs and the changes of an admin are refused on a row without a place. -/
theorem not_adjustable_of_idle (h : ¬ sub.ConsumesCapacity) : ¬ sub.Adjustable := by
  rcases status_of_idle h with hs | hs
  · simp [Adjustable, hs]
  · simp [Adjustable, hs]

theorem ended_of_idle (h : ¬ sub.ConsumesCapacity) (now : Time) :
    sub.status = .disabled ∨ sub.Ended now := by
  rcases status_of_idle h with hs | hs
  · exact .inr (.inl hs)
  · exact .inl hs

end Idle

theorem RowOp.inPlace_spec {op op' : RowOp} (h : op.inPlace = some op')
    (sub : WhiteInternetSubscription) :
    op'.InPlace ∧ (op.Served ↔ op'.Served) ∧ (op.Revives sub ↔ op'.Revives sub) := by
  cases op with
  | migrateTo => cases h
  | convertTrial =>
    cases h
    exact ⟨rfl, Iff.rfl, Iff.rfl⟩
  | _ =>
    cases h
    exact ⟨trivial, Iff.rfl, Iff.rfl⟩

theorem RowOp.not_revives_of_inPlace {op : RowOp} (h : op.inPlace = none)
    {sub : WhiteInternetSubscription} : ¬ op.Revives sub := by
  cases op with
  | migrateTo => exact id
  | _ => cases h

theorem RowOp.revives_iff {sub : WhiteInternetSubscription} (h : ¬ sub.ConsumesCapacity)
    {op : RowOp} (hplace : op.InPlace) :
    op.Revives sub ↔ ∃ sub' ∈ op.apply sub, sub'.ConsumesCapacity := by
  cases op with
  | renew => exact renew_revives_iff
  | convertTrial durationDays newOrigin now =>
    cases hplace
    exact convert_revives_iff
  | extend => exact extend_revives_iff h
  | reconcile task answer now =>
    simp only [apply, Option.mem_some_iff, exists_eq_left', ← reconcile_revives_iff h]
    exact Iff.rfl
  | inlineSync sync now =>
    simp only [apply, Option.mem_some_iff, exists_eq_left', ← inlineSync_revives_iff h]
    exact Iff.rfl
  | disable reason =>
    simp only [apply, Revives]
    split_ifs with hdisabled
    · exact iff_of_false (not_not_intro hdisabled) (by simp)
    · exact iff_of_true hdisabled ⟨_, rfl, consumes_of_pendingDelete rfl⟩
  | resetTrial =>
    simp only [apply, Revives]
    split_ifs with htrial
    · exact iff_of_true htrial ⟨_, rfl, consumes_of_pendingDelete rfl⟩
    · exact iff_of_false htrial (by simp)
  | migrateTo => cases hplace
  | record =>
    refine iff_of_false id ?_
    rintro ⟨sub', hop, hconsumes⟩
    cases hop
    exact record_idle _ _ _ _ _ h hconsumes
  | addDeviceSlot now =>
    refine iff_of_false id ?_
    rintro ⟨sub', hop, -⟩
    obtain ⟨hallowed, -⟩ := addDeviceSlot_ok_iff.mp (Lib.toOption_eq_some hop)
    exact (ended_of_idle h now).elim hallowed.live.1 hallowed.live.2.2
  | topupQuota packGb now =>
    refine iff_of_false id ?_
    rintro ⟨sub', hop, -⟩
    obtain ⟨hallowed, -⟩ := topupQuota_ok_iff.mp (Lib.toOption_eq_some hop)
    exact (ended_of_idle h now).elim hallowed.live.1 hallowed.live.2.2
  | addExtraTraffic extraBytes =>
    refine iff_of_false id ?_
    rintro ⟨sub', hop, -⟩
    obtain ⟨hallowed, -⟩ := addExtraTraffic_ok_iff.mp (Lib.toOption_eq_some hop)
    exact not_adjustable_of_idle h hallowed.status
  | setBaseTrafficQuota baseBytes =>
    refine iff_of_false id ?_
    rintro ⟨sub', hop, -⟩
    obtain ⟨hallowed, -⟩ := setBaseTrafficQuota_ok_iff.mp (Lib.toOption_eq_some hop)
    exact not_adjustable_of_idle h hallowed.status
  | setDeviceLimit limit =>
    refine iff_of_false id ?_
    rintro ⟨sub', hop, hconsumes⟩
    obtain ⟨-, rfl⟩ := setDeviceLimit_ok_iff.mp (Lib.toOption_eq_some hop)
    exact h hconsumes
  | resetTrafficUsed =>
    refine iff_of_false id ?_
    rintro ⟨sub', hop, -⟩
    obtain ⟨hallowed, -⟩ := resetTrafficUsed_ok_iff.mp (Lib.toOption_eq_some hop)
    exact h (hallowed.2.elim consumes_of_status fun hs => .inr (.inr (.inl hs)))
  | expire reason =>
    refine iff_of_false id ?_
    rintro ⟨sub', hop, hconsumes⟩
    cases hop
    rw [expire_of_idle h] at hconsumes
    exact h hconsumes

theorem revokePack_placedOn_iff {id : ServerId} {bytes : ℕ} {sub : WhiteInternetSubscription} :
    (sub.revokePack bytes).PlacedOn id ↔ sub.PlacedOn id := Iff.rfl

theorem revokeSlot_placedOn_iff {id : ServerId} {sub : WhiteInternetSubscription} :
    sub.revokeSlot.PlacedOn id ↔ sub.PlacedOn id := by
  rw [revokeSlot, revokePack_placedOn_iff]
  rfl

/-! ### Places -/

namespace Fleet
variable {f : Fleet} {sub sub' : WhiteInternetSubscription}

/-- No active origin has more subscriptions than places. -/
def WithinCapacity (f : Fleet) : Prop :=
  ∀ s ∈ f.servers, s.ActiveOrigin → f.consumers s.id ≤ s.maxClients

instance : DecidablePred WithinCapacity := fun f => by unfold WithinCapacity; infer_instance

/-- The origin has a place left, if it is an active one. -/
def HasRoom (f : Fleet) (origin : Option ServerId) : Prop :=
  ∀ s ∈ f.servers, s.ActiveOrigin → origin = some s.id → f.consumers s.id < s.maxClients

/-- The ids are unique. -/
structure Keyed (f : Fleet) : Prop where
  servers : (f.servers.map Server.id).Nodup
  subscriptions : (f.tables.subscriptions.map WhiteInternetSubscription.id).Nodup

theorem consumers_put (hkeys : f.Keyed) (hmem : sub ∈ f.tables.subscriptions)
    (hid : sub'.id = sub.id) (id : ServerId) :
    (f.putSubscription sub').consumers id + (if sub.PlacedOn id then 1 else 0) =
      f.consumers id + (if sub'.PlacedOn id then 1 else 0) := by
  have h := Lib.Table.countP_put WhiteInternetSubscription.id hkeys.subscriptions hmem hid
    (p := fun row => row.PlacedOn id)
  simp only [decide_eq_true_eq] at h
  exact h

/-- Writing a row keeps the capacity exactly when there is a place for it where it had none. -/
theorem WithinCapacity.put_iff (hkeys : f.Keyed) (h : f.WithinCapacity)
    (hmem : sub ∈ f.tables.subscriptions) (hid : sub'.id = sub.id) :
    (f.putSubscription sub').WithinCapacity ↔ ∀ s ∈ f.servers, s.ActiveOrigin →
      sub'.PlacedOn s.id → ¬ sub.PlacedOn s.id → f.consumers s.id < s.maxClients := by
  refine forall₃_congr fun s hs hactive => ?_
  have hle := h s hs hactive
  have hput := consumers_put hkeys hmem hid s.id
  by_cases hnew : sub'.PlacedOn s.id
  · by_cases hold : sub.PlacedOn s.id
    · simp only [hnew, hold, not_true_eq_false, false_imp_iff, forall_const, iff_true, if_true] at *
      omega
    · simp only [hnew, hold, not_false_eq_true, forall_const, if_true, if_false] at *
      omega
  · refine iff_of_true ?_ fun hn => absurd hn hnew
    rw [if_neg hnew] at hput
    omega

theorem server_eq (hkeys : f.Keyed) {s s' : Server} (hs : s ∈ f.servers) (hs' : s' ∈ f.servers)
    (hid : s.id = s'.id) : s = s' := by
  have h := Lib.Table.lookup_of_mem Server.id hkeys.servers hs
  rw [hid, Lib.Table.lookup_of_mem Server.id hkeys.servers hs'] at h
  exact (Option.some.inj h).symm

/-- The allocation picks a server with a place. -/
theorem allocate_spec {s : Server} (h : f.allocateOriginServer = some s) :
    s ∈ f.servers ∧ f.consumers s.id < s.maxClients := by
  obtain ⟨id, -, hid⟩ := List.exists_of_findSome?_eq_some h
  obtain ⟨hserver, hroom⟩ := Option.filter_eq_some_iff.mp hid
  simp only [decide_eq_true_eq] at hroom
  exact ⟨Lib.Table.mem_of_lookup _ hserver, hroom.2⟩

/-- A row on an allocated server fits. -/
theorem WithinCapacity.put_allocated (hkeys : f.Keyed) (h : f.WithinCapacity)
    (hmem : sub ∈ f.tables.subscriptions) (hid : sub'.id = sub.id) {s₀ : Server}
    (hs₀ : f.allocateOriginServer = some s₀) (horigin : sub'.originNodeId = some s₀.id) :
    (f.putSubscription sub').WithinCapacity := by
  obtain ⟨hs₀mem, hroom⟩ := allocate_spec hs₀
  refine (h.put_iff hkeys hmem hid).mpr fun s hs _ hnew _ => ?_
  have hids : s.id = s₀.id := Option.some.inj (hnew.1.symm.trans horigin)
  rwa [server_eq hkeys hs hs₀mem hids]

/-- An operation in place keeps the capacity exactly when a row it revives has room. -/
theorem WithinCapacity.apply_iff (hkeys : f.Keyed) (h : f.WithinCapacity)
    (hmem : sub ∈ f.tables.subscriptions) {op : RowOp} (hplace : op.InPlace) :
    (∀ sub' ∈ op.apply sub, (f.putSubscription sub').WithinCapacity) ↔
      (¬ sub.ConsumesCapacity → op.Revives sub → f.HasRoom sub.originNodeId) := by
  constructor
  · intro hall hidle hrevives s hs hactive horigin
    obtain ⟨sub', hop, hconsumes⟩ := (RowOp.revives_iff hidle hplace).mp hrevives
    refine (h.put_iff hkeys hmem (RowOp.apply_kept hop).id).mp (hall sub' hop) s hs hactive ?_ ?_
    · exact ⟨((RowOp.apply_kept hop).origin hplace).trans horigin, hconsumes⟩
    · exact fun hold => hidle hold.2
  · intro hroom sub' hop
    refine (h.put_iff hkeys hmem (RowOp.apply_kept hop).id).mpr fun s hs hactive hnew hold => ?_
    have horigin : sub.originNodeId = some s.id :=
      ((RowOp.apply_kept hop).origin hplace).symm.trans hnew.1
    have hidle : ¬ sub.ConsumesCapacity := fun hc => hold ⟨horigin, hc⟩
    exact hroom hidle ((RowOp.revives_iff hidle hplace).mpr ⟨sub', hop, hnew.2⟩) s hs hactive
      horigin

/-- An operation of the service does too, unless it moves the row, which always fits. -/
theorem WithinCapacity.serve_iff (hkeys : f.Keyed) (h : f.WithinCapacity)
    (hmem : sub ∈ f.tables.subscriptions) {op : RowOp} (hplace : op.InPlace) :
    (∀ sub' ∈ f.serve sub op, (f.putSubscription sub').WithinCapacity) ↔
      (¬ sub.ConsumesCapacity → ¬ f.NeedsMigration sub → op.Revives sub →
        f.HasRoom sub.originNodeId) := by
  rw [serve]
  split_ifs with hneeds
  · refine iff_of_true (fun sub' hop => ?_) fun _ hn => absurd hneeds hn
    obtain ⟨-, -, hop⟩ := Option.bind_eq_some_iff.mp hop
    obtain ⟨s₀, hs₀, hop⟩ := Option.bind_eq_some_iff.mp hop
    refine h.put_allocated hkeys hmem ?_ hs₀ ((RowOp.apply_kept hop).origin hplace)
    exact (RowOp.apply_kept hop).id.trans rfl
  · simp only [h.apply_iff hkeys hmem hplace, hneeds, not_false_eq_true, forall_const]

theorem WithinCapacity.rowOp_iff (hkeys : f.Keyed) (h : f.WithinCapacity)
    (hmem : sub ∈ f.tables.subscriptions) (op : RowOp) :
    (∀ sub' ∈ f.apply sub op, (f.putSubscription sub').WithinCapacity) ↔
      (¬ sub.ConsumesCapacity → (op.Served → ¬ f.NeedsMigration sub) → op.Revives sub →
        f.HasRoom sub.originNodeId) := by
  rw [apply]
  cases hop : op.inPlace with
  | none =>
    simp only [Option.bind_none, Option.not_mem_none, false_imp_iff, implies_true, true_iff]
    exact fun _ _ hrevives => absurd hrevives (RowOp.not_revives_of_inPlace hop)
  | some op' =>
    obtain ⟨hplace, hserved, hrevives⟩ := RowOp.inPlace_spec hop sub
    rw [Option.bind_some, hserved, hrevives]
    split_ifs with hs
    · simp only [h.serve_iff hkeys hmem hplace, hs, forall_const]
    · simp only [h.apply_iff hkeys hmem hplace, hs, false_imp_iff, forall_const]

/-! ### One event -/

theorem WithinCapacity.create (h : f.WithinCapacity) (hkeys : f.Keyed) (id : ℕ) (userId : UserId)
    (uuid : Uuid) (isTrial : Bool) (now : Time) :
    (f.create id userId uuid isTrial now).WithinCapacity := by
  rw [Fleet.create]
  split_ifs
  · exact h
  · split
    · exact h
    · rename_i s₀ hs₀
      simp only [WhiteInternetTables.step]
      split_ifs
      · exact h
      · obtain ⟨hs₀mem, hroom⟩ := allocate_spec hs₀
        intro s hs hactive
        have hle := h s hs hactive
        rw [consumers] at hle hroom ⊢
        rw [List.countP_append, List.countP_singleton]
        split_ifs with hnew
        · have hids : s.id = s₀.id := by
            have horigin := (of_decide_eq_true hnew).1
            unfold fresh at horigin
            split_ifs at horigin <;> exact (Option.some.inj horigin).symm
          rw [server_eq hkeys hs hs₀mem hids]
          exact hroom
        · exact hle

/-- A migration that goes through changed nothing, or found places for all it moves. -/
theorem migrate_ok {source target : ServerId} {n : ℕ} {f' : Fleet}
    (h : f.migrateOriginSubscriptions source target = .ok (n, f')) :
    f' = f ∨ source ≠ target ∧ ∃ sourceServer targetServer, f.server source = some sourceServer ∧
      f.server target = some targetServer ∧
      f.consumers target + f.consumers source ≤ targetServer.maxClients ∧
      f' = { servers := Lib.Table.put Server.id
               { sourceServer with lifecycleStatus := .decommissioning } f.servers
             tables := moveAll source target f.tables } := by
  unfold migrateOriginSubscriptions at h
  split at h
  · cases h
  · rename_i hne
    split at h
    · rename_i sourceServer targetServer hsource htarget
      split_ifs at h
      · exact .inl (Prod.mk.inj (Except.ok.inj h)).2.symm
      · rename_i hfits
        exact .inr ⟨hne, sourceServer, targetServer, hsource, htarget, not_lt.mp hfits,
          (Prod.mk.inj (Except.ok.inj h)).2.symm⟩
    · cases h

/-- The target of a migration takes what the source had, and every other server what it had. -/
theorem consumers_moveAll_le {source target : ServerId} (hne : source ≠ target) (id : ServerId)
    (servers : List Server) :
    ({ servers := servers, tables := moveAll source target f.tables } : Fleet).consumers id ≤
      f.consumers id + if id = target then f.consumers source else 0 := by
  rw [consumers, moveAll]
  split_ifs with hid
  · subst hid
    refine (Lib.Table.countP_map_add fun sub _ => ?_).le
    simp only [decide_eq_true_eq]
    by_cases hsource : sub.PlacedOn source
    · have hother : ¬ sub.PlacedOn id := fun h => hne (Option.some.inj (hsource.1.symm.trans h.1))
      rw [if_pos hsource, if_neg hother, if_pos hsource]
      exact if_pos ⟨rfl, .inr (.inr (.inr (.inr (.inl rfl))))⟩
    · rw [if_neg hsource, if_neg hsource]
      rfl
  · rw [List.countP_map]
    refine List.countP_mono_left fun sub _ hplaced => ?_
    simp only [Function.comp_apply, decide_eq_true_eq] at hplaced ⊢
    split_ifs at hplaced
    · exact absurd (Option.some.inj hplaced.1).symm hid
    · exact hplaced

theorem WithinCapacity.migrateOrigin (h : f.WithinCapacity) (hkeys : f.Keyed)
    (source target : ServerId) :
    (Lib.commit f (f.migrateOriginSubscriptions source target)).WithinCapacity := by
  refine Lib.commit_inv h fun n f' hok => ?_
  rcases migrate_ok hok with rfl | ⟨hne, sourceServer, targetServer, hsource, htarget, hfits, rfl⟩
  · exact h
  · intro s hs hactive
    have hle := @consumers_moveAll_le f source target hne s.id
      (Lib.Table.put Server.id { sourceServer with lifecycleStatus := .decommissioning } f.servers)
    rcases Lib.Table.mem_put _ hs with rfl | hs
    · cases hactive.2.1
    · split_ifs at hle with hid
      · rw [server_eq hkeys hs (Lib.Table.mem_of_lookup _ htarget)
          (hid.trans (Lib.Table.key_of_lookup _ htarget).symm)] at hle ⊢
        rw [Lib.Table.key_of_lookup _ htarget] at hle ⊢
        exact hle.trans hfits
      · exact hle.trans (h s hs hactive)

theorem WithinCapacity.sweepUnallocated (h : f.WithinCapacity) (hkeys : f.Keyed) (target : ℕ) :
    (f.sweepUnallocated target).WithinCapacity := by
  rw [Fleet.sweepUnallocated]
  split
  · rename_i sub s hsub hs
    split_ifs
    · exact h.put_allocated hkeys (WhiteInternetTables.mem_of_subscription hsub) rfl hs rfl
    · exact h
  · exact h

theorem WithinCapacity.detach (h : f.WithinCapacity) (id : ServerId) :
    (f.detach id).WithinCapacity := by
  intro s hs hactive
  refine le_trans ?_ (h s (List.mem_of_mem_filter hs) hactive)
  rw [consumers, Fleet.detach]
  rw [List.countP_map]
  refine List.countP_mono_left fun sub _ hplaced => ?_
  simp only [Function.comp_apply, decide_eq_true_eq] at hplaced ⊢
  split_ifs at hplaced
  · cases hplaced.1
  · exact hplaced

theorem WithinCapacity.delete (h : f.WithinCapacity) (id : ℕ) :
    ({ f with tables := f.tables.step (.delete id) } : Fleet).WithinCapacity :=
  fun s hs hactive => List.filter_sublist.countP_le.trans (h s hs hactive)

/-- An edit keeps the capacity unless it makes a server an active origin that has too many. -/
theorem WithinCapacity.editServer_iff (h : f.WithinCapacity) (s : Server) :
    (f.editServer s).WithinCapacity ↔ ∀ old ∈ f.server s.id, old.maxClients ≤ s.maxClients →
      s.ActiveOrigin → f.consumers s.id ≤ s.maxClients := by
  rw [editServer]
  cases hold : f.server s.id with
  | none => simp only [h, Option.not_mem_none, false_imp_iff, implies_true]
  | some old =>
    simp only [Option.mem_some_iff, forall_eq']
    split_ifs with hplaces
    · simp only [hplaces, forall_const]
      refine Lib.Table.forall_put_iff Server.id ?_ h
      exact ⟨old, Lib.Table.mem_of_lookup _ hold, Lib.Table.key_of_lookup _ hold⟩
    · simp only [h, hplaces, false_imp_iff]

/-- The rows of a refunded period that have no place on the server yet and get one, as the node is
    to delete their client. -/
def revokedIdle (f : Fleet) (order : Order) (user : User) (id : ServerId) : ℕ :=
  f.tables.subscriptions.countP fun sub => (sub.userId = user.id ∧ sub.status ≠ .disabled ∧
    order.metadata.subscriptionId.all (· = sub.id)) ∧ sub.originNodeId = some id ∧
      ¬ sub.ConsumesCapacity

theorem consumers_deactivate (f : Fleet) (order : Order) (user : User) (id : ServerId) :
    ({ f with tables := (f.tables.deactivateUserSubscriptions user.id "order_refunded"
        order.metadata.subscriptionId) } : Fleet).consumers id =
      f.consumers id + f.revokedIdle order user id := by
  refine Lib.Table.countP_map_add fun sub _ => ?_
  simp only [decide_eq_true_eq]
  by_cases hselected : sub.userId = user.id ∧ sub.status ≠ .disabled ∧
      order.metadata.subscriptionId.all (· = sub.id)
  · rw [if_pos hselected]
    by_cases horigin : sub.originNodeId = some id
    · have hnew : (sub.disable "order_refunded").PlacedOn id :=
        ⟨horigin, consumes_of_pendingDelete rfl⟩
      rw [if_pos hnew]
      by_cases hconsumes : sub.ConsumesCapacity
      · rw [if_pos (show sub.PlacedOn id from ⟨horigin, hconsumes⟩),
          if_neg fun hn => hn.2.2 hconsumes]
      · rw [if_neg (show ¬ sub.PlacedOn id from fun hp => hconsumes hp.2),
          if_pos ⟨hselected, horigin, hconsumes⟩]
    · rw [if_neg (show ¬ (sub.disable "order_refunded").PlacedOn id from fun hp => horigin hp.1),
        if_neg (show ¬ sub.PlacedOn id from fun hp => horigin hp.1),
        if_neg fun hn => horigin hn.2.1]
  · rw [if_neg hselected, if_neg (show ¬ (_ ∧ _) from fun hn => hselected hn.1), Nat.add_zero]

theorem WithinCapacity.revoke_iff (h : f.WithinCapacity) (hkeys : f.Keyed) (order : Order)
    (user : User) :
    ({ f with tables := f.tables.step (.revoke order user) } : Fleet).WithinCapacity ↔
      (¬ order.IsTrafficPack → ¬ order.IsDeviceSlot → ∀ s ∈ f.servers, s.ActiveOrigin →
        f.consumers s.id + f.revokedIdle order user s.id ≤ s.maxClients) := by
  simp only [WhiteInternetTables.step, revokeWhiteInternet]
  split_ifs with hpack hslot
  · refine iff_of_true ?_ fun hn => absurd hpack hn
    cases hsub : f.tables.subscriptionByUserId user.id with
    | none => exact h
    | some sub =>
      refine (h.put_iff hkeys (WhiteInternetTables.mem_of_subscriptionByUserId hsub).1
        (revokePack_id _ sub)).mpr fun s _ _ hnew hold => ?_
      exact absurd (revokePack_placedOn_iff.mp hnew) hold
  · refine iff_of_true ?_ fun _ hn => absurd hslot hn
    cases hsub : f.tables.subscriptionByUserId user.id with
    | none => exact h
    | some sub =>
      refine (h.put_iff hkeys (WhiteInternetTables.mem_of_subscriptionByUserId hsub).1
        (revokeSlot_id sub)).mpr fun s _ _ hnew hold => ?_
      exact absurd (revokeSlot_placedOn_iff.mp hnew) hold
  · simp only [hpack, hslot, not_false_eq_true, forall_const]
    refine forall₃_congr fun s _ _ => ?_
    rw [consumers_deactivate]

/-! ### Runs -/

/-- Where an event brings rows without a place back to life on their origin, there is room for
    them; and a server is not made an active origin with more subscriptions than places. -/
def RevivalFits (f : Fleet) : FleetEvent → Prop
  | .row target op => ∀ sub ∈ f.tables.subscription target, ¬ sub.ConsumesCapacity →
      (op.Served → ¬ f.NeedsMigration sub) → op.Revives sub → f.HasRoom sub.originNodeId
  | .revoke order user => ¬ order.IsTrafficPack → ¬ order.IsDeviceSlot → ∀ s ∈ f.servers,
      s.ActiveOrigin → f.consumers s.id + f.revokedIdle order user s.id ≤ s.maxClients
  | .editServer s => ∀ old ∈ f.server s.id, old.maxClients ≤ s.maxClients →
      s.ActiveOrigin → f.consumers s.id ≤ s.maxClients
  | _ => True

theorem withinCapacity_step_iff (hkeys : f.Keyed) (h : f.WithinCapacity) (e : FleetEvent) :
    (f.step e).WithinCapacity ↔ f.RevivalFits e := by
  cases e with
  | create id userId uuid isTrial now =>
    exact iff_of_true (h.create hkeys id userId uuid isTrial now) trivial
  | row target op =>
    simp only [step, rowOp, RevivalFits]
    cases hsub : f.tables.subscription target with
    | none => simp only [Option.bind_none, h, Option.not_mem_none, false_imp_iff, implies_true]
    | some sub =>
      simp only [Option.bind_some, Option.mem_some_iff, forall_eq',
        ← h.rowOp_iff hkeys (WhiteInternetTables.mem_of_subscription hsub)]
      cases hop : f.apply sub op with
      | none => simp only [h, Option.not_mem_none, false_imp_iff, implies_true]
      | some sub' => simp only [Option.mem_some_iff, forall_eq']
  | revoke order user => exact h.revoke_iff hkeys order user
  | delete id => exact iff_of_true (h.delete id) trivial
  | sweepUnallocated target => exact iff_of_true (h.sweepUnallocated hkeys target) trivial
  | migrateOrigin source target => exact iff_of_true (h.migrateOrigin hkeys source target) trivial
  | detach id => exact iff_of_true (h.detach id) trivial
  | editServer s => exact h.editServer_iff s

theorem Keyed.putSubscription (h : f.Keyed) (sub : WhiteInternetSubscription) :
    (f.putSubscription sub).Keyed :=
  ⟨h.servers, by rw [Fleet.putSubscription, WhiteInternetTables.putSubscription,
    Lib.Table.map_key_put]; exact h.subscriptions⟩

/-- A change of the rows that leaves their ids. -/
theorem Keyed.mapSubscriptions (h : f.Keyed) {g : WhiteInternetSubscription →
      WhiteInternetSubscription} (hg : ∀ sub, (g sub).id = sub.id) :
    ((f.tables.subscriptions.map g).map WhiteInternetSubscription.id).Nodup := by
  have hids : WhiteInternetSubscription.id ∘ g = WhiteInternetSubscription.id := funext hg
  rw [List.map_map, hids]
  exact h.subscriptions

theorem Keyed.revoke (h : f.Keyed) (order : Order) (user : User) :
    ({ f with tables := f.tables.step (.revoke order user) } : Fleet).Keyed := by
  simp only [WhiteInternetTables.step, revokeWhiteInternet]
  split_ifs
  · split
    · exact h
    · exact h.putSubscription _
  · split
    · exact h
    · exact h.putSubscription _
  · exact ⟨h.servers, h.mapSubscriptions fun sub => by split_ifs <;> rfl⟩

theorem Keyed.create (h : f.Keyed) (id : ℕ) (userId : UserId) (uuid : Uuid) (isTrial : Bool)
    (now : Time) : (f.create id userId uuid isTrial now).Keyed := by
  rw [Fleet.create]
  split_ifs
  · exact h
  · split
    · exact h
    · rename_i s _
      simp only [WhiteInternetTables.step]
      split_ifs with hid
      · exact h
      · refine ⟨h.servers, ?_⟩
        have hfresh : (fresh id userId s.id uuid isTrial now).id = id := by
          rw [fresh]
          split_ifs <;> rfl
        rw [List.map_append, List.map_singleton, hfresh]
        exact h.subscriptions.append (List.nodup_singleton id) (by simpa using hid)

theorem Keyed.step (h : f.Keyed) (e : FleetEvent) : (f.step e).Keyed := by
  cases e with
  | create id userId uuid isTrial now => exact h.create id userId uuid isTrial now
  | row target op =>
    simp only [Fleet.step, rowOp]
    split
    · exact h.putSubscription _
    · exact h
  | revoke order user => exact h.revoke order user
  | delete id =>
    refine ⟨h.servers, h.subscriptions.sublist ?_⟩
    exact List.filter_sublist.map WhiteInternetSubscription.id
  | sweepUnallocated target =>
    simp only [Fleet.step, sweepUnallocated]
    split
    · split_ifs
      · exact h.putSubscription _
      · exact h
    · exact h
  | migrateOrigin source target =>
    refine Lib.commit_inv h fun n f' hok => ?_
    rcases migrate_ok hok with rfl | ⟨-, sourceServer, targetServer, -, -, -, rfl⟩
    · exact h
    · refine ⟨?_, h.mapSubscriptions fun sub => by split_ifs <;> rfl⟩
      rw [Lib.Table.map_key_put]
      exact h.servers
  | detach id =>
    exact ⟨h.servers.sublist (List.filter_sublist.map Server.id),
      h.mapSubscriptions fun sub => by split_ifs <;> rfl⟩
  | editServer s =>
    simp only [Fleet.step, editServer]
    split
    · split_ifs
      · exact ⟨by rw [Lib.Table.map_key_put]; exact h.servers, h.subscriptions⟩
      · exact h
    · exact h

/-- From any servers and no subscriptions on, no active origin ever has more subscriptions than
    places exactly when every revival fits. -/
theorem within_capacity_iff (servers : List Server) (hids : (servers.map Server.id).Nodup)
    (es : List FleetEvent) :
    Lib.Throughout Fleet.step WithinCapacity { servers := servers } es ↔
      Lib.Always Fleet.step RevivalFits { servers := servers } es :=
  Lib.throughout_iff Fleet.step (fun _ e h => Keyed.step h e)
    (fun _ e hkeys h => withinCapacity_step_iff hkeys h e) es _ ⟨hids, List.nodup_nil⟩
    (fun _ _ _ => Nat.zero_le _)

end Fleet

/-- An origin with one place. -/
def smallOrigin : Server :=
  { id := 1, apiUrl := "https://origin", apiKey := "key", protocol := xrayProtocol, maxClients := 1
    capabilities := [xrayOriginCapability], relays := [some "de"] }

/-- User 1 buys, the node confirms, the subscription expires, the node confirms; user 2 buys. -/
def placeTakenOver : List FleetEvent :=
  [.create 1 1 1 false 0,
    .row 1 (.reconcile { desiredActive := true, targetVersion := 1, targetEpoch := 1 }
      { sync := { result := .applied } } 0),
    .row 1 (.expire "subscription_expired"),
    .row 1 (.reconcile { desiredActive := false, targetVersion := 2, targetEpoch := 1 }
      { sync := { result := .applied } } (days 31)),
    .create 2 2 2 false (days 32)]

theorem Fleet.within_capacity_iff_takenOver :
    Lib.Throughout Fleet.step Fleet.WithinCapacity { servers := [smallOrigin] } placeTakenOver ↔
      Lib.Always Fleet.step Fleet.RevivalFits { servers := [smallOrigin] } placeTakenOver :=
  Fleet.within_capacity_iff [smallOrigin] (by decide) placeTakenOver

/-- The renewal of the expired subscription brings it back on the origin that is full by then. -/
theorem Fleet.renewal_exceeds_capacity :
    ¬ Lib.Throughout Fleet.step Fleet.WithinCapacity { servers := [smallOrigin] }
      (placeTakenOver ++ [.row 1 (.renew 30 (days 33))]) := by
  decide +kernel

end Just1kBot
