import Just1kBot.WhiteInternet.ExpirySweep
import Just1kBot.WhiteInternet.Servers

/-! A subscription and its node: `_reconcile_single_subscription` and the task selection of
    `services/workers/white_internet_reconciliation.py`, next to the operations on the row.

    A task is built from the row in one transaction, the node is called in no transaction, and the
    answer is written to the row as it is by then. Only one run of a subscription is under way at a
    time (an advisory lock). The final write compares the row's desired version with the task's, but
    not the row's origin with the node that was called, and after `already_newer` nothing at all. -/

namespace Just1kBot

/-! ### What an operation does to the provisioning of a row -/

namespace WhiteInternetSubscription

/-- The status asks for an enabled client. -/
def DemandsActive (sub : WhiteInternetSubscription) : Prop :=
  sub.status = .pending ∨ sub.status = .active

instance : DecidablePred DemandsActive := fun s => by unfold DemandsActive; infer_instance

/-- A due row is expired before a task is built from it. -/
def expireDue (now : Time) (sub : WhiteInternetSubscription) : WhiteInternetSubscription :=
  if Expirable sub.status ∧ sub.expiresAt ≤ now then sub.expire "subscription_expired" else sub

/-- The entry of `sync_tasks` for a row. -/
def reconcileTask (targetEpoch : Epoch) (inboundTags : List String) (now : Time)
    (sub : WhiteInternetSubscription) : ReconcileTask :=
  { desiredActive := decide (sub.DemandsActive ∧ now < sub.expiresAt)
    targetVersion := sub.desiredVersion
    targetEpoch := targetEpoch
    expectedInboundTags := inboundTags }

/-- The versions only grow, and another demand comes with a new version. -/
structure Advances (a b : WhiteInternetSubscription) : Prop where
  desired_le : a.desiredVersion ≤ b.desiredVersion
  demand : b.desiredVersion = a.desiredVersion → (b.DemandsActive ↔ a.DemandsActive)

/-- Nothing changes that the reconciliation looks at. -/
structure SameProvision (a b : WhiteInternetSubscription) : Prop where
  status : b.status = a.status
  origin : b.originNodeId = a.originNodeId
  provisioning : b.provisioningStatus = a.provisioningStatus
  desired : b.desiredVersion = a.desiredVersion
  actual : b.actualVersion = a.actualVersion
  epoch : b.lastReconciledNodeEpoch = a.lastReconciledNodeEpoch

/-- The row asks for a new version, which no node has. -/
structure NewVersion (a b : WhiteInternetSubscription) : Prop where
  desired : b.desiredVersion = a.desiredVersion + 1
  actual_le : b.actualVersion ≤ a.actualVersion

/-- What an operation on the row does: without a new version, either what a node confirmed still
    stands, or it is forgotten. -/
structure Evolves (a b : WhiteInternetSubscription) : Prop extends Advances a b where
  actual_le : b.actualVersion ≤ a.actualVersion
  confirmed : b.desiredVersion = a.desiredVersion →
    b.actualVersion = 0 ∨ b.originNodeId = none ∨ SameProvision a b

variable {a b c : WhiteInternetSubscription}

theorem Advances.trans (h : Advances a b) (h' : Advances b c) : Advances a c := by
  have hle := h.desired_le
  have hle' := h'.desired_le
  refine ⟨hle.trans hle', fun heq => ?_⟩
  have hb : b.desiredVersion = a.desiredVersion := by omega
  exact (h'.demand (heq.trans hb.symm)).trans (h.demand hb)

theorem SameProvision.refl (a : WhiteInternetSubscription) : SameProvision a a :=
  ⟨rfl, rfl, rfl, rfl, rfl, rfl⟩

theorem SameProvision.demand (h : SameProvision a b) : b.DemandsActive ↔ a.DemandsActive := by
  rw [DemandsActive, h.status]
  exact Iff.rfl

theorem SameProvision.evolves (h : SameProvision a b) : Evolves a b :=
  ⟨⟨h.desired.ge, fun _ => h.demand⟩, h.actual.le, fun _ => .inr (.inr h)⟩

theorem NewVersion.evolves (h : NewVersion a b) : Evolves a b := by
  have hne : b.desiredVersion ≠ a.desiredVersion := by
    rw [h.desired]
    omega
  exact ⟨⟨by rw [h.desired]; omega, fun heq => absurd heq hne⟩, h.actual_le,
    fun heq => absurd heq hne⟩

/-! The pools -/

theorem clear90p_sameProvision (sub : WhiteInternetSubscription) :
    SameProvision sub sub.clear90p := by
  rw [clear90p]
  split
  · exact ⟨rfl, rfl, rfl, rfl, rfl, rfl⟩
  · exact .refl sub

theorem addSlot_sameProvision (sub : WhiteInternetSubscription) :
    SameProvision sub sub.addSlot := by
  rw [addSlot]
  exact ⟨rfl, rfl, rfl, rfl, rfl, rfl⟩

theorem addExtra_sameProvision (bytes : ℕ) (sub : WhiteInternetSubscription) :
    SameProvision sub (sub.addExtra bytes) := ⟨rfl, rfl, rfl, rfl, rfl, rfl⟩

theorem reactivate_newVersion (sub : WhiteInternetSubscription) : NewVersion sub sub.reactivate :=
  ⟨rfl, le_rfl⟩

/-- The two ways an operation that is refused or goes through can leave the provisioning. -/
def KeepsOrBumps (a b : WhiteInternetSubscription) : Prop := SameProvision a b ∨ NewVersion a b

theorem KeepsOrBumps.evolves (h : KeepsOrBumps a b) : Evolves a b := by
  rcases h with h | h
  · exact h.evolves
  · exact h.evolves

theorem SameProvision.trans_keepsOrBumps (h : SameProvision a b) (h' : KeepsOrBumps b c) :
    KeepsOrBumps a c := by
  rcases h' with h' | h'
  · exact .inl ⟨h'.status.trans h.status, h'.origin.trans h.origin,
      h'.provisioning.trans h.provisioning, h'.desired.trans h.desired, h'.actual.trans h.actual,
      h'.epoch.trans h.epoch⟩
  · exact .inr ⟨by rw [h'.desired, h.desired], by rw [← h.actual]; exact h'.actual_le⟩

theorem KeepsOrBumps.trans_same (h : KeepsOrBumps a b) (h' : SameProvision b c) :
    KeepsOrBumps a c := by
  rcases h with h | h
  · exact h.trans_keepsOrBumps (.inl h')
  · exact .inr ⟨by rw [h'.desired, h.desired], by rw [h'.actual]; exact h.actual_le⟩

theorem reactivateExhausted_keepsOrBumps (sub : WhiteInternetSubscription) :
    KeepsOrBumps sub sub.reactivateExhausted := by
  rw [reactivateExhausted]
  split
  · exact .inr (reactivate_newVersion sub)
  · exact .inl (.refl sub)

theorem afterAdjustment_keepsOrBumps (sub : WhiteInternetSubscription) :
    KeepsOrBumps sub sub.afterAdjustment := by
  rw [afterAdjustment]
  split
  · exact KeepsOrBumps.trans_same (.inr (reactivate_newVersion sub)) (clear90p_sameProvision _)
  · exact .inl (clear90p_sameProvision sub)

theorem record_keepsOrBumps (nodeEpoch : Epoch) (up down : ℕ) (upBefore downBefore : Option ℕ)
    (sub : WhiteInternetSubscription) :
    KeepsOrBumps sub (sub.recordAndDeductTraffic nodeEpoch up down upBefore downBefore).2 := by
  unfold recordAndDeductTraffic
  extract_lets deltaUplink deltaDownlink sub'
  split_ifs
  · exact .inl (.refl sub)
  · exact .inr ⟨rfl, le_rfl⟩
  · exact .inl ⟨rfl, rfl, rfl, rfl, rfl, rfl⟩

theorem expire_keepsOrBumps (reason : String) (sub : WhiteInternetSubscription) :
    KeepsOrBumps sub (sub.expire reason) := by
  rw [expire]
  split
  · exact .inr ⟨rfl, le_rfl⟩
  · exact .inl (.refl sub)

theorem expireDue_keepsOrBumps (now : Time) (sub : WhiteInternetSubscription) :
    KeepsOrBumps sub (sub.expireDue now) := by
  rw [expireDue]
  split
  · exact expire_keepsOrBumps _ sub
  · exact .inl (.refl sub)

theorem renew_newVersion {durationDays maxExpiryDays : ℤ} {baseBytes : Option ℕ} {now : Time}
    {sub sub' : WhiteInternetSubscription}
    (h : sub.renew durationDays baseBytes maxExpiryDays now = .ok sub') : NewVersion sub sub' := by
  unfold renew at h
  split at h
  · cases h
  · extract_lets baseTime newExpiresAt at h
    split at h
    · cases h
    · cases h
      exact ⟨rfl, le_rfl⟩

theorem expireDue_origin (now : Time) (sub : WhiteInternetSubscription) :
    (sub.expireDue now).originNodeId = sub.originNodeId := by
  rw [expireDue]
  split
  · exact (expire_sameQuota _ sub).origin
  · rfl

/-- A task built from the row asks for what the status demands. -/
theorem reconcileTask_demand (targetEpoch : Epoch) (inboundTags : List String) (now : Time)
    (sub : WhiteInternetSubscription) :
    ((sub.expireDue now).reconcileTask targetEpoch inboundTags now).desiredActive = true ↔
      (sub.expireDue now).DemandsActive := by
  refine decide_eq_true_iff.trans ⟨And.left, fun hdemand => ⟨hdemand, ?_⟩⟩
  rw [expireDue] at hdemand ⊢
  split_ifs at hdemand ⊢ with hdue
  · -- the expiry leaves no row that demands an active client
    rw [expire] at hdemand
    rcases hdue.1 with hs | hs | hs
    all_goals simp [DemandsActive, hs] at hdemand
  · rw [not_and, not_le] at hdue
    exact hdue (hdemand.elim .inl fun h => .inr (.inl h))

end WhiteInternetSubscription

open WhiteInternetSubscription

/-- The operations of the repository and the service, the inline sync, the reconciliation and a mere
    move apart. -/
def RowOp.Atomic : RowOp → Prop
  | .reconcile .. | .inlineSync .. | .migrateTo _ => False
  | _ => True

instance : DecidablePred RowOp.Atomic
  | .reconcile .. | .inlineSync .. | .migrateTo _ => .isFalse id
  | .record .. | .renew .. | .convertTrial .. | .addDeviceSlot _ | .topupQuota ..
  | .addExtraTraffic _ | .setBaseTrafficQuota _ | .setDeviceLimit _ | .resetTrafficUsed
  | .extend .. | .expire _ | .disable _ | .resetTrial => .isTrue trivial

theorem RowOp.apply_keepsOrBumps {op : RowOp} {sub sub' : WhiteInternetSubscription}
    (hop : op.Atomic) (h : op.apply sub = some sub') : KeepsOrBumps sub sub' := by
  cases op with
  | record =>
    cases h
    exact record_keepsOrBumps ..
  | renew durationDays now =>
    simp only [apply] at h
    split_ifs at h
    exact .inr (renew_newVersion (Lib.toOption_eq_some h))
  | convertTrial durationDays newOrigin now =>
    simp only [apply] at h
    split_ifs at h
    cases h
    obtain ⟨hactual, hdesired⟩ := sub.convertTrial_versions durationDays newOrigin now
    exact .inr ⟨hdesired, hactual⟩
  | addDeviceSlot now =>
    obtain ⟨-, rfl⟩ := addDeviceSlot_ok_iff.mp (Lib.toOption_eq_some h)
    exact (addSlot_sameProvision sub).trans_keepsOrBumps (reactivateExhausted_keepsOrBumps _)
  | topupQuota packGb now =>
    obtain ⟨-, rfl⟩ := topupQuota_ok_iff.mp (Lib.toOption_eq_some h)
    refine KeepsOrBumps.trans_same ?_ (clear90p_sameProvision _)
    exact (addExtra_sameProvision _ sub).trans_keepsOrBumps (reactivateExhausted_keepsOrBumps _)
  | addExtraTraffic extraBytes =>
    obtain ⟨-, rfl⟩ := addExtraTraffic_ok_iff.mp (Lib.toOption_eq_some h)
    exact (addExtra_sameProvision _ sub).trans_keepsOrBumps (afterAdjustment_keepsOrBumps _)
  | setBaseTrafficQuota baseBytes =>
    obtain ⟨-, rfl⟩ := setBaseTrafficQuota_ok_iff.mp (Lib.toOption_eq_some h)
    have hbase : SameProvision sub (sub.withBase baseBytes.toNat) :=
      ⟨rfl, rfl, rfl, rfl, rfl, rfl⟩
    exact hbase.trans_keepsOrBumps (afterAdjustment_keepsOrBumps _)
  | setDeviceLimit limit =>
    obtain ⟨-, rfl⟩ := setDeviceLimit_ok_iff.mp (Lib.toOption_eq_some h)
    exact .inl ⟨rfl, rfl, rfl, rfl, rfl, rfl⟩
  | resetTrafficUsed =>
    obtain ⟨-, rfl⟩ := resetTrafficUsed_ok_iff.mp (Lib.toOption_eq_some h)
    have hclear : SameProvision sub { sub.clearUsage with notified90p := false } :=
      ⟨rfl, rfl, rfl, rfl, rfl, rfl⟩
    exact hclear.trans_keepsOrBumps (reactivateExhausted_keepsOrBumps _)
  | extend n now =>
    obtain ⟨-, -, hactual, hdesired⟩ := extend_ok (Lib.toOption_eq_some h)
    exact .inr ⟨hdesired, hactual.le⟩
  | expire reason =>
    cases h
    exact expire_keepsOrBumps reason sub
  | disable reason =>
    simp only [apply] at h
    split_ifs at h
    cases h
    exact .inr ⟨rfl, le_rfl⟩
  | resetTrial =>
    simp only [apply] at h
    split_ifs at h
    cases h
    exact .inr ⟨rfl, le_rfl⟩
  | migrateTo | reconcile | inlineSync => exact hop.elim

/-! ### The row, its nodes, and what is on its way between them -/

/-- A change of the row next to the reconciliation. `moved` is a paid operation of the service that
    gives the row another origin first. -/
inductive RowChange
  | op (o : RowOp)
  | moved (o : RowOp) (target : ServerId)
  | migrateOrigin (target : ServerId)
  | allocate (target : ServerId)
  | detach
  | revokePack (bytes : ℕ)
  | revokeSlot

namespace RowChange

/-- The row the change commits, if it goes through. -/
def apply (sub : WhiteInternetSubscription) : RowChange → Option WhiteInternetSubscription
  | .op o => if o.Atomic then o.apply sub else none
  | .moved o target =>
    if o.Served then (o.apply sub).bind fun _ => o.apply (sub.migrateTo target) else none
  | .migrateOrigin target =>
    if sub.originNodeId.isSome ∧ sub.originNodeId ≠ some target ∧ sub.ConsumesCapacity then
      some (sub.migrateOrigin target)
    else none
  | .allocate target =>
    if sub.originNodeId = none ∧ Expirable sub.status then some (sub.allocate target) else none
  | .detach => some sub.detach
  | .revokePack bytes => some (sub.revokePack bytes)
  | .revokeSlot => some sub.revokeSlot

/-- A deactivation or a trial reset, which also tell the node at once. -/
def Dispatches : RowChange → Prop
  | .op (.disable _) | .op .resetTrial => True
  | _ => False

instance : DecidablePred Dispatches := fun c => by
  unfold Dispatches
  split <;> infer_instance

def IsReset : RowChange → Prop
  | .op .resetTrial => True
  | _ => False

instance : DecidablePred IsReset := fun c => by
  unfold IsReset
  split <;> infer_instance

end RowChange

/-- What a node is asked to do with the client. -/
structure SyncRequest where
  server : ServerId
  version : ℕ
  active : Bool
  deriving DecidableEq, Repr

/-- The call a run makes for its task. -/
def ReconcileTask.request (server : ServerId) (task : ReconcileTask) : SyncRequest :=
  ⟨server, task.targetVersion, task.desiredActive⟩

/-- A request that a node applied, and the epoch of the start in which it did. -/
structure AppliedSync where
  server : ServerId
  epoch : Epoch
  version : ℕ
  active : Bool
  deriving DecidableEq, Repr

/-- A node and the client on it: the epoch of its start, once it runs, and the version and the state
    it stores, which a restart keeps. -/
structure NodeRuntime where
  epoch : Option Epoch := none
  stored : Option (ℕ × Bool) := none
  deriving DecidableEq, Repr

/-- A node applies a sync that is no older than what it stores. -/
def NodeRuntime.Accepts (node : NodeRuntime) (version : ℕ) : Prop :=
  ∀ stored ∈ node.stored, stored.1 ≤ version

instance (node : NodeRuntime) (version : ℕ) : Decidable (node.Accepts version) := by
  unfold NodeRuntime.Accepts; infer_instance

/-- A run under way: the node was called, and its answer is not written yet. -/
structure ReconcileRun where
  server : ServerId
  task : ReconcileTask
  sync : SyncResponse
  deriving DecidableEq, Repr

/-- What becomes of the call: the node handles it, refuses it, or no answer comes. -/
inductive CallOutcome
  | handled (verifiedInbounds : List String)
  | fenced
  | failed
  deriving DecidableEq, Repr

/-- One subscription, its tasks and its nodes. `sent` is every request that was ever sent, since it
    may arrive late or twice. `applied` is a history, and `resetAt` its length at the last reset. -/
structure ProvisioningState where
  row : Option WhiteInternetSubscription
  nodes : ServerId → NodeRuntime := fun _ => {}
  epochs : List Epoch := []
  tasks : List (ServerId × ReconcileTask) := []
  running : Option ReconcileRun := none
  sent : List SyncRequest := []
  applied : List AppliedSync := []
  resetAt : ℕ := 0

/-- What can happen. `crash` is a restart of the worker, `restart` one of a node, under an epoch
    that no node had before. -/
inductive ProvisioningEvent
  | change (c : RowChange)
  | build (targetEpoch : Epoch) (inboundTags : List String) (now : Time)
  | call (i : ℕ) (outcome : CallOutcome)
  | deliver (j : ℕ)
  | finish (error : Option String) (inventory : Option Inventory) (now : Time)
  | crash
  | restart (server : ServerId) (epoch : Epoch)
  | finalize

/-- `finalize_hard_delete_subscription` deletes the row. -/
def WhiteInternetSubscription.HardDeletable (sub : WhiteInternetSubscription) : Prop :=
  sub.pendingHardDelete = true ∧ sub.status = .disabled ∧
    (sub.provisioningStatus = .syncedInactive ∧ sub.actualVersion = sub.desiredVersion ∨
      sub.originNodeId = none)

instance : DecidablePred WhiteInternetSubscription.HardDeletable := fun s => by
  unfold WhiteInternetSubscription.HardDeletable; infer_instance

namespace ProvisioningState

/-- A fresh purchase or trial: no node knows the client. -/
def created (id : ℕ) (userId : UserId) (origin : ServerId) (uuid : Uuid) (isTrial : Bool)
    (now : Time) : ProvisioningState :=
  { row := some (.fresh id userId origin uuid isTrial now) }

def change (s : ProvisioningState) (c : RowChange) : ProvisioningState :=
  match s.row.bind (c.apply ·) with
  | none => s
  | some sub => { s with
      row := some sub
      sent := if c.Dispatches then
          s.sent ++ sub.originNodeId.toList.map fun server => ⟨server, sub.desiredVersion, false⟩
        else s.sent
      resetAt := if c.IsReset then s.applied.length else s.resetAt }

/-- The worker takes the row into its batch. -/
def build (s : ProvisioningState) (targetEpoch : Epoch) (inboundTags : List String) (now : Time) :
    ProvisioningState :=
  match s.row with
  | none => s
  | some sub =>
    match sub.originNodeId with
    | none => s
    | some server =>
      if NeedsReconciliation server targetEpoch now sub then
        { s with
          row := some (sub.expireDue now)
          tasks := s.tasks ++
            [(server, (sub.expireDue now).reconcileTask targetEpoch inboundTags now)] }
      else s

/-- A request reaches its node, if that runs. -/
def deliver (s : ProvisioningState) (r : SyncRequest) : ProvisioningState :=
  match (s.nodes r.server).epoch with
  | none => s
  | some epoch =>
    if (s.nodes r.server).Accepts r.version then
      { s with
        nodes := Function.update s.nodes r.server ⟨some epoch, some (r.version, r.active)⟩
        applied := s.applied ++ [⟨r.server, epoch, r.version, r.active⟩] }
    else s

/-- The state in which the request of a task is on its way. -/
def dispatched (s : ProvisioningState) (i : ℕ) (r : SyncRequest) : ProvisioningState :=
  { s with tasks := s.tasks.eraseIdx i, sent := s.sent ++ [r] }

/-- What the node answers to the request. -/
def answer (s : ProvisioningState) (r : SyncRequest) (verifiedInbounds : List String) :
    SyncResponse :=
  match (s.nodes r.server).epoch with
  | none => { result := .failed }
  | some epoch =>
    { result := if (s.nodes r.server).Accepts r.version then .applied else .alreadyNewer
      verifiedEpoch := some epoch
      verifiedInbounds := verifiedInbounds }

/-- A run begins, when no other one is under way: the node is called. -/
def call (s : ProvisioningState) (i : ℕ) (outcome : CallOutcome) : ProvisioningState :=
  match s.running with
  | some _ => s
  | none =>
    match s.tasks[i]? with
    | none => s
    | some (server, task) =>
      let r := task.request server
      match outcome with
      | .handled verifiedInbounds =>
        { (s.dispatched i r).deliver r with
          running := some ⟨server, task, s.answer r verifiedInbounds⟩ }
      | .fenced => { s.dispatched i r with running := some ⟨server, task, { result := .fenced }⟩ }
      | .failed => { s.dispatched i r with running := some ⟨server, task, { result := .failed }⟩ }

/-- The run writes the answer to the row, as it is by then. -/
def finish (s : ProvisioningState) (error : Option String) (inventory : Option Inventory)
    (now : Time) : ProvisioningState :=
  match s.running with
  | none => s
  | some run => { s with
      row := s.row.map (·.reconcile run.task ⟨run.sync, error, inventory⟩ now)
      running := none }

/-- `_finalize_hard_deletes`, at the row. -/
def finalize (s : ProvisioningState) : ProvisioningState :=
  match s.row with
  | none => s
  | some sub => if sub.HardDeletable then { s with row := none } else s

def step (s : ProvisioningState) : ProvisioningEvent → ProvisioningState
  | .change c => s.change c
  | .build targetEpoch inboundTags now => s.build targetEpoch inboundTags now
  | .call i outcome => s.call i outcome
  | .deliver j => s.sent[j]?.elim s s.deliver
  | .finish error inventory now => s.finish error inventory now
  | .crash => { s with tasks := [], running := none }
  | .restart server epoch =>
    if epoch ∈ s.epochs then s
    else { s with
      nodes := Function.update s.nodes server { s.nodes server with epoch := some epoch }
      epochs := epoch :: s.epochs }
  | .finalize => s.finalize

end ProvisioningState

/-! ### What a step does to the row -/

theorem RowChange.apply_op_iff {o : RowOp} {sub sub' : WhiteInternetSubscription} :
    (RowChange.op o).apply sub = some sub' ↔ o.Atomic ∧ o.apply sub = some sub' := by
  rw [apply]
  exact Option.ite_none_right_eq_some

theorem RowChange.apply_evolves {c : RowChange} {sub sub' : WhiteInternetSubscription}
    (h : c.apply sub = some sub') : Evolves sub sub' := by
  cases c with
  | op o =>
    obtain ⟨hatomic, h⟩ := apply_op_iff.mp h
    exact (RowOp.apply_keepsOrBumps hatomic h).evolves
  | moved o target =>
    simp only [apply] at h
    split_ifs at h with hserved
    obtain ⟨_, -, hmoved⟩ := Option.bind_eq_some_iff.mp h
    have hatomic : o.Atomic := by cases o <;> trivial
    have hev := (RowOp.apply_keepsOrBumps hatomic hmoved).evolves
    -- the move forgets the version the former node has
    have hzero : sub'.actualVersion = 0 := Nat.le_zero.mp hev.actual_le
    exact ⟨⟨hev.desired_le, hev.demand⟩, by rw [hzero]; exact Nat.zero_le _,
      fun _ => .inl hzero⟩
  | migrateOrigin target =>
    simp only [apply] at h
    split_ifs at h
    cases h
    exact NewVersion.evolves ⟨rfl, le_rfl⟩
  | allocate target =>
    simp only [apply] at h
    split_ifs at h
    cases h
    exact NewVersion.evolves ⟨rfl, le_rfl⟩
  | detach =>
    cases h
    exact ⟨⟨le_rfl, fun _ => Iff.rfl⟩, le_rfl, fun _ => .inr (.inl rfl)⟩
  | revokePack bytes =>
    cases h
    exact NewVersion.evolves ⟨rfl, le_rfl⟩
  | revokeSlot =>
    cases h
    exact NewVersion.evolves ⟨sub.revokeSlot_desiredVersion, sub.revokeSlot_actualVersion.le⟩

namespace WhiteInternetSubscription
variable {task : ReconcileTask} {a : ReconcileAnswer} {now : Time} {sub : WhiteInternetSubscription}

/-- A run changes neither the demand nor, when it confirms, the desired version. -/
theorem reconcile_advances (task : ReconcileTask) (a : ReconcileAnswer) (now : Time)
    (sub : WhiteInternetSubscription) : Advances sub (sub.reconcile task a now) := by
  rw [reconcile]
  split
  · refine ⟨le_rfl, fun _ => ?_⟩
    simp only [DemandsActive, synced]
    split_ifs with hactive
    · exact iff_of_true (.inr rfl) (.inl hactive.1)
    · exact Iff.rfl
  · refine ⟨?_, fun _ => Iff.rfl⟩
    simp only [unsynced]
    split_ifs
    · omega
    · exact le_rfl

/-- The actual version stays within the desired one when the task's does. -/
theorem reconcile_actual_le (hsub : sub.actualVersion ≤ sub.desiredVersion)
    (htask : task.targetVersion ≤ sub.desiredVersion) :
    (sub.reconcile task a now).actualVersion ≤ (sub.reconcile task a now).desiredVersion := by
  have hle := (reconcile_advances task a now sub).desired_le
  by_cases hc : a.Confirms task sub
  · rw [reconcile, if_pos hc]
    simp only [synced]
    split_ifs
    · exact htask
    · exact max_le hsub htask
  · rw [reconcile, if_neg hc] at hle ⊢
    exact hsub.trans hle

theorem reconcile_of_unconfirmed (h : ¬ a.Confirms task sub) :
    sub.reconcile task a now = sub.unsynced task a now := if_neg h

theorem reconcile_of_confirmed (h : a.Confirms task sub) :
    sub.reconcile task a now = sub.synced task a now := if_pos h

end WhiteInternetSubscription

namespace ProvisioningState

/-- A request that reaches its node is applied there, or changes nothing. -/
theorem deliver_cases (s : ProvisioningState) (r : SyncRequest) :
    s.deliver r = s ∨ ∃ epoch, (s.nodes r.server).epoch = some epoch ∧
      (s.nodes r.server).Accepts r.version ∧ s.deliver r = { s with
        nodes := Function.update s.nodes r.server ⟨some epoch, some (r.version, r.active)⟩
        applied := s.applied ++ [⟨r.server, epoch, r.version, r.active⟩] } := by
  rw [deliver]
  split
  · exact .inl rfl
  · rename_i epoch hepoch
    split_ifs with haccepts
    · exact .inr ⟨epoch, hepoch, haccepts, rfl⟩
    · exact .inl rfl

/-- A run that begins takes its task and calls its node. -/
theorem call_cases (s : ProvisioningState) (i : ℕ) (outcome : CallOutcome) :
    s.call i outcome = s ∨ ∃ server task, s.tasks[i]? = some (server, task) ∧
      ((∃ tags, s.call i outcome =
          { (s.dispatched i (task.request server)).deliver (task.request server) with
            running := some ⟨server, task, s.answer (task.request server) tags⟩ }) ∨
        ∃ result, (result = .fenced ∨ result = .failed) ∧ s.call i outcome =
          { s.dispatched i (task.request server) with
            running := some ⟨server, task, { result := result }⟩ }) := by
  rw [call]
  split
  · exact .inl rfl
  · split
    · exact .inl rfl
    · rename_i server task htask
      refine .inr ⟨server, task, htask, ?_⟩
      cases outcome with
      | handled tags => exact .inl ⟨tags, rfl⟩
      | fenced => exact .inr ⟨.fenced, .inl rfl, rfl⟩
      | failed => exact .inr ⟨.failed, .inr rfl, rfl⟩

@[simp] theorem deliver_row (s : ProvisioningState) (r : SyncRequest) :
    (s.deliver r).row = s.row := by
  rcases s.deliver_cases r with h | ⟨_, -, -, h⟩
  · rw [h]
  · rw [h]

@[simp] theorem call_row (s : ProvisioningState) (i : ℕ) (outcome : CallOutcome) :
    (s.call i outcome).row = s.row := by
  rcases s.call_cases i outcome with h | ⟨server, task, -, ⟨tags, h⟩ | ⟨result, -, h⟩⟩
  · rw [h]
  · rw [h]
    exact deliver_row _ _
  · rw [h]
    rfl

/-- What can become of the row in a step. -/
inductive RowStep (sub : WhiteInternetSubscription) : Option WhiteInternetSubscription → Prop
  | kept : RowStep sub (some sub)
  | changed {c : RowChange} {sub' : WhiteInternetSubscription} (h : c.apply sub = some sub') :
    RowStep sub (some sub')
  | expired (now : Time) : RowStep sub (some (sub.expireDue now))
  | reconciled (task : ReconcileTask) (a : ReconcileAnswer) (now : Time) :
    RowStep sub (some (sub.reconcile task a now))
  | removed (h : sub.HardDeletable) : RowStep sub none

theorem step_row (s : ProvisioningState) (e : ProvisioningEvent) {sub : WhiteInternetSubscription}
    (h : s.row = some sub) : RowStep sub (s.step e).row := by
  have hkept {row : Option WhiteInternetSubscription} (hrow : row = s.row) : RowStep sub row := by
    rw [hrow, h]
    exact .kept
  cases e with
  | change c =>
    rw [step, change, h]
    cases hc : c.apply sub with
    | none =>
      simp only [Option.bind_some, hc]
      exact hkept rfl
    | some sub' =>
      simp only [Option.bind_some, hc]
      exact .changed hc
  | build targetEpoch inboundTags now =>
    simp only [step, build, h]
    split
    · exact hkept rfl
    · split_ifs
      · exact .expired now
      · exact hkept rfl
  | call i outcome => exact hkept (s.call_row i outcome)
  | deliver j =>
    rw [step]
    cases s.sent[j]? with
    | none => exact hkept rfl
    | some r => exact hkept (s.deliver_row r)
  | finish error inventory now =>
    rw [step, finish]
    split
    · exact hkept rfl
    · rw [h]
      exact .reconciled ..
  | crash => exact hkept rfl
  | restart server epoch =>
    rw [step]
    split_ifs
    · exact hkept rfl
    · exact hkept rfl
  | finalize =>
    simp only [step, finalize, h]
    split_ifs with hdelete
    · exact .removed hdelete
    · exact hkept rfl

theorem step_advances (s : ProvisioningState) (e : ProvisioningEvent)
    {sub sub' : WhiteInternetSubscription} (h : s.row = some sub)
    (h' : (s.step e).row = some sub') : Advances sub sub' := by
  have hstep := s.step_row e h
  rw [h'] at hstep
  cases hstep with
  | kept => exact (SameProvision.refl sub).evolves.toAdvances
  | changed hc => exact (RowChange.apply_evolves hc).toAdvances
  | expired now => exact (expireDue_keepsOrBumps now sub).evolves.toAdvances
  | reconciled task a now => exact reconcile_advances task a now sub

end ProvisioningState

/-! ### What every run keeps -/

namespace WhiteInternetSubscription

/-- A version the client was asked for under: no newer than the row's, and under the row's own
    version only in the state the row demands. -/
structure Fits (sub : WhiteInternetSubscription) (version : ℕ) (active : Bool) : Prop where
  le : version ≤ sub.desiredVersion
  demand : version = sub.desiredVersion → (active = true ↔ sub.DemandsActive)

theorem Fits.advance {sub sub' : WhiteInternetSubscription} {version : ℕ} {active : Bool}
    (h : Fits sub version active) (hadv : Advances sub sub') : Fits sub' version active := by
  have hle := h.le
  have hle' := hadv.desired_le
  refine ⟨hle.trans hle', fun heq => ?_⟩
  have hsame : sub'.desiredVersion = sub.desiredVersion := by omega
  exact (h.demand (heq.trans hsame)).trans (hadv.demand hsame).symm

end WhiteInternetSubscription

namespace ProvisioningState

/-- What a run under way knows: the node that applied its request still stores no older version, and
    one that has a newer version got it from a later state of the row. -/
structure Grounded (s : ProvisioningState) (sub : WhiteInternetSubscription) (run : ReconcileRun) :
    Prop where
  fits : sub.Fits run.task.targetVersion run.task.desiredActive
  applied : run.sync.result = .applied → ∃ epoch, run.sync.verifiedEpoch = some epoch ∧
    ⟨run.server, epoch, run.task.targetVersion, run.task.desiredActive⟩ ∈ s.applied ∧
    ∃ stored ∈ (s.nodes run.server).stored, run.task.targetVersion ≤ stored.1
  newer : run.sync.result = .alreadyNewer → run.task.targetVersion < sub.desiredVersion

/-- Every version that is about fits the row. -/
structure Bounded (s : ProvisioningState) (sub : WhiteInternetSubscription) : Prop where
  pos : 0 < sub.desiredVersion
  actual_le : sub.actualVersion ≤ sub.desiredVersion
  tasks : ∀ t ∈ s.tasks, sub.Fits t.2.targetVersion t.2.desiredActive
  sent : ∀ r ∈ s.sent, sub.Fits r.version r.active
  stored : ∀ server, ∀ stored ∈ (s.nodes server).stored, sub.Fits stored.1 stored.2
  applied : ∀ e ∈ s.applied, sub.Fits e.version e.active
  running : ∀ run ∈ s.running, s.Grounded sub run

/-- The invariant, as long as there is a row. -/
def Inv (s : ProvisioningState) : Prop := ∀ sub ∈ s.row, s.Bounded sub

variable {s : ProvisioningState} {sub sub' : WhiteInternetSubscription}

theorem Grounded.advance {run : ReconcileRun} (h : s.Grounded sub run) (hadv : Advances sub sub') :
    s.Grounded sub' run :=
  ⟨h.fits.advance hadv, h.applied, fun hn => (h.newer hn).trans_le hadv.desired_le⟩

/-- The row moves on: everything that is about still fits it. -/
theorem Bounded.advance (h : s.Bounded sub) (hadv : Advances sub sub')
    (hactual : sub'.actualVersion ≤ sub'.desiredVersion) : s.Bounded sub' where
  pos := h.pos.trans_le hadv.desired_le
  actual_le := hactual
  tasks t ht := (h.tasks t ht).advance hadv
  sent r hr := (h.sent r hr).advance hadv
  stored server stored hs := (h.stored server stored hs).advance hadv
  applied e he := (h.applied e he).advance hadv
  running run hrun := (h.running run hrun).advance hadv

theorem Bounded.evolve (h : s.Bounded sub) (hev : Evolves sub sub') : s.Bounded sub' :=
  h.advance hev.toAdvances ((hev.actual_le.trans h.actual_le).trans hev.desired_le)

theorem deliver_of_accepts {r : SyncRequest} {epoch : Epoch}
    (hepoch : (s.nodes r.server).epoch = some epoch)
    (haccepts : (s.nodes r.server).Accepts r.version) :
    s.deliver r = { s with
      nodes := Function.update s.nodes r.server ⟨some epoch, some (r.version, r.active)⟩
      applied := s.applied ++ [⟨r.server, epoch, r.version, r.active⟩] } := by
  simp only [deliver, hepoch, if_pos haccepts]

/-- What a request leaves at a node: what was there, or itself, and then nothing newer was there. -/
theorem deliver_stored {r : SyncRequest} {server : ServerId} {stored : ℕ × Bool}
    (h : stored ∈ ((s.deliver r).nodes server).stored) :
    stored ∈ (s.nodes server).stored ∨ stored = (r.version, r.active) := by
  rcases s.deliver_cases r with heq | ⟨epoch, -, -, heq⟩
  · rw [heq] at h
    exact .inl h
  · rw [heq] at h
    by_cases hserver : server = r.server
    · subst hserver
      simp only [Function.update_self, Option.mem_some_iff] at h
      exact .inr h.symm
    · simp only [Function.update_of_ne hserver] at h
      exact .inl h

/-- A request never leaves an older version at a node. -/
theorem deliver_stored_le {r : SyncRequest} {server : ServerId} {stored : ℕ × Bool}
    (h : stored ∈ (s.nodes server).stored) :
    ∃ stored' ∈ ((s.deliver r).nodes server).stored, stored.1 ≤ stored'.1 := by
  rcases s.deliver_cases r with heq | ⟨epoch, -, haccepts, heq⟩
  · rw [heq]
    exact ⟨stored, h, le_rfl⟩
  · rw [heq]
    by_cases hserver : server = r.server
    · subst hserver
      refine ⟨(r.version, r.active), ?_, haccepts stored h⟩
      simp only [Function.update_self, Option.mem_some_iff]
    · refine ⟨stored, ?_, le_rfl⟩
      simp only [Function.update_of_ne hserver]
      exact h

theorem deliver_applied {r : SyncRequest} {e : AppliedSync} (h : e ∈ (s.deliver r).applied) :
    e ∈ s.applied ∨ e.version = r.version ∧ e.active = r.active := by
  rcases s.deliver_cases r with heq | ⟨epoch, -, -, heq⟩
  · rw [heq] at h
    exact .inl h
  · rw [heq] at h
    rcases List.mem_append.mp h with h | h
    · exact .inl h
    · rw [List.mem_singleton.mp h]
      exact .inr ⟨rfl, rfl⟩

theorem subset_deliver_applied {r : SyncRequest} {e : AppliedSync} (h : e ∈ s.applied) :
    e ∈ (s.deliver r).applied := by
  rcases s.deliver_cases r with heq | ⟨epoch, -, -, heq⟩
  · rw [heq]
    exact h
  · rw [heq]
    exact List.mem_append_left _ h

theorem subset_call_applied {i : ℕ} {outcome : CallOutcome} {e : AppliedSync}
    (h : e ∈ s.applied) : e ∈ (s.call i outcome).applied := by
  rcases s.call_cases i outcome with heq | ⟨server, task, -, ⟨tags, heq⟩ | ⟨result, -, heq⟩⟩
  · rw [heq]
    exact h
  · rw [heq]
    exact subset_deliver_applied (s := s.dispatched i (task.request server)) h
  · rw [heq]
    exact h

@[simp] theorem deliver_tasks (s : ProvisioningState) (r : SyncRequest) :
    (s.deliver r).tasks = s.tasks := by
  rcases s.deliver_cases r with h | ⟨_, -, -, h⟩
  · rw [h]
  · rw [h]

@[simp] theorem deliver_sent (s : ProvisioningState) (r : SyncRequest) :
    (s.deliver r).sent = s.sent := by
  rcases s.deliver_cases r with h | ⟨_, -, -, h⟩
  · rw [h]
  · rw [h]

@[simp] theorem deliver_running (s : ProvisioningState) (r : SyncRequest) :
    (s.deliver r).running = s.running := by
  rcases s.deliver_cases r with h | ⟨_, -, -, h⟩
  · rw [h]
  · rw [h]

theorem Grounded.deliver {run : ReconcileRun} (h : s.Grounded sub run) (r : SyncRequest) :
    (s.deliver r).Grounded sub run := by
  refine ⟨h.fits, fun happlied => ?_, h.newer⟩
  obtain ⟨epoch, hepoch, hmem, stored, hstored, hle⟩ := h.applied happlied
  obtain ⟨stored', hstored', hle'⟩ := deliver_stored_le (r := r) hstored
  exact ⟨epoch, hepoch, subset_deliver_applied hmem, stored', hstored', hle.trans hle'⟩

theorem Bounded.deliver (h : s.Bounded sub) {r : SyncRequest}
    (hr : sub.Fits r.version r.active) : (s.deliver r).Bounded sub where
  pos := h.pos
  actual_le := h.actual_le
  tasks t ht := h.tasks t (s.deliver_tasks r ▸ ht)
  sent r' hr' := h.sent r' (s.deliver_sent r ▸ hr')
  stored server stored hs := by
    rcases deliver_stored hs with hs | rfl
    · exact h.stored server stored hs
    · exact hr
  applied e he := by
    rcases deliver_applied he with he | ⟨hv, ha⟩
    · exact h.applied e he
    · rw [hv, ha]
      exact hr
  running run hrun := (h.running run (s.deliver_running r ▸ hrun)).deliver r

/-- A step that leaves the nodes alone, and adds only what fits. -/
theorem Bounded.frame {s' : ProvisioningState} (h : s.Bounded sub)
    (htasks : ∀ t ∈ s'.tasks, t ∈ s.tasks ∨ sub.Fits t.2.targetVersion t.2.desiredActive)
    (hsent : ∀ r ∈ s'.sent, r ∈ s.sent ∨ sub.Fits r.version r.active)
    (hstored : ∀ server, (s'.nodes server).stored = (s.nodes server).stored)
    (happlied : s'.applied = s.applied) (hrunning : ∀ run ∈ s'.running, run ∈ s.running) :
    s'.Bounded sub where
  pos := h.pos
  actual_le := h.actual_le
  tasks t ht := (htasks t ht).elim (h.tasks t) id
  sent r hr := (hsent r hr).elim (h.sent r) id
  stored server stored hs := h.stored server stored (hstored server ▸ hs)
  applied e he := h.applied e (happlied ▸ he)
  running run hrun := by
    have hg := h.running run (hrunning run hrun)
    refine ⟨hg.fits, fun hresult => ?_, hg.newer⟩
    rw [happlied, hstored]
    exact hg.applied hresult

theorem Bounded.dispatched (h : s.Bounded sub) (i : ℕ) {r : SyncRequest}
    (hr : sub.Fits r.version r.active) : (s.dispatched i r).Bounded sub := by
  refine h.frame (fun t ht => .inl (List.mem_of_mem_eraseIdx ht)) (fun r' hr' => ?_)
    (fun _ => rfl) rfl fun _ hrun => hrun
  rcases List.mem_append.mp hr' with hr' | hr'
  · exact .inl hr'
  · rw [List.mem_singleton.mp hr']
    exact .inr hr

theorem Bounded.withRun (h : s.Bounded sub) {run : ReconcileRun} (hrun : s.Grounded sub run) :
    { s with running := some run }.Bounded sub where
  pos := h.pos
  actual_le := h.actual_le
  tasks := h.tasks
  sent := h.sent
  stored := h.stored
  applied := h.applied
  running run' hrun' := by
    cases hrun'
    exact ⟨hrun.fits, hrun.applied, hrun.newer⟩

/-- What the node answered, it did. -/
theorem grounded_answer (h : s.Bounded sub) (i : ℕ) {server : ServerId} {task : ReconcileTask}
    (htask : sub.Fits task.targetVersion task.desiredActive) (tags : List String) :
    ((s.dispatched i (task.request server)).deliver (task.request server)).Grounded sub
      ⟨server, task, s.answer (task.request server) tags⟩ := by
  refine ⟨htask, fun hresult => ?_, fun hresult => ?_⟩
  · simp only [answer] at hresult ⊢
    split at hresult
    · cases hresult
    · rename_i epoch hepoch
      split_ifs at hresult with haccepts
      refine ⟨epoch, rfl, ?_⟩
      rw [deliver_of_accepts (s := s.dispatched i (task.request server)) (r := task.request server)
        hepoch haccepts]
      refine ⟨List.mem_append_right _ (List.mem_singleton_self _),
        (task.targetVersion, task.desiredActive), ?_, le_rfl⟩
      rw [ReconcileTask.request]
      simp only [Function.update_self, Option.mem_some_iff]
  · simp only [answer] at hresult
    split at hresult
    · cases hresult
    · split_ifs at hresult with haccepts
      simp only [NodeRuntime.Accepts, not_forall, not_le] at haccepts
      obtain ⟨stored, hstored, hlt⟩ := haccepts
      exact hlt.trans_le (h.stored server stored hstored).le

theorem Bounded.call (h : s.Bounded sub) (i : ℕ) (outcome : CallOutcome) :
    (s.call i outcome).Bounded sub := by
  rcases s.call_cases i outcome with heq | ⟨server, task, htask, ⟨tags, heq⟩ | ⟨result, hr, heq⟩⟩
  · rw [heq]
    exact h
  · have hfits := h.tasks _ (List.mem_of_getElem? htask)
    rw [heq]
    exact ((h.dispatched i (r := task.request server) hfits).deliver hfits).withRun
      (grounded_answer h i hfits tags)
  · have hfits := h.tasks _ (List.mem_of_getElem? htask)
    rw [heq]
    refine (h.dispatched i (r := task.request server) hfits).withRun ⟨hfits, ?_, ?_⟩
    all_goals
      intro hresult
      rcases hr with rfl | rfl
      · cases hresult
      · cases hresult

/-- The client is to be disabled after a deactivation. -/
theorem dispatches_demand {c : RowChange} (hc : c.Dispatches) (h : c.apply sub = some sub') :
    ¬ sub'.DemandsActive := by
  unfold RowChange.Dispatches at hc
  split at hc
  · obtain ⟨-, h⟩ := RowChange.apply_op_iff.mp h
    simp only [RowOp.apply] at h
    split_ifs at h
    cases h
    simp [DemandsActive, disable]
  · obtain ⟨-, h⟩ := RowChange.apply_op_iff.mp h
    simp only [RowOp.apply] at h
    split_ifs at h
    cases h
    simp [DemandsActive, resetTrial, disable]
  · exact hc.elim

theorem Inv.change (h : s.Inv) (c : RowChange) : (s.change c).Inv := by
  rw [ProvisioningState.change]
  split
  · exact h
  · rename_i sub' hsub'
    obtain ⟨sub, hrow, hc⟩ := Option.bind_eq_some_iff.mp hsub'
    rintro _ ⟨⟩
    have hb := (h sub hrow).evolve (RowChange.apply_evolves hc)
    refine hb.frame (fun t ht => .inl ht) (fun r hr => ?_) (fun _ => rfl) rfl fun _ hrun => hrun
    dsimp only at hr
    split_ifs at hr with hdispatch
    · rcases List.mem_append.mp hr with hr | hr
      · exact .inl hr
      · obtain ⟨server, -, rfl⟩ := List.mem_map.mp hr
        refine .inr ⟨le_rfl, fun _ => iff_of_false Bool.false_ne_true ?_⟩
        exact dispatches_demand hdispatch hc
    · exact .inl hr

theorem Inv.build (h : s.Inv) (targetEpoch : Epoch) (inboundTags : List String) (now : Time) :
    (s.build targetEpoch inboundTags now).Inv := by
  rw [ProvisioningState.build]
  split
  · exact h
  · rename_i sub hrow
    split
    · exact h
    · split_ifs
      · rintro _ ⟨⟩
        have hb := (h sub hrow).evolve (expireDue_keepsOrBumps now sub).evolves
        refine hb.frame (fun t ht => ?_) (fun _ hr => .inl hr) (fun _ => rfl) rfl
          fun _ hrun => hrun
        rcases List.mem_append.mp ht with ht | ht
        · exact .inl ht
        · rw [List.mem_singleton.mp ht]
          exact .inr ⟨le_rfl, fun _ => reconcileTask_demand ..⟩
      · exact h

theorem Inv.finish (h : s.Inv) (error : Option String) (inventory : Option Inventory)
    (now : Time) : (s.finish error inventory now).Inv := by
  rw [ProvisioningState.finish]
  split
  · exact h
  · rename_i run hrun
    intro sub' hsub'
    obtain ⟨sub, hrow, rfl⟩ := Option.map_eq_some_iff.mp hsub'
    have hb := h sub hrow
    have hb' := hb.advance (reconcile_advances run.task ⟨run.sync, error, inventory⟩ now sub)
      (reconcile_actual_le hb.actual_le (hb.running run hrun).fits.le)
    exact hb'.frame (fun _ ht => .inl ht) (fun _ hr => .inl hr) (fun _ => rfl) rfl
      fun _ hrun' => absurd hrun' (Option.not_mem_none _)

theorem Inv.step (s : ProvisioningState) (e : ProvisioningEvent) (h : s.Inv) : (s.step e).Inv := by
  cases e with
  | change c => exact h.change c
  | build targetEpoch inboundTags now => exact h.build targetEpoch inboundTags now
  | call i outcome => exact fun sub hsub => (h sub (s.call_row i outcome ▸ hsub)).call i outcome
  | deliver j =>
    rw [ProvisioningState.step]
    cases hj : s.sent[j]? with
    | none => exact h
    | some r =>
      intro sub hsub
      have hb := h sub (s.deliver_row r ▸ hsub)
      exact hb.deliver (hb.sent r (List.mem_of_getElem? hj))
  | finish error inventory now => exact h.finish error inventory now
  | crash =>
    intro sub hsub
    exact (h sub hsub).frame (fun _ ht => absurd ht List.not_mem_nil) (fun _ hr => .inl hr)
      (fun _ => rfl) rfl fun _ hrun => absurd hrun (Option.not_mem_none _)
  | restart server epoch =>
    rw [ProvisioningState.step]
    split_ifs
    · exact h
    · intro sub hsub
      refine (h sub hsub).frame (fun _ ht => .inl ht) (fun _ hr => .inl hr) (fun k => ?_) rfl
        fun _ hrun => hrun
      by_cases hk : k = server
      · subst hk
        simp only [Function.update_self]
      · simp only [Function.update_of_ne hk]
  | finalize =>
    rw [ProvisioningState.step, ProvisioningState.finalize]
    split
    · exact h
    · split_ifs
      · exact fun sub hsub => absurd hsub (Option.not_mem_none sub)
      · exact h

theorem inv_created (id : ℕ) (userId : UserId) (origin : ServerId) (uuid : Uuid) (isTrial : Bool)
    (now : Time) : (created id userId origin uuid isTrial now).Inv := by
  rintro sub ⟨⟩
  refine ⟨?_, ?_, fun _ ht => absurd ht List.not_mem_nil, fun _ hr => absurd hr List.not_mem_nil,
    fun _ _ hs => absurd hs (Option.not_mem_none _), fun _ he => absurd he List.not_mem_nil,
    fun _ hrun => absurd hrun (Option.not_mem_none _)⟩
  · rw [fresh]
    split_ifs
    · exact Nat.one_pos
    · exact Nat.one_pos
  · rw [fresh]
    split_ifs
    · exact Nat.zero_le _
    · exact Nat.zero_le _

/-! ### The property and its condition -/

/-- The versions are in order, and a row that is at its desired version and settled was applied by
    its origin, at this version and in the epoch it names, in the state its status demands. -/
structure SoundRow (s : ProvisioningState) (sub : WhiteInternetSubscription) : Prop where
  actual_le : sub.actualVersion ≤ sub.desiredVersion
  enabled : ∀ server ∈ sub.originNodeId, sub.actualVersion = sub.desiredVersion →
    sub.provisioningStatus = .active → sub.DemandsActive ∧
      ∃ epoch ∈ sub.lastReconciledNodeEpoch, ⟨server, epoch, sub.actualVersion, true⟩ ∈ s.applied
  disabled : ∀ server ∈ sub.originNodeId, sub.actualVersion = sub.desiredVersion →
    sub.provisioningStatus = .syncedInactive → ¬ sub.DemandsActive ∧
      ∃ epoch ∈ sub.lastReconciledNodeEpoch, ⟨server, epoch, sub.actualVersion, false⟩ ∈ s.applied

instance (s : ProvisioningState) (sub : WhiteInternetSubscription) : Decidable (s.SoundRow sub) :=
  decidable_of_iff
    (sub.actualVersion ≤ sub.desiredVersion ∧
      (∀ server ∈ sub.originNodeId, sub.actualVersion = sub.desiredVersion →
        sub.provisioningStatus = .active → sub.DemandsActive ∧
          ∃ epoch ∈ sub.lastReconciledNodeEpoch,
            ⟨server, epoch, sub.actualVersion, true⟩ ∈ s.applied) ∧
      ∀ server ∈ sub.originNodeId, sub.actualVersion = sub.desiredVersion →
        sub.provisioningStatus = .syncedInactive → ¬ sub.DemandsActive ∧
          ∃ epoch ∈ sub.lastReconciledNodeEpoch,
            ⟨server, epoch, sub.actualVersion, false⟩ ∈ s.applied)
    ⟨fun ⟨hle, henabled, hdisabled⟩ => ⟨hle, henabled, hdisabled⟩,
      fun ⟨hle, henabled, hdisabled⟩ => ⟨hle, henabled, hdisabled⟩⟩

def Sound (s : ProvisioningState) : Prop := ∀ sub ∈ s.row, s.SoundRow sub

instance : DecidablePred Sound := fun s => by unfold Sound; infer_instance

/-- A step that changes what the status demands raises the desired version. -/
def Bumps (s : ProvisioningState) (e : ProvisioningEvent) : Prop :=
  ∀ sub ∈ s.row, ∀ sub' ∈ (s.step e).row, ¬ (sub'.DemandsActive ↔ sub.DemandsActive) →
    sub.desiredVersion < sub'.desiredVersion

/-- A run that confirms finds the row where it called; and after `already_newer`, a row at its
    desired version has the epoch and the demand of the task already. -/
def ConfirmsInPlace (s : ProvisioningState) : ProvisioningEvent → Prop
  | .finish error inventory _ => ∀ run ∈ s.running, ∀ sub ∈ s.row, ∀ server ∈ sub.originNodeId,
      ReconcileAnswer.Confirms ⟨run.sync, error, inventory⟩ run.task sub →
        (run.sync.result = .applied → server = run.server) ∧
        (run.sync.result = .alreadyNewer → sub.actualVersion = sub.desiredVersion →
          sub.lastReconciledNodeEpoch = some run.task.targetEpoch ∧
            (run.task.desiredActive = true ↔ sub.DemandsActive))
  | _ => True

instance (s : ProvisioningState) (e : ProvisioningEvent) : Decidable (s.ConfirmsInPlace e) := by
  unfold ConfirmsInPlace
  split <;> infer_instance

/-- What a row at its desired version stands on, settled or not. -/
structure Settled (s : ProvisioningState) (sub : WhiteInternetSubscription) (server : ServerId) :
    Prop where
  applied : ∃ epoch ∈ sub.lastReconciledNodeEpoch,
    ⟨server, epoch, sub.actualVersion, decide sub.DemandsActive⟩ ∈ s.applied
  active : sub.provisioningStatus = .active → sub.DemandsActive
  inactive : sub.provisioningStatus = .syncedInactive → ¬ sub.DemandsActive

def Recorded (s : ProvisioningState) (sub : WhiteInternetSubscription) : Prop :=
  ∀ server ∈ sub.originNodeId, sub.actualVersion = sub.desiredVersion → s.Settled sub server

theorem Recorded.sound (h : s.Recorded sub) (hb : s.Bounded sub) : s.SoundRow sub := by
  refine ⟨hb.actual_le, fun server hserver heq hactive => ?_, fun server hserver heq hidle => ?_⟩
  · have hs := h server hserver heq
    have hdemand := hs.active hactive
    refine ⟨hdemand, ?_⟩
    simpa only [decide_eq_true hdemand] using hs.applied
  · have hs := h server hserver heq
    have hdemand := hs.inactive hidle
    refine ⟨hdemand, ?_⟩
    simpa only [decide_eq_false hdemand] using hs.applied

theorem Recorded.mono {s' : ProvisioningState} (h : s.Recorded sub)
    (happlied : ∀ e ∈ s.applied, e ∈ s'.applied) : s'.Recorded sub := by
  intro server hserver heq
  obtain ⟨⟨epoch, hepoch, hmem⟩, hactive, hinactive⟩ := h server hserver heq
  exact ⟨⟨epoch, hepoch, happlied _ hmem⟩, hactive, hinactive⟩

/-- An operation forgets the confirmation, asks for a new version, or changes nothing of it. -/
theorem Recorded.evolve (h : s.Recorded sub) (hb : s.Bounded sub) (hev : Evolves sub sub') :
    s.Recorded sub' := by
  intro server hserver heq
  have hpos := hb.pos
  have hle := hb.actual_le
  have hle' := hev.actual_le
  have hdesired := hev.desired_le
  have hsame : sub'.desiredVersion = sub.desiredVersion := by omega
  rcases hev.confirmed hsame with hzero | hnone | hkept
  · omega
  · rw [hnone] at hserver
    cases hserver
  · obtain ⟨⟨epoch, hepoch, hmem⟩, hactive, hinactive⟩ := h server (hkept.origin ▸ hserver)
      (by rw [← hkept.actual, heq, hsame])
    refine ⟨⟨epoch, hkept.epoch ▸ hepoch, ?_⟩, ?_, ?_⟩
    · simpa only [hkept.actual, hkept.demand] using hmem
    · simpa only [hkept.provisioning, hkept.demand] using hactive
    · simpa only [hkept.provisioning, hkept.demand] using hinactive

/-- A confirmed run records what its node did, if the row is still where the node was called. -/
theorem Recorded.synced (h : s.Recorded sub) {run : ReconcileRun} (hrun : s.Grounded sub run)
    {a : ReconcileAnswer} (ha : a.sync = run.sync) (hc : a.Confirms run.task sub) (now : Time)
    (hguard : ∀ server ∈ sub.originNodeId,
      (run.sync.result = .applied → server = run.server) ∧
      (run.sync.result = .alreadyNewer → sub.actualVersion = sub.desiredVersion →
        sub.lastReconciledNodeEpoch = some run.task.targetEpoch ∧
          (run.task.desiredActive = true ↔ sub.DemandsActive))) :
    s.Recorded (sub.synced run.task a now) := by
  intro server hserver heq
  obtain ⟨hplace, hnewer⟩ := hguard server hserver
  -- the demand is the task's: by its version, or because the row was at its own already
  have hdemand : (sub.synced run.task a now).DemandsActive ↔ sub.DemandsActive := by
    have hadv := reconcile_advances run.task a now sub
    rw [reconcile_of_confirmed hc] at hadv
    exact hadv.demand rfl
  have hsettled (htask : run.task.desiredActive = true ↔ sub.DemandsActive) :
      ((sub.synced run.task a now).provisioningStatus = .active →
        (sub.synced run.task a now).DemandsActive) ∧
      ((sub.synced run.task a now).provisioningStatus = .syncedInactive →
        ¬ (sub.synced run.task a now).DemandsActive) := by
    rw [hdemand, ← htask]
    simp only [WhiteInternetSubscription.synced]
    split_ifs with hactive
    · exact ⟨fun _ => hactive, nofun⟩
    · exact ⟨nofun, fun _ => hactive⟩
  cases hresult : run.sync.result with
  | applied =>
    have hversion : sub.desiredVersion = run.task.targetVersion := by
      simp only [ReconcileAnswer.Confirms, ha, hresult] at hc
      exact hc.1
    have htask := hrun.fits.demand hversion.symm
    obtain ⟨epoch, hepoch, hmem, -⟩ := hrun.applied hresult
    obtain ⟨hactive, hinactive⟩ := hsettled htask
    refine ⟨⟨epoch, ?_, ?_⟩, hactive, hinactive⟩
    · simp only [WhiteInternetSubscription.synced, ReconcileAnswer.verifiedEpoch, ha, hresult,
        hepoch, if_true, Option.getD_some, Option.mem_some_iff]
    · have hbool : decide (sub.synced run.task a now).DemandsActive = run.task.desiredActive := by
        rw [Bool.eq_iff_iff, decide_eq_true_iff, hdemand, htask]
      rw [hbool, heq, hplace hresult]
      simp only [WhiteInternetSubscription.synced, hversion]
      exact hmem
  | alreadyNewer =>
    have hlt := hrun.newer hresult
    have hactual : sub.actualVersion = sub.desiredVersion ∧
        (sub.synced run.task a now).actualVersion = sub.actualVersion := by
      simp only [WhiteInternetSubscription.synced, ha, hresult, reduceCtorEq, if_false] at heq ⊢
      omega
    obtain ⟨hepoch, htask⟩ := hnewer hresult hactual.1
    obtain ⟨⟨epoch, hmem, happlied⟩, -, -⟩ := h server hserver hactual.1
    obtain ⟨hactive, hinactive⟩ := hsettled htask
    refine ⟨⟨epoch, ?_, ?_⟩, hactive, hinactive⟩
    · rw [hepoch] at hmem
      simpa only [WhiteInternetSubscription.synced, ha, hresult, reduceCtorEq, if_false] using hmem
    · simpa only [hactual.2, hdemand] using happlied
  | fenced =>
    simp only [ReconcileAnswer.Confirms, ha, hresult] at hc
  | failed =>
    simp only [ReconcileAnswer.Confirms, ha, hresult] at hc

/-- A run that does not confirm leaves the row to be tried again. -/
theorem Recorded.unsynced (h : s.Recorded sub) (hb : s.Bounded sub) (task : ReconcileTask)
    (a : ReconcileAnswer) (now : Time) : s.Recorded (sub.unsynced task a now) := by
  intro server hserver heq
  have hle := hb.actual_le
  have hsame : sub.actualVersion = sub.desiredVersion := by
    simp only [WhiteInternetSubscription.unsynced] at heq
    split_ifs at heq
    · omega
    · exact heq
  exact ⟨(h server hserver hsame).applied, nofun, nofun⟩

/-- The invariant of a guarded run. -/
def Tracked (s : ProvisioningState) : Prop := ∀ sub ∈ s.row, s.Bounded sub ∧ s.Recorded sub

theorem Tracked.inv (h : s.Tracked) : s.Inv := fun sub hsub => (h sub hsub).1

theorem Tracked.step (s : ProvisioningState) (e : ProvisioningEvent) (h : s.Tracked)
    (hguard : s.ConfirmsInPlace e) : (s.step e).Tracked := by
  have hinv : (s.step e).Inv := h.inv.step s e
  intro sub' hsub'
  refine ⟨hinv sub' hsub', ?_⟩
  have hkept (hrow : s.row = some sub') (happlied : ∀ x ∈ s.applied, x ∈ (s.step e).applied) :
      (s.step e).Recorded sub' := (h sub' hrow).2.mono happlied
  cases e with
  | change c =>
    rw [ProvisioningState.step, ProvisioningState.change] at hsub' ⊢
    split at hsub'
    · exact (h sub' hsub').2
    · rename_i next hnext
      cases hsub'
      obtain ⟨sub, hrow, hc⟩ := Option.bind_eq_some_iff.mp hnext
      obtain ⟨hb, hrec⟩ := h sub hrow
      exact (hrec.evolve hb (RowChange.apply_evolves hc)).mono fun _ he => he
  | build targetEpoch inboundTags now =>
    rw [ProvisioningState.step, ProvisioningState.build] at hsub' ⊢
    split at hsub'
    · exact (h sub' hsub').2
    · rename_i sub hrow
      obtain ⟨hb, hrec⟩ := h sub hrow
      split at hsub'
      · exact (h sub' hsub').2
      · split_ifs at hsub' ⊢
        · cases hsub'
          exact (hrec.evolve hb (expireDue_keepsOrBumps now sub).evolves).mono fun _ he => he
        · exact (h sub' hsub').2
  | call i outcome => exact hkept (s.call_row i outcome ▸ hsub') fun _ => subset_call_applied
  | deliver j =>
    rw [ProvisioningState.step] at hsub' ⊢
    cases hj : s.sent[j]? with
    | none =>
      rw [hj] at hsub'
      exact (h sub' hsub').2
    | some r =>
      rw [hj] at hsub'
      exact (h sub' (s.deliver_row r ▸ hsub')).2.mono fun _ => subset_deliver_applied
  | finish error inventory now =>
    rw [ProvisioningState.step, ProvisioningState.finish] at hsub' ⊢
    split at hsub'
    · exact (h sub' hsub').2
    · rename_i run hrun
      obtain ⟨sub, hrow, rfl⟩ := Option.map_eq_some_iff.mp hsub'
      obtain ⟨hb, hrec⟩ := h sub hrow
      refine Recorded.mono (s := s) ?_ fun _ he => he
      by_cases hc : ReconcileAnswer.Confirms ⟨run.sync, error, inventory⟩ run.task sub
      · rw [reconcile_of_confirmed hc]
        exact hrec.synced (hb.running run hrun) rfl hc now fun server hserver =>
          hguard run hrun sub hrow server hserver hc
      · rw [reconcile_of_unconfirmed hc]
        exact hrec.unsynced hb run.task _ now
  | crash => exact hkept hsub' fun _ he => he
  | restart server epoch =>
    rw [ProvisioningState.step] at hsub' ⊢
    split_ifs at hsub' ⊢
    · exact (h sub' hsub').2
    · exact (h sub' hsub').2.mono fun _ he => he
  | finalize =>
    rw [ProvisioningState.step, ProvisioningState.finalize] at hsub' ⊢
    split at hsub'
    · exact (h sub' hsub').2
    · split_ifs at hsub' ⊢
      · cases hsub'
      · exact (h sub' hsub').2

theorem tracked_created (id : ℕ) (userId : UserId) (origin : ServerId) (uuid : Uuid)
    (isTrial : Bool) (now : Time) : (created id userId origin uuid isTrial now).Tracked := by
  intro sub hsub
  have hb := inv_created id userId origin uuid isTrial now sub hsub
  refine ⟨hb, fun server _ heq => ?_⟩
  have hzero : sub.actualVersion = 0 := by
    cases hsub
    rw [fresh]
    split_ifs
    · rfl
    · rfl
  exact absurd hb.pos (by omega)

theorem bumps (s : ProvisioningState) (e : ProvisioningEvent) : s.Bumps e := by
  intro sub hsub sub' hsub' hchanged
  have hadv := s.step_advances e hsub hsub'
  have hle := hadv.desired_le
  have hne : sub'.desiredVersion ≠ sub.desiredVersion := fun heq => hchanged (hadv.demand heq)
  omega

/-- From a fresh subscription, in every run whose confirmations find the row where they called, the
    reconciliation is sound in every state: the versions are in order, and what the row says of its
    node the node has done; and every step that changes the demand raises the desired version. -/
theorem reconciliation_sound (id : ℕ) (userId : UserId) (origin : ServerId) (uuid : Uuid)
    (isTrial : Bool) (now : Time) (es : List ProvisioningEvent)
    (h : Lib.Always step ConfirmsInPlace (created id userId origin uuid isTrial now) es) :
    Lib.Throughout step Sound (created id userId origin uuid isTrial now) es ∧
      Lib.Always step Bumps (created id userId origin uuid isTrial now) es := by
  have hstart := tracked_created id userId origin uuid isTrial now
  refine ⟨?_, Lib.always_of_inv step (I := fun _ => True) (fun _ _ _ => trivial)
    (fun s e _ => s.bumps e) es _ trivial⟩
  refine Lib.throughout_of_always step Tracked.step (fun s hs sub hsub => ?_) es _ hstart h
  exact (hs sub hsub).2.sound (hs sub hsub).1

/-- A purchase that the worker activates, and a ban that it takes to the node. -/
theorem reconciliation_sound_banned :
    Lib.Throughout step Sound (created 1 7 1 11 false 0)
        [.restart 1 100, .build 100 [] 0, .call 0 (.handled []), .finish none none 1,
         .change (.op (.disable "user_banned")), .build 100 [] 2, .call 0 (.handled []),
         .finish none none 3] ∧
      Lib.Always step Bumps (created 1 7 1 11 false 0)
        [.restart 1 100, .build 100 [] 0, .call 0 (.handled []), .finish none none 1,
         .change (.op (.disable "user_banned")), .build 100 [] 2, .call 0 (.handled []),
         .finish none none 3] :=
  reconciliation_sound 1 7 1 11 false 0 _ (by decide +kernel)

/-- While a run calls server 1, the purchase of a device slot moves the row to server 2, with no new
    version. The answer of server 1 makes the row active and up to date on server 2, which has never
    heard of the client. -/
theorem moved_row_confirmed :
    ¬ Lib.Throughout step Sound (created 1 7 1 11 false 0)
      [.restart 1 100, .build 100 [] 0, .call 0 (.handled []), .finish none none 1,
       .change (.op (.extend 5 2)), .build 100 [] 3, .call 0 (.handled []),
       .change (.moved (.addDeviceSlot 4) 2), .finish none none 5] := by
  decide +kernel

end ProvisioningState

end Just1kBot
