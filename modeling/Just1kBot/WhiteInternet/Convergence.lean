import Just1kBot.Lib.Progress
import Just1kBot.WhiteInternet.Provisioning

/-! The reconciliation brings a row and its node together.

    Whatever happened before, be it a move that a late answer confirmed on the wrong server or a
    request that arrived out of order: once the row stays as it is and its node runs, every task
    that is built asks for the row's own version, and no node has a newer one. So its answer settles
    the row, and what is still on its way can not take the two apart again. -/

namespace Just1kBot
open WhiteInternetSubscription

/-- The row says that its node has it, at its version and in the state that it demands. -/
structure WhiteInternetSubscription.UpToDate (sub : WhiteInternetSubscription) (epoch : Epoch) :
    Prop where
  actual : sub.actualVersion = sub.desiredVersion
  epoch : sub.lastReconciledNodeEpoch = some epoch
  provisioning : sub.provisioningStatus = if sub.DemandsActive then .active else .syncedInactive

/-- The task asks for the row's own version. -/
structure ReconcileTask.Current (task : ReconcileTask) (epoch : Epoch)
    (sub : WhiteInternetSubscription) : Prop where
  epoch : task.targetEpoch = epoch
  version : task.targetVersion = sub.desiredVersion

/-- The node verifies every inbound that the task expects, or names none. -/
def ReconcileTask.Covered (task : ReconcileTask) (verifiedInbounds : List String) : Prop :=
  verifiedInbounds = [] ∨ ∀ tag ∈ task.expectedInboundTags, tag ∈ verifiedInbounds

instance (task : ReconcileTask) (tags : List String) : Decidable (task.Covered tags) := by
  unfold ReconcileTask.Covered; infer_instance

namespace ProvisioningState

/-- The tasks that are not finished yet. -/
def outstanding (s : ProvisioningState) : ℕ := s.tasks.length + s.running.toList.length

/-- The answer of a node that handled a request is written to the row. -/
def Answers (s : ProvisioningState) : ProvisioningEvent → Prop
  | .finish .. => ∃ run ∈ s.running, run.sync.result = .applied ∨ run.sync.result = .alreadyNewer
  | _ => False

instance (s : ProvisioningState) (e : ProvisioningEvent) : Decidable (s.Answers e) := by
  rcases e with _ | _
  case finish =>
    exact inferInstanceAs (Decidable (∃ run ∈ s.running,
      run.sync.result = .applied ∨ run.sync.result = .alreadyNewer))
  all_goals exact .isFalse id

/-- Nobody changes what the reconciliation looks at. The worker takes the row when nothing is
    outstanding and the access has not ended, the origin is not restarted, and where it answers it
    verifies what is expected of it. -/
def Quiet (server : ServerId) (epoch : Epoch) (s : ProvisioningState) : ProvisioningEvent → Prop
  | .change c => ∀ sub ∈ s.row, ∀ sub' ∈ c.apply sub, SameProvision sub sub'
  | .build targetEpoch _ now => s.outstanding = 0 ∧ targetEpoch = epoch ∧
      ∀ sub ∈ s.row, ¬ (Expirable sub.status ∧ sub.expiresAt ≤ now)
  | .call _ (.handled verifiedInbounds) => ∀ t ∈ s.tasks, t.2.Covered verifiedInbounds
  | .restart other _ => other ≠ server
  | _ => True

/-- The origin of the row runs. -/
structure Runs (server : ServerId) (epoch : Epoch) (s : ProvisioningState) : Prop where
  inv : s.Inv
  epoch : (s.nodes server).epoch = some epoch
  origin : ∀ sub ∈ s.row, sub.originNodeId = some server

/-- The node stores the row's own version. -/
def Holds (server : ServerId) (s : ProvisioningState) (sub : WhiteInternetSubscription) : Prop :=
  (s.nodes server).stored = some (sub.desiredVersion, decide sub.DemandsActive)

/-- Nothing is under way but a task for the row as it is, which the node applied if it answered. -/
structure Ready (server : ServerId) (epoch : Epoch) (s : ProvisioningState) : Prop where
  single : s.outstanding ≤ 1
  tasks : ∀ t ∈ s.tasks, ∀ sub ∈ s.row, t.1 = server ∧ t.2.Current epoch sub
  running : ∀ run ∈ s.running, ∀ sub ∈ s.row, run.task.Current epoch sub ∧
    run.sync.result ≠ .alreadyNewer ∧
    (run.sync.result = .applied → run.sync.verifiedEpoch = some epoch ∧
      run.task.Covered run.sync.verifiedInbounds ∧ s.Holds server sub)

/-- Row and node agree, and nothing is under way. -/
structure Converged (server : ServerId) (epoch : Epoch) (s : ProvisioningState) : Prop where
  idle : s.outstanding = 0
  row : ∀ sub ∈ s.row, sub.UpToDate epoch ∧ s.Holds server sub

variable {server : ServerId} {epoch : Epoch} {s : ProvisioningState}
  {sub sub' : WhiteInternetSubscription}

/-! ### What a step leaves alone -/

theorem outstanding_eq_zero : s.outstanding = 0 ↔ s.tasks = [] ∧ s.running = none := by
  rw [outstanding, Nat.add_eq_zero_iff, List.length_eq_zero_iff]
  cases s.running with
  | none => simp
  | some run => simp

theorem deliver_epoch (s : ProvisioningState) (r : SyncRequest) (k : ServerId) :
    ((s.deliver r).nodes k).epoch = (s.nodes k).epoch := by
  rcases s.deliver_cases r with h | ⟨epoch, hepoch, -, h⟩
  · rw [h]
  · rw [h]
    by_cases hk : k = r.server
    · subst hk
      simp only [Function.update_self, hepoch]
    · simp only [Function.update_of_ne hk]

theorem call_epoch (s : ProvisioningState) (i : ℕ) (outcome : CallOutcome) (k : ServerId) :
    ((s.call i outcome).nodes k).epoch = (s.nodes k).epoch := by
  rcases s.call_cases i outcome with h | ⟨_, task, -, ⟨tags, h⟩ | ⟨result, -, h⟩⟩
  · rw [h]
  · rw [h]
    exact deliver_epoch _ _ k
  · rw [h]
    rfl

theorem reconcile_origin (task : ReconcileTask) (a : ReconcileAnswer) (now : Time)
    (sub : WhiteInternetSubscription) :
    (sub.reconcile task a now).originNodeId = sub.originNodeId := by
  rw [reconcile]
  split
  · rfl
  · rfl

/-- A late request leaves a node that has the row's version as it is. -/
theorem Holds.deliver (h : s.Holds server sub) {r : SyncRequest}
    (hr : sub.Fits r.version r.active) : (s.deliver r).Holds server sub := by
  rw [Holds]
  rcases s.deliver_cases r with heq | ⟨_, -, haccepts, heq⟩
  · rw [heq]
    exact h
  · rw [heq]
    by_cases hserver : server = r.server
    · subst hserver
      have hversion : r.version = sub.desiredVersion := le_antisymm hr.le (haccepts _ h)
      have hactive : r.active = decide sub.DemandsActive := by
        rw [Bool.eq_iff_iff, decide_eq_true_iff]
        exact hr.demand hversion
      simp only [Function.update_self, hversion, hactive]
    · simp only [Function.update_of_ne hserver]
      exact h

theorem Holds.same (h : s.Holds server sub) (hsame : SameProvision sub sub') :
    s.Holds server sub' := by
  rw [Holds, hsame.desired, h]
  simp only [hsame.demand]

/-- A change leaves everything but the row alone, as far as the tasks and the nodes go. -/
theorem change_frame (s : ProvisioningState) (c : RowChange) :
    (s.change c).nodes = s.nodes ∧ (s.change c).tasks = s.tasks ∧
      (s.change c).running = s.running := by
  rw [change]
  split
  · exact ⟨rfl, rfl, rfl⟩
  · exact ⟨rfl, rfl, rfl⟩

/-- A quiet change leaves what the reconciliation looks at. -/
theorem change_row {c : RowChange} (hquiet : s.Quiet server epoch (.change c))
    (h : sub' ∈ (s.change c).row) : ∃ sub ∈ s.row, SameProvision sub sub' := by
  rw [change] at h
  split at h
  · exact ⟨sub', h, .refl sub'⟩
  · rename_i sub'' hchange
    cases h
    obtain ⟨sub, hrow, hc⟩ := Option.bind_eq_some_iff.mp hchange
    exact ⟨sub, hrow, hquiet sub hrow sub' hc⟩

theorem finalize_frame (s : ProvisioningState) :
    s.finalize.nodes = s.nodes ∧ s.finalize.tasks = s.tasks ∧ s.finalize.running = s.running ∧
      ∀ sub ∈ s.finalize.row, sub ∈ s.row := by
  rw [finalize]
  split
  · exact ⟨rfl, rfl, rfl, fun _ h => h⟩
  · split_ifs
    · exact ⟨rfl, rfl, rfl, fun _ h => absurd h (Option.not_mem_none _)⟩
    · exact ⟨rfl, rfl, rfl, fun _ h => h⟩

/-- A restart of another node. -/
theorem restart_frame {other : ServerId} (hother : other ≠ server) (e : Epoch) :
    (s.step (.restart other e)).nodes server = s.nodes server ∧
      (s.step (.restart other e)).tasks = s.tasks ∧
      (s.step (.restart other e)).running = s.running ∧
      (s.step (.restart other e)).row = s.row := by
  rw [step]
  split_ifs
  · exact ⟨rfl, rfl, rfl, rfl⟩
  · exact ⟨Function.update_of_ne hother.symm _ _, rfl, rfl, rfl⟩

/-- What a quiet cycle does: nothing, or it builds a task for the row as it is. -/
theorem build_cases {targetEpoch : Epoch} {tags : List String} {now : Time}
    (hruns : s.Runs server epoch) (hquiet : s.Quiet server epoch (.build targetEpoch tags now)) :
    s.build targetEpoch tags now = s ∨ ∃ sub ∈ s.row, NeedsReconciliation server epoch now sub ∧
      s.build targetEpoch tags now =
        { s with tasks := [(server, sub.reconcileTask epoch tags now)] } := by
  obtain ⟨hidle, rfl, hlive⟩ := hquiet
  rw [build]
  split
  · exact .inl rfl
  · rename_i sub hrow
    rw [hruns.origin sub hrow]
    dsimp only
    split_ifs with hneeds
    · have hexpire : sub.expireDue now = sub := if_neg (hlive sub hrow)
      refine .inr ⟨sub, hrow, hneeds, ?_⟩
      rw [hexpire, (outstanding_eq_zero.mp hidle).1, ← hrow]
      rfl
    · exact .inl rfl

theorem Holds.call (h : s.Holds server sub) (hb : s.Bounded sub) (i : ℕ) (outcome : CallOutcome) :
    (s.call i outcome).Holds server sub := by
  rcases s.call_cases i outcome with heq | ⟨other, task, htask, ⟨tags, heq⟩ | ⟨_, -, heq⟩⟩
  · rw [heq]
    exact h
  · rw [heq]
    have hdispatched : (s.dispatched i (task.request other)).Holds server sub := h
    exact hdispatched.deliver (hb.tasks _ (List.mem_of_getElem? htask))
  · rw [heq]
    exact h

/-- In quiet only the worker's own write touches the row, and nothing takes the row's version from
    its node. -/
theorem row_of_quiet {e : ProvisioningEvent} (hruns : s.Runs server epoch)
    (hquiet : s.Quiet server epoch e) (hne : ∀ a b c, e ≠ .finish a b c)
    (h : sub' ∈ (s.step e).row) :
    ∃ sub ∈ s.row, SameProvision sub sub' ∧
      (s.Holds server sub → (s.step e).Holds server sub') := by
  cases e with
  | change c =>
    obtain ⟨sub, hsub, hsame⟩ := change_row hquiet h
    refine ⟨sub, hsub, hsame, fun hholds => ?_⟩
    rw [Holds, step, (s.change_frame c).1]
    exact hholds.same hsame
  | build targetEpoch tags now =>
    rw [step] at h ⊢
    rcases build_cases hruns hquiet with heq | ⟨_, -, -, heq⟩
    · rw [heq] at h ⊢
      exact ⟨sub', h, .refl sub', id⟩
    · rw [heq] at h ⊢
      exact ⟨sub', h, .refl sub', id⟩
  | call i outcome =>
    have hsub : sub' ∈ s.row := s.call_row i outcome ▸ h
    exact ⟨sub', hsub, .refl sub', fun hholds => hholds.call (hruns.inv sub' hsub) i outcome⟩
  | deliver j =>
    rw [step] at h ⊢
    cases hj : s.sent[j]? with
    | none =>
      rw [hj] at h
      exact ⟨sub', h, .refl sub', id⟩
    | some r =>
      rw [hj] at h
      have hsub : sub' ∈ s.row := s.deliver_row r ▸ h
      have hfits := (hruns.inv sub' hsub).sent r (List.mem_of_getElem? hj)
      exact ⟨sub', hsub, .refl sub', fun hholds => hholds.deliver hfits⟩
  | finish error inventory now => exact absurd rfl (hne error inventory now)
  | crash => exact ⟨sub', h, .refl sub', id⟩
  | restart other e' =>
    obtain ⟨hnode, -, -, hrow⟩ := restart_frame (s := s) hquiet e'
    refine ⟨sub', hrow ▸ h, .refl sub', fun hholds => ?_⟩
    rw [Holds, hnode]
    exact hholds
  | finalize =>
    refine ⟨sub', s.finalize_frame.2.2.2 sub' h, .refl sub', fun hholds => ?_⟩
    rw [Holds, step, s.finalize_frame.1]
    exact hholds

theorem Runs.step {e : ProvisioningEvent} (h : s.Runs server epoch)
    (hquiet : s.Quiet server epoch e) : (s.step e).Runs server epoch := by
  refine ⟨h.inv.step s e, ?_, fun sub' hsub' => ?_⟩
  · cases e with
    | change c => exact (congrArg (fun f => (f server).epoch) (s.change_frame c).1).trans h.epoch
    | build targetEpoch tags now =>
      rw [ProvisioningState.step]
      rcases build_cases h hquiet with heq | ⟨_, -, -, heq⟩
      · rw [heq]
        exact h.epoch
      · rw [heq]
        exact h.epoch
    | call i outcome => exact (call_epoch s i outcome server).trans h.epoch
    | deliver j =>
      rw [ProvisioningState.step]
      cases s.sent[j]? with
      | none => exact h.epoch
      | some r => exact (deliver_epoch s r server).trans h.epoch
    | finish error inventory now =>
      rw [ProvisioningState.step, finish]
      split
      · exact h.epoch
      · exact h.epoch
    | crash => exact h.epoch
    | restart other e' => rw [(restart_frame hquiet e').1]; exact h.epoch
    | finalize => rw [ProvisioningState.step, s.finalize_frame.1]; exact h.epoch
  · cases e with
    | finish error inventory now =>
      rw [ProvisioningState.step, finish] at hsub'
      split at hsub'
      · exact h.origin sub' hsub'
      · obtain ⟨sub, hsub, rfl⟩ := Option.map_eq_some_iff.mp hsub'
        exact (reconcile_origin ..).trans (h.origin sub hsub)
    | _ =>
      obtain ⟨sub, hsub, hsame, -⟩ := row_of_quiet h hquiet (by simp) hsub'
      exact hsame.origin.trans (h.origin sub hsub)

/-! ### Row and node stay together -/

theorem upToDate_due {now : Time} (h : sub.UpToDate epoch)
    (hneeds : NeedsReconciliation server epoch now sub) :
    Expirable sub.status ∧ sub.expiresAt ≤ now := by
  have hprovisioning := h.provisioning
  rcases hneeds.2 with hversion | hepoch | hstatus | hstatus | hstatus | hdue
  · exact absurd h.actual hversion
  · exact absurd h.epoch hepoch
  all_goals
    first
    | exact hdue
    | rw [hstatus] at hprovisioning
      split_ifs at hprovisioning

theorem upToDate_same (h : sub.UpToDate epoch) (hsame : SameProvision sub sub') :
    sub'.UpToDate epoch := by
  refine ⟨?_, hsame.epoch.trans h.epoch, ?_⟩
  · rw [hsame.actual, hsame.desired, h.actual]
  · rw [hsame.provisioning, h.provisioning]
    simp only [hsame.demand]

/-- Nothing is taken up while nothing is outstanding, but a row that needs it. -/
theorem outstanding_of_idle {e : ProvisioningEvent} (hidle : s.outstanding = 0)
    (hruns : s.Runs server epoch) (hquiet : s.Quiet server epoch e)
    (hrests : ∀ sub ∈ s.row, ∀ now, NeedsReconciliation server epoch now sub →
      Expirable sub.status ∧ sub.expiresAt ≤ now) : (s.step e).outstanding = 0 := by
  obtain ⟨htasks, hrunning⟩ := outstanding_eq_zero.mp hidle
  cases e with
  | change c => rw [step, outstanding, (s.change_frame c).2.1, (s.change_frame c).2.2]; exact hidle
  | build targetEpoch tags now =>
    rw [step]
    rcases build_cases hruns hquiet with heq | ⟨sub, hsub, hneeds, -⟩
    · rw [heq]
      exact hidle
    · exact absurd (hrests sub hsub now hneeds) (hquiet.2.2 sub hsub)
  | call i outcome => simpa [step, call, hrunning, htasks] using hidle
  | deliver j =>
    rw [step]
    cases s.sent[j]? with
    | none => exact hidle
    | some r => simpa [outstanding] using hidle
  | finish error inventory now => simpa [step, finish, hrunning] using hidle
  | crash => rfl
  | restart other e' =>
    obtain ⟨-, ht, hr, -⟩ := restart_frame (s := s) hquiet e'
    rw [outstanding, ht, hr]
    exact hidle
  | finalize => rw [step, outstanding, s.finalize_frame.2.1, s.finalize_frame.2.2.1]; exact hidle

theorem Converged.step {e : ProvisioningEvent} (h : s.Converged server epoch)
    (hruns : s.Runs server epoch) (hquiet : s.Quiet server epoch e) :
    (s.step e).Converged server epoch := by
  refine ⟨outstanding_of_idle h.idle hruns hquiet fun sub hsub now =>
    upToDate_due (h.row sub hsub).1, fun sub' hsub' => ?_⟩
  cases e with
  | finish error inventory now =>
    simp only [ProvisioningState.step, finish, (outstanding_eq_zero.mp h.idle).2] at hsub' ⊢
    exact h.row sub' hsub'
  | _ =>
    obtain ⟨sub, hsub, hsame, hholds⟩ := row_of_quiet hruns hquiet (by simp) hsub'
    exact ⟨upToDate_same (h.row sub hsub).1 hsame, hholds (h.row sub hsub).2⟩

/-! ### The next answer brings them together -/

theorem ready_of_idle (hidle : s.outstanding = 0) : s.Ready server epoch := by
  obtain ⟨htasks, hrunning⟩ := outstanding_eq_zero.mp hidle
  refine ⟨hidle.trans_le (Nat.zero_le 1), fun t ht => ?_, fun run hrun => ?_⟩
  · exact absurd (htasks ▸ ht) List.not_mem_nil
  · exact absurd (hrunning ▸ hrun) (Option.not_mem_none _)

theorem current_same {task : ReconcileTask} (h : task.Current epoch sub)
    (hsame : SameProvision sub sub') : task.Current epoch sub' :=
  ⟨h.epoch, h.version.trans hsame.desired.symm⟩

theorem Ready.frame {s' : ProvisioningState} (h : s.Ready server epoch)
    (htasks : s'.tasks = s.tasks) (hrunning : s'.running = s.running)
    (hrow : ∀ sub' ∈ s'.row, ∃ sub ∈ s.row, SameProvision sub sub' ∧
      (s.Holds server sub → s'.Holds server sub')) : s'.Ready server epoch := by
  refine ⟨?_, fun t ht sub' hsub' => ?_, fun run hrun sub' hsub' => ?_⟩
  · rw [outstanding, htasks, hrunning]
    exact h.single
  · obtain ⟨sub, hsub, hsame, -⟩ := hrow sub' hsub'
    obtain ⟨hserver, hcurrent⟩ := h.tasks t (htasks ▸ ht) sub hsub
    exact ⟨hserver, current_same hcurrent hsame⟩
  · obtain ⟨sub, hsub, hsame, hholds⟩ := hrow sub' hsub'
    obtain ⟨hcurrent, hnewer, happlied⟩ := h.running run (hrunning ▸ hrun) sub hsub
    refine ⟨current_same hcurrent hsame, hnewer, fun hresult => ?_⟩
    obtain ⟨hepoch, hcovered, hold⟩ := happlied hresult
    exact ⟨hepoch, hcovered, hholds hold⟩

theorem answer_of_accepts {r : SyncRequest} (tags : List String)
    (hepoch : (s.nodes r.server).epoch = some epoch)
    (haccepts : (s.nodes r.server).Accepts r.version) :
    s.answer r tags =
      { result := .applied, verifiedEpoch := some epoch, verifiedInbounds := tags } := by
  simp only [answer, hepoch, if_pos haccepts]

/-- A node that runs handles the task for the row as it is: it applies it, and then has the row's
    version. -/
theorem answer_current (i : ℕ) {task : ReconcileTask} (tags : List String) (hsub : sub ∈ s.row)
    (hruns : s.Runs server epoch) (hcurrent : task.Current epoch sub)
    (hfits : sub.Fits task.targetVersion task.desiredActive) :
    (s.answer (task.request server) tags).result = .applied ∧
      (s.answer (task.request server) tags).verifiedEpoch = some epoch ∧
      (s.answer (task.request server) tags).verifiedInbounds = tags ∧
      ((s.dispatched i (task.request server)).deliver (task.request server)).Holds server sub := by
  have haccepts : (s.nodes server).Accepts task.targetVersion := by
    intro stored hstored
    rw [hcurrent.version]
    exact ((hruns.inv sub hsub).stored server stored hstored).le
  have hactive : task.desiredActive = decide sub.DemandsActive := by
    rw [Bool.eq_iff_iff, decide_eq_true_iff]
    exact hfits.demand hcurrent.version
  rw [answer_of_accepts (r := task.request server) tags hruns.epoch haccepts]
  refine ⟨rfl, rfl, rfl, ?_⟩
  rw [deliver_of_accepts (s := s.dispatched i (task.request server)) (r := task.request server)
    hruns.epoch haccepts, Holds]
  simp only [ReconcileTask.request, Function.update_self, hcurrent.version, hactive]

theorem ready_of_run {run : ReconcileRun} (htasks : s.tasks = []) (hrunning : s.running = some run)
    (hrun : ∀ sub ∈ s.row, run.task.Current epoch sub ∧ run.sync.result ≠ .alreadyNewer ∧
      (run.sync.result = .applied → run.sync.verifiedEpoch = some epoch ∧
        run.task.Covered run.sync.verifiedInbounds ∧ s.Holds server sub)) :
    s.Ready server epoch := by
  refine ⟨?_, fun t ht => ?_, fun run' hrun' => ?_⟩
  · rw [outstanding, htasks, hrunning]
    exact le_rfl
  · exact absurd (htasks ▸ ht) List.not_mem_nil
  · cases Option.some.inj (hrunning.symm.trans hrun')
    exact hrun

theorem Ready.call (h : s.Ready server epoch) (hruns : s.Runs server epoch) {i : ℕ}
    {outcome : CallOutcome} (hquiet : s.Quiet server epoch (.call i outcome)) :
    (s.call i outcome).Ready server epoch := by
  rw [ProvisioningState.call]
  split
  · exact h
  · split
    · exact h
    · rename_i hrunning _ other task htask
      have hmem := List.mem_of_getElem? htask
      have hlen : (s.tasks.eraseIdx i).length = s.tasks.length - 1 :=
        List.length_eraseIdx_of_lt (List.getElem?_eq_some_iff.mp htask).1
      have hpos : 0 < s.tasks.length := List.length_pos_of_mem hmem
      have hsingle := h.single
      rw [outstanding, hrunning] at hsingle
      simp only [Option.toList_none, List.length_nil] at hsingle
      -- the task was the only one
      have hnil : s.tasks.eraseIdx i = [] := List.length_eq_zero_iff.mp (by omega)
      cases outcome with
      | handled tags =>
        refine ready_of_run ((deliver_tasks _ _).trans hnil) rfl fun sub hsub => ?_
        have hrow : sub ∈ s.row := deliver_row (s.dispatched i _) _ ▸ hsub
        obtain ⟨rfl, hcurrent⟩ := h.tasks _ hmem sub hrow
        obtain ⟨hresult, hepoch, htags, hholds⟩ := answer_current i tags hrow hruns hcurrent
          ((hruns.inv sub hrow).tasks _ hmem)
        refine ⟨hcurrent, by rw [hresult]; simp, fun _ => ⟨hepoch, ?_, hholds⟩⟩
        rw [htags]
        exact hquiet _ hmem
      | fenced =>
        refine ready_of_run hnil rfl fun sub hsub => ?_
        exact ⟨(h.tasks _ hmem sub hsub).2, by simp, by simp⟩
      | failed =>
        refine ready_of_run hnil rfl fun sub hsub => ?_
        exact ⟨(h.tasks _ hmem sub hsub).2, by simp, by simp⟩

/-- The answer to the task for the row as it is settles the row. -/
theorem upToDate_reconcile {run : ReconcileRun} {a : ReconcileAnswer} (now : Time)
    (hcurrent : run.task.Current epoch sub)
    (hfits : sub.Fits run.task.targetVersion run.task.desiredActive) (ha : a.sync = run.sync)
    (hresult : run.sync.result = .applied) (hepoch : run.sync.verifiedEpoch = some epoch)
    (hcovered : run.task.Covered run.sync.verifiedInbounds) :
    (sub.reconcile run.task a now).UpToDate epoch ∧
      (sub.reconcile run.task a now).desiredVersion = sub.desiredVersion ∧
      ((sub.reconcile run.task a now).DemandsActive ↔ sub.DemandsActive) := by
  have hverified : a.verifiedEpoch run.task = epoch := by
    rw [ReconcileAnswer.verifiedEpoch, ha, hepoch]
    rfl
  have hmissing : a.missingTags run.task = [] := by
    rw [ReconcileAnswer.missingTags, ha]
    split_ifs with hnone
    · rfl
    · refine List.filter_eq_nil_iff.mpr fun tag htag => ?_
      simpa using hcovered.resolve_left hnone tag htag
  have hconfirms : a.Confirms run.task sub := by
    simp only [ReconcileAnswer.Confirms, ha, hresult]
    exact ⟨hcurrent.version.symm, hmissing, hverified.trans hcurrent.epoch.symm⟩
  have hadv := reconcile_advances run.task a now sub
  rw [reconcile_of_confirmed hconfirms] at hadv ⊢
  have hdemand := hadv.demand rfl
  refine ⟨⟨?_, ?_, ?_⟩, rfl, hdemand⟩
  · simp only [synced, ha, hresult, if_true]
    exact hcurrent.version
  · simp only [synced, ha, hresult, if_true, hverified]
  · have hactive := hfits.demand hcurrent.version
    by_cases hd : sub.DemandsActive
    · rw [if_pos (hdemand.mpr hd)]
      simp only [synced, hactive.mpr hd, if_true]
    · rw [if_neg (mt hdemand.mp hd)]
      simp only [synced, mt hactive.mp hd, Bool.false_eq_true, if_false]

theorem Ready.finish (h : s.Ready server epoch) (hruns : s.Runs server epoch)
    (error : Option String) (inventory : Option Inventory) (now : Time) :
    (s.finish error inventory now).Converged server epoch ∨
      (s.finish error inventory now).Ready server epoch ∧
        ¬ s.Answers (.finish error inventory now) := by
  cases hrun : s.running with
  | none =>
    refine .inr ⟨?_, ?_⟩
    · simpa only [ProvisioningState.finish, hrun] using h
    · simp [Answers, hrun]
  | some run =>
    have hsingle := h.single
    rw [outstanding, hrun] at hsingle
    simp only [Option.toList_some, List.length_singleton] at hsingle
    have htasks : s.tasks = [] := List.length_eq_zero_iff.mp (by omega)
    have hidle : (s.finish error inventory now).outstanding = 0 :=
      outstanding_eq_zero.mpr (by simp only [ProvisioningState.finish, hrun, htasks, and_self])
    by_cases hresult : run.sync.result = .applied
    · refine .inl ⟨hidle, fun sub' hsub' => ?_⟩
      simp only [ProvisioningState.finish, hrun] at hsub'
      obtain ⟨sub, hsub, rfl⟩ := Option.map_eq_some_iff.mp hsub'
      obtain ⟨hcurrent, -, happlied⟩ := h.running run hrun sub hsub
      obtain ⟨hepoch, hcovered, hholds⟩ := happlied hresult
      obtain ⟨hup, hdesired, hdemand⟩ := upToDate_reconcile (a := ⟨run.sync, error, inventory⟩) now
        hcurrent ((hruns.inv sub hsub).running run hrun).fits rfl hresult hepoch hcovered
      refine ⟨hup, ?_⟩
      rw [Holds] at hholds ⊢
      simp only [ProvisioningState.finish, hrun, hholds, hdesired, hdemand]
    · cases hrow : s.row with
      | none =>
        refine .inl ⟨hidle, fun sub' hsub' => ?_⟩
        simp [ProvisioningState.finish, hrun, hrow] at hsub'
      | some sub =>
        have hnewer := (h.running run hrun sub hrow).2.1
        refine .inr ⟨ready_of_idle hidle, ?_⟩
        simp [Answers, hrun, hresult, hnewer]

/-- One task for the row as it is: the next answer settles it, and nothing else gets in between. -/
theorem Ready.step {e : ProvisioningEvent} (h : s.Ready server epoch)
    (hruns : s.Runs server epoch) (hquiet : s.Quiet server epoch e) :
    (s.step e).Converged server epoch ∨ (s.step e).Ready server epoch ∧ ¬ s.Answers e := by
  cases e with
  | finish error inventory now => exact h.finish hruns error inventory now
  | build targetEpoch tags now =>
    refine .inr ⟨?_, id⟩
    rw [ProvisioningState.step]
    rcases build_cases hruns hquiet with heq | ⟨sub, hsub, -, heq⟩
    · rw [heq]
      exact h
    · rw [heq]
      refine ⟨?_, fun t ht sub' hsub' => ?_, fun run hrun => ?_⟩
      · simp [outstanding, (outstanding_eq_zero.mp hquiet.1).2]
      · cases List.mem_singleton.mp ht
        cases Option.some.inj (hsub.symm.trans hsub')
        exact ⟨rfl, rfl, rfl⟩
      · exact absurd ((outstanding_eq_zero.mp hquiet.1).2 ▸ hrun) (Option.not_mem_none _)
  | call i outcome => exact .inr ⟨h.call hruns hquiet, id⟩
  | crash => exact .inr ⟨ready_of_idle rfl, id⟩
  | change c =>
    exact .inr ⟨h.frame (s.change_frame c).2.1 (s.change_frame c).2.2 fun sub' =>
      row_of_quiet hruns hquiet (by simp), id⟩
  | deliver j =>
    refine .inr ⟨h.frame ?_ ?_ fun sub' => row_of_quiet hruns hquiet (by simp), id⟩
    · rw [ProvisioningState.step]
      cases s.sent[j]? with
      | none => rfl
      | some r => exact deliver_tasks s r
    · rw [ProvisioningState.step]
      cases s.sent[j]? with
      | none => rfl
      | some r => exact deliver_running s r
  | restart other e' =>
    obtain ⟨-, ht, hr, -⟩ := restart_frame (s := s) hquiet e'
    exact .inr ⟨h.frame ht hr fun sub' => row_of_quiet hruns hquiet (by simp), id⟩
  | finalize =>
    exact .inr ⟨h.frame s.finalize_frame.2.1 s.finalize_frame.2.2.1 fun sub' =>
      row_of_quiet hruns hquiet (by simp), id⟩

/-! ### A run -/

/-- While old tasks are outstanding no new one is built, and every answer is to one of them. -/
theorem outstanding_step {e : ProvisioningEvent} (hpos : s.outstanding ≠ 0)
    (hquiet : s.Quiet server epoch e) :
    (s.step e).outstanding ≤ s.outstanding ∧ ¬ s.Answers e ∨
      (s.step e).outstanding < s.outstanding := by
  cases e with
  | change c =>
    refine .inl ⟨?_, id⟩
    rw [step, outstanding, (s.change_frame c).2.1, (s.change_frame c).2.2]
    exact le_rfl
  | build targetEpoch tags now => exact absurd hquiet.1 hpos
  | call i outcome =>
    refine .inl ⟨?_, id⟩
    rw [step]
    rcases s.call_cases i outcome with heq | ⟨other, task, htask, ⟨tags, heq⟩ | ⟨_, -, heq⟩⟩
    · rw [heq]
    all_goals
      have hlt := (List.getElem?_eq_some_iff.mp htask).1
      have hlen := List.length_eraseIdx_of_lt hlt
      rw [heq]
      simp only [outstanding, deliver_tasks, dispatched, hlen, Option.toList_some,
        List.length_singleton]
      omega
  | deliver j =>
    refine .inl ⟨?_, id⟩
    rw [step]
    cases s.sent[j]? with
    | none => exact le_rfl
    | some r => simp [outstanding]
  | finish error inventory now =>
    rw [step, finish]
    cases hrun : s.running with
    | none => exact .inl ⟨le_rfl, by simp [Answers, hrun]⟩
    | some run =>
      refine .inr ?_
      simp [outstanding, hrun]
  | crash => exact .inl ⟨Nat.zero_le _, id⟩
  | restart other e' =>
    obtain ⟨-, ht, hr, -⟩ := restart_frame (s := s) hquiet e'
    refine .inl ⟨?_, id⟩
    rw [outstanding, ht, hr]
    exact le_rfl
  | finalize =>
    refine .inl ⟨?_, id⟩
    rw [step, outstanding, s.finalize_frame.2.1, s.finalize_frame.2.2.1]
    exact le_rfl

end ProvisioningState

end Just1kBot
