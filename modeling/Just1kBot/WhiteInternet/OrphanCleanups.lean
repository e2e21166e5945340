import Just1kBot.WhiteInternet.Provisioning

/-! The outbox of clean-ups: `_sweep_orphan_cleanups` of
    `services/workers/white_internet_reconciliation.py`, and what the operations that move a
    subscription write to `white_internet_orphan_cleanups`.

    A move records, in its own transaction, that the client is to be disabled on the former origin,
    under a version. The sweep locks such a record, checks that the client has not come back to the
    server meanwhile, and calls the node. A paid move gives the record a version above every
    version under which the client was ever to be enabled, so the node can never go back on it. -/

namespace Just1kBot

/-- A row of the outbox. -/
structure OutboxCleanup extends OrphanCleanup where
  attempts : ℕ := 0
  lastError : Option String := none
  deriving DecidableEq, Repr

namespace OutboxCleanup

/-- `mark_orphan_cleanup_done`. -/
def markDone (c : OutboxCleanup) : OutboxCleanup :=
  if c.done then c else { c with done := true, lastError := none }

theorem markDone_done (c : OutboxCleanup) : c.markDone.done = true := by
  rw [markDone]
  split_ifs with h
  · exact h
  · rfl

/-- `mark_orphan_cleanup_failed`. -/
def markFailed (error : String) (c : OutboxCleanup) : OutboxCleanup :=
  if c.done then c
  else { c with
    attempts := c.attempts + 1, lastError := some (String.ofList (error.toList.take 500)) }

/-- `cancel_pending_orphan_cleanups_for_client`, at a row. -/
def cancel (server : ServerId) (c : OutboxCleanup) : OutboxCleanup :=
  if c.serverId = some server ∧ c.done = false then
    { c with
      done := true, lastError := some "Cancelled by re-placement on this origin node" }
  else c

/-- `ON DELETE SET NULL`. -/
def forget (server : ServerId) (c : OutboxCleanup) : OutboxCleanup :=
  if c.serverId = some server then { c with serverId := none } else c

end OutboxCleanup

namespace RowChange

/-- The changes as the code makes them: only `moved`, `migrateOrigin` and `allocate` choose an
    origin. The deletion of a server is an event of its own here. -/
def Plain : RowChange → Prop
  | .op o | .moved o _ => o.InPlace
  | .detach => False
  | _ => True

instance (o : RowOp) : Decidable o.InPlace := by
  rcases o with _ | _
  case convertTrial durationDays newOrigin now =>
    exact inferInstanceAs (Decidable (newOrigin = none))
  case migrateTo => exact .isFalse id
  all_goals exact .isTrue trivial

instance : DecidablePred Plain := fun c => by
  cases c with
  | op o => exact inferInstanceAs (Decidable o.InPlace)
  | moved o _ => exact inferInstanceAs (Decidable o.InPlace)
  | detach => exact .isFalse id
  | _ => exact .isTrue trivial

/-- The server whose clean-ups of this client the change cancels. -/
def cancels : RowChange → Option ServerId
  | .moved _ target => some target
  | _ => none

/-- The clean-up the change records, when it takes the row from `sub` to `sub'`. A conversion reads
    the version the row has by then; a renewal, a slot and a pack add one to it; the bulk migration
    takes the one from before its own step. -/
def departure (sub sub' : WhiteInternetSubscription) : RowChange → Option OutboxCleanup
  | .moved o _ => sub.originNodeId.bind fun origin =>
    match o with
    | .convertTrial .. =>
      if sub'.originNodeId = some origin then none
      else some
        { serverId := some origin, clientUuid := sub'.uuid, desiredVersion := sub'.desiredVersion }
    | _ => some
        { serverId := some origin, clientUuid := sub'.uuid
          desiredVersion := sub'.desiredVersion + 1 }
  | .migrateOrigin _ => some
      { serverId := sub.originNodeId, clientUuid := sub.uuid, desiredVersion := sub.desiredVersion }
  | _ => none

/-- The request that a paid move also sends to the former origin at once. -/
def accelerates (c : RowChange) (cleanup : OutboxCleanup) : List SyncRequest :=
  match c with
  | .moved .. => cleanup.serverId.toList.map fun server => ⟨server, cleanup.desiredVersion, false⟩
  | _ => []

end RowChange

/-- How far the sweep is with the record it has locked: the checks are passed, or the node said that
    it is newer and is asked what it shows. -/
inductive SweepStage
  | checked | inspecting
  deriving DecidableEq, Repr

/-- One subscription with its tasks and its nodes, the clean-ups of its client in the order of their
    ids, and the one that the sweep has locked. -/
structure OutboxState where
  base : ProvisioningState
  cleanups : List OutboxCleanup := []
  sweep : Option (ℕ × SweepStage) := none

/-- What can happen. `inlineSync` is the request of an inline sync, which may arrive at any time,
    and `inlineWrite` its final write. The sweep goes on by `claim`, `call` and `inspect`. -/
inductive OutboxEvent
  | base (e : ProvisioningEvent)
  | inlineSync
  | inlineWrite (sync : InlineSync) (now : Time)
  | deleteServer (server : ServerId)
  | claim (i : ℕ) (callable : Bool)
  | call (outcome : CallOutcome) (error : Option String)
  | inspect (reached : Bool)

namespace OutboxState

/-- The sweep holds the lock of a clean-up for the server. -/
def Locks (s : OutboxState) (server : ServerId) : Prop :=
  ∃ p ∈ s.sweep, ∃ c ∈ s.cleanups[p.1]?, c.serverId = some server

instance (s : OutboxState) (server : ServerId) : Decidable (s.Locks server) := by
  unfold Locks; infer_instance

/-- The subscription is served, or to be served, by the server. -/
def Serves (s : OutboxState) (server : ServerId) : Prop :=
  ∃ sub ∈ s.base.row, sub.originNodeId = some server ∧ Expirable sub.status

instance (s : OutboxState) (server : ServerId) : Decidable (s.Serves server) := by
  unfold Serves; infer_instance

/-- The row is not on this server. -/
def Away (server : ServerId) (s : OutboxState) : Prop :=
  ∀ sub ∈ s.base.row, sub.originNodeId ≠ some server

instance (server : ServerId) : DecidablePred (Away server) := fun s => by
  unfold Away; infer_instance

/-- A change in its transaction, with the clean-ups. It waits while the sweep has locked a clean-up
    that it is to cancel. -/
def change (s : OutboxState) (c : RowChange) : OutboxState :=
  if ¬ c.Plain ∨ ∃ server ∈ c.cancels, s.Locks server then s
  else
    match s.base.row with
    | none => s
    | some sub =>
      match c.apply sub with
      | none => s
      | some sub' =>
        let base := s.base.change c
        let recorded := (c.departure sub sub').toList
        { s with
          base := { base with sent := base.sent ++ recorded.flatMap c.accelerates }
          cleanups := (match c.cancels with
            | none => s.cleanups
            | some server => s.cleanups.map (OutboxCleanup.cancel server)) ++ recorded }

/-- The sweep ends at its clean-up. -/
def settle (s : OutboxState) (i : ℕ) (mark : OutboxCleanup → OutboxCleanup) : OutboxState :=
  { s with cleanups := s.cleanups.modify i mark, sweep := none }

/-- The sweep locks a pending clean-up and checks it. -/
def claim (s : OutboxState) (i : ℕ) (callable : Bool) : OutboxState :=
  match s.sweep, s.cleanups[i]? with
  | none, some c =>
    if c.done then s
    else
      match c.serverId with
      | none => s.settle i OutboxCleanup.markDone
      | some server =>
        if s.Serves server then s.settle i OutboxCleanup.markDone
        else if callable then { s with sweep := some (i, .checked) }
        else s
  | _, _ => s

/-- `err_msg or str(sync_result)`. -/
def callError (outcome : CallOutcome) (error : Option String) : String :=
  (error.filter (· ≠ "")).getD
    (if outcome = .fenced then "SyncResult.FENCED" else "SyncResult.FAILED")

/-- The sweep calls the node of the clean-up it has locked. -/
def call (s : OutboxState) (outcome : CallOutcome) (error : Option String) : OutboxState :=
  match s.sweep with
  | some (i, .checked) =>
    match s.cleanups[i]?.bind fun c => c.serverId.map fun server =>
        (⟨server, c.desiredVersion, false⟩ : SyncRequest) with
    | none => s
    | some r =>
      let base := { s.base with sent := s.base.sent ++ [r] }
      match outcome with
      | .handled tags =>
        match (base.answer r tags).result with
        | .applied => { s with base := base.deliver r }.settle i OutboxCleanup.markDone
        | .alreadyNewer => { s with base := base, sweep := some (i, .inspecting) }
        | _ => { s with base := base }.settle i (OutboxCleanup.markFailed (callError outcome error))
      | _ => { s with base := base }.settle i (OutboxCleanup.markFailed (callError outcome error))
  | _ => s

/-- The `observed_state` of the client on the node. -/
def observed (s : OutboxState) (server : ServerId) : Option String :=
  (s.base.nodes server).stored.map fun stored => if stored.2 then "active" else "disabled"

/-- The sweep asks the node for its inventory, which it gets or not. -/
def inspect (s : OutboxState) (reached : Bool) : OutboxState :=
  match s.sweep with
  | some (i, .inspecting) =>
    let shown := if reached then s.cleanups[i]?.bind fun c => c.serverId.bind s.observed else none
    if shown = some "disabled" then s.settle i OutboxCleanup.markDone
    else s.settle i (OutboxCleanup.markFailed ("already_newer_unconfirmed:" ++ shown.getD "None"))
  | _ => s

/-- A server is deleted, unless the sweep has locked a clean-up for it. -/
def deleteServer (s : OutboxState) (server : ServerId) : OutboxState :=
  if s.Locks server then s
  else
    { s with
      base := { s.base with row := s.base.row.map fun sub =>
        if sub.originNodeId = some server then sub.detach else sub }
      cleanups := s.cleanups.map (OutboxCleanup.forget server) }

def step (s : OutboxState) : OutboxEvent → OutboxState
  | .base (.change c) => s.change c
  | .base .crash => { s with base := s.base.step .crash, sweep := none }
  | .base e => { s with base := s.base.step e }
  | .inlineSync => { s with
      base := { s.base with sent := s.base.sent ++ (s.base.row.bind fun sub =>
        sub.originNodeId.map fun server => ⟨server, orOne sub.desiredVersion, true⟩).toList } }
  | .inlineWrite sync now => { s with
      base := { s.base with row := s.base.row.map (sync.finish now) } }
  | .deleteServer server => s.deleteServer server
  | .claim i callable => s.claim i callable
  | .call outcome error => s.call outcome error
  | .inspect reached => s.inspect reached

/-- A fresh purchase or trial, on a client that no node knows. -/
def created (id : ℕ) (userId : UserId) (origin : ServerId) (uuid : Uuid) (isTrial : Bool)
    (now : Time) : OutboxState :=
  { base := .created id userId origin uuid isTrial now }

end OutboxState

/-! ### Enabling requests -/

namespace ProvisioningState

/-- The server is, was or may still be asked to enable the client under this version. -/
def Enables (s : ProvisioningState) (server : ServerId) (version : ℕ) : Prop :=
  (∃ t ∈ s.tasks, t.1 = server ∧ t.2.desiredActive = true ∧ t.2.targetVersion = version) ∨
    ⟨server, version, true⟩ ∈ s.sent ∨ (s.nodes server).stored = some (version, true)

/-- The server stores this version or a later one. -/
def Reached (s : ProvisioningState) (server : ServerId) (version : ℕ) : Prop :=
  ∃ stored ∈ (s.nodes server).stored, version ≤ stored.1

variable {s s' : ProvisioningState} {server : ServerId} {version : ℕ} {r : SyncRequest}

/-- A step that adds no task and no enabling request, and leaves the nodes alone. -/
theorem Enables.frame (h : s'.Enables server version) (htasks : ∀ t ∈ s'.tasks, t ∈ s.tasks)
    (hsent : ∀ r ∈ s'.sent, r.active = true → r ∈ s.sent)
    (hnodes : (s'.nodes server).stored = (s.nodes server).stored) : s.Enables server version := by
  rcases h with ⟨t, ht, hserver, hactive, hversion⟩ | hmem | hstored
  · exact .inl ⟨t, htasks t ht, hserver, hactive, hversion⟩
  · exact .inr (.inl (hsent _ hmem rfl))
  · exact .inr (.inr (hnodes ▸ hstored))

theorem enables_of_deliver (hr : r.active = true → s.Enables r.server r.version)
    (h : (s.deliver r).Enables server version) : s.Enables server version := by
  rcases s.deliver_cases r with heq | ⟨epoch, -, -, heq⟩
  · rwa [heq] at h
  · rw [heq] at h
    rcases h with h | h | hstored
    · exact .inl h
    · exact .inr (.inl h)
    · by_cases hserver : server = r.server
      · subst hserver
        simp only [Function.update_self, Option.some.injEq, Prod.mk.injEq] at hstored
        exact hstored.1 ▸ hr hstored.2
      · simp only [Function.update_of_ne hserver] at hstored
        exact .inr (.inr hstored)

theorem enables_of_dispatched {i : ℕ} (hr : r.active = true → s.Enables r.server r.version)
    (h : (s.dispatched i r).Enables server version) : s.Enables server version := by
  rcases h with ⟨t, ht, h⟩ | hmem | hstored
  · exact .inl ⟨t, List.mem_of_mem_eraseIdx ht, h⟩
  · rcases List.mem_append.mp hmem with hmem | hmem
    · exact .inr (.inl hmem)
    · obtain rfl := List.mem_singleton.mp hmem
      exact hr rfl
  · exact .inr (.inr hstored)

theorem enables_of_call {i : ℕ} {outcome : CallOutcome}
    (h : (s.call i outcome).Enables server version) : s.Enables server version := by
  rcases s.call_cases i outcome with heq | ⟨k, task, htask, hcall⟩
  · rwa [heq] at h
  · have hr : (task.request k).active = true →
        s.Enables (task.request k).server (task.request k).version :=
      fun hactive => .inl ⟨_, List.mem_of_getElem? htask, rfl, hactive, rfl⟩
    have hsent (hactive : (task.request k).active = true) :
        (s.dispatched i (task.request k)).Enables (task.request k).server
          (task.request k).version := by
      refine .inr (.inl (List.mem_append_right _ (List.mem_singleton.mpr ?_)))
      rw [← hactive]
    rcases hcall with ⟨tags, heq⟩ | ⟨result, -, heq⟩
    · rw [heq] at h
      have h := h.frame (s := (s.dispatched i (task.request k)).deliver (task.request k))
        (fun _ ht => ht) (fun _ hr _ => hr) rfl
      exact enables_of_dispatched hr (enables_of_deliver hsent h)
    · rw [heq] at h
      have h := h.frame (s := s.dispatched i (task.request k))
        (fun _ ht => ht) (fun _ hr _ => hr) rfl
      exact enables_of_dispatched hr h

/-- A change sends only disabling requests. -/
theorem active_of_change {c : RowChange} (hr : r ∈ (s.change c).sent) (hactive : r.active = true) :
    r ∈ s.sent := by
  rw [change] at hr
  split at hr
  · exact hr
  · dsimp only at hr
    split_ifs at hr
    · rcases List.mem_append.mp hr with hr | hr
      · exact hr
      · obtain ⟨k, -, rfl⟩ := List.mem_map.mp hr
        cases hactive
    · exact hr

theorem change_tasks (s : ProvisioningState) (c : RowChange) : (s.change c).tasks = s.tasks := by
  rw [change]
  split <;> rfl

theorem change_nodes (s : ProvisioningState) (c : RowChange) : (s.change c).nodes = s.nodes := by
  rw [change]
  split <;> rfl

/-- The client is newly to be enabled only where the row is, under the version of the row. -/
theorem enables_of_step (e : ProvisioningEvent) (h : (s.step e).Enables server version) :
    s.Enables server version ∨ ∃ sub ∈ (s.step e).row,
      sub.originNodeId = some server ∧ version = sub.desiredVersion := by
  cases e with
  | change c =>
    refine .inl (h.frame (fun t ht => ?_) (fun r hr => active_of_change hr) ?_)
    · exact s.change_tasks c ▸ ht
    · rw [step, s.change_nodes c]
  | build targetEpoch inboundTags now =>
    rw [step, build] at h ⊢
    split at h
    · exact .inl h
    · rename_i sub hrow
      split at h
      · exact .inl h
      · rename_i origin horigin
        split_ifs at h ⊢
        · rcases h with ⟨t, ht, hserver, hactive, hversion⟩ | h | h
          · rcases List.mem_append.mp ht with ht | ht
            · exact .inl (.inl ⟨t, ht, hserver, hactive, hversion⟩)
            · obtain rfl := List.mem_singleton.mp ht
              refine .inr ⟨_, rfl, ?_, hversion.symm⟩
              rw [WhiteInternetSubscription.expireDue_origin, horigin, ← hserver]
          · exact .inl (.inr (.inl h))
          · exact .inl (.inr (.inr h))
        · exact .inl h
  | call i outcome => exact .inl (enables_of_call h)
  | deliver j =>
    rw [step] at h
    cases hj : s.sent[j]? with
    | none =>
      rw [hj] at h
      exact .inl h
    | some r =>
      rw [hj] at h
      refine .inl (enables_of_deliver (fun hactive => ?_) h)
      refine .inr (.inl ?_)
      rw [← hactive]
      exact List.mem_of_getElem? hj
  | finish error inventory now =>
    rw [step, finish] at h
    split at h
    · exact .inl h
    · exact .inl h
  | crash => exact .inl (h.frame (fun _ ht => absurd ht List.not_mem_nil) (fun _ hr _ => hr) rfl)
  | restart k epoch =>
    rw [step] at h
    split_ifs at h
    · exact .inl h
    · refine .inl (h.frame (fun _ ht => ht) (fun _ hr _ => hr) ?_)
      by_cases hk : server = k
      · subst hk
        simp only [Function.update_self]
      · simp only [Function.update_of_ne hk]
  | finalize =>
    rw [step, finalize] at h
    split at h
    · exact .inl h
    · split_ifs at h
      · exact .inl h
      · exact .inl h

theorem Reached.deliver (h : s.Reached server version) (r : SyncRequest) :
    (s.deliver r).Reached server version := by
  obtain ⟨stored, hstored, hle⟩ := h
  obtain ⟨stored', hstored', hle'⟩ := deliver_stored_le (r := r) hstored
  exact ⟨stored', hstored', hle.trans hle'⟩

/-- The versions that the nodes store only grow. -/
theorem Reached.step (h : s.Reached server version) (e : ProvisioningEvent) :
    (s.step e).Reached server version := by
  cases e with
  | change c =>
    rw [ProvisioningState.step, Reached, s.change_nodes c]
    exact h
  | build targetEpoch inboundTags now =>
    rw [ProvisioningState.step, build]
    split
    · exact h
    · split
      · exact h
      · split_ifs
        · exact h
        · exact h
  | call i outcome =>
    rw [ProvisioningState.step]
    rcases s.call_cases i outcome with heq | ⟨k, task, -, ⟨tags, heq⟩ | ⟨result, -, heq⟩⟩
    · rwa [heq]
    · rw [heq]
      exact Reached.deliver (s := s.dispatched i (task.request k)) h (task.request k)
    · rw [heq]
      exact h
  | deliver j =>
    rw [ProvisioningState.step]
    cases s.sent[j]? with
    | none => exact h
    | some r => exact h.deliver r
  | finish error inventory now =>
    rw [ProvisioningState.step, finish]
    split
    · exact h
    · exact h
  | crash => exact h
  | restart k epoch =>
    rw [ProvisioningState.step]
    split_ifs
    · exact h
    · obtain ⟨stored, hstored, hle⟩ := h
      refine ⟨stored, ?_, hle⟩
      by_cases hk : server = k
      · subst hk
        simpa only [Function.update_self] using hstored
      · simpa only [Function.update_of_ne hk] using hstored
  | finalize =>
    rw [ProvisioningState.step, finalize]
    split
    · exact h
    · split_ifs
      · exact h
      · exact h

/-- A row that is there after a step was there before, at no later version. -/
theorem row_of_step (e : ProvisioningEvent) {sub' : WhiteInternetSubscription}
    (h : (s.step e).row = some sub') :
    ∃ sub, s.row = some sub ∧ sub.desiredVersion ≤ sub'.desiredVersion := by
  cases hrow : s.row with
  | some sub => exact ⟨sub, rfl, (s.step_advances e hrow h).desired_le⟩
  | none =>
    exfalso
    cases e with
    | change c =>
      rw [step, change, hrow] at h
      cases hrow.symm.trans h
    | build =>
      rw [step, build, hrow] at h
      cases hrow.symm.trans h
    | call i outcome =>
      rw [step, call_row, hrow] at h
      cases h
    | deliver j =>
      rw [step] at h
      cases hj : s.sent[j]? with
      | none =>
        rw [hj] at h
        cases hrow.symm.trans h
      | some r =>
        rw [hj, Option.elim_some, deliver_row, hrow] at h
        cases h
    | finish error inventory now =>
      rw [step, finish] at h
      split at h
      · cases hrow.symm.trans h
      · rw [hrow] at h
        cases h
    | crash => cases hrow.symm.trans h
    | restart k epoch =>
      rw [step] at h
      split_ifs at h
      · cases hrow.symm.trans h
      · cases hrow.symm.trans h
    | finalize =>
      rw [step, finalize, hrow] at h
      cases hrow.symm.trans h

end ProvisioningState

/-! ### What one event does -/

/-- A paid operation that moves the row takes it to the chosen origin. -/
theorem RowChange.origin_of_moved {o : RowOp} {target : ServerId}
    {sub sub' : WhiteInternetSubscription} (hplain : (RowChange.moved o target).Plain)
    (h : (RowChange.moved o target).apply sub = some sub') : sub'.originNodeId = some target := by
  simp only [apply] at h
  split_ifs at h
  obtain ⟨_, -, hmoved⟩ := Option.bind_eq_some_iff.mp h
  exact (RowOp.apply_kept hmoved).origin hplain

/-- The record of a paid move, for any origin but the one the row moves to: it goes under a version
    above that of the row before. -/
theorem RowChange.departure_of_moved {o : RowOp} {target origin : ServerId}
    {sub sub' : WhiteInternetSubscription} (hplain : (RowChange.moved o target).Plain)
    (h : (RowChange.moved o target).apply sub = some sub')
    (horigin : sub.originNodeId = some origin) (hne : target ≠ origin) :
    ∃ cleanup, (RowChange.moved o target).departure sub sub' = some cleanup ∧
      cleanup.serverId = some origin ∧ cleanup.done = false ∧
      sub.desiredVersion < cleanup.desiredVersion := by
  have hto := origin_of_moved hplain h
  have hle := (apply_evolves h).desired_le
  simp only [departure, horigin, Option.bind_some]
  cases o with
  | convertTrial durationDays newOrigin now =>
    simp only [hto, Option.some.injEq, if_neg hne]
    refine ⟨_, rfl, rfl, rfl, ?_⟩
    simp only [apply] at h
    split_ifs at h
    obtain ⟨_, -, hmoved⟩ := Option.bind_eq_some_iff.mp h
    simp only [RowOp.apply] at hmoved
    split_ifs at hmoved
    cases hmoved
    have hversions := (sub.migrateTo target).convertTrial_versions durationDays newOrigin now
    exact hversions.2 ▸ Nat.lt_succ_self _
  | _ => exact ⟨_, rfl, rfl, rfl, Nat.lt_succ_of_le hle⟩

namespace OutboxState
variable {s : OutboxState} {server : ServerId} {version : ℕ}

/-- A change goes through with its clean-ups, or nothing happens. -/
theorem change_cases (s : OutboxState) (c : RowChange) :
    s.change c = s ∨ ∃ sub sub', s.base.row = some sub ∧ c.Plain ∧ c.apply sub = some sub' ∧
      (∀ k ∈ c.cancels, ¬ s.Locks k) ∧ (s.base.change c).row = some sub' ∧
      s.change c = { s with
        base := { s.base.change c with
          sent := (s.base.change c).sent ++ (c.departure sub sub').toList.flatMap c.accelerates }
        cleanups := (match c.cancels with
          | none => s.cleanups
          | some k => s.cleanups.map (OutboxCleanup.cancel k)) ++
            (c.departure sub sub').toList } := by
  rw [change]
  split_ifs with hwaits
  · exact .inl rfl
  · obtain ⟨hplain, hfree⟩ := not_or.mp hwaits
    cases hrow : s.base.row with
    | none => exact .inl rfl
    | some sub =>
      cases hc : c.apply sub with
      | none => exact .inl (by simp only [hc])
      | some sub' =>
        refine .inr ⟨sub, sub', rfl, not_not.mp hplain, hc, ?_, ?_, by simp only [hc]⟩
        · exact fun k hk hlocks => hfree ⟨k, hk, hlocks⟩
        · rw [ProvisioningState.change, hrow, Option.bind_some, hc]

theorem active_of_accelerates {c : RowChange} {cleanups : List OutboxCleanup} {r : SyncRequest}
    (h : r ∈ cleanups.flatMap c.accelerates) : r.active = false := by
  obtain ⟨cleanup, -, h⟩ := List.mem_flatMap.mp h
  unfold RowChange.accelerates at h
  split at h
  · obtain ⟨k, -, rfl⟩ := List.mem_map.mp h
    rfl
  · cases h

/-- The sweep sends only disabling requests. -/
theorem enables_of_call {outcome : CallOutcome} {error : Option String}
    (h : (s.call outcome error).base.Enables server version) : s.base.Enables server version := by
  have hsent (r : SyncRequest) (hr : r.active = false)
      (h : { s.base with sent := s.base.sent ++ [r] }.Enables server version) :
      s.base.Enables server version := by
    refine h.frame (fun _ ht => ht) (fun r' hr' hactive => ?_) rfl
    rcases List.mem_append.mp hr' with hr' | hr'
    · exact hr'
    · rw [List.mem_singleton.mp hr', hr] at hactive
      cases hactive
  rw [call] at h
  split at h
  · split at h
    · exact h
    · rename_i i r hr
      have hidle : r.active = false := by
        obtain ⟨c, -, hc⟩ := Option.bind_eq_some_iff.mp hr
        obtain ⟨k, -, rfl⟩ := Option.map_eq_some_iff.mp hc
        rfl
      dsimp only at h
      split at h
      · split at h
        · refine hsent r hidle (ProvisioningState.enables_of_deliver (fun hactive => ?_) h)
          rw [hidle] at hactive
          cases hactive
        · exact hsent r hidle h
        · exact hsent r hidle h
      · exact hsent r hidle h
  · exact h

/-- The sweep leaves the row alone. -/
theorem call_row (s : OutboxState) (outcome : CallOutcome) (error : Option String) :
    (s.call outcome error).base.row = s.base.row := by
  rw [call]
  split
  · split
    · rfl
    · dsimp only
      split
      · split
        · exact ProvisioningState.deliver_row _ _
        · rfl
        · rfl
      · rfl
  · rfl

theorem claim_base (s : OutboxState) (i : ℕ) (callable : Bool) :
    (s.claim i callable).base = s.base := by
  rw [claim]
  split
  · split
    · rfl
    · split
      · rfl
      · split_ifs
        · rfl
        · rfl
        · rfl
  · rfl

theorem inspect_base (s : OutboxState) (reached : Bool) : (s.inspect reached).base = s.base := by
  rw [inspect]
  split
  · extract_lets shown
    split_ifs
    · rfl
    · rfl
  · rfl

/-- The rows that are there after a server was deleted. -/
theorem row_of_deleteServer {k : ServerId} {sub' : WhiteInternetSubscription}
    (h : (s.deleteServer k).base.row = some sub') :
    ∃ sub, s.base.row = some sub ∧ sub.desiredVersion = sub'.desiredVersion := by
  rw [deleteServer] at h
  split_ifs at h
  · exact ⟨sub', h, rfl⟩
  · obtain ⟨sub, hrow, rfl⟩ := Option.map_eq_some_iff.mp h
    refine ⟨sub, hrow, ?_⟩
    split_ifs
    · rfl
    · rfl

/-- A row that is there after an event was there before, at no later version. -/
theorem row_of_step (e : OutboxEvent) {sub' : WhiteInternetSubscription}
    (h : (s.step e).base.row = some sub') :
    ∃ sub, s.base.row = some sub ∧ sub.desiredVersion ≤ sub'.desiredVersion := by
  cases e with
  | base e =>
    cases e with
    | change c =>
      rcases s.change_cases c with heq | ⟨sub, next, hrow, -, hc, -, hnext, heq⟩
      · rw [step, heq] at h
        exact ⟨sub', h, le_rfl⟩
      · rw [step, heq] at h
        obtain rfl := Option.some.inj (hnext.symm.trans h)
        exact ⟨sub, hrow, (RowChange.apply_evolves hc).desired_le⟩
    | crash => exact ⟨sub', h, le_rfl⟩
    | _ => exact ProvisioningState.row_of_step _ h
  | inlineSync => exact ⟨sub', h, le_rfl⟩
  | inlineWrite sync now =>
    obtain ⟨sub, hrow, rfl⟩ := Option.map_eq_some_iff.mp h
    exact ⟨sub, hrow, sync.finish_desiredVersion.ge⟩
  | deleteServer k =>
    obtain ⟨sub, hrow, heq⟩ := row_of_deleteServer h
    exact ⟨sub, hrow, heq.le⟩
  | claim i callable => exact ⟨sub', s.claim_base i callable ▸ h, le_rfl⟩
  | call outcome error => exact ⟨sub', s.call_row outcome error ▸ h, le_rfl⟩
  | inspect reached => exact ⟨sub', s.inspect_base reached ▸ h, le_rfl⟩

/-- The client is newly to be enabled only where the row is, under no later version than its. -/
theorem enables_of_step (e : OutboxEvent) (h : (s.step e).base.Enables server version) :
    s.base.Enables server version ∨ ∃ sub ∈ (s.step e).base.row,
      sub.originNodeId = some server ∧ version ≤ orOne sub.desiredVersion := by
  have hone (n : ℕ) : n ≤ orOne n := by
    rw [orOne]
    split_ifs <;> omega
  have hbase (e : ProvisioningEvent) (h : (s.base.step e).Enables server version) :
      s.base.Enables server version ∨ ∃ sub ∈ (s.base.step e).row,
        sub.originNodeId = some server ∧ version ≤ orOne sub.desiredVersion := by
    rcases ProvisioningState.enables_of_step e h with h | ⟨sub, hsub, horigin, rfl⟩
    · exact .inl h
    · exact .inr ⟨sub, hsub, horigin, hone _⟩
  cases e with
  | base e =>
    cases e with
    | change c =>
      rcases s.change_cases c with heq | ⟨sub, sub', -, -, -, -, -, heq⟩
      · rw [step, heq] at h
        exact .inl h
      · rw [step, heq] at h ⊢
        refine hbase (.change c) (h.frame (fun _ ht => ht) (fun r hr hactive => ?_) rfl)
        rcases List.mem_append.mp hr with hr | hr
        · exact hr
        · rw [active_of_accelerates hr] at hactive
          cases hactive
    | crash => exact hbase .crash h
    | _ => exact hbase _ h
  | inlineSync =>
    rcases h with h | hmem | h
    · exact .inl (.inl h)
    · rcases List.mem_append.mp hmem with hmem | hmem
      · exact .inl (.inr (.inl hmem))
      · obtain ⟨sub, hrow, hr⟩ := Option.bind_eq_some_iff.mp (Option.mem_toList.mp hmem)
        obtain ⟨k, hk, heq⟩ := Option.map_eq_some_iff.mp hr
        cases heq
        exact .inr ⟨sub, hrow, hk, le_rfl⟩
    · exact .inl (.inr (.inr h))
  | inlineWrite sync now => exact .inl h
  | deleteServer k =>
    rw [step, deleteServer] at h
    split_ifs at h
    · exact .inl h
    · exact .inl h
  | claim i callable =>
    rw [step, claim_base] at h
    exact .inl h
  | call outcome error => exact .inl (enables_of_call h)
  | inspect reached =>
    rw [step, inspect_base] at h
    exact .inl h

theorem reached_call (h : s.base.Reached server version) (outcome : CallOutcome)
    (error : Option String) : (s.call outcome error).base.Reached server version := by
  rw [call]
  split
  · split
    · exact h
    · rename_i r _
      dsimp only
      split
      · split
        · exact ProvisioningState.Reached.deliver
            (s := { s.base with sent := s.base.sent ++ [r] }) h r
        · exact h
        · exact h
      · exact h
  · exact h

/-- The versions that the nodes store only grow. -/
theorem reached_step (h : s.base.Reached server version) (e : OutboxEvent) :
    (s.step e).base.Reached server version := by
  cases e with
  | base e =>
    cases e with
    | change c =>
      rcases s.change_cases c with heq | ⟨sub, sub', -, -, -, -, -, heq⟩
      · rw [step, heq]
        exact h
      · rw [step, heq]
        exact h.step (.change c)
    | crash => exact h.step .crash
    | _ => exact h.step _
  | inlineSync => exact h
  | inlineWrite sync now => exact h
  | deleteServer k =>
    rw [step, deleteServer]
    split_ifs
    · exact h
    · exact h
  | claim i callable =>
    rw [step, claim_base]
    exact h
  | call outcome error => exact reached_call h outcome error
  | inspect reached =>
    rw [step, inspect_base]
    exact h

/-! ### The lock of the sweep -/

/-- The clean-up that the sweep has locked is there, and pending. -/
def HoldsPending (s : OutboxState) : Prop :=
  ∀ p ∈ s.sweep, ∃ c, s.cleanups[p.1]? = some c ∧ c.done = false

theorem HoldsPending.of_not_sweeping (h : s.sweep = none) : s.HoldsPending := by
  simp [HoldsPending, h]

theorem getElem?_append_of_eq_some {α : Type*} {l : List α} {i : ℕ} {a : α} (h : l[i]? = some a)
    (l' : List α) : (l ++ l')[i]? = some a :=
  (List.getElem?_append_left (List.getElem?_eq_some_iff.mp h).1).trans h

theorem HoldsPending.change (h : s.HoldsPending) (c : RowChange) : (s.change c).HoldsPending := by
  rcases s.change_cases c with heq | ⟨sub, sub', -, -, -, hfree, -, heq⟩
  · rwa [heq]
  · intro p hp
    rw [heq] at hp ⊢
    obtain ⟨x, hx, hdone⟩ := h p hp
    refine ⟨x, ?_, hdone⟩
    refine getElem?_append_of_eq_some ?_ _
    cases hcancels : c.cancels with
    | none => exact hx
    | some target =>
      simp only [List.getElem?_map, hx, Option.map_some, Option.some.injEq]
      rw [OutboxCleanup.cancel, if_neg]
      rintro ⟨htarget, -⟩
      exact hfree target hcancels ⟨p, hp, x, hx, htarget⟩

theorem HoldsPending.step (s : OutboxState) (e : OutboxEvent) (h : s.HoldsPending) :
    (s.step e).HoldsPending := by
  cases e with
  | base e =>
    cases e with
    | change c => exact h.change c
    | crash => exact .of_not_sweeping rfl
    | _ => exact h
  | inlineSync => exact h
  | inlineWrite sync now => exact h
  | deleteServer k =>
    rw [OutboxState.step, deleteServer]
    split_ifs with hlocks
    · exact h
    · intro p hp
      obtain ⟨c, hc, hdone⟩ := h p hp
      refine ⟨c, ?_, hdone⟩
      rw [List.getElem?_map, hc, Option.map_some, OutboxCleanup.forget, if_neg]
      exact fun hk => hlocks ⟨p, hp, c, hc, hk⟩
  | claim i callable =>
    rw [OutboxState.step, claim]
    split
    · rename_i c _ hc
      split
      · exact h
      · rename_i hdone
        split
        · exact .of_not_sweeping rfl
        · split_ifs
          · exact .of_not_sweeping rfl
          · rintro p ⟨⟩
            exact ⟨c, hc, Bool.eq_false_iff.mpr hdone⟩
          · exact h
    · exact h
  | call outcome error =>
    rw [OutboxState.step, call]
    split
    · rename_i i hsweep
      split
      · exact h
      · dsimp only
        split
        · split
          · exact .of_not_sweeping rfl
          · rintro p ⟨⟩
            exact h (i, .checked) hsweep
          · exact .of_not_sweeping rfl
        · exact .of_not_sweeping rfl
    · exact h
  | inspect reached =>
    rw [OutboxState.step, inspect]
    split
    · extract_lets shown
      split_ifs
      · exact .of_not_sweeping rfl
      · exact .of_not_sweeping rfl
    · exact h

theorem holdsPending_created (id : ℕ) (userId : UserId) (origin : ServerId) (uuid : Uuid)
    (isTrial : Bool) (now : Time) : (created id userId origin uuid isTrial now).HoldsPending :=
  fun _ hp => absurd hp (Option.not_mem_none _)

end OutboxState

end Just1kBot
