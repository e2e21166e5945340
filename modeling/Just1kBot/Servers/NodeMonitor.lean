import Just1kBot.Servers.NodeHealth
import Just1kBot.Lib.Transition

/-! The node monitor at work: the check of one server by `check_node_resources_and_alerts` of
    `services/workers/node_monitor.py`, with the administrator's button, restarts of the monitor,
    and alerts that may not be delivered.

    A check waits for the database and the network between its steps, so each step is an event: the
    servers are loaded, the check begins, the probe returns, the update is committed, and then each
    alert is sent and, when it was delivered, recorded in a transaction that first reads the row.
    The button writes the row and resets the state in memory at any time; a restart forgets the
    state in memory and the check. The checks of one server follow one another. -/

namespace Just1kBot

/-- Where the check of the server stands. -/
inductive CheckPhase
  | idle
  /-- The row as the cycle loaded it, at `now`. -/
  | loaded (server : ServerHealth) (now : Time)
  | probing (expected : HealthCounters) (now : Time)
  | evaluated (expected : HealthCounters) (update : HealthUpdate) (alerts : List ServerAlert)
  | sending (alert : ServerAlert) (rest : List ServerAlert)
  /-- The alert was delivered, and is not recorded yet. -/
  | delivered (alert : ServerAlert) (rest : List ServerAlert)
  /-- The row was read: its last alert, and the one to be recorded. -/
  | fetched (alert : ServerAlert) (rest : List ServerAlert)
      (loaded value : Option ServerHealthState)
  deriving DecidableEq, Repr

/-- The check goes on with the next alert, if there is one. -/
def CheckPhase.next : List ServerAlert → CheckPhase
  | [] => .idle
  | alert :: rest => .sending alert rest

/-- A delivered alert of recovery is not recorded yet. -/
def CheckPhase.Restoring : CheckPhase → Prop
  | .delivered alert _ => alert = .restored
  | .fetched alert _ _ _ => alert = .restored
  | _ => False

/-- The row, the state in memory and the check of a server, with their past: the results of the
    probes, the latest first, and which alerts of the latest outage were delivered. -/
structure MonitorSystem where
  db : ServerHealth := {}
  ram : Option ServerMonitorState := none
  phase : CheckPhase := .idle
  results : List Bool := []
  problemDelivered : Bool := false
  restoredDelivered : Bool := false
  deriving DecidableEq, Repr

inductive MonitorEvent
  | load (now : Time)
  | check
  /-- The probe returns, at the time `clock`. -/
  | probe (isHealthy : Bool) (diskPercent : Option ℚ) (clock : Time)
  | commit (clock : Time)
  | send (ok : Bool)
  | fetch
  | record
  | toggle
  | restart
  deriving DecidableEq, Repr

namespace MonitorSystem

/-- `_check_one` up to the probe. -/
def check (s : MonitorSystem) (server : ServerHealth) (now : Time) : MonitorSystem :=
  let st := s.ram.getD (ServerMonitorState.syncFromDbServer now server {})
  if server.isActive = false then
    { s with ram := some { st with healthState := .manualDisabled }, phase := .idle }
  else
    let st := if st.healthState = .manualDisabled then st.reenable else st
    if st.healthState = .waitingConfirmation ∧ st.nextCheckAt.any (now < ·) then
      { s with ram := some st, phase := .idle }
    else { s with ram := some st, phase := .probing st.toHealthCounters now }

/-- The update under the compare-and-swap; a rejected one brings the state in memory up to date. -/
def commit (s : MonitorSystem) (expected : HealthCounters) (update : HealthUpdate)
    (alerts : List ServerAlert) (clock : Time) : MonitorSystem :=
  let r := s.db.updateServerHealthSnapshot expected update
  if r.2 then
    let entered : Bool := s.db.healthState ≠ .problem ∧ r.1.healthState = .problem
    { s with
      db := r.1
      phase := .next alerts
      problemDelivered := s.problemDelivered && !entered
      restoredDelivered := s.restoredDelivered && !entered }
  else { s with ram := s.ram.map (·.syncFromDbServer clock s.db), phase := .idle }

/-- An alert is delivered to an administrator. -/
def deliver (s : MonitorSystem) (alert : ServerAlert) (rest : List ServerAlert) : MonitorSystem :=
  { s with
    ram := s.ram.map fun st =>
      { st with lastAlertSentState := alert.targetAlertState <|> st.lastAlertSentState }
    phase := .delivered alert rest
    problemDelivered := s.problemDelivered || alert = .problem
    restoredDelivered := s.restoredDelivered || alert = .restored }

def step (s : MonitorSystem) : MonitorEvent → MonitorSystem
  | .load now => if s.phase = .idle then { s with phase := .loaded s.db now } else s
  | .check =>
    match s.phase with
    | .loaded server now => s.check server now
    | _ => s
  | .probe isHealthy diskPercent clock =>
    match s.phase, s.ram with
    | .probing expected now, some st =>
      let r := st.observe now isHealthy diskPercent
      { s with
        ram := some r.1
        phase := .evaluated expected (r.1.updateKwargs now clock isHealthy) r.2
        results := isHealthy :: s.results }
    | _, _ => s
  | .commit clock =>
    match s.phase with
    | .evaluated expected update alerts => s.commit expected update alerts clock
    | _ => s
  | .send ok =>
    match s.phase with
    | .sending alert rest =>
      if ok then s.deliver alert rest else { s with phase := .next rest }
    | _ => s
  | .fetch =>
    match s.phase with
    | .delivered alert rest =>
      if s.db.healthState = .manualDisabled then { s with phase := .next rest }
      else
        { s with
          phase := .fetched alert rest s.db.lastAlertSentState
            (s.ram.bind ServerMonitorState.lastAlertSentState) }
    | _ => s
  | .record =>
    match s.phase with
    | .fetched _ rest loaded value =>
      { s with
        db := { s.db with
          lastAlertSentState := Lib.written loaded value s.db.lastAlertSentState }
        phase := .next rest }
    | _ => s
  | .toggle =>
    { s with
      db := s.db.toggle
      ram := some (.reset (if s.db.isActive then .manualDisabled else .online)) }
  | .restart => { s with ram := none, phase := .idle }

/-! ### What is claimed of a step -/

/-- The server enters PROBLEM only after two failed probes in a row. -/
def EntersAfterTwo (s : MonitorSystem) (e : MonitorEvent) : Prop :=
  s.db.healthState ≠ .problem → (s.step e).db.healthState = .problem →
    ∃ rest, s.results = false :: false :: rest

/-- It leaves PROBLEM for ONLINE only after three successful ones in a row. -/
def LeavesAfterThree (s : MonitorSystem) (e : MonitorEvent) : Prop :=
  s.db.healthState = .problem → (s.step e).db.healthState = .online →
    ∃ rest, s.results = true :: true :: true :: rest

/-- The monitor never overwrites a disabled server. -/
def NeverOverwrites (s : MonitorSystem) (e : MonitorEvent) : Prop :=
  e ≠ .toggle → s.db.Disabled → (s.step e).db = s.db

/-- A problem alert of the latest outage was delivered, and no alert of its end. -/
def Announced (s : MonitorSystem) : Prop :=
  s.problemDelivered = true ∧ s.restoredDelivered = false

/-- An alert of recovery is delivered only for an announced outage, and once. -/
def Paired (s : MonitorSystem) : MonitorEvent → Prop
  | .send true => ∀ rest, s.phase = .sending .restored rest → s.Announced
  | _ => True

structure Safe (s : MonitorSystem) (e : MonitorEvent) : Prop where
  enters : EntersAfterTwo s e
  leaves : LeavesAfterThree s e
  overwrites : NeverOverwrites s e
  paired : Paired s e

/-- The result of a probe goes on with what the row counts. -/
def Agrees (s : MonitorSystem) (isHealthy : Bool) : Prop :=
  (s.db.healthState = .waitingConfirmation → isHealthy = false) ∧
    (s.db.healthState = .problem → 0 < s.db.consecutiveSuccesses → isHealthy = true)

/-- An update that goes through was evaluated on the state that is still in memory, and ends an
    outage only once its problem alert was delivered; nothing is recorded on a disabled server; and
    a restart neither comes between the delivery of an alert of recovery and its record, nor loses
    the result of a probe that breaks what the row counts. -/
def Orderly (s : MonitorSystem) : MonitorEvent → Prop
  | .commit _ => ∀ expected update alerts, s.phase = .evaluated expected update alerts →
      ¬ s.db.Disabled → s.db.toHealthCounters = expected →
        (∀ st ∈ s.ram, st.toHealthCounters = update.toHealthCounters ∧
          st.lastAlertSentState = update.lastAlertSentState) ∧
        (s.db.healthState = .problem → update.healthState = .online → s.problemDelivered = true)
  | .record => ∀ alert rest loaded value, s.phase = .fetched alert rest loaded value →
      s.db.Disabled → value = loaded
  | .restart => ¬ s.phase.Restoring ∧ ∀ expected update alerts,
      s.phase = .evaluated expected update alerts →
        ∀ isHealthy ∈ s.results.head?, s.Agrees isHealthy
  | _ => True

/-! ### What the monitor keeps -/

/-- The results before the one that is being committed. -/
def settled (s : MonitorSystem) : List Bool :=
  match s.phase with
  | .evaluated .. => s.results.tail
  | _ => s.results

/-- The state in memory counts what an active row counts, or is about to. -/
def InStep (s : MonitorSystem) : Prop :=
  s.db.isActive = true → ∀ st ∈ s.ram, st.toHealthCounters = s.db.toHealthCounters ∨
    st.healthState = .manualDisabled ∧ s.db.toHealthCounters = {}

/-- A check that expects the counters `expected` is under way on the state `st`. -/
def Current (s : MonitorSystem) (st : ServerMonitorState) (expected : HealthCounters) : Prop :=
  s.db.isActive = true → st.toHealthCounters = s.db.toHealthCounters ∧
    (expected = s.db.toHealthCounters ∨ s.db.toHealthCounters = {})

/-- What the alerts that are still to be sent rely on: a problem is not announced as over, and an
    alert of recovery is the only one, for an outage that was announced. -/
def Pending (s : MonitorSystem) (alerts : List ServerAlert) : Prop :=
  (.problem ∈ alerts → s.restoredDelivered = false) ∧
    (.restored ∈ alerts → s.db.healthState ≠ .problem ∧ s.Announced ∧ .problem ∉ alerts) ∧
    alerts.count .restored ≤ 1

/-- The update was computed from the state in memory, and that state is still there unless the
    button was pressed since. -/
def Evaluated (s : MonitorSystem) (expected : HealthCounters) (update : HealthUpdate)
    (alerts : List ServerAlert) : Prop :=
  ∃ (before after : ServerMonitorState) (isHealthy : Bool) (old : List Bool),
    s.results = isHealthy :: old ∧
    update.toHealthCounters = before.toHealthCounters.probe isHealthy ∧
    after.toHealthCounters = update.toHealthCounters ∧
    after.lastAlertSentState = before.lastAlertSentState ∧
    ServerMonitorState.AlertsOf before after alerts ∧
    (s.ram = some after ∧ s.Current before expected ∨
      ∃ st, s.ram = some st ∧ (s.db.isActive = true → s.db.toHealthCounters = {} ∧
        st.toHealthCounters = {}))

/-- What the check relies on where it stands. -/
def PhaseKept (s : MonitorSystem) : CheckPhase → Prop
  | .idle => s.InStep
  | .loaded server _ => s.InStep ∧ (s.ram = none → server = s.db) ∧
      (server.isActive = false → s.db.isActive = true → s.db.toHealthCounters = {})
  | .probing expected _ => ∃ st, s.ram = some st ∧ s.Current st expected
  | .evaluated expected update alerts => s.Evaluated expected update alerts
  | .sending alert rest => s.InStep ∧ s.Pending (alert :: rest)
  | .delivered alert rest => s.InStep ∧ s.Pending rest ∧
      (alert = .restored → ∀ st ∈ s.ram, st.lastAlertSentState ≠ some .problem)
  | .fetched alert rest loaded value => s.InStep ∧ s.Pending rest ∧
      (∀ st ∈ s.ram, st.lastAlertSentState = some .problem → value = some .problem) ∧
      (value = some .problem → loaded = some .problem ∨ s.Announced) ∧
      (alert = .restored → value ≠ some .problem ∧
        (s.db.lastAlertSentState = loaded ∨ s.db.lastAlertSentState = none))

/-- The row counts the results of the probes, and its last alert is that of an outage whose end is
    not announced. -/
structure Kept (s : MonitorSystem) : Prop where
  disabled : s.db.isActive = false ↔ s.db.healthState = .manualDisabled
  waiting : s.db.healthState = .waitingConfirmation → ∃ rest, s.settled = false :: rest
  recovering : s.db.healthState = .problem →
    s.db.consecutiveSuccesses < requiredStableSuccesses ∧
      ∃ rest, s.settled = List.replicate s.db.consecutiveSuccesses true ++ rest
  outage : s.db.healthState = .problem → s.restoredDelivered = false
  known : ∀ st ∈ s.ram, st.lastAlertSentState = some .problem →
    s.db.lastAlertSentState = some .problem ∨ s.Announced
  due : s.db.isActive = true → s.db.healthState ≠ .problem →
    s.db.lastAlertSentState = some .problem → ¬ s.phase.Restoring → s.Announced
  phase : s.PhaseKept s.phase

theorem kept_start : Kept {} where
  disabled := by simp
  waiting := by simp
  recovering := by simp
  outage := by simp
  known := by simp
  due := by simp
  phase := by simp [PhaseKept, InStep]

theorem Pending.tail {s : MonitorSystem} {alert : ServerAlert} {rest : List ServerAlert}
    (h : s.Pending (alert :: rest)) : s.Pending rest := by
  obtain ⟨hproblem, hrestored, honce⟩ := h
  refine ⟨fun hmem => hproblem (List.mem_cons_of_mem _ hmem), fun hmem => ?_, ?_⟩
  · obtain ⟨hhealth, hannounced, hno⟩ := hrestored (List.mem_cons_of_mem _ hmem)
    exact ⟨hhealth, hannounced, fun h => hno (List.mem_cons_of_mem _ h)⟩
  · exact (List.count_le_count_cons ..).trans honce

theorem phaseKept_next {s : MonitorSystem} {alerts : List ServerAlert} (hin : s.InStep)
    (hpending : s.Pending alerts) : s.PhaseKept (.next alerts) := by
  cases alerts with
  | nil => exact hin
  | cons alert rest => exact ⟨hin, hpending⟩

theorem settled_next {s : MonitorSystem} {alerts : List ServerAlert} (h : s.phase = .next alerts) :
    s.settled = s.results := by
  rw [settled, h]
  cases alerts <;> rfl

theorem not_restoring_next (alerts : List ServerAlert) : ¬ (CheckPhase.next alerts).Restoring := by
  cases alerts <;> exact id

/-- The check goes on without a write. -/
theorem Kept.goOn {s s' : MonitorSystem} (h : s.Kept) (hdb : s'.db = s.db)
    (hproblem : s'.problemDelivered = s.problemDelivered)
    (hrestored : s'.restoredDelivered = s.restoredDelivered) (hsettled : s'.settled = s.settled)
    (hknown : ∀ st ∈ s'.ram, st.lastAlertSentState = some .problem →
      s.db.lastAlertSentState = some .problem ∨ s.Announced)
    (hrestoring : s.phase.Restoring → s.db.isActive = true → s'.phase.Restoring)
    (hphase : s'.PhaseKept s'.phase) : s'.Kept := by
  have hannounced : s'.Announced ↔ s.Announced := by
    rw [Announced, Announced, hproblem, hrestored]
  refine ⟨?_, ?_, ?_, ?_, ?_, ?_, hphase⟩
  · rw [hdb]
    exact h.disabled
  · rw [hdb, hsettled]
    exact h.waiting
  · rw [hdb, hsettled]
    exact h.recovering
  · rw [hdb, hrestored]
    exact h.outage
  · rw [hdb, hannounced]
    exact hknown
  · rw [hdb, hannounced]
    exact fun hactive hhealth hlast hno =>
      h.due hactive hhealth hlast fun hr => hno (hrestoring hr hactive)

theorem kept_load {s : MonitorSystem} {now : Time} (h : s.Kept) : (s.step (.load now)).Kept := by
  obtain ⟨db, ram, phase, results, pd, rd⟩ := s
  rw [step]
  split_ifs with hidle
  · simp only at hidle
    subst hidle
    refine h.goOn rfl rfl rfl rfl h.known (fun hr _ => hr) ⟨h.phase, fun _ => rfl, ?_⟩
    intro hinactive hactive
    cases hinactive.symm.trans hactive
  · exact h

/-- The state in memory that an active row is checked with: it counts what the row counts. -/
theorem checked {s : MonitorSystem} {server : ServerHealth} {now : Time} (h : s.Kept)
    (hphase : s.phase = .loaded server now) {st : ServerMonitorState}
    (hst : st = s.ram.getD (ServerMonitorState.syncFromDbServer now server {})) :
    (s.db.isActive = true →
      (if st.healthState = .manualDisabled then st.reenable else st).toHealthCounters =
        s.db.toHealthCounters) ∧
    ((if st.healthState = .manualDisabled then st.reenable else st).lastAlertSentState =
      some .problem → st.lastAlertSentState = some .problem) := by
  have hkept := h.phase
  rw [hphase] at hkept
  obtain ⟨hin, hload, -⟩ := hkept
  constructor
  · intro hactive
    have henabled : s.db.healthState ≠ .manualDisabled := fun hm => by
      rw [h.disabled.mpr hm] at hactive
      cases hactive
    cases hram : s.ram with
    | none =>
      have hsame := hload hram
      rw [hram, Option.getD_none, hsame] at hst
      have hcounters : st.toHealthCounters = s.db.toHealthCounters := by
        rw [hst, ServerMonitorState.syncFromDbServer, if_pos hactive]
      rw [if_neg fun hm => henabled ((congrArg HealthCounters.healthState hcounters).symm.trans hm)]
      exact hcounters
    | some st₀ =>
      rw [hram, Option.getD_some] at hst
      subst hst
      rcases hin hactive st hram with hcounters | ⟨hm, hfresh⟩
      · rw [if_neg fun hm =>
          henabled ((congrArg HealthCounters.healthState hcounters).symm.trans hm)]
        exact hcounters
      · rw [if_pos hm, hfresh]
        rfl
  · split_ifs
    · intro hlast
      cases hlast
    · exact id

/-- What a check finds in memory, or makes of the row that was loaded. -/
theorem checked_known {s : MonitorSystem} {server : ServerHealth} {now : Time} (h : s.Kept)
    (hphase : s.phase = .loaded server now) {st : ServerMonitorState}
    (hst : st = s.ram.getD (ServerMonitorState.syncFromDbServer now server {}))
    (hlast : st.lastAlertSentState = some .problem) :
    s.db.lastAlertSentState = some .problem ∨ s.Announced := by
  have hkept := h.phase
  rw [hphase] at hkept
  cases hram : s.ram with
  | none =>
    rw [hram, Option.getD_none] at hst
    rw [hst, ServerMonitorState.syncFromDbServer, hkept.2.1 hram] at hlast
    exact .inl hlast
  | some st₀ =>
    rw [hram, Option.getD_some] at hst
    subst hst
    exact h.known st hram hlast

theorem kept_check {s : MonitorSystem} (h : s.Kept) : (s.step .check).Kept := by
  rw [step]
  split
  · rename_i server now hphase
    have hkept := h.phase
    rw [hphase] at hkept
    have hsettled : s.settled = s.results := by rw [settled, hphase]
    rw [check]
    generalize hst : s.ram.getD (ServerMonitorState.syncFromDbServer now server {}) = st
    obtain ⟨hcounters, hlast⟩ := checked h hphase hst.symm
    have hknown := checked_known h hphase hst.symm
    have hrestoring : ¬ s.phase.Restoring := by
      rw [hphase]
      exact id
    by_cases hserver : server.isActive = false
    · rw [if_pos hserver]
      refine h.goOn rfl rfl rfl hsettled.symm ?_ (fun hr _ => absurd hr hrestoring) ?_
      · rintro st' ⟨⟩
        exact hknown
      · rintro hactive st' ⟨⟩
        exact .inr ⟨rfl, hkept.2.2 hserver hactive⟩
    · rw [if_neg hserver]
      simp only
      generalize (if st.healthState = .manualDisabled then st.reenable else st) = st'
        at hcounters hlast ⊢
      split_ifs
      · refine h.goOn rfl rfl rfl hsettled.symm ?_ (fun hr _ => absurd hr hrestoring) ?_
        · rintro _ ⟨⟩
          exact fun hl => hknown (hlast hl)
        · rintro hactive _ ⟨⟩
          exact .inl (hcounters hactive)
      · refine h.goOn rfl rfl rfl hsettled.symm ?_ (fun hr _ => absurd hr hrestoring) ?_
        · rintro _ ⟨⟩
          exact fun hl => hknown (hlast hl)
        · exact ⟨st', rfl, fun hactive => ⟨hcounters hactive, .inl (hcounters hactive)⟩⟩
  · exact h

theorem kept_probe {s : MonitorSystem} {isHealthy : Bool} {disk : Option ℚ} {clock : Time}
    (h : s.Kept) : (s.step (.probe isHealthy disk clock)).Kept := by
  rw [step]
  split
  · rename_i expected now st hphase hram
    have hkept := h.phase
    rw [hphase] at hkept
    obtain ⟨st', hst', hcurrent⟩ := hkept
    obtain rfl := Option.some.inj (hram.symm.trans hst')
    obtain ⟨hcounters, hlast, halerts⟩ := st.observe_spec now isHealthy disk
    generalize st.observe now isHealthy disk = r at hcounters hlast halerts ⊢
    have hsettled : s.settled = s.results := by rw [settled, hphase]
    refine h.goOn rfl rfl rfl hsettled.symm ?_ (fun hr _ => ?_) ?_
    · rintro _ ⟨⟩ hl
      exact h.known st hram (hlast ▸ hl)
    · rw [hphase] at hr
      exact hr
    · exact ⟨st, r.1, isHealthy, s.results, rfl, hcounters, rfl, hlast, halerts,
        .inl ⟨rfl, hcurrent⟩⟩
  · exact h

theorem commit_rejected {s : MonitorSystem} {expected : HealthCounters} (update : HealthUpdate)
    (alerts : List ServerAlert) (clock : Time)
    (h : s.db.Disabled ∨ s.db.toHealthCounters ≠ expected) :
    s.commit expected update alerts clock =
      { s with ram := s.ram.map (·.syncFromDbServer clock s.db), phase := .idle } := by
  rw [commit, ServerHealth.update_rejected h]
  rfl

/-- What was evaluated under other counters was evaluated before the row was made anew. -/
theorem kept_commit_rejected {s : MonitorSystem} {expected : HealthCounters}
    {update : HealthUpdate} {alerts : List ServerAlert} {clock : Time} (h : s.Kept)
    (hphase : s.phase = .evaluated expected update alerts)
    (hrejected : s.db.Disabled ∨ s.db.toHealthCounters ≠ expected) :
    (s.commit expected update alerts clock).Kept := by
  have hkept := h.phase
  rw [hphase] at hkept
  obtain ⟨before, after, isHealthy, old, -, -, -, -, -, hcase⟩ := hkept
  have hcalm : s.db.healthState = .manualDisabled ∨ s.db.healthState = .online := by
    by_cases hactive : s.db.isActive = true
    · rcases hrejected with (hinactive | hm) | hne
      · cases hinactive.symm.trans hactive
      · exact .inl hm
      · have hfresh : s.db.toHealthCounters = {} := by
          rcases hcase with ⟨-, hcurrent⟩ | ⟨_, _, htoggled⟩
          · exact (hcurrent hactive).2.resolve_left fun he => hne he.symm
          · exact (htoggled hactive).1
        exact .inr (congrArg HealthCounters.healthState hfresh)
    · exact .inl (h.disabled.mp (Bool.not_eq_true _ ▸ hactive))
  rw [commit_rejected update alerts clock hrejected]
  refine ⟨h.disabled, fun hw => ?_, fun hp => ?_, h.outage, ?_, ?_, ?_⟩
  · rcases hcalm with hc | hc <;> cases hc.symm.trans hw
  · rcases hcalm with hc | hc <;> cases hc.symm.trans hp
  · rintro st hst hlast
    obtain ⟨st₀, -, rfl⟩ := Option.map_eq_some_iff.mp hst
    exact .inl hlast
  · intro hactive hhealth hlast _
    refine h.due hactive hhealth hlast ?_
    rw [hphase]
    exact id
  · intro hactive st hst
    obtain ⟨st₀, -, rfl⟩ := Option.map_eq_some_iff.mp hst
    left
    rw [ServerMonitorState.syncFromDbServer, if_pos hactive]

/-- An update that goes through was computed from what the row counts, or writes what it counts. -/
structure Passed (s : MonitorSystem) (update : HealthUpdate) (alerts : List ServerAlert)
    (isHealthy : Bool) : Prop where
  ram : ∃ st, s.ram = some st
  results : s.results = isHealthy :: s.settled
  problem : .problem ∈ alerts → update.healthState = .problem
  restored : .restored ∈ alerts → update.healthState = .online ∧
    (s.db.healthState = .problem ∨
      s.db.healthState ≠ .problem ∧ ∃ st ∈ s.ram, st.lastAlertSentState = some .problem)
  once : alerts.count .restored ≤ 1
  counters : update.toHealthCounters = s.db.toHealthCounters.probe isHealthy ∨
    update.toHealthCounters = {} ∧ s.db.toHealthCounters = {}

theorem passed {s : MonitorSystem} {expected : HealthCounters} {update : HealthUpdate}
    {alerts : List ServerAlert} (h : s.Kept) (hphase : s.phase = .evaluated expected update alerts)
    (hactive : s.db.isActive = true)
    (hram : ∀ st ∈ s.ram, st.toHealthCounters = update.toHealthCounters) :
    ∃ isHealthy, s.Passed update alerts isHealthy := by
  have hkept := h.phase
  rw [hphase] at hkept
  obtain ⟨before, after, isHealthy, old, hresults, hupdate, hafter, hlast, halerts, hcase⟩ := hkept
  have hsettled : s.results = isHealthy :: s.settled := by
    rw [settled, hphase, hresults]
    rfl
  have hstate : after.healthState = update.healthState := congrArg HealthCounters.healthState hafter
  refine ⟨isHealthy, ?_, hsettled, fun hmem => hstate.symm.trans (halerts.problem hmem), ?_,
    halerts.once, ?_⟩
  · rcases hcase with ⟨hsome, -⟩ | ⟨st, hsome, -⟩
    · exact ⟨after, hsome⟩
    · exact ⟨st, hsome⟩
  · intro hmem
    obtain ⟨honline, hbefore⟩ := halerts.restored hmem
    refine ⟨hstate.symm.trans honline, ?_⟩
    rcases hcase with ⟨hsome, hcurrent⟩ | ⟨st, hsome, htoggled⟩
    · have hhealth := congrArg HealthCounters.healthState (hcurrent hactive).1
      rcases hbefore with hproblem | ⟨hon, hlastProblem⟩
      · exact .inl (hhealth.symm.trans hproblem)
      · refine .inr ⟨fun hp => ?_, after, hsome, hlast.trans hlastProblem⟩
        cases hon.symm.trans (hhealth.trans hp)
    · have hfresh : before.toHealthCounters.probe isHealthy = {} := by
        rw [← hupdate, ← hram st hsome]
        exact (htoggled hactive).2
      have hwaiting := HealthCounters.probe_eq_start hfresh
      rcases hbefore with hproblem | ⟨hon, -⟩
      · cases hproblem.symm.trans hwaiting
      · cases hon.symm.trans hwaiting
  · rcases hcase with ⟨hsome, hcurrent⟩ | ⟨st, hsome, htoggled⟩
    · exact .inl (hupdate.trans (by rw [(hcurrent hactive).1]))
    · exact .inr ⟨(hram st hsome).symm.trans (htoggled hactive).2, (htoggled hactive).1⟩

namespace Passed
variable {s : MonitorSystem} {update : HealthUpdate} {alerts : List ServerAlert} {isHealthy : Bool}

theorem not_manualDisabled (hpassed : s.Passed update alerts isHealthy)
    (h : s.db.healthState ≠ .manualDisabled) : update.healthState ≠ .manualDisabled := by
  rcases hpassed.counters with hprobe | ⟨hfresh, -⟩
  · have hstate := congrArg HealthCounters.healthState hprobe
    rw [hstate]
    exact fun hm => h ((HealthCounters.probe_manualDisabled ..).mp hm)
  · rw [congrArg HealthCounters.healthState hfresh]
    simp

theorem waiting (hpassed : s.Passed update alerts isHealthy)
    (h : update.healthState = .waitingConfirmation) : s.results = false :: s.settled := by
  rcases hpassed.counters with hprobe | ⟨hfresh, -⟩
  · have hstate := congrArg HealthCounters.healthState hprobe
    rw [hpassed.results, HealthCounters.probe_waiting (hstate.symm.trans h)]
  · cases (congrArg HealthCounters.healthState hfresh).symm.trans h

/-- The row of a server in trouble counts the successful probes since the last failed one. -/
theorem recovering (hpassed : s.Passed update alerts isHealthy) (hkept : s.Kept)
    (h : update.healthState = .problem) :
    update.consecutiveSuccesses < requiredStableSuccesses ∧
      ∃ rest, s.results = List.replicate update.consecutiveSuccesses true ++ rest := by
  rcases hpassed.counters with hprobe | ⟨hfresh, -⟩
  · have hstate := congrArg HealthCounters.healthState hprobe
    have hsucc := congrArg HealthCounters.consecutiveSuccesses hprobe
    rcases HealthCounters.probe_problem (hstate.symm.trans h) with
      ⟨-, -, hzero⟩ | ⟨hhealthy, hproblem, hone, hfew⟩
    · rw [hsucc, hzero]
      exact ⟨by decide, s.results, rfl⟩
    · obtain ⟨-, rest, hrest⟩ := hkept.recovering hproblem
      rw [hsucc, hone]
      refine ⟨hfew, rest, ?_⟩
      rw [hpassed.results, hrest, hhealthy, List.replicate_succ, List.cons_append]
  · cases (congrArg HealthCounters.healthState hfresh).symm.trans h

/-- The second failed probe in a row is what brings a server into trouble. -/
theorem enters (hpassed : s.Passed update alerts isHealthy) (hkept : s.Kept)
    (hno : s.db.healthState ≠ .problem) (h : update.healthState = .problem) :
    ∃ rest, s.results = false :: false :: rest := by
  rcases hpassed.counters with hprobe | ⟨hfresh, -⟩
  · have hstate := congrArg HealthCounters.healthState hprobe
    rcases HealthCounters.probe_problem (hstate.symm.trans h) with
      ⟨hfailed, hbefore, -⟩ | ⟨-, hproblem, -⟩
    · obtain ⟨rest, hrest⟩ := hkept.waiting (hbefore.resolve_right hno)
      exact ⟨rest, by rw [hpassed.results, hrest, hfailed]⟩
    · exact absurd hproblem hno
  · cases (congrArg HealthCounters.healthState hfresh).symm.trans h

/-- The third successful probe in a row is what brings it out of trouble. -/
theorem leaves (hpassed : s.Passed update alerts isHealthy) (hkept : s.Kept)
    (hproblem : s.db.healthState = .problem) (h : update.healthState = .online) :
    ∃ rest, s.results = true :: true :: true :: rest := by
  rcases hpassed.counters with hprobe | ⟨-, hfresh⟩
  · have hstate := congrArg HealthCounters.healthState hprobe
    rcases HealthCounters.probe_of_problem isHealthy hproblem with
      hstill | ⟨-, hhealthy, henough⟩
    · cases h.symm.trans (hstate.trans hstill)
    · obtain ⟨hfew, rest, hrest⟩ := hkept.recovering hproblem
      have htwo : s.db.consecutiveSuccesses = 2 := by
        rw [requiredStableSuccesses] at hfew henough
        omega
      refine ⟨rest, ?_⟩
      rw [hpassed.results, hrest, hhealthy, htwo]
      rfl
  · cases (congrArg HealthCounters.healthState hfresh).symm.trans hproblem

/-- The only way out of trouble is to be online. -/
theorem of_problem (hpassed : s.Passed update alerts isHealthy)
    (hproblem : s.db.healthState = .problem) (h : update.healthState ≠ .problem) :
    update.healthState = .online := by
  rcases hpassed.counters with hprobe | ⟨-, hfresh⟩
  · rw [congrArg HealthCounters.healthState hprobe] at h ⊢
    rcases HealthCounters.probe_of_problem isHealthy hproblem with hstill | honline
    · exact absurd hstill h
    · exact honline.1
  · cases (congrArg HealthCounters.healthState hfresh).symm.trans hproblem

end Passed

theorem commit_applied {s : MonitorSystem} {expected : HealthCounters} (update : HealthUpdate)
    (alerts : List ServerAlert) (clock : Time) (hdisabled : ¬ s.db.Disabled)
    (hexpected : s.db.toHealthCounters = expected) :
    s.commit expected update alerts clock =
      { s with
        db := { s.db with
          toHealthCounters := update.toHealthCounters
          lastAlertSentState := update.lastAlertSentState
          nextCheckAt := update.nextCheckAt.getD s.db.nextCheckAt }
        phase := .next alerts
        problemDelivered := s.problemDelivered &&
          !decide (s.db.healthState ≠ .problem ∧ update.healthState = .problem)
        restoredDelivered := s.restoredDelivered &&
          !decide (s.db.healthState ≠ .problem ∧ update.healthState = .problem) } := by
  rw [commit, ServerHealth.update_applied expected update hdisabled hexpected]
  rfl

/-- A last alert in memory that is about a problem, outside of one, is about one whose end is not
    announced. -/
theorem announced_of_last {s : MonitorSystem} {st : ServerMonitorState} (h : s.Kept)
    (hrestoring : ¬ s.phase.Restoring) (hactive : s.db.isActive = true)
    (hno : s.db.healthState ≠ .problem) (hst : st ∈ s.ram)
    (hlast : st.lastAlertSentState = some .problem) : s.Announced := by
  rcases h.known st hst hlast with hdb | hannounced
  · exact h.due hactive hno hdb hrestoring
  · exact hannounced

theorem kept_commit_applied {s : MonitorSystem} {expected : HealthCounters}
    {update : HealthUpdate} {alerts : List ServerAlert} {clock : Time} (h : s.Kept)
    (hphase : s.phase = .evaluated expected update alerts) (hdisabled : ¬ s.db.Disabled)
    (hexpected : s.db.toHealthCounters = expected)
    (hram : ∀ st ∈ s.ram, st.toHealthCounters = update.toHealthCounters ∧
      st.lastAlertSentState = update.lastAlertSentState)
    (hannounced : s.db.healthState = .problem → update.healthState = .online →
      s.problemDelivered = true) : (s.commit expected update alerts clock).Kept := by
  have hactive : s.db.isActive = true := by
    by_contra hinactive
    exact hdisabled (.inl (Bool.not_eq_true _ ▸ hinactive))
  have hrestoring : ¬ s.phase.Restoring := by
    rw [hphase]
    exact id
  obtain ⟨isHealthy, hpassed⟩ := passed h hphase hactive fun st hst => (hram st hst).1
  obtain ⟨st, hst⟩ := hpassed.ram
  rw [commit_applied update alerts clock hdisabled hexpected]
  generalize hentered : decide (s.db.healthState ≠ .problem ∧ update.healthState = .problem) =
    entered
  have hends : s.db.healthState = .problem → update.healthState ≠ .problem → s.Announced :=
    fun hp hno => ⟨hannounced hp (hpassed.of_problem hp hno), h.outage hp⟩
  have hannounced' : update.healthState ≠ .problem → s.Announced →
      (s.problemDelivered && !entered) = true ∧ (s.restoredDelivered && !entered) = false := by
    rintro hno ⟨hp, hr⟩
    rw [← hentered, decide_eq_false fun hboth => hno hboth.2, hp, hr]
    exact ⟨rfl, rfl⟩
  have houtage : update.healthState = .problem → (s.restoredDelivered && !entered) = false := by
    intro hp
    by_cases hbefore : s.db.healthState = .problem
    · rw [h.outage hbefore, Bool.false_and]
    · rw [← hentered, decide_eq_true ⟨hbefore, hp⟩, Bool.not_true, Bool.and_false]
  refine ⟨iff_of_false ?_ ?_, fun hw => ?_, fun hp => ?_, houtage, ?_, fun _ hno hlast _ => ?_, ?_⟩
  · rw [hactive]
    simp
  · exact hpassed.not_manualDisabled fun hm => hdisabled (.inr hm)
  · exact ⟨s.settled, (settled_next rfl).trans (hpassed.waiting hw)⟩
  · obtain ⟨hfew, rest, hrest⟩ := hpassed.recovering h hp
    exact ⟨hfew, rest, (settled_next rfl).trans hrest⟩
  · intro st' hst' hlast
    exact .inl ((hram st' hst').2.symm.trans hlast)
  · refine hannounced' hno ?_
    by_cases hbefore : s.db.healthState = .problem
    · exact hends hbefore hno
    · exact announced_of_last h hrestoring hactive hbefore hst ((hram st hst).2.trans hlast)
  · refine phaseKept_next (fun _ st' hst' => .inl (hram st' hst').1) ⟨?_, fun hmem => ?_,
      hpassed.once⟩
    · exact fun hmem => houtage (hpassed.problem hmem)
    · obtain ⟨honline, hbefore⟩ := hpassed.restored hmem
      have hno : update.healthState ≠ .problem := by
        rw [honline]
        simp
      refine ⟨hno, hannounced' hno ?_, fun hp => hno (hpassed.problem hp)⟩
      rcases hbefore with hbefore | ⟨hbefore, st', hst', hlast⟩
      · exact hends hbefore hno
      · exact announced_of_last h hrestoring hactive hbefore hst' hlast

/-- An alert that is not delivered leaves the others to be sent. -/
theorem kept_send_failed {s : MonitorSystem} {alert : ServerAlert} {rest : List ServerAlert}
    (h : s.Kept) (hphase : s.phase = .sending alert rest) :
    ({ s with phase := .next rest } : MonitorSystem).Kept := by
  have hkept := h.phase
  rw [hphase] at hkept
  have hsettled : s.settled = s.results := by rw [settled, hphase]
  refine h.goOn rfl rfl rfl ((settled_next rfl).trans hsettled.symm) h.known (fun hr _ => ?_) ?_
  · rw [hphase] at hr
    exact absurd hr id
  · exact phaseKept_next hkept.1 hkept.2.tail

/-- The alerts that follow one that was delivered still rely on what they did. -/
theorem pending_deliver {s : MonitorSystem} {alert : ServerAlert} {rest : List ServerAlert}
    (h : s.Pending (alert :: rest)) : (s.deliver alert rest).Pending rest := by
  obtain ⟨hproblem, hrestored, honce⟩ := h
  by_cases halert : alert = .restored
  · subst halert
    obtain ⟨-, -, hno⟩ := hrestored (List.mem_cons_self ..)
    have hlast : .restored ∉ rest := by
      rw [List.count_cons_self] at honce
      exact List.count_eq_zero.mp (by omega)
    exact ⟨fun hmem => absurd (List.mem_cons_of_mem _ hmem) hno, fun hmem => absurd hmem hlast,
      (List.count_eq_zero.mpr hlast).le.trans zero_le_one⟩
  · refine ⟨fun hmem => ?_, fun hmem => ?_, (List.count_le_count_cons ..).trans honce⟩
    · simp only [deliver, Bool.or_eq_false_iff]
      exact ⟨hproblem (List.mem_cons_of_mem _ hmem), decide_eq_false halert⟩
    · obtain ⟨hhealth, ⟨hp, hr⟩, hno⟩ := hrestored (List.mem_cons_of_mem _ hmem)
      refine ⟨hhealth, ⟨?_, ?_⟩, fun h => hno (List.mem_cons_of_mem _ h)⟩
      · simp only [deliver, hp, Bool.true_or]
      · simp only [deliver, Bool.or_eq_false_iff]
        exact ⟨hr, decide_eq_false halert⟩

theorem kept_deliver {s : MonitorSystem} {alert : ServerAlert} {rest : List ServerAlert}
    (h : s.Kept) (hphase : s.phase = .sending alert rest) : (s.deliver alert rest).Kept := by
  have hkept := h.phase
  rw [hphase] at hkept
  obtain ⟨hin, hpending⟩ := hkept
  have hrestoring : ¬ s.phase.Restoring := by
    rw [hphase]
    exact id
  have hsettled : (s.deliver alert rest).settled = s.settled := by
    rw [settled, settled, hphase]
    rfl
  have hstays : alert ≠ .restored → s.Announced → (s.deliver alert rest).Announced := by
    rintro halert ⟨hp, hr⟩
    refine ⟨?_, ?_⟩
    · simp only [deliver, hp, Bool.true_or]
    · simp only [deliver, Bool.or_eq_false_iff]
      exact ⟨hr, decide_eq_false halert⟩
  refine ⟨h.disabled, ?_, ?_, fun hp => ?_, fun st hst hlast => ?_, ?_, ?_, ?_, ?_⟩
  · rw [hsettled]
    exact h.waiting
  · rw [hsettled]
    exact h.recovering
  · simp only [deliver, Bool.or_eq_false_iff]
    refine ⟨h.outage hp, decide_eq_false fun halert => ?_⟩
    subst halert
    exact (hpending.2.1 (List.mem_cons_self ..)).1 hp
  · obtain ⟨st₀, hst₀, rfl⟩ := Option.map_eq_some_iff.mp hst
    cases alert with
    | problem =>
      exact .inr ⟨by simp [deliver], by simp [deliver, hpending.1 (List.mem_cons_self ..)]⟩
    | restored => cases hlast
    | outageReminder => exact (h.known st₀ hst₀ hlast).imp_right (hstays (by simp))
    | diskCritical => exact (h.known st₀ hst₀ hlast).imp_right (hstays (by simp))
  · intro hactive hhealth hlast hno
    exact hstays hno (h.due hactive hhealth hlast hrestoring)
  · intro hactive st hst
    obtain ⟨st₀, hst₀, rfl⟩ := Option.map_eq_some_iff.mp hst
    exact hin hactive st₀ hst₀
  · exact pending_deliver hpending
  · rintro rfl st hst
    obtain ⟨st₀, -, rfl⟩ := Option.map_eq_some_iff.mp hst
    simp [ServerAlert.targetAlertState]

theorem kept_fetch {s : MonitorSystem} (h : s.Kept) : (s.step .fetch).Kept := by
  rw [step]
  split
  · rename_i alert rest hphase
    have hkept := h.phase
    rw [hphase] at hkept
    obtain ⟨hin, hpending, hrestored⟩ := hkept
    have hsettled : s.settled = s.results := by rw [settled, hphase]
    split_ifs with hdisabled
    · refine h.goOn rfl rfl rfl ((settled_next rfl).trans hsettled.symm) h.known
        (fun _ hactive => ?_) (phaseKept_next hin hpending)
      cases (h.disabled.mpr hdisabled).symm.trans hactive
    · refine h.goOn rfl rfl rfl hsettled.symm h.known (fun hr _ => ?_)
        ⟨hin, hpending, fun st hst hlast => ?_, fun hvalue => ?_, fun halert => ⟨?_, .inl rfl⟩⟩
      · rw [hphase] at hr
        exact hr
      · rw [hst]
        exact hlast
      · obtain ⟨st, hst, hlast⟩ := Option.bind_eq_some_iff.mp hvalue
        exact h.known st hst hlast
      · intro hvalue
        obtain ⟨st, hst, hlast⟩ := Option.bind_eq_some_iff.mp hvalue
        exact hrestored halert st hst hlast
  · exact h

/-- What is recorded after an alert is the last alert in memory, or what another transaction left
    there; after an alert of recovery it is no problem alert. -/
theorem kept_record {s : MonitorSystem} (h : s.Kept) : (s.step .record).Kept := by
  rw [step]
  split
  · rename_i alert rest loaded value hphase
    have hkept := h.phase
    rw [hphase] at hkept
    obtain ⟨hin, hpending, hram, hvalue, hrestored⟩ := hkept
    have hsettled : s.settled = s.results := by rw [settled, hphase]
    have hdue : s.db.isActive = true → s.db.healthState ≠ .problem →
        Lib.written loaded value s.db.lastAlertSentState = some .problem → s.Announced := by
      intro hactive hno hlast
      by_cases hsame : value = loaded
      · subst hsame
        rw [Lib.written_loaded] at hlast
        refine h.due hactive hno hlast ?_
        rw [hphase]
        intro halert
        obtain ⟨hne, hdb | hdb⟩ := hrestored halert
        · exact hne (hdb.symm.trans hlast)
        · cases hdb.symm.trans hlast
      · rw [Lib.written_of_ne hsame] at hlast
        exact (hvalue hlast).resolve_left fun hl => hsame (hlast.trans hl.symm)
    refine ⟨h.disabled, ?_, ?_, h.outage, fun st hst hlast => ?_,
      fun hactive hno hlast _ => hdue hactive hno hlast, phaseKept_next hin hpending⟩
    · intro hw
      obtain ⟨results, hresults⟩ := h.waiting hw
      exact ⟨results, (settled_next rfl).trans (hsettled.symm.trans hresults)⟩
    · intro hp
      obtain ⟨hfew, results, hresults⟩ := h.recovering hp
      exact ⟨hfew, results, (settled_next rfl).trans (hsettled.symm.trans hresults)⟩
    · by_cases hsame : value = loaded
      · subst hsame
        simp only [Lib.written_loaded]
        exact h.known st hst hlast
      · simp only [Lib.written_of_ne hsame]
        exact .inl (hram st hst hlast)
  · exact h

/-- The button leaves an inactive row, or a new one that the state in memory agrees with. -/
theorem toggled (s : MonitorSystem) : (s.step .toggle).db.healthState ≠ .problem ∧
    (s.step .toggle).db.healthState ≠ .waitingConfirmation ∧
    ((s.step .toggle).db.isActive = false ↔ (s.step .toggle).db.healthState = .manualDisabled) ∧
    ((s.step .toggle).db.isActive = true → (s.step .toggle).db = {}) ∧
    ((s.step .toggle).db.lastAlertSentState = s.db.lastAlertSentState ∨
      (s.step .toggle).db.lastAlertSentState = none) ∧
    ∃ st, (s.step .toggle).ram = some st ∧ st.lastAlertSentState = none ∧
      ((s.step .toggle).db.isActive = true → st.toHealthCounters = {}) := by
  simp only [step, ServerHealth.toggle]
  by_cases hactive : s.db.isActive = true
  · simp [hactive, ServerMonitorState.reset]
  · simp [hactive, ServerMonitorState.reset]

theorem kept_toggle {s : MonitorSystem} (h : s.Kept) : (s.step .toggle).Kept := by
  obtain ⟨hproblem, hwaiting, hdisabled, hfresh, hlast, st, hst, hnone, hcounters⟩ := toggled s
  have hram : ∀ st' ∈ (s.step .toggle).ram, st' = st := fun st' hst' =>
    Option.some.inj (hst'.symm.trans hst)
  have hno : ∀ st' ∈ (s.step .toggle).ram, st'.lastAlertSentState ≠ some .problem := by
    intro st' hst' hl
    rw [hram st' hst', hnone] at hl
    cases hl
  have hrow : (s.step .toggle).db.isActive = true →
      (s.step .toggle).db.toHealthCounters = {} := fun hactive => by rw [hfresh hactive]
  have hin : (s.step .toggle).InStep := by
    intro hactive st' hst'
    rw [hram st' hst', hcounters hactive, hrow hactive]
    exact .inl rfl
  have hpending : ∀ {alerts}, s.Pending alerts → (s.step .toggle).Pending alerts :=
    fun hp => ⟨hp.1, fun hmem => ⟨hproblem, (hp.2.1 hmem).2⟩, hp.2.2⟩
  have hkept := h.phase
  refine ⟨hdisabled, fun hw => absurd hw hwaiting, fun hp => absurd hp hproblem,
    fun hp => absurd hp hproblem, fun st' hst' hl => absurd hl (hno st' hst'), ?_, ?_⟩
  · intro hactive _ hl _
    rw [hfresh hactive] at hl
    cases hl
  · have hphase : (s.step .toggle).phase = s.phase := rfl
    rw [hphase]
    cases hp : s.phase with
    | idle => exact hin
    | loaded server now =>
      refine ⟨hin, fun hn => ?_, fun _ => hrow⟩
      cases hn.symm.trans hst
    | probing expected now =>
      exact ⟨st, hst, fun hactive => ⟨(hcounters hactive).trans (hrow hactive).symm,
        .inr (hrow hactive)⟩⟩
    | evaluated expected update alerts =>
      rw [hp] at hkept
      obtain ⟨before, after, isHealthy, old, hresults, hupdate, hafter, hl, halerts, -⟩ := hkept
      exact ⟨before, after, isHealthy, old, hresults, hupdate, hafter, hl, halerts,
        .inr ⟨st, hst, fun hactive => ⟨hrow hactive, hcounters hactive⟩⟩⟩
    | sending alert rest =>
      rw [hp] at hkept
      exact ⟨hin, hpending hkept.2⟩
    | delivered alert rest =>
      rw [hp] at hkept
      exact ⟨hin, hpending hkept.2.1, fun _ => hno⟩
    | fetched alert rest loaded value =>
      rw [hp] at hkept
      obtain ⟨-, hold, -, hvalue, hrestored⟩ := hkept
      refine ⟨hin, hpending hold, fun st' hst' hl => absurd hl (hno st' hst'), hvalue,
        fun halert => ⟨(hrestored halert).1, ?_⟩⟩
      rcases hlast with hsame | hnew
      · rw [hsame]
        exact (hrestored halert).2
      · exact .inr hnew

theorem kept_restart {s : MonitorSystem} (h : s.Kept) (hg : s.Orderly .restart) :
    (s.step .restart).Kept := by
  obtain ⟨hrestoring, hlost⟩ := hg
  have hsettled : s.settled = s.results ∨ ∃ isHealthy, s.results = isHealthy :: s.settled ∧
      s.Agrees isHealthy := by
    cases hp : s.phase with
    | evaluated expected update alerts =>
      have hkept := h.phase
      rw [hp] at hkept
      obtain ⟨-, -, isHealthy, old, hresults, -⟩ := hkept
      refine .inr ⟨isHealthy, ?_, hlost _ _ _ hp isHealthy (by rw [hresults]; rfl)⟩
      rw [settled, hp, hresults]
      rfl
    | _ =>
      left
      rw [settled, hp]
  refine ⟨h.disabled, fun hw => ?_, fun hp => ?_, h.outage, fun st hst => ?_,
    fun hactive hno hlast _ => h.due hactive hno hlast hrestoring, fun _ st hst => ?_⟩
  · rcases hsettled with hsame | ⟨isHealthy, hresults, hagrees⟩
    · obtain ⟨rest, hrest⟩ := h.waiting hw
      exact ⟨rest, hsame.symm.trans hrest⟩
    · exact ⟨s.settled, hagrees.1 hw ▸ hresults⟩
  · obtain ⟨hfew, rest, hrest⟩ := h.recovering hp
    refine ⟨hfew, ?_⟩
    rcases hsettled with hsame | ⟨isHealthy, hresults, hagrees⟩
    · exact ⟨rest, hsame.symm.trans hrest⟩
    · rcases Nat.eq_zero_or_pos s.db.consecutiveSuccesses with hzero | hpos
      · exact ⟨s.results, by simp [step, hzero, settled]⟩
      · refine ⟨true :: rest, ?_⟩
        rw [hagrees.2 hp hpos, hrest] at hresults
        refine hresults.trans ?_
        rw [← List.cons_append, ← List.replicate_succ, List.replicate_succ', List.append_assoc]
        rfl
  · cases hst
  · cases hst

theorem kept_step {s : MonitorSystem} {e : MonitorEvent} (h : s.Kept) (hg : s.Orderly e) :
    (s.step e).Kept := by
  cases e with
  | load now => exact kept_load h
  | check => exact kept_check h
  | probe isHealthy disk clock => exact kept_probe h
  | commit clock =>
    rw [step]
    split
    · rename_i expected update alerts hphase
      by_cases hrejected : s.db.Disabled ∨ s.db.toHealthCounters ≠ expected
      · exact kept_commit_rejected h hphase hrejected
      · obtain ⟨hdisabled, hexpected⟩ := not_or.mp hrejected
        obtain ⟨hram, hannounced⟩ :=
          hg expected update alerts hphase hdisabled (not_not.mp hexpected)
        exact kept_commit_applied h hphase hdisabled (not_not.mp hexpected) hram hannounced
    · exact h
  | send ok =>
    rw [step]
    split
    · rename_i alert rest hphase
      split_ifs
      · exact kept_deliver h hphase
      · exact kept_send_failed h hphase
    · exact h
  | fetch => exact kept_fetch h
  | record => exact kept_record h
  | toggle => exact kept_toggle h
  | restart => exact kept_restart h hg

/-! ### What a step writes -/

/-- Only an update, a record and the button write the row. -/
theorem step_db (s : MonitorSystem) {e : MonitorEvent} (hcommit : ∀ clock, e ≠ .commit clock)
    (hrecord : e ≠ .record) (htoggle : e ≠ .toggle) : (s.step e).db = s.db := by
  cases e with
  | commit clock => exact absurd rfl (hcommit clock)
  | record => exact absurd rfl hrecord
  | toggle => exact absurd rfl htoggle
  | restart => rfl
  | load now =>
    rw [step]
    split_ifs <;> rfl
  | check =>
    rw [step]
    split
    · simp only [check]
      split_ifs <;> rfl
    · rfl
  | probe isHealthy disk clock =>
    rw [step]
    split <;> rfl
  | send ok =>
    rw [step]
    split
    · split_ifs <;> rfl
    · rfl
  | fetch =>
    rw [step]
    split
    · split_ifs <;> rfl
    · rfl

/-- A record leaves the health of the row alone. -/
theorem record_health (s : MonitorSystem) :
    (s.step .record).db.toHealthCounters = s.db.toHealthCounters := by
  rw [step]
  split <;> rfl

/-- The health of the row changes by an update that goes through, and by the button. -/
theorem health_cases {s : MonitorSystem} {e : MonitorEvent} (h : s.Kept) (hg : s.Orderly e) :
    (s.step e).db.healthState = s.db.healthState ∨ e = .toggle ∨ ¬ s.db.Disabled ∧
      ∃ update alerts isHealthy, s.Passed update alerts isHealthy ∧
        (s.step e).db.healthState = update.healthState := by
  cases e with
  | commit clock =>
    rw [step]
    split
    · rename_i expected update alerts hphase
      by_cases hrejected : s.db.Disabled ∨ s.db.toHealthCounters ≠ expected
      · rw [commit_rejected update alerts clock hrejected]
        exact .inl rfl
      · obtain ⟨hdisabled, hexpected⟩ := not_or.mp hrejected
        have hactive : s.db.isActive = true := by
          by_contra hinactive
          exact hdisabled (.inl (Bool.not_eq_true _ ▸ hinactive))
        obtain ⟨hram, -⟩ := hg expected update alerts hphase hdisabled (not_not.mp hexpected)
        obtain ⟨isHealthy, hpassed⟩ := passed h hphase hactive fun st hst => (hram st hst).1
        rw [commit_applied update alerts clock hdisabled (not_not.mp hexpected)]
        exact .inr (.inr ⟨hdisabled, update, alerts, isHealthy, hpassed, rfl⟩)
    · exact .inl rfl
  | record => exact .inl (congrArg HealthCounters.healthState (record_health s))
  | toggle => exact .inr (.inl rfl)
  | _ => exact .inl (by rw [step_db s (by simp) (by simp) (by simp)])

theorem entersAfterTwo {s : MonitorSystem} {e : MonitorEvent} (h : s.Kept) (hg : s.Orderly e) :
    s.EntersAfterTwo e := by
  intro hno hproblem
  rcases health_cases h hg with hsame | rfl | ⟨-, update, alerts, isHealthy, hpassed, hupdate⟩
  · exact absurd (hsame.symm.trans hproblem) hno
  · exact absurd hproblem (toggled s).1
  · exact hpassed.enters h hno (hupdate.symm.trans hproblem)

theorem leavesAfterThree {s : MonitorSystem} {e : MonitorEvent} (h : s.Kept) (hg : s.Orderly e) :
    s.LeavesAfterThree e := by
  intro hproblem honline
  rcases health_cases h hg with hsame | rfl | ⟨-, update, alerts, isHealthy, hpassed, hupdate⟩
  · cases (hsame.symm.trans honline).symm.trans hproblem
  · have hactive : s.db.isActive = true := by
      by_contra hinactive
      cases hproblem.symm.trans (h.disabled.mp (Bool.not_eq_true _ ▸ hinactive))
    rw [step, ServerHealth.toggle, if_pos hactive] at honline
    cases honline
  · exact hpassed.leaves h hproblem (hupdate.symm.trans honline)

theorem neverOverwrites {s : MonitorSystem} {e : MonitorEvent} (hg : s.Orderly e) :
    s.NeverOverwrites e := by
  intro htoggle hdisabled
  cases e with
  | commit clock =>
    rw [step]
    split
    · rename_i expected update alerts hphase
      rw [commit_rejected update alerts clock (.inl hdisabled)]
    · rfl
  | record =>
    rw [step]
    split
    · rename_i alert rest loaded value hphase
      rw [hg alert rest loaded value hphase hdisabled, Lib.written_loaded]
    · rfl
  | toggle => exact absurd rfl htoggle
  | _ => exact step_db s (by simp) (by simp) (by simp)

theorem paired {s : MonitorSystem} {e : MonitorEvent} (h : s.Kept) : s.Paired e := by
  cases e with
  | send ok =>
    cases ok with
    | true =>
      intro rest hphase
      have hkept := h.phase
      rw [hphase] at hkept
      exact (hkept.2.2.1 (List.mem_cons_self ..)).2.1
    | false => trivial
  | _ => trivial

/-- In every orderly run the server enters PROBLEM after two failed probes and leaves it after three
    successful ones, a disabled server is never overwritten, and each recovery is announced once and
    only for an announced outage. -/
theorem monitor_safe (es : List MonitorEvent) (h : Lib.Always step Orderly {} es) :
    Lib.Always step Safe {} es :=
  Lib.always_of_inv_of_always step (fun _ _ => kept_step)
    (fun _ _ hkept hg => ⟨entersAfterTwo hkept hg, leavesAfterThree hkept hg, neverOverwrites hg,
      paired hkept⟩) es {} kept_start h

/-- A check of the server at the time `now`. -/
def cycle (now : Time) (isHealthy : Bool) : List MonitorEvent :=
  [.load now, .check, .probe isHealthy none now, .commit now]

/-- An outage that is announced, and its end. -/
theorem monitor_safe_outage :
    Lib.Always step Safe {}
      (cycle 0 false ++ cycle confirmationDelay false ++ [.send true, .fetch, .record] ++
        cycle confirmationDelay true ++ cycle confirmationDelay true ++
        cycle confirmationDelay true ++ [.send true, .fetch, .record]) := by
  refine monitor_safe _ ⟨trivial, trivial, trivial, ?_, trivial, trivial, trivial, ?_, trivial,
    trivial, ?_, trivial, trivial, trivial, ?_, trivial, trivial, trivial, ?_, trivial, trivial,
    trivial, ?_, trivial, trivial, ?_, trivial⟩
  case refine_3 | refine_7 =>
    rintro alert rest loaded value - hdisabled
    rcases hdisabled with h | h <;> exact absurd h (by decide)
  all_goals
    rintro expected update alerts ⟨⟩ - -
    exact ⟨by rintro st ⟨⟩; exact ⟨rfl, rfl⟩, by decide⟩

/-- No problem alert of an outage is delivered, and still its end is announced. -/
theorem restored_unannounced : ¬ ∀ es, Lib.Always step Safe {} es := by
  intro h
  have hrun := h (cycle 0 false ++ cycle confirmationDelay false ++ [.send false] ++
    cycle confirmationDelay true ++ [.send false] ++ cycle confirmationDelay true ++
    [.send false] ++ cycle confirmationDelay true ++ [.send true])
  obtain ⟨-, hsafe, -⟩ := (Lib.always_append ..).mp hrun
  obtain ⟨hdelivered, -⟩ := hsafe.paired [] (by decide)
  exact absurd hdelivered (by decide)

end MonitorSystem

end Just1kBot
