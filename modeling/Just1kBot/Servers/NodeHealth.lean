import Just1kBot.WhiteInternet.Servers
import Just1kBot.Lib.Session

/-! The health automaton of the node monitor: `ServerMonitorState` and the transitions of
    `check_node_resources_and_alerts` of `services/workers/node_monitor.py`, and
    `update_server_health_snapshot` of `database/repositories/servers_repo.py`.

        probe:   fail                fail          ok ok ok
        ONLINE ──▶ WAITING_CONFIRMATION ──▶ PROBLEM ──▶ ONLINE
                   │ ok ──▶ ONLINE           │ fail: count anew

    The monitor keeps the state in memory and writes it under a compare-and-swap; what it read of
    the row before the probe must still be there. The probes of ingress, CDN and relays are kept
    apart from this state and are left out. -/

namespace Just1kBot

def confirmationDelay : Time := 60 * 1000000

def requiredStableSuccesses : ℕ := 3

def diskAlertCooldown : Time := 3600 * 1000000

def outageReminderInterval : Time := 3600 * 1000000

/-- What the compare-and-swap compares. -/
structure HealthCounters where
  healthState : ServerHealthState := .online
  consecutiveFails : ℕ := 0
  consecutiveSuccesses : ℕ := 0
  deriving DecidableEq, Repr

/-- The health columns of a server row. -/
structure ServerHealth extends HealthCounters where
  isActive : Bool := true
  lastAlertSentState : Option ServerHealthState := none
  nextCheckAt : Option Time := none
  deriving DecidableEq, Repr

/-- What the monitor keeps in memory of a server. -/
structure ServerMonitorState extends HealthCounters where
  nextCheckAt : Option Time := none
  lastAlertSentState : Option ServerHealthState := none
  diskAlertLastSent : Option Time := none
  lastCoreReminderAt : Option Time := none
  deriving DecidableEq, Repr

inductive ServerAlert
  | problem | restored | outageReminder | diskCritical
  deriving DecidableEq, Repr

/-- `target_alert_state`. -/
def ServerAlert.targetAlertState : ServerAlert → Option ServerHealthState
  | .problem => some .problem
  | .restored => some .online
  | .outageReminder => none
  | .diskCritical => none

/-! ### The state in memory -/

namespace ServerMonitorState

/-- `sync_from_db_server`. -/
def syncFromDbServer (now : Time) (server : ServerHealth) (st : ServerMonitorState) :
    ServerMonitorState :=
  { st with
    healthState := if server.isActive then server.healthState else .manualDisabled
    consecutiveFails := server.consecutiveFails
    consecutiveSuccesses := server.consecutiveSuccesses
    lastAlertSentState := server.lastAlertSentState
    nextCheckAt := server.nextCheckAt.map (max now) }

/-- `reset_server_monitor_state`. -/
def reset (newState : ServerHealthState) : ServerMonitorState := { healthState := newState }

/-- A server that was disabled and is active again. -/
def reenable (st : ServerMonitorState) : ServerMonitorState :=
  { st with
    healthState := .online
    consecutiveFails := 0
    consecutiveSuccesses := 0
    nextCheckAt := none
    lastAlertSentState := none }

/-- The disk check of an online node. -/
def checkDisk (now : Time) (diskPercent : Option ℚ) (st : ServerMonitorState) :
    ServerMonitorState × List ServerAlert :=
  match diskPercent with
  | none => (st, [])
  | some p =>
    if 85 < p then
      if st.diskAlertLastSent.all fun last => diskAlertCooldown ≤ now - last then
        ({ st with diskAlertLastSent := some now }, [.diskCritical])
      else (st, [])
    else if p ≤ 80 then ({ st with diskAlertLastSent := none }, [])
    else (st, [])

/-- A successful probe. -/
def onSuccess (now : Time) (diskPercent : Option ℚ) (st : ServerMonitorState) :
    ServerMonitorState × List ServerAlert :=
  match st.healthState with
  | .waitingConfirmation =>
    ({ st with
        healthState := .online
        consecutiveFails := 0
        consecutiveSuccesses := 0
        nextCheckAt := none }, [])
  | .online =>
    let st := { st with
      consecutiveFails := 0
      consecutiveSuccesses := st.consecutiveSuccesses + 1
      nextCheckAt := none }
    let disk := st.checkDisk now diskPercent
    (disk.1, (if st.lastAlertSentState = some .problem then [.restored] else []) ++ disk.2)
  | .problem =>
    let st := { st with
      consecutiveFails := 0
      consecutiveSuccesses := st.consecutiveSuccesses + 1 }
    if requiredStableSuccesses ≤ st.consecutiveSuccesses then
      ({ st with
          healthState := .online
          nextCheckAt := none
          lastCoreReminderAt := none }, [.restored])
    else (st, [])
  | .manualDisabled => (st, [])

/-- A failed probe. -/
def onFailure (now : Time) (st : ServerMonitorState) : ServerMonitorState × List ServerAlert :=
  let st := { st with consecutiveSuccesses := 0 }
  match st.healthState with
  | .online =>
    ({ st with
        healthState := .waitingConfirmation
        consecutiveFails := 1
        nextCheckAt := some (now + confirmationDelay) }, [])
  | .waitingConfirmation =>
    ({ st with
        healthState := .problem
        consecutiveFails := 2
        nextCheckAt := none }, [.problem])
  | .problem =>
    ({ st with
        consecutiveFails := st.consecutiveFails + 1
        nextCheckAt := none }, [])
  | .manualDisabled => (st, [])

/-- An alert that was not delivered is sent again, and a long outage is reminded of. -/
def retryOrRemind (now : Time) (st : ServerMonitorState) : ServerMonitorState × List ServerAlert :=
  if st.healthState ≠ .problem then (st, [])
  else if st.lastAlertSentState ≠ some .problem then (st, [.problem])
  else
    match st.lastCoreReminderAt with
    | none => ({ st with lastCoreReminderAt := some now }, [])
    | some last =>
      if outageReminderInterval ≤ now - last then
        ({ st with lastCoreReminderAt := some now }, [.outageReminder])
      else (st, [])

/-- The result of a probe: the state after it and the alerts to send. -/
def observe (now : Time) (isHealthy : Bool) (diskPercent : Option ℚ) (st : ServerMonitorState) :
    ServerMonitorState × List ServerAlert :=
  let r := if isHealthy then st.onSuccess now diskPercent else st.onFailure now
  if r.2 = [] then r.1.retryOrRemind now else r

end ServerMonitorState

/-! ### The compare-and-swap -/

/-- What a check writes; `next_check_at` is left alone unless it is given. -/
structure HealthUpdate extends HealthCounters where
  lastAlertSentState : Option ServerHealthState
  nextCheckAt : Option (Option Time)
  deriving DecidableEq, Repr

/-- `update_kwargs`, at the time `clock` of the cycle that began at `now`. -/
def ServerMonitorState.updateKwargs (now clock : Time) (isHealthy : Bool)
    (st : ServerMonitorState) : HealthUpdate where
  toHealthCounters := st.toHealthCounters
  lastAlertSentState := st.lastAlertSentState
  nextCheckAt :=
    if isHealthy ∧ st.healthState = .online then some none
    else if st.healthState = .waitingConfirmation then
      st.nextCheckAt.map fun t => some (clock + max 0 (t - now))
    else if st.healthState = .problem ∧ st.consecutiveFails = 2 then some none
    else none

/-- `update_server_health_snapshot`: the row, and whether the update was applied. -/
def ServerHealth.updateServerHealthSnapshot (current : ServerHealth) (expected : HealthCounters)
    (new : HealthUpdate) : ServerHealth × Bool :=
  if current.isActive = false ∨ current.healthState = .manualDisabled then (current, false)
  else if current.healthState ≠ expected.healthState then (current, false)
  else if current.consecutiveFails ≠ expected.consecutiveFails then (current, false)
  else if current.consecutiveSuccesses ≠ expected.consecutiveSuccesses then (current, false)
  else
    ({ current with
        toHealthCounters := new.toHealthCounters
        lastAlertSentState := new.lastAlertSentState
        nextCheckAt := new.nextCheckAt.getD current.nextCheckAt }, true)

/-- The administrator's button: `toggle_server` of `bot/handlers/admin/servers/card_routes.py`. -/
def ServerHealth.toggle (server : ServerHealth) : ServerHealth :=
  if server.isActive then
    { server with isActive := false, healthState := .manualDisabled, nextCheckAt := none }
  else {}

/-! ### What a probe does to the counters -/

namespace HealthCounters

/-- The automaton on its own. -/
def probe (isHealthy : Bool) (c : HealthCounters) : HealthCounters :=
  match isHealthy, c.healthState with
  | true, .waitingConfirmation => {}
  | true, .online =>
    { c with consecutiveFails := 0, consecutiveSuccesses := c.consecutiveSuccesses + 1 }
  | true, .problem =>
    { healthState :=
        if requiredStableSuccesses ≤ c.consecutiveSuccesses + 1 then .online else .problem
      consecutiveFails := 0
      consecutiveSuccesses := c.consecutiveSuccesses + 1 }
  | false, .online => { healthState := .waitingConfirmation, consecutiveFails := 1 }
  | false, .waitingConfirmation => { healthState := .problem, consecutiveFails := 2 }
  | false, .problem =>
    { c with consecutiveFails := c.consecutiveFails + 1, consecutiveSuccesses := 0 }
  | true, .manualDisabled => c
  | false, .manualDisabled => { c with consecutiveSuccesses := 0 }

end HealthCounters

namespace ServerMonitorState

theorem checkDisk_fst (now : Time) (disk : Option ℚ) (st : ServerMonitorState) :
    (st.checkDisk now disk).1.toHealthCounters = st.toHealthCounters ∧
      (st.checkDisk now disk).1.lastAlertSentState = st.lastAlertSentState := by
  cases disk with
  | none => exact ⟨rfl, rfl⟩
  | some p =>
    simp only [checkDisk]
    split_ifs <;> exact ⟨rfl, rfl⟩

theorem checkDisk_snd (now : Time) (disk : Option ℚ) (st : ServerMonitorState) :
    (st.checkDisk now disk).2 = [] ∨ (st.checkDisk now disk).2 = [.diskCritical] := by
  cases disk with
  | none => exact .inl rfl
  | some p =>
    simp only [checkDisk]
    split_ifs <;> simp

theorem retryOrRemind_fst (now : Time) (st : ServerMonitorState) :
    (st.retryOrRemind now).1.toHealthCounters = st.toHealthCounters ∧
      (st.retryOrRemind now).1.lastAlertSentState = st.lastAlertSentState := by
  rw [retryOrRemind]
  split_ifs
  · exact ⟨rfl, rfl⟩
  · exact ⟨rfl, rfl⟩
  · split
    · exact ⟨rfl, rfl⟩
    · split_ifs <;> exact ⟨rfl, rfl⟩

/-- A retry or a reminder is about a server in trouble, and never says that it is restored. -/
theorem retryOrRemind_snd (now : Time) (st : ServerMonitorState) :
    (st.retryOrRemind now).2 = [] ∨ st.healthState = .problem ∧
      ((st.retryOrRemind now).2 = [.problem] ∨ (st.retryOrRemind now).2 = [.outageReminder]) := by
  rw [retryOrRemind]
  split_ifs with hstate hlast
  · exact .inl rfl
  · exact .inr ⟨not_not.mp hstate, .inl rfl⟩
  · split
    · exact .inl rfl
    · split_ifs
      · exact .inr ⟨not_not.mp hstate, .inr rfl⟩
      · exact .inl rfl

/-- The alerts of a check that took `before` to `after`. -/
structure AlertsOf (before after : ServerMonitorState) (alerts : List ServerAlert) : Prop where
  problem : .problem ∈ alerts → after.healthState = .problem
  restored : .restored ∈ alerts → after.healthState = .online ∧
    (before.healthState = .problem ∨
      before.healthState = .online ∧ before.lastAlertSentState = some .problem)
  once : alerts.count .restored ≤ 1

/-- What a probe does before any retry. -/
theorem onResult (now : Time) (isHealthy : Bool) (disk : Option ℚ) (st : ServerMonitorState) :
    let r := if isHealthy then st.onSuccess now disk else st.onFailure now
    r.1.toHealthCounters = st.toHealthCounters.probe isHealthy ∧
      r.1.lastAlertSentState = st.lastAlertSentState ∧ AlertsOf st r.1 r.2 := by
  cases isHealthy with
  | true =>
    simp only [if_true, onSuccess, HealthCounters.probe]
    cases hstate : st.healthState with
    | waitingConfirmation => exact ⟨rfl, rfl, by simp, by simp, by simp⟩
    | online =>
      let st' : ServerMonitorState := { st with
        healthState := .online
        consecutiveFails := 0
        consecutiveSuccesses := st.consecutiveSuccesses + 1
        nextCheckAt := none }
      obtain ⟨hcounters, hlast⟩ := checkDisk_fst now disk st'
      have hstate' : (st'.checkDisk now disk).1.healthState = .online :=
        congrArg HealthCounters.healthState hcounters
      refine ⟨hcounters, hlast, ?_⟩
      simp only
      by_cases hproblem : st.lastAlertSentState = some .problem
      · rw [if_pos hproblem]
        rcases checkDisk_snd now disk st' with h | h
        · rw [h]
          exact ⟨by simp, fun _ => ⟨hstate', .inr ⟨hstate, hproblem⟩⟩, by simp⟩
        · rw [h]
          exact ⟨by simp, fun _ => ⟨hstate', .inr ⟨hstate, hproblem⟩⟩, by simp⟩
      · rw [if_neg hproblem]
        rcases checkDisk_snd now disk st' with h | h
        · rw [h]
          exact ⟨by simp, by simp, by simp⟩
        · rw [h]
          exact ⟨by simp, by simp, by simp⟩
    | problem =>
      simp only
      split_ifs with hstable
      · exact ⟨rfl, rfl, by simp, fun _ => ⟨rfl, .inl hstate⟩, by simp⟩
      · exact ⟨by simp, rfl, by simp, by simp, by simp⟩
    | manualDisabled => exact ⟨rfl, rfl, by simp, by simp, by simp⟩
  | false =>
    simp only [Bool.false_eq_true, if_false, onFailure, HealthCounters.probe]
    cases hstate : st.healthState with
    | waitingConfirmation => exact ⟨rfl, rfl, fun _ => rfl, by simp, by simp⟩
    | online => exact ⟨rfl, rfl, by simp, by simp, by simp⟩
    | problem => exact ⟨by simp, rfl, by simp, by simp, by simp⟩
    | manualDisabled => exact ⟨by simp, rfl, by simp, by simp, by simp⟩

/-- The state in memory follows the automaton; a probe leaves the last alert as it is, and its
    alerts are those of the step. -/
theorem observe_spec (now : Time) (isHealthy : Bool) (disk : Option ℚ) (st : ServerMonitorState) :
    (st.observe now isHealthy disk).1.toHealthCounters = st.toHealthCounters.probe isHealthy ∧
      (st.observe now isHealthy disk).1.lastAlertSentState = st.lastAlertSentState ∧
      AlertsOf st (st.observe now isHealthy disk).1 (st.observe now isHealthy disk).2 := by
  have hresult := onResult now isHealthy disk st
  simp only [observe]
  generalize (if isHealthy then st.onSuccess now disk else st.onFailure now) = r at hresult ⊢
  obtain ⟨hcounters, hlast, halerts⟩ := hresult
  split_ifs with hnone
  · obtain ⟨hcounters', hlast'⟩ := retryOrRemind_fst now r.1
    refine ⟨hcounters'.trans hcounters, hlast'.trans hlast, ?_⟩
    have hstate := congrArg HealthCounters.healthState hcounters'
    rcases retryOrRemind_snd now r.1 with h | ⟨hp, h | h⟩
    · rw [h]
      exact ⟨by simp, by simp, by simp⟩
    · rw [h]
      exact ⟨fun _ => hstate.trans hp, by simp, by simp⟩
    · rw [h]
      exact ⟨by simp, by simp, by simp⟩
  · exact ⟨hcounters, hlast, halerts⟩

end ServerMonitorState

/-! ### What an update writes -/

namespace ServerHealth

/-- Inactive, or disabled by the administrator. -/
def Disabled (server : ServerHealth) : Prop :=
  server.isActive = false ∨ server.healthState = .manualDisabled

/-- An update is rejected on a disabled row and on one that is not as it was expected. -/
theorem update_rejected {current : ServerHealth} {expected : HealthCounters} {new : HealthUpdate}
    (h : current.Disabled ∨ current.toHealthCounters ≠ expected) :
    current.updateServerHealthSnapshot expected new = (current, false) := by
  rw [updateServerHealthSnapshot]
  split_ifs with hdisabled hstate hfails hsucc
  · rfl
  · rfl
  · rfl
  · rfl
  · refine absurd ?_ (h.resolve_left hdisabled)
    cases expected
    exact HealthCounters.mk.injEq .. ▸ ⟨not_not.mp hstate, not_not.mp hfails, not_not.mp hsucc⟩

/-- Otherwise it is applied: the counters and the last alert are those of the update. -/
theorem update_applied {current : ServerHealth} (expected : HealthCounters) (new : HealthUpdate)
    (hdisabled : ¬ current.Disabled) (hexpected : current.toHealthCounters = expected) :
    current.updateServerHealthSnapshot expected new =
      ({ current with
          toHealthCounters := new.toHealthCounters
          lastAlertSentState := new.lastAlertSentState
          nextCheckAt := new.nextCheckAt.getD current.nextCheckAt }, true) := by
  subst hexpected
  rw [Disabled] at hdisabled
  rw [updateServerHealthSnapshot, if_neg hdisabled, if_neg (not_not.mpr rfl),
    if_neg (not_not.mpr rfl), if_neg (not_not.mpr rfl)]

end ServerHealth

/-! ### The steps of the automaton -/

namespace HealthCounters

/-- A disabled server stays disabled, and no other becomes so. -/
theorem probe_manualDisabled (isHealthy : Bool) (c : HealthCounters) :
    (c.probe isHealthy).healthState = .manualDisabled ↔ c.healthState = .manualDisabled := by
  obtain ⟨state, fails, succ⟩ := c
  cases isHealthy <;> cases state
  case true.problem =>
    simp only [probe]
    split_ifs <;> simp
  all_goals simp [probe]

/-- A server is found waiting for confirmation after a failed probe. -/
theorem probe_waiting {isHealthy : Bool} {c : HealthCounters}
    (h : (c.probe isHealthy).healthState = .waitingConfirmation) : isHealthy = false := by
  obtain ⟨state, fails, succ⟩ := c
  cases isHealthy <;> cases state
  case true.problem =>
    simp only [probe] at h
    split_ifs at h
  all_goals simp [probe] at h ⊢

/-- A server is found in trouble by a second failed probe, and stays so on failed probes and on too
    few successful ones. -/
theorem probe_problem {isHealthy : Bool} {c : HealthCounters}
    (h : (c.probe isHealthy).healthState = .problem) :
    isHealthy = false ∧ (c.healthState = .waitingConfirmation ∨ c.healthState = .problem) ∧
        (c.probe isHealthy).consecutiveSuccesses = 0 ∨
      isHealthy = true ∧ c.healthState = .problem ∧
        (c.probe isHealthy).consecutiveSuccesses = c.consecutiveSuccesses + 1 ∧
        c.consecutiveSuccesses + 1 < requiredStableSuccesses := by
  obtain ⟨state, fails, succ⟩ := c
  cases isHealthy <;> cases state
  case true.problem =>
    refine .inr ⟨rfl, rfl, rfl, not_le.mp fun hstable => ?_⟩
    simp [probe, hstable] at h
  all_goals simp [probe] at h ⊢

/-- A server in trouble leaves it after enough successful probes. -/
theorem probe_of_problem (isHealthy : Bool) {c : HealthCounters} (h : c.healthState = .problem) :
    (c.probe isHealthy).healthState = .problem ∨
      (c.probe isHealthy).healthState = .online ∧ isHealthy = true ∧
        requiredStableSuccesses ≤ c.consecutiveSuccesses + 1 := by
  obtain ⟨state, fails, succ⟩ := c
  subst h
  cases isHealthy with
  | false => exact .inl rfl
  | true =>
    by_cases hstable : requiredStableSuccesses ≤ succ + 1
    · exact .inr ⟨if_pos hstable, rfl, hstable⟩
    · exact .inl (if_neg hstable)

/-- No probe of an online server or of one in trouble gives fresh counters. -/
theorem probe_eq_start {isHealthy : Bool} {c : HealthCounters} (h : c.probe isHealthy = {}) :
    c.healthState = .waitingConfirmation := by
  obtain ⟨state, fails, succ⟩ := c
  cases isHealthy <;> cases state <;> simp [probe] at h ⊢

end HealthCounters

end Just1kBot
