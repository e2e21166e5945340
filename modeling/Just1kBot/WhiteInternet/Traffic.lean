import Just1kBot.Users.Traffic
import Just1kBot.WhiteInternet.Subscription
import Just1kBot.Lib.Meter

/-! White Internet metering: `record_and_deduct_traffic_atomic` of
    `database/repositories/white_internet_repo.py`, and what `run_traffic_cycle` of
    `services/workers/white_internet_traffic.py` does with the counters of one client.

    The row keeps one snapshot and one stats epoch, whatever node they came from. Counters reach
    these functions as naturals, since the worker cuts negative ones off. -/

namespace Just1kBot
open Lib.Meter (increase)

namespace WhiteInternetSubscription

/-! ### Recording -/

/-- At least nine tenths of the quota are used. -/
def NearlyUsed (sub : WhiteInternetSubscription) : Prop :=
  0 < sub.totalQuota ∧ (9 : ℚ) / 10 * sub.totalQuota ≤ sub.usedQuota

instance : DecidablePred NearlyUsed := fun s => by unfold NearlyUsed; infer_instance

structure TrafficRecord where
  consumed : ℕ
  becameExhausted : Bool
  available : ℕ
  /-- The event `traffic_90p`. -/
  warn90p : Bool
  deriving DecidableEq, Repr

def availableQuota (sub : WhiteInternetSubscription) : ℕ := sub.totalQuota - sub.usedQuota

/-- The counters after a record: what is over the quota is overage, and everything is on a row that
    is disabled or expired. -/
def addTraffic (nodeEpoch : Epoch) (uplinkAfter downlinkAfter deltaUplink deltaDownlink : ℕ)
    (sub : WhiteInternetSubscription) : WhiteInternetSubscription :=
  let overage := if sub.status = .disabled ∨ sub.status = .expired then deltaDownlink
    else deltaDownlink - sub.availableQuota
  { sub with
    trafficUsedBytes := sub.trafficUsedBytes + deltaDownlink
    trafficOverageBytes := sub.trafficOverageBytes + overage
    trafficUplinkBytes := sub.trafficUplinkBytes + deltaUplink
    trafficDownlinkBytes := sub.trafficDownlinkBytes + deltaDownlink
    lastUplinkSnapshot := uplinkAfter
    lastDownlinkSnapshot := downlinkAfter
    trafficStatsEpoch := some nodeEpoch }

/-- `record_and_deduct_traffic_atomic`. -/
def recordAndDeductTraffic (nodeEpoch : Epoch) (uplinkAfter downlinkAfter : ℕ)
    (uplinkBefore downlinkBefore : Option ℕ) (sub : WhiteInternetSubscription) :
    TrafficRecord × WhiteInternetSubscription :=
  let deltaUplink := increase (uplinkBefore.getD sub.lastUplinkSnapshot) uplinkAfter
  let deltaDownlink := increase (downlinkBefore.getD sub.lastDownlinkSnapshot) downlinkAfter
  if deltaUplink = 0 ∧ deltaDownlink = 0 then (⟨0, false, sub.availableQuota, false⟩, sub)
  else
    let sub' := sub.addTraffic nodeEpoch uplinkAfter downlinkAfter deltaUplink deltaDownlink
    if sub'.availableQuota = 0 ∧ sub'.status = .active then
      (⟨deltaDownlink, true, 0, false⟩,
        { sub' with
          status := .exhausted
          statusReason := some "quota_exhausted"
          desiredVersion := sub'.desiredVersion + 1
          provisioningStatus := .pendingUpdate
          notified90p := true })
    else
      (⟨deltaDownlink, false, sub'.availableQuota,
        decide (sub'.status = .active ∧ sub'.notified90p = false ∧ sub'.NearlyUsed)⟩, sub')

/-! ### One client of a traffic cycle -/

/-- `TrafficCounterState`, without the state no counter has. -/
inductive TrafficCounterState
  | normal | reset | epochChanged
  deriving DecidableEq, Repr

def counterState (nodeEpoch : Epoch) (uplink downlink : ℕ) (sub : WhiteInternetSubscription) :
    TrafficCounterState :=
  if sub.trafficStatsEpoch ≠ some nodeEpoch then .epochChanged
  else if uplink < sub.lastUplinkSnapshot ∨ downlink < sub.lastDownlinkSnapshot then .reset
  else .normal

/-- `before_up` and `before_down`. -/
def baseline (nodeEpoch : Epoch) (uplink downlink : ℕ) (sub : WhiteInternetSubscription) : ℕ × ℕ :=
  match sub.counterState nodeEpoch uplink downlink with
  | .epochChanged => (0, 0)
  | .reset => (if sub.lastUplinkSnapshot ≤ uplink then sub.lastUplinkSnapshot else 0,
      if sub.lastDownlinkSnapshot ≤ downlink then sub.lastDownlinkSnapshot else 0)
  | .normal => (sub.lastUplinkSnapshot, sub.lastDownlinkSnapshot)

/-- `delta`: what the counters counted over the baseline, both together. -/
def trafficDelta (nodeEpoch : Epoch) (uplink downlink : ℕ) (sub : WhiteInternetSubscription) : ℤ :=
  let before := sub.baseline nodeEpoch uplink downlink
  ((uplink : ℤ) - before.1) + ((downlink : ℤ) - before.2)

/-- What the cycle does with the counters of a client, whose row it locked: nothing when the row is
    of another origin, and no record (only the ninety percent warning) when nothing was counted. -/
def meterClient (server : ServerId) (nodeEpoch : Epoch) (uplink downlink : ℕ)
    (sub : WhiteInternetSubscription) : TrafficRecord × WhiteInternetSubscription :=
  if sub.originNodeId ≠ some server then (⟨0, false, sub.availableQuota, false⟩, sub)
  else if sub.trafficDelta nodeEpoch uplink downlink ≤ 0 then
    (⟨0, false, sub.availableQuota,
      decide (sub.notified90p = false ∧ sub.status = .active ∧ sub.NearlyUsed)⟩, sub)
  else
    let before := sub.baseline nodeEpoch uplink downlink
    sub.recordAndDeductTraffic nodeEpoch uplink downlink (some before.1) (some before.2)

/-! ### What a cycle charges -/

/-- The counters the row holds against a stats epoch: those it stored under it, or nothing. -/
def storedUplink (nodeEpoch : Epoch) (sub : WhiteInternetSubscription) : ℕ :=
  if sub.trafficStatsEpoch = some nodeEpoch then sub.lastUplinkSnapshot else 0

def storedDownlink (nodeEpoch : Epoch) (sub : WhiteInternetSubscription) : ℕ :=
  if sub.trafficStatsEpoch = some nodeEpoch then sub.lastDownlinkSnapshot else 0

/-- The baseline never exceeds the counter, and leaves the increase over what is stored. -/
theorem baseline_spec (nodeEpoch : Epoch) (uplink downlink : ℕ) (sub : WhiteInternetSubscription) :
    (sub.baseline nodeEpoch uplink downlink).1 +
        increase (sub.storedUplink nodeEpoch) uplink = uplink ∧
      (sub.baseline nodeEpoch uplink downlink).2 +
        increase (sub.storedDownlink nodeEpoch) downlink = downlink := by
  simp only [baseline, counterState, storedUplink, storedDownlink, increase]
  by_cases hepoch : sub.trafficStatsEpoch = some nodeEpoch
  · simp only [hepoch, ne_eq, not_true_eq_false, if_false, if_true]
    by_cases hreset : uplink < sub.lastUplinkSnapshot ∨ downlink < sub.lastDownlinkSnapshot
    · simp only [if_pos hreset]
      constructor
      · split_ifs <;> omega
      · split_ifs <;> omega
    · simp only [if_neg hreset]
      constructor
      · split_ifs <;> omega
      · split_ifs <;> omega
  · simp [hepoch]

theorem trafficDelta_eq (nodeEpoch : Epoch) (uplink downlink : ℕ)
    (sub : WhiteInternetSubscription) : sub.trafficDelta nodeEpoch uplink downlink =
      increase (sub.storedUplink nodeEpoch) uplink +
        increase (sub.storedDownlink nodeEpoch) downlink := by
  obtain ⟨hup, hdown⟩ := sub.baseline_spec nodeEpoch uplink downlink
  simp only [trafficDelta]
  omega

/-- What a record writes of the snapshot, and what it leaves. -/
structure Recorded (nodeEpoch : Epoch) (uplink downlink : ℕ)
    (sub sub' : WhiteInternetSubscription) : Prop where
  origin : sub'.originNodeId = sub.originNodeId
  epoch : sub'.trafficStatsEpoch = some nodeEpoch
  uplink : sub'.lastUplinkSnapshot = uplink
  downlink : sub'.lastDownlinkSnapshot = downlink

/-- A sample of the row's origin that counted nothing changes nothing; any other is charged the
    increase of its downlink, and is stored. -/
theorem meterClient_spec {server : ServerId} (nodeEpoch : Epoch) (uplink downlink : ℕ)
    {sub : WhiteInternetSubscription} (h : sub.originNodeId = some server) :
    let r := sub.meterClient server nodeEpoch uplink downlink
    r.1.consumed = increase (sub.storedDownlink nodeEpoch) downlink ∧
      (sub.trafficDelta nodeEpoch uplink downlink ≤ 0 ∧ r.2 = sub ∨
        0 < sub.trafficDelta nodeEpoch uplink downlink ∧
          Recorded nodeEpoch uplink downlink sub r.2) := by
  have hdelta := sub.trafficDelta_eq nodeEpoch uplink downlink
  rw [meterClient]
  rw [if_neg (not_not_intro h)]
  simp only
  split_ifs with hzero
  · exact ⟨by simp only; omega, .inl ⟨hzero, rfl⟩⟩
  · obtain ⟨hup, hdown⟩ := sub.baseline_spec nodeEpoch uplink downlink
    have hincUp : increase (sub.baseline nodeEpoch uplink downlink).1 uplink =
        increase (sub.storedUplink nodeEpoch) uplink := by
      have := Lib.Meter.add_increase
        (show (sub.baseline nodeEpoch uplink downlink).1 ≤ uplink by omega)
      omega
    have hincDown : increase (sub.baseline nodeEpoch uplink downlink).2 downlink =
        increase (sub.storedDownlink nodeEpoch) downlink := by
      have := Lib.Meter.add_increase
        (show (sub.baseline nodeEpoch uplink downlink).2 ≤ downlink by omega)
      omega
    rw [recordAndDeductTraffic]
    simp only [Option.getD_some, hincUp, hincDown]
    rw [if_neg (by omega)]
    split_ifs
    · exact ⟨rfl, .inr ⟨by omega, rfl, rfl, rfl, rfl⟩⟩
    · exact ⟨rfl, .inr ⟨by omega, rfl, rfl, rfl, rfl⟩⟩

theorem meterClient_other {server : ServerId} (nodeEpoch : Epoch) (uplink downlink : ℕ)
    {sub : WhiteInternetSubscription} (h : sub.originNodeId ≠ some server) :
    (sub.meterClient server nodeEpoch uplink downlink).1.consumed = 0 ∧
      (sub.meterClient server nodeEpoch uplink downlink).2 = sub := by
  rw [meterClient]
  rw [if_pos h]
  exact ⟨rfl, rfl⟩

end WhiteInternetSubscription

/-- The transaction of a client: its row, and the counters of its user. -/
def Db.meterClient (db : Db) (cycle : Month) (server : ServerId) (nodeEpoch : Epoch) (uuid : Uuid)
    (uplink downlink : ℕ) : WhiteInternetSubscription.TrafficRecord × Db :=
  match db.whiteInternet.subscriptions.find? fun s =>
      s.uuid = uuid ∧ s.originNodeId = some server with
  | none => (⟨0, false, 0, false⟩, db)
  | some sub =>
    let (r, sub') := sub.meterClient server nodeEpoch uplink downlink
    let db := { db with whiteInternet := db.whiteInternet.putSubscription sub' }
    if 0 < r.consumed then
      match db.user sub.userId with
      | none => (r, db)
      | some user => (r, db.putUser (user.addWiTraffic cycle r.consumed))
    else (r, db)

end Just1kBot
