import Just1kBot.Models

/-! The traffic counters of a user, as both metering paths update them.

    The lifetime totals only grow. The monthly counters belong to the cycle stamped on the row: a
    write of a later cycle starts them anew, and a write of an earlier one leaves them alone. -/

namespace Just1kBot

/-- `case((traffic_cycle > cycle, later), (traffic_cycle == cycle, same), else_=other)`. -/
def cycleCase {α : Type} (stored : Option Month) (cycle : Month) (later same other : α) : α :=
  match stored with
  | none => other
  | some c => if cycle < c then later else if c = cycle then same else other

namespace User

/-- The update of the user in `record_vless_traffic_atomic`. -/
def addVlessTraffic (cycle : Month) (total : ℕ) (u : User) : User :=
  { u with
    totalTrafficBytes := u.totalTrafficBytes + total
    monthlyVlessBytes := cycleCase u.trafficCycle cycle u.monthlyVlessBytes
      (u.monthlyVlessBytes + total) total
    monthlyWiBytes := cycleCase u.trafficCycle cycle u.monthlyWiBytes u.monthlyWiBytes 0
    trafficCycle := cycleCase u.trafficCycle cycle u.trafficCycle cycle cycle }

/-- The update of the user in `run_traffic_cycle`. -/
def addWiTraffic (cycle : Month) (consumed : ℕ) (u : User) : User :=
  { u with
    totalWiTrafficBytes := u.totalWiTrafficBytes + consumed
    monthlyWiBytes := cycleCase u.trafficCycle cycle u.monthlyWiBytes
      (u.monthlyWiBytes + consumed) consumed
    monthlyVlessBytes := cycleCase u.trafficCycle cycle u.monthlyVlessBytes u.monthlyVlessBytes 0
    trafficCycle := cycleCase u.trafficCycle cycle u.trafficCycle cycle cycle }

end User

end Just1kBot
