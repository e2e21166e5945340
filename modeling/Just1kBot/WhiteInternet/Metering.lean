import Just1kBot.WhiteInternet.Traffic
import Just1kBot.Vless.Traffic

/-! White Internet metering within one stats epoch.

    A sample that counted nothing over the stored snapshot is not stored. That loses traffic in one
    case: the downlink counter was reset and polled at zero, so the snapshot from before the reset
    stays, and the counter grows past it before a smaller value is seen. The traffic up to the
    stale snapshot is then never charged. VLESS metering stores every sample and loses nothing. -/

namespace Just1kBot
open Lib.Meter (increase reference)

variable (server : ServerId) (epoch : Epoch)

/-- One poll of a client: the cumulative uplink and downlink counters. -/
structure Poll where
  uplink : ℕ
  downlink : ℕ
  deriving DecidableEq, Repr

/-- A subscription under polling: its row, the last downlink that was polled, and the downlink
    charged so far. The last two are histories. -/
structure PolledRow where
  sub : WhiteInternetSubscription
  lastPolled : ℕ
  charged : ℕ
  deriving DecidableEq, Repr

/-- A cycle that polls the subscription's origin. -/
def pollStep (m : PolledRow) (p : Poll) : PolledRow :=
  let r := m.sub.meterClient server epoch p.uplink p.downlink
  { sub := r.2, lastPolled := p.downlink, charged := m.charged + r.1.consumed }

/-- A row before its first poll: what it stored under the epoch counts as polled. -/
def startPolling (sub : WhiteInternetSubscription) : PolledRow :=
  { sub := sub, lastPolled := sub.storedDownlink epoch, charged := 0 }

/-- The last poll saw the downlink below the stored snapshot, and this one sees it at or above
    it. -/
def Lossy (m : PolledRow) (p : Poll) : Prop :=
  m.lastPolled < m.sub.storedDownlink epoch ∧ m.sub.storedDownlink epoch ≤ p.downlink

instance (m : PolledRow) (p : Poll) : Decidable (Lossy epoch m p) := by
  unfold Lossy; infer_instance

/-- The snapshot is what was polled last, unless a zero was polled and not stored. -/
def SnapshotCurrent (m : PolledRow) : Prop :=
  m.sub.originNodeId = some server ∧
    (m.sub.storedDownlink epoch = m.lastPolled ∨ m.lastPolled = 0)

/-- What a poll fails to charge. -/
def lost (m : PolledRow) (p : Poll) : ℕ :=
  if Lossy epoch m p then m.sub.storedDownlink epoch - m.lastPolled else 0

def totalLost : PolledRow → List Poll → ℕ
  | _, [] => 0
  | m, p :: ps => lost epoch m p + totalLost (pollStep server epoch m p) ps

theorem increase_add_lost {m : PolledRow}
    (h : m.sub.storedDownlink epoch = m.lastPolled ∨ m.lastPolled = 0) (p : Poll) :
    increase (m.sub.storedDownlink epoch) p.downlink + lost epoch m p =
      increase m.lastPolled p.downlink := by
  by_cases hlossy : Lossy epoch m p
  · rw [lost, if_pos hlossy]
    obtain ⟨hlt, hle⟩ := hlossy
    have hzero : m.lastPolled = 0 := h.resolve_left (by omega)
    rw [hzero, Lib.Meter.increase_zero_left, increase, if_neg (by omega)]
    omega
  · rw [lost, if_neg hlossy, Nat.add_zero]
    rcases h with heq | hzero
    · rw [heq]
    · -- the counter is still below the stale snapshot, so the reset is seen
      rw [hzero, Lib.Meter.increase_zero_left, increase]
      unfold Lossy at hlossy
      split_ifs <;> omega

/-- A poll charges the increase over the poll before it, less what it loses. -/
theorem pollStep_spec {m : PolledRow} (h : SnapshotCurrent server epoch m) (p : Poll) :
    SnapshotCurrent server epoch (pollStep server epoch m p) ∧
      (pollStep server epoch m p).charged + lost epoch m p =
        m.charged + increase m.lastPolled p.downlink := by
  obtain ⟨horigin, hcur⟩ := h
  obtain ⟨hcons, hrow⟩ :=
    WhiteInternetSubscription.meterClient_spec epoch p.uplink p.downlink horigin
  constructor
  · rcases hrow with ⟨hzero, hsame⟩ | ⟨-, hrec⟩
    · rw [WhiteInternetSubscription.trafficDelta_eq] at hzero
      have hnone : increase (m.sub.storedDownlink epoch) p.downlink = 0 := by omega
      rw [Lib.Meter.increase_eq_zero_iff] at hnone
      rw [pollStep, SnapshotCurrent]
      simp only [hsame]
      exact ⟨horigin, hnone.imp_left Eq.symm⟩
    · refine ⟨hrec.origin.trans horigin, .inl ?_⟩
      rw [pollStep, WhiteInternetSubscription.storedDownlink]
      simp only [hrec.epoch, if_true, hrec.downlink]
  · have := increase_add_lost epoch hcur p
    simp only [pollStep, hcons]
    omega

/-- What is charged and what is lost add up to the reference. -/
theorem charged_add_totalLost : ∀ (ps : List Poll) {m : PolledRow},
    SnapshotCurrent server epoch m →
    (Lib.run (pollStep server epoch) m ps).charged + totalLost server epoch m ps =
      m.charged + reference m.lastPolled (ps.map Poll.downlink)
  | [], m, _ => rfl
  | p :: ps, m, h => by
    obtain ⟨hcur, hstep⟩ := pollStep_spec server epoch h p
    have hrest := charged_add_totalLost ps hcur
    simp only [Lib.run_cons, totalLost, List.map_cons, reference, Lib.Meter.total] at hrest ⊢
    have hlast : (pollStep server epoch m p).lastPolled = p.downlink := rfl
    rw [hlast] at hrest
    omega

/-- Nothing is lost exactly on the runs no poll of which is lossy. -/
theorem totalLost_eq_zero_iff : ∀ (ps : List Poll) (m : PolledRow),
    totalLost server epoch m ps = 0 ↔
      Lib.Always (pollStep server epoch) (fun m p => ¬ Lossy epoch m p) m ps
  | [], m => by simp [totalLost, Lib.Always]
  | p :: ps, m => by
    have hlost : lost epoch m p = 0 ↔ ¬ Lossy epoch m p := by
      rw [lost]
      by_cases h : Lossy epoch m p
      · have := h.1
        rw [if_pos h]
        exact ⟨fun h0 => by omega, fun hn => absurd h hn⟩
      · rw [if_neg h]
        exact ⟨fun _ => h, fun _ => rfl⟩
    rw [totalLost, Nat.add_eq_zero_iff, hlost, totalLost_eq_zero_iff ps, Lib.Always]

/-! ### The same polls on a VLESS subscription -/

/-- A poll as VLESS metering gets it. -/
def Poll.vlessSample (p : Poll) : VlessSample :=
  { server := server, epoch := epoch, rawUplink := p.uplink, rawDownlink := p.downlink }

/-- The VLESS row after the polls. -/
abbrev vlessPolled (v : VlessSubscription) (ps : List Poll) : VlessSubscription :=
  Lib.run (fun v p => v.recordTraffic (p.vlessSample server epoch)) v ps

/-- The VLESS row stands where a counter that was last polled at `prev` stands: a reading of the
    epoch is charged its increase over `prev`. -/
def VlessAt (prev : ℕ) (v : VlessSubscription) : Prop :=
  ∀ r : Reading, r.epoch = epoch →
    (Reading.charge v.nodeTrafficSnapshots.fresh (v.previous server) r).2 = increase prev r.down

/-- VLESS metering charges the reference. -/
theorem vlessPolled_downlink : ∀ (ps : List Poll) {v : VlessSubscription} {prev : ℕ},
    VlessAt server epoch prev v →
    (vlessPolled server epoch v ps).trafficDown =
      v.trafficDown + reference prev (ps.map Poll.downlink)
  | [], _, _, _ => rfl
  | p :: ps, v, prev, h => by
    obtain ⟨hid, -, hdown, hprev⟩ :=
      VlessSubscription.recordTraffic_spec (p.vlessSample server epoch) v
    have hnext :
        VlessAt server epoch p.downlink (v.recordTraffic (p.vlessSample server epoch)) := by
      intro r hr
      rw [hprev, show (p.vlessSample server epoch).server = server from rfl, Function.update_self]
      simp [Reading.charge, VlessSample.reading, Poll.vlessSample, hr]
    have hrest := vlessPolled_downlink ps hnext
    have hcharge := h ((p.vlessSample server epoch).reading) rfl
    simp only [vlessPolled, Lib.run_cons, List.map_cons, reference, Lib.Meter.total] at hrest ⊢
    rw [hrest, hdown]
    have hd : (p.vlessSample server epoch).reading.down = p.downlink := by
      simp [VlessSample.reading, Poll.vlessSample]
    have hs : (p.vlessSample server epoch).server = server := rfl
    rw [hs, hcharge, hd, Nat.add_assoc]

/-- The downlink charged on one origin and stats epoch is the reference, and what VLESS metering
    charges for the same polls, exactly when no poll is lossy. -/
theorem metering_lossless_iff (sub : WhiteInternetSubscription) (v : VlessSubscription)
    (horigin : sub.originNodeId = some server)
    (hv : VlessAt server epoch (sub.storedDownlink epoch) v) (ps : List Poll) :
    (let charged := (Lib.run (pollStep server epoch) (startPolling epoch sub) ps).charged
     charged = reference (sub.storedDownlink epoch) (ps.map Poll.downlink) ∧
       (vlessPolled server epoch v ps).trafficDown = v.trafficDown + charged) ↔
      Lib.Always (pollStep server epoch) (fun m p => ¬ Lossy epoch m p) (startPolling epoch sub)
        ps := by
  have hsum := charged_add_totalLost server epoch ps
    (show SnapshotCurrent server epoch (startPolling epoch sub) from ⟨horigin, .inl rfl⟩)
  have hvless := vlessPolled_downlink server epoch ps hv
  rw [← totalLost_eq_zero_iff server epoch ps, hvless]
  simp only [startPolling] at hsum ⊢
  constructor
  · rintro ⟨heq, -⟩
    omega
  · intro hzero
    exact ⟨by omega, by omega⟩

/-- A subscription on origin 1 that was not polled yet. -/
def unpolled : WhiteInternetSubscription := { id := 1, userId := 1, originNodeId := some 1 }

theorem vlessAt_freshVless : VlessAt 1 7 (unpolled.storedDownlink 7) freshVless := fun r _ =>
  (Lib.Meter.increase_zero_left r.down).symm

/-- A reset that is polled below the snapshot is charged. -/
theorem metering_lossless_reset_seen :
    let charged := (Lib.run (pollStep 1 7) (startPolling 7 unpolled)
      [⟨0, 100⟩, ⟨0, 0⟩, ⟨0, 40⟩, ⟨0, 90⟩]).charged
    charged = reference (unpolled.storedDownlink 7) [100, 0, 40, 90] ∧
      (vlessPolled 1 7 freshVless [⟨0, 100⟩, ⟨0, 0⟩, ⟨0, 40⟩, ⟨0, 90⟩]).trafficDown =
        freshVless.trafficDown + charged :=
  (metering_lossless_iff 1 7 unpolled freshVless rfl vlessAt_freshVless
    [⟨0, 100⟩, ⟨0, 0⟩, ⟨0, 40⟩, ⟨0, 90⟩]).mpr (by decide +kernel)

/-- After 100, a reset polled at zero and 150, the first hundred of the 150 are never charged. -/
theorem metering_loses_reset_at_zero :
    ¬ ∀ (server : ServerId) (epoch : Epoch) (sub : WhiteInternetSubscription)
      (v : VlessSubscription) (ps : List Poll), sub.originNodeId = some server →
        VlessAt server epoch (sub.storedDownlink epoch) v →
        let charged := (Lib.run (pollStep server epoch) (startPolling epoch sub) ps).charged
        charged = reference (sub.storedDownlink epoch) (ps.map Poll.downlink) ∧
          (vlessPolled server epoch v ps).trafficDown = v.trafficDown + charged :=
  fun h => absurd (h 1 7 unpolled freshVless [⟨0, 100⟩, ⟨0, 0⟩, ⟨0, 150⟩] rfl vlessAt_freshVless).1
    (by decide +kernel)

end Just1kBot
