import Just1kBot.WhiteInternet.Traffic
import Just1kBot.Lib.Sum
import Just1kBot.Lib.Table
import Just1kBot.Lib.Transition

/-! White Internet metering over several origins.

    Each node counts what the client downloads from it since the node started; a restart opens a new
    generation, with a new stats epoch and counters from zero. The row keeps the snapshot of one
    generation. As long as the worker goes on from that snapshot, or turns to a generation it has
    charged nothing of yet, it never charges more than was downloaded. When it comes back to an
    origin that kept running while another one was metered, it charges that origin's counter from
    zero again. -/

namespace Just1kBot
open Lib (sumWhere)

/-- The counters of the client on one node since it started with this epoch. -/
structure Generation where
  node : ServerId
  epoch : Epoch
  uplink : ℕ := 0
  downlink : ℕ := 0
  deriving DecidableEq, Repr

def Generation.key (g : Generation) : ServerId × Epoch := (g.node, g.epoch)

def Generation.count (uplink downlink : ℕ) (g : Generation) : Generation :=
  { g with uplink := g.uplink + uplink, downlink := g.downlink + downlink }

/-- A subscription, the generations of all nodes (a node's newest first), the snapshot the worker
    fetched and has not processed, and the history of what was charged, newest first. -/
structure OriginState where
  sub : WhiteInternetSubscription
  generations : List Generation := []
  fetched : Option Generation := none
  charges : List ((ServerId × Epoch) × ℕ) := []
  deriving DecidableEq, Repr

/-- What can happen to a subscription and the nodes that serve it. The worker fetches a node's
    counters outside any transaction and processes or drops them later; `other` is any operation on
    the row that leaves its origin and its snapshot alone. -/
inductive OriginEvent
  | download (node : ServerId) (uplink downlink : ℕ)
  | restart (node : ServerId) (epoch : Epoch)
  | fetch (node : ServerId)
  | record
  | discard
  | migrate (target : ServerId)
  | other (row : WhiteInternetSubscription)

namespace OriginState

/-- The running generation of a node. -/
def current (s : OriginState) (node : ServerId) : Option Generation :=
  s.generations.find? fun g => g.node = node

/-- Processing a fetched snapshot: a record is charged to the generation it came from. -/
def record (s : OriginState) (g : Generation) : OriginState :=
  let r := s.sub.meterClient g.node g.epoch g.uplink g.downlink
  { s with
    sub := r.2
    fetched := none
    charges :=
      if s.sub.originNodeId = some g.node ∧ 0 < s.sub.trafficDelta g.epoch g.uplink g.downlink then
        (g.key, r.1.consumed) :: s.charges
      else s.charges }

/-- The client downloads from a node: its running generation counts on. -/
def download (s : OriginState) (node : ServerId) (uplink downlink : ℕ) : OriginState :=
  match s.current node with
  | none => s
  | some g => { s with
      generations := Lib.Table.modify Generation.key g.key (·.count uplink downlink) s.generations }

/-- A node starts, with an epoch it never had. -/
def restart (s : OriginState) (node : ServerId) (epoch : Epoch) : OriginState :=
  if (node, epoch) ∈ s.generations.map Generation.key then s
  else { s with generations := ⟨node, epoch, 0, 0⟩ :: s.generations }

def step (s : OriginState) : OriginEvent → OriginState
  | .download node uplink downlink => s.download node uplink downlink
  | .restart node epoch => s.restart node epoch
  | .fetch node => { s with fetched := s.current node }
  | .record => s.fetched.elim s s.record
  | .discard => { s with fetched := none }
  | .migrate target => { s with sub := s.sub.migrateOrigin target }
  | .other row => { s with sub := { row with
      originNodeId := s.sub.originNodeId
      lastUplinkSnapshot := s.sub.lastUplinkSnapshot
      lastDownlinkSnapshot := s.sub.lastDownlinkSnapshot
      trafficStatsEpoch := s.sub.trafficStatsEpoch } }

/-- What was charged to a generation. -/
def charged (s : OriginState) (k : ServerId × Epoch) : ℤ :=
  sumWhere (fun c => c.1 = k) (fun c => (c.2 : ℤ)) s.charges

/-- What was charged to the subscription. -/
def totalCharged (s : OriginState) : ℤ := (s.charges.map fun c => (c.2 : ℤ)).sum

/-- What the client downloaded, over all nodes and their restarts. -/
def totalDownloaded (s : OriginState) : ℤ := (s.generations.map fun g => (g.downlink : ℤ)).sum

/-- The generation whose snapshot the row stores. -/
def lastRecorded (s : OriginState) : Option (ServerId × Epoch) := s.charges.head?.map Prod.fst

/-- A snapshot the worker is about to record goes on from the stored one, or is of a generation
    that nothing was charged of. -/
def Continues (s : OriginState) : OriginEvent → Prop
  | .record => ∀ g ∈ s.fetched, s.sub.originNodeId = some g.node →
      s.lastRecorded = some g.key ∨ s.charged g.key = 0
  | _ => True

instance (s : OriginState) (e : OriginEvent) : Decidable (s.Continues e) := by
  cases e <;> unfold Continues <;> infer_instance

/-! ### The invariant -/

/-- Every charge is of a generation, and within its counter. The snapshot stored last, and the
    fetched one, are of generations that have counted on since; a fetched snapshot of the generation
    stored last is not older than the stored one. -/
structure Sound (s : OriginState) : Prop where
  keys : (s.generations.map Generation.key).Nodup
  known : ∀ c ∈ s.charges, c.1 ∈ s.generations.map Generation.key
  bounded : ∀ g ∈ s.generations, s.charged g.key ≤ g.downlink
  stored : ∀ g ∈ s.generations, s.lastRecorded = some g.key →
    s.sub.trafficStatsEpoch = some g.epoch ∧ s.charged g.key ≤ s.sub.lastDownlinkSnapshot ∧
      s.sub.lastDownlinkSnapshot ≤ g.downlink ∧ s.sub.lastUplinkSnapshot ≤ g.uplink
  fresh : ∀ p, s.fetched = some p → ∃ g ∈ s.generations, g.key = p.key ∧
    p.downlink ≤ g.downlink ∧ p.uplink ≤ g.uplink ∧ (s.lastRecorded = some p.key →
      s.sub.lastDownlinkSnapshot ≤ p.downlink ∧ s.sub.lastUplinkSnapshot ≤ p.uplink)

/-- The invariant bounds what is charged in total. -/
theorem Sound.totalCharged_le {s : OriginState} (h : s.Sound) :
    s.totalCharged ≤ s.totalDownloaded := by
  have hall : s.totalCharged = sumWhere (fun c => c.1 ∈ s.generations.map Generation.key)
      (fun c => (c.2 : ℤ)) s.charges := by
    rw [sumWhere, List.filter_eq_self.mpr fun c hc => decide_eq_true (h.known c hc)]
    rfl
  rw [hall, ← Lib.sum_groups Prod.fst _ h.keys, List.map_map]
  exact List.sum_le_sum h.bounded

/-- Two lists of generations of which the second has counted on. -/
structure Grown (gs gs' : List Generation) : Prop where
  keys : gs'.map Generation.key = gs.map Generation.key
  before : ∀ g' ∈ gs', ∃ g ∈ gs, g'.key = g.key ∧ g.downlink ≤ g'.downlink ∧ g.uplink ≤ g'.uplink
  after : ∀ g ∈ gs, ∃ g' ∈ gs', g'.key = g.key ∧ g.downlink ≤ g'.downlink ∧ g.uplink ≤ g'.uplink

theorem grown_count (k : ServerId × Epoch) (uplink downlink : ℕ) (gs : List Generation) :
    Grown gs (Lib.Table.modify Generation.key k (·.count uplink downlink) gs) := by
  have hrow : ∀ g : Generation, ∀ g', g' = (if g.key = k then g.count uplink downlink else g) →
      g'.key = g.key ∧ g.downlink ≤ g'.downlink ∧ g.uplink ≤ g'.uplink := by
    intro g g' rfl
    split_ifs
    · exact ⟨rfl, Nat.le_add_right .., Nat.le_add_right ..⟩
    · exact ⟨rfl, le_refl _, le_refl _⟩
  refine ⟨?_, fun g' hg' => ?_, fun g hg => ⟨_, List.mem_map_of_mem hg, hrow g _ rfl⟩⟩
  · rw [Lib.Table.modify, List.map_map]
    exact List.map_congr_left fun g _ => (hrow g _ rfl).1
  · obtain ⟨g, hg, rfl⟩ := List.mem_map.mp hg'
    exact ⟨g, hg, hrow g _ rfl⟩

theorem Sound.grow {s : OriginState} (h : s.Sound) {gs : List Generation}
    (hg : Grown s.generations gs) : Sound { s with generations := gs } where
  keys := by simpa only [hg.keys] using h.keys
  known c hc := by simpa only [hg.keys] using h.known c hc
  bounded g' hg' := by
    obtain ⟨g, hmem, hkey, hdown, -⟩ := hg.before g' hg'
    have := h.bounded g hmem
    rw [hkey]
    exact this.trans (by exact_mod_cast hdown)
  stored g' hg' hlast := by
    obtain ⟨g, hmem, hkey, hdown, hup⟩ := hg.before g' hg'
    obtain ⟨hepoch, hcharged, hd, hu⟩ := h.stored g hmem (hkey ▸ hlast)
    have hepoch' : g'.epoch = g.epoch := congrArg Prod.snd hkey
    refine ⟨hepoch' ▸ hepoch, ?_, hd.trans hdown, hu.trans hup⟩
    rw [hkey]
    exact hcharged
  fresh p hp := by
    obtain ⟨g, hmem, hkey, hd, hu, hlast⟩ := h.fresh p hp
    obtain ⟨g', hmem', hkey', hdown, hup⟩ := hg.after g hmem
    exact ⟨g', hmem', hkey'.trans hkey, hd.trans hdown, hu.trans hup, hlast⟩

theorem Sound.download {s : OriginState} (h : s.Sound) (node : ServerId) (uplink downlink : ℕ) :
    (s.download node uplink downlink).Sound := by
  rw [OriginState.download]
  split
  · exact h
  · exact h.grow (grown_count _ uplink downlink s.generations)

/-- A generation that starts has nothing charged to it. -/
theorem Sound.openGeneration {s : OriginState} (h : s.Sound) {node : ServerId} {epoch : Epoch}
    (hnew : (node, epoch) ∉ s.generations.map Generation.key) :
    Sound { s with generations := ⟨node, epoch, 0, 0⟩ :: s.generations } where
  keys := List.nodup_cons.mpr ⟨hnew, h.keys⟩
  known c hc := List.mem_cons_of_mem _ (h.known c hc)
  bounded g hg := by
    rcases List.mem_cons.mp hg with rfl | hg
    · have : s.charged (node, epoch) = 0 :=
        Lib.sumWhere_eq_zero fun c hc heq => hnew (heq ▸ h.known c hc)
      exact this.le
    · exact h.bounded g hg
  stored g hg hlast := by
    rcases List.mem_cons.mp hg with rfl | hg
    · obtain ⟨c, hc, hkey⟩ := Option.map_eq_some_iff.mp hlast
      exact absurd (h.known c (List.mem_of_mem_head? hc)) (by rw [hkey]; exact hnew)
    · exact h.stored g hg hlast
  fresh p hp := by
    obtain ⟨g, hmem, hrest⟩ := h.fresh p hp
    exact ⟨g, List.mem_cons_of_mem _ hmem, hrest⟩

theorem Sound.restart {s : OriginState} (h : s.Sound) (node : ServerId) (epoch : Epoch) :
    (s.restart node epoch).Sound := by
  rw [OriginState.restart]
  split_ifs with hold
  · exact h
  · exact h.openGeneration hold

/-- Operations that keep the snapshot of the row. -/
theorem Sound.of_row {s : OriginState} (h : s.Sound) {sub : WhiteInternetSubscription}
    (hepoch : sub.trafficStatsEpoch = s.sub.trafficStatsEpoch)
    (hdown : sub.lastDownlinkSnapshot = s.sub.lastDownlinkSnapshot)
    (hup : sub.lastUplinkSnapshot = s.sub.lastUplinkSnapshot) : Sound { s with sub := sub } where
  keys := h.keys
  known := h.known
  bounded := h.bounded
  stored g hg hlast := by
    rw [hepoch, hdown, hup]
    exact h.stored g hg hlast
  fresh p hp := by
    rw [hdown, hup]
    exact h.fresh p hp

theorem Sound.discard {s : OriginState} (h : s.Sound) : Sound { s with fetched := none } where
  keys := h.keys
  known := h.known
  bounded := h.bounded
  stored := h.stored
  fresh p hp := by cases hp

theorem Sound.fetch {s : OriginState} (h : s.Sound) (node : ServerId) :
    Sound { s with fetched := s.current node } where
  keys := h.keys
  known := h.known
  bounded := h.bounded
  stored := h.stored
  fresh p hp := by
    have hmem : p ∈ s.generations := List.mem_of_find?_eq_some hp
    exact ⟨p, hmem, rfl, le_refl _, le_refl _, fun hlast => (h.stored p hmem hlast).2.2⟩

/-- A charge that stays within the snapshot it is taken from. -/
theorem Sound.charge {s : OriginState} (h : s.Sound) {p : Generation} (hp : s.fetched = some p)
    {sub : WhiteInternetSubscription} {consumed : ℕ}
    (hrec : s.sub.Recorded p.epoch p.uplink p.downlink sub)
    (hbound : s.charged p.key + consumed ≤ p.downlink) :
    Sound { s with sub := sub, fetched := none, charges := (p.key, consumed) :: s.charges } := by
  obtain ⟨g₀, hmem₀, hkey₀, hdown₀, hup₀, -⟩ := h.fresh p hp
  have hsame : ∀ g ∈ s.generations, g.key = p.key → g = g₀ := fun g hg hkey =>
    List.inj_on_of_nodup_map h.keys hg hmem₀ (hkey.trans hkey₀.symm)
  have hcharged : ∀ k, OriginState.charged { s with
      sub := sub, fetched := none, charges := (p.key, consumed) :: s.charges } k =
      (if p.key = k then (consumed : ℤ) else 0) + s.charged k := fun k => Lib.sumWhere_cons ..
  refine ⟨h.keys, fun c hc => ?_, fun g hg => ?_, fun g hg hlast => ?_, fun q hq => by cases hq⟩
  · rcases List.mem_cons.mp hc with rfl | hc
    · exact hkey₀ ▸ List.mem_map_of_mem hmem₀
    · exact h.known c hc
  · rw [hcharged]
    split_ifs with hkey
    · obtain rfl := hsame g hg hkey.symm
      rw [← hkey]
      omega
    · have := h.bounded g hg
      omega
  · have hkey : p.key = g.key := Option.some.inj hlast
    obtain rfl := hsame g hg hkey.symm
    refine ⟨hrec.epoch.trans (congrArg (some ∘ Prod.snd) hkey), ?_, ?_, ?_⟩
    · rw [hcharged, if_pos hkey, hrec.downlink, ← hkey]
      omega
    · rw [hrec.downlink]
      exact hdown₀
    · rw [hrec.uplink]
      exact hup₀

/-- What a record consumes of a snapshot is within what the snapshot counted and was not charged. -/
theorem Sound.consumed_le {s : OriginState} (h : s.Sound) {p : Generation}
    (hp : s.fetched = some p) (hcont : s.lastRecorded = some p.key ∨ s.charged p.key = 0) :
    s.charged p.key + Lib.Meter.increase (s.sub.storedDownlink p.epoch) p.downlink ≤
      p.downlink := by
  rcases hcont with hlast | hzero
  · obtain ⟨g, hmem, hkey, -, -, hle⟩ := h.fresh p hp
    obtain ⟨hepoch, hcharged, -, -⟩ := h.stored g hmem (hkey ▸ hlast)
    have hstored : s.sub.storedDownlink p.epoch = s.sub.lastDownlinkSnapshot := by
      rw [show p.epoch = g.epoch from (congrArg Prod.snd hkey).symm]
      exact if_pos hepoch
    have := Lib.Meter.add_increase (hle hlast).1
    rw [hkey] at hcharged
    rw [hstored]
    omega
  · have := Lib.Meter.increase_le (s.sub.storedDownlink p.epoch) p.downlink
    rw [hzero, zero_add]
    exact_mod_cast this

/-- Recording a snapshot that goes on from the stored one, or is the first of its generation. -/
theorem Sound.record {s : OriginState} (h : s.Sound) {p : Generation} (hp : s.fetched = some p)
    (hcont : s.sub.originNodeId = some p.node →
      s.lastRecorded = some p.key ∨ s.charged p.key = 0) : (s.record p).Sound := by
  by_cases horigin : s.sub.originNodeId = some p.node
  · obtain ⟨hcons, ⟨hzero, hrow⟩ | ⟨hpos, hrec⟩⟩ :=
      WhiteInternetSubscription.meterClient_spec p.epoch p.uplink p.downlink horigin
    · have hskip : s.record p = { s with fetched := none } := by
        simp only [OriginState.record, hrow, if_neg (show ¬ (s.sub.originNodeId = some p.node ∧
          0 < s.sub.trafficDelta p.epoch p.uplink p.downlink) from fun hw => by omega)]
      rw [hskip]
      exact h.discard
    · rw [OriginState.record]
      simp only [horigin, hpos, and_self, if_true]
      exact h.charge hp hrec (by rw [hcons]; exact h.consumed_le hp (hcont horigin))
  · have hrow := (WhiteInternetSubscription.meterClient_other p.epoch p.uplink p.downlink horigin).2
    have hrec : s.record p = { s with fetched := none } := by
      simp only [OriginState.record, hrow, horigin, false_and, if_false]
    rw [hrec]
    exact h.discard

theorem Sound.step {s : OriginState} (h : s.Sound) (e : OriginEvent) (hcont : s.Continues e) :
    (s.step e).Sound := by
  cases e with
  | download node uplink downlink => exact h.download node uplink downlink
  | restart node epoch => exact h.restart node epoch
  | fetch node => exact h.fetch node
  | record =>
    rw [OriginState.step]
    cases hp : s.fetched with
    | none => exact h
    | some p => exact h.record hp (hcont p hp)
  | discard => exact h.discard
  | migrate target => exact h.of_row rfl rfl rfl
  | other row => exact h.of_row rfl rfl rfl

/-- A subscription before anything was metered. -/
def start (sub : WhiteInternetSubscription) : OriginState := { sub := sub }

theorem sound_start (sub : WhiteInternetSubscription) : (start sub).Sound where
  keys := List.nodup_nil
  known c hc := by cases hc
  bounded g hg := by cases hg
  stored g hg := by cases hg
  fresh p hp := by cases hp

/-- Along a run whose records all continue, the worker never charges more than was downloaded. -/
theorem metering_within_downloads (sub : WhiteInternetSubscription) (es : List OriginEvent)
    (h : Lib.Always step Continues (start sub) es) :
    (Lib.run step (start sub) es).totalCharged ≤ (Lib.run step (start sub) es).totalDownloaded :=
  (Lib.run_inv_of_always (I := Sound) step (fun _ e hs hc => hs.step e hc) es (start sub)
    (sound_start sub) h).totalCharged_le

/-- A row of origin 1. -/
def onOrigin1 : WhiteInternetSubscription := { id := 1, userId := 1, originNodeId := some 1 }

/-- A thousand bytes from origin 1, and ten from origin 2 after a migration. -/
def movedToOrigin2 : List OriginEvent :=
  [.restart 1 11, .restart 2 22, .download 1 0 1000, .fetch 1, .record, .migrate 2,
    .download 2 0 10, .fetch 2, .record]

/-- The subscription comes back to origin 1 after a restart of that node. -/
def backAfterRestart : List OriginEvent :=
  movedToOrigin2 ++ [.migrate 1, .restart 1 12, .download 1 0 5, .fetch 1, .record]

theorem metering_within_downloads_restarted :
    (Lib.run step (start onOrigin1) backAfterRestart).totalCharged ≤
      (Lib.run step (start onOrigin1) backAfterRestart).totalDownloaded :=
  metering_within_downloads onOrigin1 backAfterRestart (by decide +kernel)

/-- Back on origin 1, which kept running, its thousand bytes are charged a second time. -/
theorem metering_exceeds_downloads_on_return :
    ¬ ∀ (sub : WhiteInternetSubscription) (es : List OriginEvent),
      (Lib.run step (start sub) es).totalCharged ≤ (Lib.run step (start sub) es).totalDownloaded :=
  fun h => absurd (h onOrigin1 (movedToOrigin2 ++ [.migrate 1, .fetch 1, .record]))
    (by decide +kernel)

end OriginState

end Just1kBot
