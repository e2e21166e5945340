import Just1kBot.Vless.AccessSync
import Just1kBot.Lib.Versioned

/-! Bringing the nodes in line with a VLESS subscription: `sync_user_to_nodes` of
    `services/vless_subscription_service.py`, interleaved with the transactions on the row: those of
    `AccessState`, the device and token resets, and their admin forms in
    `bot/handlers/admin/users/device_routes.py`.

    A node keeps, for every client, the newest version it applied with its state. A run reads the
    subscription, then the user, and asks the nodes one by one; when a node answers with a newer
    version in another state, the run locks the row, raises its version and asks again. The version
    it writes is seen by others when it commits, and until then the row cannot be written. -/

namespace Just1kBot

/-! ### The servers and the nodes -/

/-- A VLESS server that is an active machine: whether it is switched on, and whether it has an API
    address and a key. -/
structure VlessServer where
  id : ServerId
  isActive : Bool := true
  hasEndpoint : Bool := true
  deriving DecidableEq

/-- The servers a run asks: `get_configured_vless_servers` to enable, and
    `get_revocation_target_servers` to disable. -/
def syncServers (servers : List VlessServer) (desired : Bool) : List VlessServer :=
  if desired then servers.filter (·.isActive) else servers

/-- `_extract_node_targets`. -/
def extractNodeTargets (servers : List VlessServer) : List ServerId :=
  (servers.filter (·.hasEndpoint)).map (·.id)

/-- What the nodes keep of their clients: a version, and whether the client is enabled. -/
abbrev NodeClients := ServerId → Uuid → Option (ℕ × Bool)

/-- The nodes after node `n` applied a sync, or found it outdated. -/
def NodeClients.syncClient (nodes : NodeClients) (n : ServerId) (u : Uuid) (version : ℕ)
    (active : Bool) : NodeClients := fun n' u' =>
  if n' = n ∧ u' = u then Lib.Versioned.tell version active (nodes n u) else nodes n' u'

/-! ### A run -/

structure NodeSyncResult where
  server : ServerId
  ok : Bool
  needsBump : Bool
  deriving DecidableEq

/-- `_sync_one`, by the state the node answers with when it keeps a newer version. -/
def syncOne (server : ServerId) (desired verified : Bool) : Option Bool → NodeSyncResult
  | none => { server, ok := verified, needsBump := false }
  | some state => { server, ok := verified && state = desired, needsBump := state ≠ desired }

/-- A run of `sync_user_to_nodes`: what it read of the subscription, whether it was told to disable
    (`is_active=False`), the state it wants once it has read the user, and the results so far. -/
structure SyncRun where
  uuid : Uuid
  version : ℕ
  isActive : Bool
  lastSynced : ℕ
  told : Bool
  desired : Option Bool := none
  results : List NodeSyncResult := []
  deriving DecidableEq

namespace SyncRun
variable (servers : List VlessServer)

/-- The nodes the run asks. -/
def targets (r : SyncRun) : List ServerId :=
  r.desired.elim [] fun d => extractNodeTargets (syncServers servers d)

/-- Every node asked has answered or failed. -/
def complete (r : SyncRun) : Bool :=
  r.desired.isSome && (r.targets servers).all fun n => r.results.any fun x => x.server = n

def needsVersionBump (r : SyncRun) : Bool := r.results.any (·.needsBump)

/-- Every server has a node that was asked, and every node is in the wanted state. -/
def synced (r : SyncRun) : Bool :=
  r.targets servers ≠ [] &&
    r.desired.any (fun d => (r.targets servers).length = (syncServers servers d).length) &&
    r.results.all (·.ok) && r.results.length = (r.targets servers).length

end SyncRun

/-! ### The system -/

/-- What the rows demand: the client is enabled if the subscription is active and the user has
    access. -/
def AccessState.demand (s : AccessState) : Bool := s.sub.isActive && checkVpnAccess s.now s.user

/-- The rows and the transactions on them, `last_synced_version`, the nodes, the runs in flight, the
    run that has raised the version and holds the lock on the row, and the flags that admin resets
    have read and are going to set. -/
structure NodeSyncState where
  access : AccessState
  lastSynced : ℕ := 0
  nodes : NodeClients
  runs : List SyncRun := []
  bumping : Option SyncRun := none
  admins : List Bool := []

/-- How a call to a node ends: it is applied and the answer is lost, it never arrives, or it is
    answered, with all inbounds verified or not. -/
inductive NodeReply
  | lost
  | failed
  | answered (verified : Bool)

inductive NodeSyncEvent
  | access (e : AccessEvent)
  | resetHwids (newUuid : Uuid)
  | rotateToken (newToken : Token) (newUuid : Uuid) (resetHwids : Bool)
  /-- An admin reset reads the user. -/
  | adminReads
  /-- `admin_vless_hwid_reset` commits. -/
  | adminHwidReset (i : ℕ) (newUuid : Uuid)
  /-- `admin_vless_token_rotate` commits. -/
  | adminTokenRotate (i : ℕ) (newToken : Token) (newUuid : Uuid)
  /-- A run reads the subscription. -/
  | runReadsSub (told : Bool)
  /-- Run `i` reads the user. -/
  | runReadsUser (i : ℕ)
  /-- Run `i`, or the run that holds the row, asks node `n`. -/
  | call (who : Option ℕ) (n : ServerId) (reply : NodeReply)
  /-- Run `i` found a conflict and raises the version. -/
  | bump (i : ℕ)
  /-- Run `i` writes what it has synced and ends. -/
  | finish (i : ℕ)
  /-- The run that raised the version commits. -/
  | finishBumped
  | abort (i : ℕ)
  | abortBumped

namespace NodeSyncState

/-- A transaction writes the row under its lock. It waits for a run that holds the row. -/
def write (s : NodeSyncState) (sub : VlessCredentials) : NodeSyncState :=
  if s.bumping.isNone then { s with access := s.access.put s.access.user sub } else s

def run? (s : NodeSyncState) : Option ℕ → Option SyncRun
  | none => s.bumping
  | some i => s.runs[i]?

def setRun (s : NodeSyncState) : Option ℕ → SyncRun → NodeSyncState
  | none, r => { s with bumping := some r }
  | some i, r => { s with runs := s.runs.set i r }

variable (servers : List VlessServer)

/-- A run asks node `n`, which it has not asked yet. -/
def callNode (s : NodeSyncState) (who : Option ℕ) (r : SyncRun) (d : Bool) (n : ServerId) :
    NodeReply → NodeSyncState
  | .failed =>
    s.setRun who { r with results := { server := n, ok := false, needsBump := false } :: r.results }
  | .lost => { s with nodes := s.nodes.syncClient n r.uuid r.version d }
  | .answered verified =>
    let x := syncOne n d verified (Lib.Versioned.answer r.version (s.nodes n r.uuid))
    { s with nodes := s.nodes.syncClient n r.uuid r.version d }.setRun who
      { r with results := x :: r.results }

/-- One step of the code. -/
def step (s : NodeSyncState) : NodeSyncEvent → NodeSyncState
  | .access e =>
    let access := s.access.step e
    if s.bumping.isSome ∧ access.sub ≠ s.access.sub then s else { s with access }
  | .resetHwids newUuid => s.write (s.access.sub.resetHwids newUuid)
  | .rotateToken newToken newUuid resetHwids =>
    s.write (s.access.sub.rotateToken newToken newUuid resetHwids)
  | .adminReads => { s with admins := s.admins ++ [checkVpnAccess s.access.now s.access.user] }
  | .adminHwidReset i newUuid =>
    match s.admins[i]? with
    | none => s
    | some target => s.write { s.access.sub.resetHwids newUuid with isActive := target }
  | .adminTokenRotate i newToken newUuid =>
    match s.admins[i]? with
    | none => s
    | some target =>
      s.write { s.access.sub.rotateToken newToken newUuid true with isActive := target }
  | .runReadsSub told =>
    let sub := s.access.sub
    let r : SyncRun := { uuid := sub.uuid, version := orOne sub.version, isActive := sub.isActive,
                         lastSynced := s.lastSynced, told }
    { s with runs := s.runs ++ [r] }
  | .runReadsUser i =>
    match s.runs[i]? with
    | none => s
    | some r =>
      if r.desired.isNone then
        let d := r.isActive && checkVpnAccess s.access.now s.access.user && !r.told
        s.setRun (some i) { r with desired := some d }
      else s
  | .call who n reply =>
    match s.run? who with
    | none => s
    | some r =>
      match r.desired with
      | none => s
      | some d =>
        if n ∈ r.targets servers ∧ r.results.all (fun x => x.server ≠ n) then
          s.callNode who r d n reply
        else s
  | .bump i =>
    match s.bumping, s.runs[i]? with
    | none, some r =>
      if r.complete servers ∧ r.needsVersionBump then
        let sub := s.access.sub.bumpVersion
        { s with
          runs := s.runs.eraseIdx i
          bumping := some { r with uuid := sub.uuid, version := sub.version, results := [] } }
      else s
    | _, _ => s
  | .finish i =>
    match s.runs[i]? with
    | none => s
    | some r =>
      if r.complete servers ∧ ¬ r.needsVersionBump then
        let lastSynced :=
          if r.synced servers then Lib.written r.lastSynced r.version s.lastSynced
          else s.lastSynced
        if s.bumping.isSome ∧ lastSynced ≠ s.lastSynced then s
        else { s with runs := s.runs.eraseIdx i, lastSynced }
      else s
  | .finishBumped =>
    match s.bumping with
    | none => s
    | some r =>
      if r.complete servers then
        { s with
          access := s.access.put s.access.user { s.access.sub with version := r.version }
          lastSynced := if r.synced servers then r.version else s.lastSynced
          bumping := none }
      else s
  | .abort i => { s with runs := s.runs.eraseIdx i }
  | .abortBumped => { s with bumping := none }

/-- A subscription as `get_or_create_subscription` creates it, with nothing in flight. -/
def created (now : Time) (user : User) (id : ℕ) (token : Token) (nodes : NodeClients) :
    NodeSyncState :=
  { access := .opened now user
      { id, userId := user.id, token, nodeTrafficSnapshots := { fresh := true } }
    nodes }

/-! ### What is claimed -/

/-- Where no run is in flight and the version is recorded as synced, every server that a revocation
    has to reach holds the current UUID in the state the rows demand. To enable a client is not
    demanded of a server that is switched off. -/
def Converged (s : NodeSyncState) : Prop :=
  s.runs = [] → s.bumping = none → s.lastSynced = s.access.sub.version →
    ∀ n ∈ servers, (s.access.demand → n.isActive) →
      (s.nodes n.id s.access.sub.uuid).map Prod.snd = some s.access.demand

/-- A step that changes the flag or the UUID raises the version. -/
def Versioned (s : NodeSyncState) (e : NodeSyncEvent) : Prop :=
  ¬ ((s.step servers e).access.sub.isActive = s.access.sub.isActive ∧
      (s.step servers e).access.sub.uuid = s.access.sub.uuid) →
    s.access.sub.version < (s.step servers e).access.sub.version

def Safe (s : NodeSyncState) (e : NodeSyncEvent) : Prop :=
  Versioned servers s e ∧ Converged servers (s.step servers e)

/-- No run is in flight, and the version is not recorded as synced. -/
def Unsynced (s : NodeSyncState) : Prop :=
  s.runs = [] ∧ s.bumping = none ∧ s.lastSynced ≠ s.access.sub.version

/-- The access of a user whose subscription is flagged active does not change at the same version
    while a run is in flight or once the version is recorded as synced. -/
def AccessSteady (s : NodeSyncState) : AccessEvent → Prop
  | .tick d => s.access.sub.isActive →
      checkVpnAccess (s.access.now + d) s.access.user =
        checkVpnAccess s.access.now s.access.user ∨ Unsynced s
  | .commit => ∀ t ∈ s.access.holder, ∀ r ∈ t.read, t.proceeds r.2 → s.access.sub.isActive →
      (t.op = .unban ↔ t.target r.2 = false) →
        checkVpnAccess s.access.now (t.leavesUser r.2 s.access.user) =
          checkVpnAccess s.access.now s.access.user ∨ Unsynced s
  | _ => True

/-- No transaction commits over a row that was rewritten since it read it, and access is steady; an
    admin reset without devices finds the flag as it sets it; a run that raises the version wants
    what the rows demand, and so does one that was told to disable and records the version as
    synced. -/
def Undisturbed (s : NodeSyncState) : NodeSyncEvent → Prop
  | .access e => s.access.ReadsCurrent e ∧ AccessSteady s e
  | .adminHwidReset i _ => ∀ target ∈ s.admins[i]?,
      s.access.sub.activeHwids ≠ [] ∨ target = s.access.sub.isActive
  | .bump i => ∀ r ∈ s.runs[i]?, r.needsVersionBump → r.desired = some s.access.demand
  | .finish i => ∀ r ∈ s.runs[i]?, r.told → r.synced servers →
      r.version = s.access.sub.version → s.access.demand = false
  | _ => True

/-! ### What is kept -/

open VlessCredentials (Advances lt_orOne_add_one)
open Lib.Versioned (Holds)

/-- The node holds the current UUID in the demanded state, from version `v` on. -/
def Held (a : AccessState) (nodes : NodeClients) (v : ℕ) (n : ServerId) : Prop :=
  Holds v a.demand (nodes n a.sub.uuid)

/-- What is known of a run: while its version is the current one, so are its UUID and its flag, the
    state it wants is the demanded one unless it was told to disable, and a node that has confirmed
    the demanded state holds it. -/
structure RunSound (a : AccessState) (nodes : NodeClients) (r : SyncRun) : Prop where
  unasked : r.desired = none → r.results = []
  le : r.version ≤ a.sub.version
  uuid : r.version = a.sub.version → r.uuid = a.sub.uuid
  flag : r.version = a.sub.version → r.isActive = a.sub.isActive
  desired : r.version = a.sub.version → ∀ d ∈ r.desired, d = (a.demand && !r.told)
  results : r.version = a.sub.version → r.desired = some a.demand →
    ∀ x ∈ r.results, x.ok = true → Held a nodes r.version x.server

/-- What is known of the run that holds the row: it asks for the demanded state under the next
    version. -/
structure BumpSound (a : AccessState) (nodes : NodeClients) (r : SyncRun) : Prop where
  version : r.version = a.sub.version + 1
  uuid : r.uuid = a.sub.uuid
  desired : r.desired = some a.demand
  results : ∀ x ∈ r.results, x.ok = true → Held a nodes r.version x.server

structure Sound (s : NodeSyncState) : Prop where
  flights : s.access.Flights
  pos : 0 < s.access.sub.version
  synced_le : s.lastSynced ≤ s.access.sub.version
  synced : s.lastSynced = s.access.sub.version → ∀ n ∈ servers, (s.access.demand → n.isActive) →
    Held s.access s.nodes s.access.sub.version n.id
  runs : ∀ r ∈ s.runs, RunSound s.access s.nodes r
  bumping : ∀ r ∈ s.bumping, BumpSound s.access s.nodes r

variable {servers}

theorem Sound.converged {s : NodeSyncState} (h : Sound servers s) : Converged servers s :=
  fun _ _ hsynced n hn hd => (h.synced hsynced n hn hd).value

theorem sound_created (now : Time) (user : User) (id : ℕ) (token : Token) (nodes : NodeClients) :
    Sound servers (created now user id token nodes) := by
  refine ⟨AccessState.flights_opened .., Nat.one_pos, Nat.zero_le _, ?_, ?_, ?_⟩
  · intro h
    cases h
  · rintro r ⟨⟩
  · rintro r ⟨⟩

/-! ### The rows are written -/

/-- A step of the transactions on the rows: a change raises the version, and where the version stays
    so does what is demanded, unless nothing depends on it. -/
theorem Sound.rows {s : NodeSyncState} (h : Sound servers s) {a : AccessState}
    (hflights : a.Flights) (hadv : Advances s.access.sub a.sub)
    (hdemand : a.sub.version = s.access.sub.version → a.demand = s.access.demand ∨ Unsynced s)
    (hheld : s.bumping.isSome → a.sub = s.access.sub) : Sound servers { s with access := a } := by
  have hsame : a.sub.version = s.access.sub.version →
      a.sub.isActive = s.access.sub.isActive ∧ a.sub.uuid = s.access.sub.uuid := by
    intro hv
    by_contra hne
    exact absurd (hadv.lt hne) (not_lt.mpr (le_of_eq hv))
  have hkept : a.sub.version = s.access.sub.version → ¬ Unsynced s →
      ∀ v n, Held s.access s.nodes v n → Held a s.nodes v n := by
    intro hv hn v n hheld
    rw [Held, (hdemand hv).resolve_right hn, (hsame hv).2]
    exact hheld
  refine ⟨hflights, h.pos.trans_le hadv.le, h.synced_le.trans hadv.le, ?_, fun r hr => ?_,
    fun r hr => ?_⟩
  · intro hsynced n hn hd
    change s.lastSynced = a.sub.version at hsynced
    have hv : a.sub.version = s.access.sub.version := le_antisymm (hsynced ▸ h.synced_le) hadv.le
    have hnot : ¬ Unsynced s := fun hu => hu.2.2 (hsynced.trans hv)
    change a.demand = true → _ at hd
    rw [(hdemand hv).resolve_right hnot] at hd
    change Held a s.nodes a.sub.version n.id
    rw [hv]
    exact hkept hv hnot _ _ (h.synced (hsynced.trans hv) n hn hd)
  · have hrun := h.runs r hr
    have hnot : ¬ Unsynced s := fun hu => by rw [hu.1] at hr; cases hr
    have hv : r.version = a.sub.version → a.sub.version = s.access.sub.version :=
      fun hr => le_antisymm (hr ▸ hrun.le) hadv.le
    refine ⟨hrun.unasked, hrun.le.trans hadv.le, fun hr => ?_, fun hr => ?_, fun hr d hd => ?_,
      fun hr hd x hx hok => ?_⟩
    · exact (hrun.uuid (hr.trans (hv hr))).trans (hsame (hv hr)).2.symm
    · exact (hrun.flag (hr.trans (hv hr))).trans (hsame (hv hr)).1.symm
    · rw [(hdemand (hv hr)).resolve_right hnot]
      exact hrun.desired (hr.trans (hv hr)) d hd
    · rw [(hdemand (hv hr)).resolve_right hnot] at hd
      exact hkept (hv hr) hnot _ _ (hrun.results (hr.trans (hv hr)) hd x hx hok)
  · have hbump := h.bumping r hr
    have hsome : s.bumping.isSome := by
      rw [show s.bumping = some r from hr]
      rfl
    have hv : a.sub.version = s.access.sub.version := by rw [hheld hsome]
    have hnot : ¬ Unsynced s := fun hu => by rw [hu.2.1] at hr; cases hr
    refine ⟨?_, ?_, ?_, fun x hx hok => ?_⟩
    · rw [hv]
      exact hbump.version
    · exact hbump.uuid.trans (hsame hv).2.symm
    · rw [(hdemand hv).resolve_right hnot]
      exact hbump.desired
    · exact hkept hv hnot _ _ (hbump.results x hx hok)

/-- A transaction that writes the row under its lock. -/
theorem Sound.write {s : NodeSyncState} (h : Sound servers s) {sub : VlessCredentials}
    (hadv : Advances s.access.sub sub) : Sound servers (s.write sub) := by
  rw [NodeSyncState.write]
  split_ifs with hb
  · have hflights : (s.access.put s.access.user sub).Flights :=
      ⟨h.flights.feeds, h.flights.waiting, h.flights.holder, h.flights.cleanup⟩
    refine h.rows hflights hadv (fun hv => .inl ?_) fun hsome => ?_
    · have hflag : sub.isActive = s.access.sub.isActive := by
        by_contra hne
        have hlt := hadv.lt fun hsame => hne hsame.1
        exact absurd hlt (not_lt.mpr (le_of_eq hv))
      exact congrArg (· && checkVpnAccess s.access.now s.access.user) hflag
    · rw [Option.isNone_iff_eq_none.mp hb] at hsome
      cases hsome
  · exact h

/-- An admin reset that rotates the UUID, or finds the flag as it sets it. -/
theorem advances_adminHwidReset {sub : VlessCredentials} {newUuid : Uuid} {target : Bool}
    (h : sub.activeHwids ≠ [] ∨ target = sub.isActive) :
    Advances sub { sub.resetHwids newUuid with isActive := target } := by
  rw [VlessCredentials.resetHwids]
  split_ifs with hd
  · exact ⟨le_rfl, fun hne => absurd ⟨h.resolve_left (not_not.mpr hd), rfl⟩ hne⟩
  · exact Advances.of_lt (lt_orOne_add_one _)

theorem advances_resetHwids (sub : VlessCredentials) (newUuid : Uuid) :
    Advances sub (sub.resetHwids newUuid) := by
  rw [VlessCredentials.resetHwids]
  split_ifs
  · exact Advances.refl sub
  · exact Advances.of_lt (lt_orOne_add_one _)

theorem advances_rotateToken (sub : VlessCredentials) (newToken : Token) (newUuid : Uuid)
    (resetHwids target : Bool) :
    Advances sub (sub.rotateToken newToken newUuid resetHwids) ∧
      Advances sub { sub.rotateToken newToken newUuid resetHwids with isActive := target } :=
  ⟨Advances.of_lt (lt_orOne_add_one _), Advances.of_lt (lt_orOne_add_one _)⟩

/-! ### The nodes are asked -/

/-- What a node holds stays while it is told nothing newer, or the same. -/
theorem Held.syncClient {a : AccessState} {nodes : NodeClients} {v : ℕ} {n : ServerId}
    (h : Held a nodes v n) {m : ServerId} {u : Uuid} {version : ℕ} {active : Bool}
    (hm : version ≤ v ∨ active = a.demand) :
    Held a (nodes.syncClient m u version active) v n := by
  rw [Held, NodeClients.syncClient]
  split_ifs with heq
  · obtain ⟨rfl, rfl⟩ := heq
    exact h.tell hm
  · exact h

/-- The nodes are told a version that is not newer than the row's, or the demanded state. -/
theorem Sound.syncClient {s : NodeSyncState} (h : Sound servers s) {m : ServerId} {u : Uuid}
    {version : ℕ} {active : Bool} (hm : version ≤ s.access.sub.version ∨ active = s.access.demand) :
    Sound servers { s with nodes := s.nodes.syncClient m u version active } := by
  refine ⟨h.flights, h.pos, h.synced_le, ?_, fun r hr => ?_, fun r hr => ?_⟩
  · exact fun hsynced n hn hd => (h.synced hsynced n hn hd).syncClient hm
  · have hrun := h.runs r hr
    refine ⟨hrun.unasked, hrun.le, hrun.uuid, hrun.flag, hrun.desired, fun hv hd x hx hok => ?_⟩
    exact (hrun.results hv hd x hx hok).syncClient (hm.imp_left fun hle => hle.trans_eq hv.symm)
  · have hbump := h.bumping r hr
    refine ⟨hbump.version, hbump.uuid, hbump.desired, fun x hx hok => ?_⟩
    refine (hbump.results x hx hok).syncClient (hm.imp_left fun hle => ?_)
    rw [hbump.version]
    exact hle.trans (Nat.le_succ _)

/-- A node that confirms the demanded state for the current UUID holds it. -/
theorem held_of_syncOne {a : AccessState} {nodes : NodeClients} {n : ServerId} {version : ℕ}
    {verified : Bool}
    (hok : (syncOne n a.demand verified
      (Lib.Versioned.answer version (nodes n a.sub.uuid))).ok = true) :
    Held a (nodes.syncClient n a.sub.uuid version a.demand) version n := by
  rw [Held, NodeClients.syncClient, if_pos ⟨rfl, rfl⟩]
  refine Lib.Versioned.holds_tell fun y hy => ?_
  rw [Option.mem_def.mp hy, syncOne] at hok
  simp only [Bool.and_eq_true, decide_eq_true_eq] at hok
  exact hok.2

/-- A run that takes the place of another, with what is known of it. -/
theorem Sound.setRun {s : NodeSyncState} (h : Sound servers s) {who : Option ℕ} {r : SyncRun}
    (hrun : who.isSome → RunSound s.access s.nodes r)
    (hbump : who = none → BumpSound s.access s.nodes r) : Sound servers (s.setRun who r) := by
  cases who with
  | none =>
    refine ⟨h.flights, h.pos, h.synced_le, h.synced, h.runs, ?_⟩
    rintro _ ⟨⟩
    exact hbump rfl
  | some i =>
    refine ⟨h.flights, h.pos, h.synced_le, h.synced, fun r' hr' => ?_, h.bumping⟩
    rcases List.mem_or_eq_of_mem_set hr' with hr' | rfl
    · exact h.runs r' hr'
    · exact hrun rfl

/-- The results of a run that asks for the demanded state, after one more answer. -/
theorem held_results {a : AccessState} {nodes : NodeClients} {r : SyncRun} {n : ServerId}
    {verified : Bool} (huuid : r.uuid = a.sub.uuid)
    (hold : ∀ x ∈ r.results, x.ok = true → Held a nodes r.version x.server) :
    ∀ x ∈ syncOne n a.demand verified (Lib.Versioned.answer r.version (nodes n r.uuid)) ::
      r.results, x.ok = true →
        Held a (nodes.syncClient n r.uuid r.version a.demand) r.version x.server := by
  intro x hx hok
  rcases List.mem_cons.mp hx with rfl | hx
  · rw [huuid] at hok ⊢
    have hserver : (syncOne n a.demand verified
        (Lib.Versioned.answer r.version (nodes n a.sub.uuid))).server = n := by
      rw [syncOne.eq_def]
      split <;> rfl
    rw [hserver]
    exact held_of_syncOne hok
  · exact (hold x hx hok).syncClient (.inr rfl)

theorem Sound.callNode {s : NodeSyncState} (h : Sound servers s) {who : Option ℕ} {r : SyncRun}
    {d : Bool} (hr : s.run? who = some r) (hd : r.desired = some d) (n : ServerId)
    (reply : NodeReply) : Sound servers (s.callNode who r d n reply) := by
  have hrun : who.isSome → RunSound s.access s.nodes r := by
    cases who with
    | none => rintro ⟨⟩
    | some i => exact fun _ => h.runs r (List.mem_of_getElem? hr)
  have hbump : who = none → BumpSound s.access s.nodes r := by
    rintro rfl
    exact h.bumping r hr
  have hm : r.version ≤ s.access.sub.version ∨ d = s.access.demand := by
    cases who with
    | none => exact .inr (Option.some.inj (hd.symm.trans (hbump rfl).desired))
    | some i => exact .inl (hrun rfl).le
  have hasked {results : List NodeSyncResult} : r.desired = none → results = [] := by
    rw [hd]
    rintro ⟨⟩
  cases reply with
  | failed =>
    have hresults {P : NodeSyncResult → Prop} (hold : ∀ x ∈ r.results, x.ok = true → P x) :
        ∀ x ∈ { server := n, ok := false, needsBump := false } :: r.results, x.ok = true → P x := by
      intro x hx hok
      rcases List.mem_cons.mp hx with rfl | hx
      · cases hok
      · exact hold x hx hok
    refine h.setRun (fun hw => ?_) fun hw => ?_
    · have hrun := hrun hw
      exact ⟨hasked, hrun.le, hrun.uuid, hrun.flag, hrun.desired,
        fun hv hd => hresults (hrun.results hv hd)⟩
    · have hbump := hbump hw
      exact ⟨hbump.version, hbump.uuid, hbump.desired, hresults hbump.results⟩
  | lost => exact h.syncClient hm
  | answered verified =>
    refine (h.syncClient hm).setRun (fun hw => ?_) fun hw => ?_
    · have hrun := hrun hw
      refine ⟨hasked, hrun.le, hrun.uuid, hrun.flag, hrun.desired, fun hv hdemand => ?_⟩
      obtain rfl : d = s.access.demand := Option.some.inj (hd.symm.trans hdemand)
      exact held_results (hrun.uuid hv) (hrun.results hv hdemand)
    · have hbump := hbump hw
      obtain rfl : d = s.access.demand := Option.some.inj (hd.symm.trans hbump.desired)
      exact ⟨hbump.version, hbump.uuid, hbump.desired, held_results hbump.uuid hbump.results⟩

/-! ### The runs begin and end -/

/-- A run that is recorded as synced has confirmed the wanted state on every server it asked. -/
theorem mem_results_of_synced {r : SyncRun} {d : Bool} (hd : r.desired = some d)
    (hc : r.complete servers = true) (hs : r.synced servers = true) {n : VlessServer}
    (hn : n ∈ syncServers servers d) : ∃ x ∈ r.results, x.server = n.id ∧ x.ok = true := by
  have htargets : r.targets servers = extractNodeTargets (syncServers servers d) := by
    rw [SyncRun.targets, hd]
    rfl
  simp only [SyncRun.synced, hd, htargets, Bool.and_eq_true, decide_eq_true_eq, Option.any_some,
    List.all_eq_true] at hs
  obtain ⟨⟨⟨-, hlength⟩, hok⟩, -⟩ := hs
  have hendpoint : ∀ m ∈ syncServers servers d, m.hasEndpoint = true := by
    rw [extractNodeTargets, List.length_map] at hlength
    exact List.filter_eq_self.mp (List.filter_sublist.eq_of_length hlength)
  simp only [SyncRun.complete, htargets, Bool.and_eq_true, List.all_eq_true, List.any_eq_true,
    decide_eq_true_eq] at hc
  have hmem : n.id ∈ extractNodeTargets (syncServers servers d) :=
    List.mem_map_of_mem (List.mem_filter.mpr ⟨hn, hendpoint n hn⟩)
  obtain ⟨x, hx, hserver⟩ := hc.2 n.id hmem
  exact ⟨x, hx, hserver, hok x hx⟩

/-- The servers a revocation has to reach, but for those switched off while access is demanded. -/
theorem mem_syncServers {d : Bool} {n : VlessServer} (hn : n ∈ servers)
    (hactive : d = true → n.isActive = true) : n ∈ syncServers servers d := by
  rw [syncServers]
  split_ifs with hd
  · exact List.mem_filter.mpr ⟨hn, hactive hd⟩
  · exact hn

/-- A run that ends without raising the version, with what it records. -/
theorem Sound.finish {s : NodeSyncState} (h : Sound servers s) {i : ℕ} {r : SyncRun}
    (hi : s.runs[i]? = some r) (hc : r.complete servers = true)
    (hu : r.told → r.synced servers → r.version = s.access.sub.version → s.access.demand = false)
    {lastSynced : ℕ} (hl : lastSynced = s.lastSynced ∨
      r.synced servers = true ∧ lastSynced = r.version) :
    Sound servers { s with runs := s.runs.eraseIdx i, lastSynced } := by
  have hrun := h.runs r (List.mem_of_getElem? hi)
  refine ⟨h.flights, h.pos, ?_, ?_, fun r' hr' => h.runs r' (List.mem_of_mem_eraseIdx hr'),
    h.bumping⟩
  · rcases hl with rfl | ⟨-, rfl⟩
    · exact h.synced_le
    · exact hrun.le
  · intro hv n hn hactive
    rcases hl with rfl | ⟨hs, rfl⟩
    · exact h.synced hv n hn hactive
    · change r.version = s.access.sub.version at hv
      obtain ⟨d, hd⟩ : ∃ d, r.desired = some d := by
        simp only [SyncRun.complete, Bool.and_eq_true] at hc
        exact Option.isSome_iff_exists.mp hc.1
      have hdemand : d = s.access.demand := by
        rw [hrun.desired hv d hd]
        cases htold : r.told with
        | false => simp
        | true => simp [hu htold hs hv]
      subst hdemand
      obtain ⟨x, hx, hserver, hok⟩ :=
        mem_results_of_synced hd hc hs (mem_syncServers hn hactive)
      have hheld := hrun.results hv hd x hx hok
      rw [hserver, hv] at hheld
      exact hheld

/-- The commit of a run that raised the version, with what it records. -/
theorem Sound.finishBumped {s : NodeSyncState} (h : Sound servers s) {r : SyncRun}
    (hr : s.bumping = some r) (hc : r.complete servers = true) :
    Sound servers { s with
      access := s.access.put s.access.user { s.access.sub with version := r.version }
      lastSynced := if r.synced servers then r.version else s.lastSynced
      bumping := none } := by
  have hbump := h.bumping r hr
  have hlt : s.access.sub.version < r.version := by
    rw [hbump.version]
    exact Nat.lt_succ_self _
  have hfree : Sound servers { s with bumping := none } := by
    refine ⟨h.flights, h.pos, h.synced_le, h.synced, h.runs, ?_⟩
    rintro _ ⟨⟩
  have hrows : Sound servers { s with
      access := s.access.put s.access.user { s.access.sub with version := r.version }
      bumping := none } := by
    refine hfree.rows ⟨h.flights.feeds, h.flights.waiting, h.flights.holder, h.flights.cleanup⟩
      (Advances.of_lt hlt) (fun hv => ?_) (by rintro ⟨⟩)
    exact absurd hlt (not_lt.mpr (le_of_eq hv))
  refine ⟨hrows.flights, hrows.pos, ?_, ?_, hrows.runs, hrows.bumping⟩
  · change (if r.synced servers then r.version else s.lastSynced) ≤ r.version
    split_ifs
    · exact le_rfl
    · exact h.synced_le.trans hlt.le
  · intro hv n hn hactive
    change (if r.synced servers then r.version else s.lastSynced) = r.version at hv
    split_ifs at hv with hs
    · obtain ⟨x, hx, hserver, hok⟩ :=
        mem_results_of_synced hbump.desired hc hs (mem_syncServers hn hactive)
      have hheld := hbump.results x hx hok
      rw [hserver] at hheld
      exact hheld
    · exact absurd (h.synced_le.trans_lt hlt) (not_lt.mpr (le_of_eq hv.symm))

/-- A run that raises the version while it wants what the rows demand. -/
theorem Sound.bump {s : NodeSyncState} (h : Sound servers s) {i : ℕ} {r : SyncRun}
    (hd : r.desired = some s.access.demand) :
    Sound servers { s with
      runs := s.runs.eraseIdx i
      bumping := some { r with uuid := s.access.sub.bumpVersion.uuid
                               version := s.access.sub.bumpVersion.version
                               results := [] } } := by
  refine ⟨h.flights, h.pos, h.synced_le, h.synced,
    fun r' hr' => h.runs r' (List.mem_of_mem_eraseIdx hr'), ?_⟩
  rintro _ ⟨⟩
  refine ⟨?_, rfl, hd, ?_⟩
  · exact congrArg (· + 1) (VlessCredentials.orOne_of_pos h.pos)
  · rintro x ⟨⟩

/-! ### Every step -/

/-- What is demanded stays at the same version, unless nothing depends on it. -/
theorem demand_step {s : NodeSyncState} (h : Sound servers s) {e : AccessEvent}
    (hreads : s.access.ReadsCurrent e) (hsteady : AccessSteady s e)
    (hv : (s.access.step e).sub.version = s.access.sub.version) :
    (s.access.step e).demand = s.access.demand ∨ Unsynced s := by
  have hadv := AccessState.advances_step h.flights hreads
  have hflag : (s.access.step e).sub.isActive = s.access.sub.isActive := by
    by_contra hne
    exact absurd (hadv.lt fun hsame => hne hsame.1) (not_lt.mpr (le_of_eq hv))
  rw [AccessState.demand, AccessState.demand, hflag]
  cases hactive : s.access.sub.isActive with
  | false => exact .inl rfl
  | true =>
    rw [Bool.true_and, Bool.true_and]
    rw [hactive] at hflag
    rcases s.access.step_cases e with ⟨_, _, _, _, hstep, rfl | ⟨d, rfl, rfl⟩⟩ |
      ⟨i, f, rfl, -, -, hstep⟩ | ⟨t, loaded, ran, rfl, hholder, hread, hstep⟩
    · rw [hstep]
      exact .inl rfl
    · exact hsteady hactive
    · rw [hstep]
      exact .inl rfl
    · rw [hstep] at hflag hv ⊢
      change (t.leavesSub loaded ran s.access.sub).isActive = true at hflag
      change (t.leavesSub loaded ran s.access.sub).version = _ at hv
      change checkVpnAccess s.access.now (t.leavesUser ran s.access.user) = _ ∨ _
      by_cases hp : t.proceeds ran = true
      · rw [AccessTransaction.leavesSub, if_pos hp] at hflag hv
        obtain ⟨hstarted, -⟩ := (h.flights.holder t hholder).2 (loaded, ran) hread
        refine hsteady t hholder (loaded, ran) hread hp hactive ?_
        exact AccessTransaction.writes_nothing (hreads t hholder (loaded, ran) hread hp) hp
          hstarted hflag hv
      · rw [AccessTransaction.leavesUser, if_neg hp]
        exact .inl rfl

theorem sound_step (s : NodeSyncState) (e : NodeSyncEvent) (h : Sound servers s)
    (hu : Undisturbed servers s e) : Sound servers (s.step servers e) := by
  cases e with
  | access e =>
    rw [step]
    split_ifs with hb
    · exact h
    · refine h.rows (AccessState.flights_step _ _ h.flights)
        (AccessState.advances_step h.flights hu.1) (demand_step h hu.1 hu.2) fun hsome => ?_
      exact not_not.mp fun hne => hb ⟨hsome, hne⟩
  | resetHwids newUuid => exact h.write (advances_resetHwids _ _)
  | rotateToken newToken newUuid resetHwids =>
    exact h.write (advances_rotateToken _ _ _ _ true).1
  | adminReads => exact ⟨h.flights, h.pos, h.synced_le, h.synced, h.runs, h.bumping⟩
  | adminHwidReset i newUuid =>
    rw [step]
    cases hi : s.admins[i]? with
    | none => exact h
    | some target => exact h.write (advances_adminHwidReset (hu target hi))
  | adminTokenRotate i newToken newUuid =>
    rw [step]
    cases hi : s.admins[i]? with
    | none => exact h
    | some target => exact h.write (advances_rotateToken _ _ _ _ target).2
  | runReadsSub told =>
    refine ⟨h.flights, h.pos, h.synced_le, h.synced, fun r hr => ?_, h.bumping⟩
    rcases List.mem_append.mp hr with hr | hr
    · exact h.runs r hr
    · rw [List.mem_singleton.mp hr]
      refine ⟨fun _ => rfl, (VlessCredentials.orOne_of_pos h.pos).le, fun _ => rfl,
        fun _ => rfl, ?_, ?_⟩
      · rintro - d ⟨⟩
      · rintro - -
        exact fun x hx => absurd hx List.not_mem_nil
  | runReadsUser i =>
    rw [step]
    cases hi : s.runs[i]? with
    | none => exact h
    | some r =>
      have hrun := h.runs r (List.mem_of_getElem? hi)
      simp only
      split_ifs with hd
      · refine h.setRun (fun _ => ?_) (by rintro ⟨⟩)
        have hresults := hrun.unasked (Option.isNone_iff_eq_none.mp hd)
        refine ⟨by rintro ⟨⟩, hrun.le, hrun.uuid, hrun.flag, ?_, ?_⟩
        · rintro hv _ ⟨⟩
          rw [hrun.flag hv]
          rfl
        · intro _ _ x hx
          rw [hresults] at hx
          cases hx
      · exact h
  | call who n reply =>
    rw [step]
    cases hr : s.run? who with
    | none => exact h
    | some r =>
      cases hd : r.desired with
      | none => simpa only [hd] using h
      | some d =>
        simp only [hd]
        split_ifs
        · exact h.callNode hr hd n reply
        · exact h
  | bump i =>
    rw [step]
    split
    case h_1 r hb hi =>
      split_ifs with hc
      · exact h.bump (hu r hi hc.2)
      · exact h
    case h_2 => exact h
  | finish i =>
    rw [step]
    cases hi : s.runs[i]? with
    | none => exact h
    | some r =>
      simp only
      split_ifs with hc hs hb hb
      · exact h
      · refine h.finish hi hc.1 (hu r hi) ?_
        rw [Lib.written]
        split_ifs
        · exact .inl rfl
        · exact .inr ⟨hs, rfl⟩
      · exact h
      · exact h.finish hi hc.1 (hu r hi) (.inl rfl)
      · exact h
  | finishBumped =>
    rw [step]
    cases hr : s.bumping with
    | none => exact h
    | some r =>
      simp only
      by_cases hc : r.complete servers = true
      · rw [if_pos hc]
        exact h.finishBumped hr hc
      · rw [if_neg hc]
        exact h
  | abort i =>
    exact ⟨h.flights, h.pos, h.synced_le, h.synced,
      fun r hr => h.runs r (List.mem_of_mem_eraseIdx hr), h.bumping⟩
  | abortBumped =>
    refine ⟨h.flights, h.pos, h.synced_le, h.synced, h.runs, ?_⟩
    rintro _ ⟨⟩

theorem advances_write {s : NodeSyncState} {sub : VlessCredentials}
    (h : Advances s.access.sub sub) : Advances s.access.sub (s.write sub).access.sub := by
  rw [NodeSyncState.write]
  split_ifs
  · exact h
  · exact Advances.refl _

/-- A step of a run leaves the row as it is, but for the version it raises. -/
theorem sub_callNode (s : NodeSyncState) (who : Option ℕ) (r : SyncRun) (d : Bool) (n : ServerId)
    (reply : NodeReply) : (s.callNode who r d n reply).access = s.access := by
  cases reply <;> cases who <;> rfl

/-- An undisturbed step changes the flag or the UUID under a higher version. -/
theorem advances_step {s : NodeSyncState} (h : Sound servers s) {e : NodeSyncEvent}
    (hu : Undisturbed servers s e) : Advances s.access.sub (s.step servers e).access.sub := by
  cases e with
  | access e =>
    rw [step]
    split_ifs
    · exact Advances.refl _
    · exact AccessState.advances_step h.flights hu.1
  | resetHwids newUuid => exact advances_write (advances_resetHwids _ _)
  | rotateToken newToken newUuid resetHwids =>
    exact advances_write (advances_rotateToken _ _ _ _ true).1
  | adminHwidReset i newUuid =>
    rw [step]
    cases hi : s.admins[i]? with
    | none => exact Advances.refl _
    | some target => exact advances_write (advances_adminHwidReset (hu target hi))
  | adminTokenRotate i newToken newUuid =>
    rw [step]
    cases s.admins[i]? with
    | none => exact Advances.refl _
    | some target => exact advances_write (advances_rotateToken _ _ _ _ target).2
  | runReadsUser i =>
    rw [step]
    split
    · exact Advances.refl _
    · split_ifs <;> exact Advances.refl _
  | call who n reply =>
    rw [step]
    split
    · exact Advances.refl _
    · split
      · exact Advances.refl _
      · split_ifs
        · rw [sub_callNode]
          exact Advances.refl _
        · exact Advances.refl _
  | bump i =>
    rw [step]
    split
    · split_ifs <;> exact Advances.refl _
    · exact Advances.refl _
  | finish i =>
    rw [step]
    split
    · exact Advances.refl _
    · simp only
      split_ifs <;> exact Advances.refl _
  | finishBumped =>
    rw [step]
    cases hr : s.bumping with
    | none => exact Advances.refl _
    | some r =>
      simp only
      split
      · refine Advances.of_lt ?_
        change s.access.sub.version < r.version
        rw [(h.bumping r hr).version]
        exact Nat.lt_succ_self _
      · exact Advances.refl _
  | adminReads | runReadsSub | abort | abortBumped => exact Advances.refl _

end NodeSyncState

end Just1kBot
