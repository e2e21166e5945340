import Just1kBot.Users.BanService
import Just1kBot.Lib.Session
import Just1kBot.Lib.Transition

/-! VLESS credentials: `rotate_token`, `reset_hwids`, `pop_pending_revoked_uuid` and
    `bump_subscription_version` of `database/repositories/vless_subscription_repo.py`, the VLESS
    part of `_ban_user` and `_unban_user` of `services/ban_service.py`, and the confirmation that
    `_sweep_vless_pending_revocations` of `services/workers/cleanup.py` asks for.

    The repository functions lock the row and read it again before they write, so each is one step
    on the stored row. A ban or an unban reads the row without a lock and writes it when it commits:
    reading and writing are two steps, and every other transaction may come between them. The row of
    the user is locked through both, so at most one ban or unban is open. -/

namespace Just1kBot

abbrev Token := ℕ

abbrev Hwid := ℕ

/-- The row with its public token and the devices registered on it. -/
structure VlessCredentials extends VlessSubscription where
  token : Token := 0
  activeHwids : List Hwid := []
  deriving DecidableEq, Repr

/-! ### What the nodes confirm -/

inductive DeprovisionResult
  | applied | alreadyNewer | failed
  deriving DecidableEq, Repr

/-- What a node answers when a UUID is disabled on it. -/
structure DeprovisionAnswer where
  result : DeprovisionResult
  hasVless : Bool
  allInboundsVerified : Bool
  disabled : Bool
  deriving DecidableEq, Repr

/-- `_deprov_one`: whether the answer shows the UUID disabled. -/
def deprovOne (a : DeprovisionAnswer) : Bool :=
  match a.result with
  | .applied => a.hasVless && a.allInboundsVerified
  | .alreadyNewer => a.hasVless && a.disabled && a.allInboundsVerified
  | .failed => false

/-- `_execute_deprovision_on_nodes` and the condition on its results: every server has a node
    target, and every target shows the UUID disabled. A target that does not answer is `none`. -/
def deprovisioned (servers targets : List ServerId)
    (answer : ServerId → Option DeprovisionAnswer) : Bool :=
  servers ≠ [] && targets.length = servers.length && targets.all fun t => (answer t).any deprovOne

/-! ### The transactions on the row -/

/-- What replacing the UUID of a subscription writes: `reset_hwids` and `rotate_token` share it. -/
def VlessSubscription.replaceUuid (newUuid : Uuid) (sub : VlessSubscription) : VlessSubscription :=
  { sub with
    uuid := newUuid
    version := orOne sub.version + 1
    nodeTrafficSnapshots := { fresh := true }
    pendingRevokedUuids :=
      if sub.uuid ∈ sub.pendingRevokedUuids then sub.pendingRevokedUuids
      else sub.pendingRevokedUuids ++ [sub.uuid] }

namespace VlessCredentials

/-- `reset_hwids`, with the UUID it draws: without a registered device nothing is rotated. -/
def resetHwids (newUuid : Uuid) (sub : VlessCredentials) : VlessCredentials :=
  if sub.activeHwids = [] then sub
  else { sub with toVlessSubscription := sub.replaceUuid newUuid, activeHwids := [] }

/-- `rotate_token`, with the token and the UUID it draws. -/
def rotateToken (newToken : Token) (newUuid : Uuid) (resetHwids : Bool)
    (sub : VlessCredentials) : VlessCredentials :=
  { toVlessSubscription := sub.replaceUuid newUuid
    token := newToken
    activeHwids := if resetHwids then [] else sub.activeHwids }

/-- `pop_pending_revoked_uuid`. -/
def popPendingRevokedUuid (u : Uuid) (sub : VlessCredentials) : VlessCredentials :=
  { sub with pendingRevokedUuids := sub.pendingRevokedUuids.filter (· ≠ u) }

/-- `bump_subscription_version`. -/
def bumpVersion (sub : VlessCredentials) : VlessCredentials :=
  { sub with version := orOne sub.version + 1 }

/-- The VLESS part of `_ban_user`. -/
def ban (newUuid : Uuid) (sub : VlessCredentials) : VlessCredentials :=
  { sub with toVlessSubscription := sub.toVlessSubscription.ban newUuid, activeHwids := [] }

/-- The VLESS part of `_unban_user`. -/
def unban (sub : VlessCredentials) : VlessCredentials :=
  { sub with toVlessSubscription := sub.toVlessSubscription.unban }

/-- What the session writes of a row it loaded and changed. -/
def flush (loaded current stored : VlessCredentials) : VlessCredentials :=
  { stored with
    isActive := Lib.written loaded.isActive current.isActive stored.isActive
    version := Lib.written loaded.version current.version stored.version
    activeHwids := Lib.written loaded.activeHwids current.activeHwids stored.activeHwids
    nodeTrafficSnapshots := Lib.written loaded.nodeTrafficSnapshots current.nodeTrafficSnapshots
      stored.nodeTrafficSnapshots
    uuid := Lib.written loaded.uuid current.uuid stored.uuid
    pendingRevokedUuids := Lib.written loaded.pendingRevokedUuids current.pendingRevokedUuids
      stored.pendingRevokedUuids }

end VlessCredentials

/-! ### The system -/

/-- The stored row, the row an open ban or unban has read, the number of UUIDs drawn so far (a
    drawn UUID is new), and two histories: the UUIDs the row had, and the UUIDs the nodes confirmed
    disabled. -/
structure RotationState where
  row : VlessCredentials
  read : Option VlessCredentials := none
  issued : ℕ
  current : List Uuid
  disabled : List Uuid := []
  deriving DecidableEq

inductive RotationEvent
  | rotateToken (newToken : Token) (resetHwids : Bool)
  | resetHwids
  | bumpVersion
  /-- A ban or an unban reads the row, under the lock on the user. -/
  | readRow
  /-- The ban commits. -/
  | ban
  /-- The unban commits; `access` is what `check_vpn_access` says of the user. -/
  | unban (access : Bool)
  | rollback
  /-- The nodes are asked to disable a UUID. -/
  | deprovision (u : Uuid) (servers targets : List ServerId)
      (answer : ServerId → Option DeprovisionAnswer)
  /-- A UUID is taken off the list, which only happens once it is confirmed disabled. -/
  | popPendingRevokedUuid (u : Uuid)

namespace RotationState

/-- The row is written by a transaction that draws no UUID. -/
def put (s : RotationState) (row : VlessCredentials) : RotationState := { s with row }

/-- The row is written by a transaction that may draw one. -/
def draw (s : RotationState) (f : Uuid → VlessCredentials) : RotationState :=
  { s with
    row := f s.issued
    issued := s.issued + 1
    current := (f s.issued).uuid :: s.current }

/-- One step of the code. -/
def step (s : RotationState) : RotationEvent → RotationState
  | .rotateToken newToken resetHwids => s.draw fun u => s.row.rotateToken newToken u resetHwids
  | .resetHwids => s.draw fun u => s.row.resetHwids u
  | .bumpVersion => s.put s.row.bumpVersion
  | .readRow => if s.read.isNone then { s with read := some s.row } else s
  | .ban =>
    match s.read with
    | none => s
    | some loaded => { s with read := none }.draw fun u => loaded.flush (loaded.ban u) s.row
  | .unban access =>
    match s.read with
    | none => s
    | some loaded =>
      { s with read := none }.put (if access then loaded.flush loaded.unban s.row else s.row)
  | .rollback => { s with read := none }
  | .deprovision u servers targets answer =>
    if deprovisioned servers targets answer then { s with disabled := u :: s.disabled } else s
  | .popPendingRevokedUuid u =>
    if u ∈ s.disabled then s.put (s.row.popPendingRevokedUuid u) else s

/-- The same transactions one at a time: what each makes of the row as it is stored. -/
def serial (s : RotationState) : RotationEvent → RotationState
  | .ban => if s.read.isNone then s else { s with read := none }.draw fun u => s.row.ban u
  | .unban access =>
    if s.read.isNone then s
    else { s with read := none }.put (if access then s.row.unban else s.row)
  | e => s.step e

/-- A subscription as `get_or_create_subscription` creates it. -/
def created (id : ℕ) (userId : UserId) (token : Token) : RotationState :=
  { row := { id, userId, token, nodeTrafficSnapshots := { fresh := true } }
    issued := 1
    current := [0] }

/-! ### What is claimed of a step -/

/-- Every UUID the row ever had is the current one, waits on the list, or is confirmed disabled. -/
def NoneForgotten (s : RotationState) : Prop :=
  ∀ u ∈ s.current, u = s.row.uuid ∨ u ∈ s.row.pendingRevokedUuids ∨ u ∈ s.disabled

/-- The transaction leaves the UUID, the list and the version it makes of what is stored. -/
def NothingLost (s : RotationState) (e : RotationEvent) : Prop :=
  (s.step e).row.uuid = (s.serial e).row.uuid ∧
    (s.step e).row.pendingRevokedUuids = (s.serial e).row.pendingRevokedUuids ∧
    (s.step e).row.version = (s.serial e).row.version

/-- A step that replaces the UUID raises the version. -/
def Versioned (s : RotationState) (e : RotationEvent) : Prop :=
  (s.step e).row.uuid ≠ s.row.uuid → s.row.version < (s.step e).row.version

def Safe (s : RotationState) (e : RotationEvent) : Prop :=
  NoneForgotten (s.step e) ∧ NothingLost s e ∧ Versioned s e

/-- Nothing came between the read of a ban or an unban and its commit that wrote what it writes. -/
def Undisturbed (s : RotationState) : RotationEvent → Prop
  | .ban => ∀ loaded ∈ s.read, loaded.uuid = s.row.uuid ∧
      loaded.pendingRevokedUuids = s.row.pendingRevokedUuids ∧ loaded.version = s.row.version
  | .unban access => access → ∀ loaded ∈ s.read, loaded.version = s.row.version
  | _ => True

end RotationState

/-! ### What a flush writes -/

namespace VlessCredentials

/-- A row whose UUIDs are among the first `n` drawn, the current one not on the list. -/
structure Drawn (n : ℕ) (c : VlessCredentials) : Prop where
  uuid_lt : c.uuid < n
  pending_lt : ∀ u ∈ c.pendingRevokedUuids, u < n
  not_pending : c.uuid ∉ c.pendingRevokedUuids
  version_pos : 0 < c.version

theorem orOne_of_pos {v : ℕ} (h : 0 < v) : orOne v = v := if_neg (by omega)

namespace Drawn
variable {n : ℕ} {c : VlessCredentials}

theorem mono (h : Drawn n c) {m : ℕ} (hm : n ≤ m) : Drawn m c :=
  ⟨h.uuid_lt.trans_le hm, fun u hu => (h.pending_lt u hu).trans_le hm, h.not_pending, h.version_pos⟩

/-- The next UUID drawn is new, so it is not the row's and not on the list. -/
theorem issued_not_mem (h : Drawn n c) : n ∉ c.pendingRevokedUuids ++ [c.uuid] := by
  intro hn
  rcases List.mem_append.mp hn with hn | hn
  · exact absurd (h.pending_lt n hn) (lt_irrefl n)
  · exact absurd h.uuid_lt (by rw [← List.mem_singleton.mp hn]; exact lt_irrefl n)

/-- A row whose list took in the old UUID and whose UUID is the next one drawn. -/
theorem next (h : Drawn n c) {c' : VlessCredentials} (huuid : c'.uuid = n)
    (hpending : c'.pendingRevokedUuids = c.pendingRevokedUuids ++ [c.uuid])
    (hversion : 0 < c'.version) : Drawn (n + 1) c' := by
  refine ⟨huuid ▸ Nat.lt_succ_self n, fun u hu => ?_, ?_, hversion⟩
  · rw [hpending] at hu
    rcases List.mem_append.mp hu with hu | hu
    · exact (h.pending_lt u hu).trans (Nat.lt_succ_self n)
    · rw [List.mem_singleton.mp hu]
      exact h.uuid_lt.trans (Nat.lt_succ_self n)
  · rw [huuid, hpending]
    exact h.issued_not_mem

theorem replaceUuid_version (h : Drawn n c) (u : Uuid) :
    (c.replaceUuid u).version = c.version + 1 := by
  rw [VlessSubscription.replaceUuid, orOne_of_pos h.version_pos]

theorem replaceUuid_pending (h : Drawn n c) (u : Uuid) :
    (c.replaceUuid u).pendingRevokedUuids = c.pendingRevokedUuids ++ [c.uuid] :=
  if_neg h.not_pending

theorem replaced (h : Drawn n c) {c' : VlessCredentials}
    (hc' : c'.toVlessSubscription = c.replaceUuid n) : Drawn (n + 1) c' := by
  refine h.next ?_ ?_ ?_
  · rw [hc']
    rfl
  · rw [hc', h.replaceUuid_pending]
  · rw [hc', h.replaceUuid_version]
    exact Nat.succ_pos _

end Drawn

section
variable {n : ℕ} {c : VlessCredentials}

/-- A ban replaces the UUID as the repository functions do. -/
theorem ban_columns (h : Drawn n c) : (c.ban n).uuid = n ∧
    (c.ban n).pendingRevokedUuids = c.pendingRevokedUuids ++ [c.uuid] ∧
      (c.ban n).version = c.version + 1 :=
  ⟨rfl, h.replaceUuid_pending n, h.replaceUuid_version n⟩

/-- An unban finds the current UUID off the list. -/
theorem unban_columns (h : Drawn n c) : c.unban.uuid = c.uuid ∧
    c.unban.pendingRevokedUuids = c.pendingRevokedUuids ∧ c.unban.version = c.version + 1 := by
  refine ⟨rfl, List.filter_eq_self.mpr fun u hu => ?_, ?_⟩
  · have hne : u ≠ c.uuid := by
      rintro rfl
      exact h.not_pending hu
    simpa using hne
  · rw [unban, VlessSubscription.unban, orOne_of_pos h.version_pos]

/-- At its commit a ban writes all three columns, from the row it read. -/
theorem flush_ban (h : Drawn n c) (stored : VlessCredentials) :
    let row := c.flush (c.ban n) stored
    row.uuid = n ∧ row.pendingRevokedUuids = c.pendingRevokedUuids ++ [c.uuid] ∧
      row.version = c.version + 1 := by
  obtain ⟨huuid, hpending, hversion⟩ := ban_columns h
  have hne : (c.ban n).uuid ≠ c.uuid := ne_of_gt h.uuid_lt
  refine ⟨Lib.written_of_ne hne _, ?_, ?_⟩
  · rw [← hpending]
    refine Lib.written_of_ne ?_ _
    rw [hpending]
    simp
  · rw [← hversion]
    refine Lib.written_of_ne ?_ _
    rw [hversion]
    exact Nat.succ_ne_self _

/-- At its commit an unban writes the version only, from the row it read. -/
theorem flush_unban (h : Drawn n c) (stored : VlessCredentials) :
    let row := c.flush c.unban stored
    row.uuid = stored.uuid ∧ row.pendingRevokedUuids = stored.pendingRevokedUuids ∧
      row.version = c.version + 1 := by
  obtain ⟨_, hpending, hversion⟩ := unban_columns h
  refine ⟨Lib.written_loaded _ _, ?_, ?_⟩
  · rw [flush, hpending]
    exact Lib.written_loaded _ _
  · rw [← hversion]
    refine Lib.written_of_ne ?_ _
    rw [hversion]
    exact Nat.succ_ne_self _

end

end VlessCredentials

/-! ### What every step keeps -/

namespace RotationState
open VlessCredentials (Drawn)

/-- The rows stored and read only hold UUIDs that were drawn. -/
structure Fresh (s : RotationState) : Prop where
  row : Drawn s.issued s.row
  read : ∀ loaded ∈ s.read, Drawn s.issued loaded

theorem fresh_created (id : ℕ) (userId : UserId) (token : Token) :
    Fresh (created id userId token) :=
  ⟨⟨Nat.zero_lt_one, by simp [created], by simp [created], Nat.zero_lt_one⟩, by simp [created]⟩

theorem Fresh.put {s : RotationState} (h : Fresh s) {row : VlessCredentials}
    (hrow : Drawn s.issued row) : Fresh (s.put row) := ⟨hrow, h.read⟩

theorem Fresh.draw {s : RotationState} (h : Fresh s) {f : Uuid → VlessCredentials}
    (hrow : Drawn (s.issued + 1) (f s.issued)) : Fresh (s.draw f) :=
  ⟨hrow, fun loaded hl => (h.read loaded hl).mono (Nat.le_succ _)⟩

theorem Fresh.closed {s : RotationState} (h : Fresh s) : Fresh { s with read := none } :=
  ⟨h.row, by simp⟩

theorem fresh_step (s : RotationState) (e : RotationEvent) (h : Fresh s) : Fresh (s.step e) := by
  cases e with
  | rotateToken newToken resetHwids =>
    rw [step]
    exact h.draw (h.row.replaced rfl)
  | resetHwids =>
    rw [step]
    refine h.draw ?_
    rw [VlessCredentials.resetHwids]
    split_ifs with hd
    · exact h.row.mono (Nat.le_succ _)
    · exact h.row.replaced rfl
  | bumpVersion => exact h.put ⟨h.row.uuid_lt, h.row.pending_lt, h.row.not_pending, Nat.succ_pos _⟩
  | readRow =>
    rw [step]
    split_ifs with hr
    · exact ⟨h.row, fun loaded hl => by rw [← Option.some.inj hl]; exact h.row⟩
    · exact h
  | ban =>
    rw [step]
    cases hread : s.read with
    | none => exact h
    | some loaded =>
      have hl := h.read loaded hread
      obtain ⟨huuid, hpending, hversion⟩ := VlessCredentials.flush_ban hl s.row
      exact h.closed.draw (hl.next huuid hpending (hversion ▸ Nat.succ_pos _))
  | unban access =>
    rw [step]
    cases hread : s.read with
    | none => exact h
    | some loaded =>
      refine h.closed.put ?_
      split_ifs with ha
      · obtain ⟨huuid, hpending, hversion⟩ :=
          VlessCredentials.flush_unban (h.read loaded hread) s.row
        exact ⟨huuid ▸ h.row.uuid_lt, hpending ▸ h.row.pending_lt,
          huuid ▸ hpending ▸ h.row.not_pending, hversion ▸ Nat.succ_pos _⟩
      · exact h.row
  | rollback => exact h.closed
  | deprovision u servers targets answer =>
    rw [step]
    split_ifs with hd
    · exact ⟨h.row, h.read⟩
    · exact h
  | popPendingRevokedUuid u =>
    rw [step]
    split_ifs with hd
    · exact h.put ⟨h.row.uuid_lt, fun v hv => h.row.pending_lt v (List.mem_of_mem_filter hv),
        fun hv => h.row.not_pending (List.mem_of_mem_filter hv), h.row.version_pos⟩
    · exact h

/-- What a step that forgets no UUID does: every UUID is accounted for after it as before. -/
structure Keeps (s s' : RotationState) : Prop where
  current : ∀ u ∈ s'.current, u = s'.row.uuid ∨ u ∈ s.current
  uuid : s.row.uuid = s'.row.uuid ∨ s.row.uuid ∈ s'.row.pendingRevokedUuids
  pending : ∀ u ∈ s.row.pendingRevokedUuids, u ∈ s'.row.pendingRevokedUuids ∨ u ∈ s'.disabled
  disabled : ∀ u ∈ s.disabled, u ∈ s'.disabled

theorem NoneForgotten.keeps {s s' : RotationState} (h : NoneForgotten s) (hk : Keeps s s') :
    NoneForgotten s' := by
  intro u hu
  rcases hk.current u hu with hu | hu
  · exact .inl hu
  · rcases h u hu with rfl | hu | hu
    · exact hk.uuid.imp_right .inl
    · exact .inr (hk.pending u hu)
    · exact .inr (.inr (hk.disabled u hu))

theorem Keeps.refl (s : RotationState) : Keeps s s :=
  ⟨fun _ hu => .inr hu, .inl rfl, fun _ hu => .inl hu, fun _ hu => hu⟩

/-- A step that draws a UUID and puts the old one on the list. -/
theorem Keeps.drawn {s : RotationState} {read : Option VlessCredentials}
    {f : Uuid → VlessCredentials}
    (hpending : (f s.issued).pendingRevokedUuids = s.row.pendingRevokedUuids ++ [s.row.uuid]) :
    Keeps s ({ s with read }.draw f) := by
  refine ⟨fun u hu => (List.mem_cons.mp hu).imp id id, .inr ?_, fun u hu => .inl ?_, fun _ hu => hu⟩
  · exact hpending ▸ List.mem_append_right _ (List.mem_singleton.mpr rfl)
  · exact hpending ▸ List.mem_append_left _ hu

/-- Exactly the undisturbed steps lose nothing. -/
theorem nothingLost_iff {s : RotationState} (h : Fresh s) (e : RotationEvent) :
    NothingLost s e ↔ Undisturbed s e := by
  cases e with
  | ban =>
    rw [NothingLost, Undisturbed, step, serial]
    cases hread : s.read with
    | none => simp
    | some loaded =>
      obtain ⟨huuid, hpending, hversion⟩ := VlessCredentials.flush_ban (h.read loaded hread) s.row
      obtain ⟨huuid', hpending', hversion'⟩ := VlessCredentials.ban_columns h.row
      simp only [draw, Option.isNone_some, Bool.false_eq_true, if_false, huuid, hpending, hversion,
        huuid', hpending', hversion', Option.mem_def, Option.some.injEq, forall_eq']
      constructor
      · rintro ⟨-, hlist, hv⟩
        obtain ⟨hp, hu⟩ := List.append_inj' hlist rfl
        exact ⟨List.singleton_inj.mp hu, hp, Nat.succ_injective hv⟩
      · rintro ⟨hu, hp, hv⟩
        exact ⟨trivial, by rw [hu, hp], by rw [hv]⟩
  | unban access =>
    rw [NothingLost, Undisturbed, step, serial]
    cases hread : s.read with
    | none => simp
    | some loaded =>
      obtain ⟨huuid, hpending, hversion⟩ := VlessCredentials.flush_unban (h.read loaded hread) s.row
      obtain ⟨huuid', hpending', hversion'⟩ := VlessCredentials.unban_columns h.row
      cases access with
      | false => simp [put]
      | true => simp [put, huuid, hpending, hversion, huuid', hpending', hversion']
  | _ => exact iff_of_true ⟨rfl, rfl, rfl⟩ trivial

/-- An undisturbed step forgets no UUID. -/
theorem keeps_step {s : RotationState} (h : Fresh s) {e : RotationEvent} (hu : Undisturbed s e) :
    Keeps s (s.step e) := by
  cases e with
  | rotateToken newToken resetHwids =>
    rw [step]
    exact Keeps.drawn (h.row.replaceUuid_pending _)
  | resetHwids =>
    rw [step]
    by_cases hd : s.row.activeHwids = []
    · have hrow : ∀ u, s.row.resetHwids u = s.row := fun u => if_pos hd
      simp only [draw, hrow]
      exact ⟨fun u hu => List.mem_cons.mp hu, .inl rfl, fun _ hu => .inl hu, fun _ hu => hu⟩
    · have hrow : ∀ u, s.row.resetHwids u =
          { s.row with toVlessSubscription := s.row.replaceUuid u, activeHwids := [] } :=
        fun u => if_neg hd
      simp only [hrow]
      exact Keeps.drawn (h.row.replaceUuid_pending _)
  | ban =>
    rw [step]
    cases hread : s.read with
    | none => exact Keeps.refl s
    | some loaded =>
      obtain ⟨huuid, hpending, _⟩ := hu loaded hread
      refine Keeps.drawn ?_
      rw [(VlessCredentials.flush_ban (h.read loaded hread) s.row).2.1, huuid, hpending]
  | unban access =>
    rw [step]
    cases hread : s.read with
    | none => exact Keeps.refl s
    | some loaded =>
      cases access with
      | false => exact ⟨fun _ hu => .inr hu, .inl rfl, fun _ hu => .inl hu, fun _ hu => hu⟩
      | true =>
        obtain ⟨huuid, hpending, _⟩ := VlessCredentials.flush_unban (h.read loaded hread) s.row
        exact ⟨fun _ hu => .inr hu, .inl huuid.symm, fun _ hu => .inl (hpending ▸ hu),
          fun _ hu => hu⟩
  | deprovision u servers targets answer =>
    rw [step]
    split_ifs with hd
    · exact ⟨fun _ hu => .inr hu, .inl rfl, fun _ hu => .inl hu,
        fun _ hu => List.mem_cons_of_mem _ hu⟩
    · exact Keeps.refl s
  | popPendingRevokedUuid u =>
    rw [step]
    split_ifs with hd
    · refine ⟨fun _ hu => .inr hu, .inl rfl, fun v hv => ?_, fun _ hu => hu⟩
      by_cases hvu : v = u
      · exact .inr (hvu ▸ hd)
      · exact .inl (List.mem_filter.mpr ⟨hv, by simpa using hvu⟩)
    · exact Keeps.refl s
  | readRow =>
    rw [step]
    split_ifs
    · exact ⟨fun _ hu => .inr hu, .inl rfl, fun _ hu => .inl hu, fun _ hu => hu⟩
    · exact Keeps.refl s
  | bumpVersion => exact ⟨fun _ hu => .inr hu, .inl rfl, fun _ hu => .inl hu, fun _ hu => hu⟩
  | rollback => exact ⟨fun _ hu => .inr hu, .inl rfl, fun _ hu => .inl hu, fun _ hu => hu⟩

/-- An undisturbed step that replaces the UUID raises the version. -/
theorem versioned_step {s : RotationState} (h : Fresh s) {e : RotationEvent}
    (hu : Undisturbed s e) : Versioned s e := by
  intro hne
  cases e with
  | rotateToken newToken resetHwids =>
    exact (Nat.lt_succ_self _).trans_eq (h.row.replaceUuid_version s.issued).symm
  | resetHwids =>
    simp only [step, draw, VlessCredentials.resetHwids] at hne ⊢
    split_ifs at hne ⊢
    · exact absurd rfl hne
    · exact (Nat.lt_succ_self _).trans_eq (h.row.replaceUuid_version s.issued).symm
  | ban =>
    simp only [step] at hne ⊢
    cases hread : s.read with
    | none => rw [hread] at hne; exact absurd rfl hne
    | some loaded =>
      have hversion := (VlessCredentials.flush_ban (h.read loaded hread) s.row).2.2
      simp only [draw]
      rw [hversion, (hu loaded hread).2.2]
      exact Nat.lt_succ_self _
  | unban access =>
    simp only [step] at hne
    cases hread : s.read with
    | none => rw [hread] at hne; exact absurd rfl hne
    | some loaded =>
      rw [hread] at hne
      cases access with
      | false => exact absurd rfl hne
      | true =>
        exact absurd (VlessCredentials.flush_unban (h.read loaded hread) s.row).1 hne
  | readRow | deprovision | popPendingRevokedUuid =>
    simp only [step] at hne
    split_ifs at hne <;> exact absurd rfl hne
  | bumpVersion | rollback => exact absurd rfl hne

/-- For every interleaving, from the row as it is created: no UUID is forgotten, no write is lost
    and every new UUID has a higher version at all steps, exactly when no ban or unban commits over
    a row that was rewritten since it read it. -/
theorem credentials_kept_iff (id : ℕ) (userId : UserId) (token : Token)
    (es : List RotationEvent) :
    Lib.Always step Safe (created id userId token) es ↔
      Lib.Always step Undisturbed (created id userId token) es := by
  refine Lib.always_iff step (I := NoneForgotten) fresh_step
    (fun s e h hs => (nothingLost_iff h e).mp hs.2.1) (fun s e h hk hu => ?_) es _
    (fresh_created id userId token) (fun u hu => .inl (List.mem_singleton.mp hu))
  have hnext := hk.keeps (keeps_step h hu)
  exact ⟨⟨hnext, (nothingLost_iff h e).mpr hu, versioned_step h hu⟩, hnext⟩

/-- A ban reads the row, the token is rotated, and the ban commits: UUID 1 is gone. -/
theorem credentials_forgotten :
    ¬ ∀ (id : ℕ) (userId : UserId) (token : Token) (es : List RotationEvent),
      Lib.Always step Safe (created id userId token) es := by
  intro h
  have hrun := h 1 1 0 [.readRow, .rotateToken 1 true, .ban]
  obtain ⟨-, -, ⟨hforgot, -⟩, -⟩ := hrun
  exact absurd (hforgot 1 (by decide)) (by decide)

end RotationState

end Just1kBot
