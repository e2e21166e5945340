import Just1kBot.WhiteInternet.Subscription
import Just1kBot.Lib.Session
import Just1kBot.Lib.Transition

/-! `_try_inline_sync` of `services/white_internet_service.py`: the purchase, the conversion and the
    extension commit the row and then activate it on the node at once.

    The object they hold was loaded in the transaction that committed the row, the session keeps it
    over the commit (`expire_on_commit=False`), and the node call runs outside any lock. The final
    flush writes whatever the object changed, with no look at the row as it is by then. -/

namespace Just1kBot

/-- What the sync reads of the origin: its epoch, and the codes of its relays. -/
structure OriginServer where
  xrayInstanceEpoch : Option Epoch := none
  relays : List (Option String) := []
  deriving DecidableEq, Repr

inductive SyncResult
  | applied | alreadyNewer | fenced | failed
  deriving DecidableEq, Repr

structure SyncResponse where
  result : SyncResult
  verifiedEpoch : Option Epoch := none
  verifiedInbounds : List String := []
  deriving DecidableEq, Repr

/-- `get_inventory`: whether it went through, and the `observed_state` of the client. -/
structure Inventory where
  ok : Bool
  observedState : Option String := none
  deriving DecidableEq, Repr

/-- What the node answers to the sync, and to the inventory request should it come to that; `none`
    where the call raises. -/
structure NodeAnswer where
  sync : Option SyncResponse
  inventory : Option Inventory := none
  deriving DecidableEq, Repr

/-! ### The verdict on the node's answer -/

def expectedInboundTags (origin : OriginServer) : List String :=
  "just1k-wl-default" :: origin.relays.filterMap fun code =>
    (code.filter (· ≠ "")).map ("just1k-wl-inbound-" ++ ·)

def verifiedEpoch (origin : OriginServer) (resp : SyncResponse) : Option Epoch :=
  resp.verifiedEpoch.or origin.xrayInstanceEpoch

/-- `inbounds_ok`. -/
def InboundsOk (origin : OriginServer) (resp : SyncResponse) : Prop :=
  resp.verifiedInbounds = [] ∨ ∀ tag ∈ expectedInboundTags origin, tag ∈ resp.verifiedInbounds

instance (origin : OriginServer) (resp : SyncResponse) : Decidable (InboundsOk origin resp) := by
  unfold InboundsOk; infer_instance

/-- `confirmed`, of a node that answered. -/
def ConfirmedBy (origin : OriginServer) (resp : SyncResponse) (inventory : Option Inventory) :
    Prop :=
  let epochOk := verifiedEpoch origin resp = origin.xrayInstanceEpoch
  match resp.result with
  | .applied => epochOk ∧ InboundsOk origin resp
  | .alreadyNewer => epochOk ∧
      (inventory.any fun i => i.ok && i.observedState == some "active") = true ∧
      InboundsOk origin resp
  | .fenced | .failed => False

instance (origin : OriginServer) (resp : SyncResponse) (inventory : Option Inventory) :
    Decidable (ConfirmedBy origin resp inventory) := by
  unfold ConfirmedBy
  dsimp only
  split <;> infer_instance

/-! ### The sync -/

/-- A sync under way: the object as it was loaded, the origin, and the node's answer once it came.
    `deactivated` is a history: a deactivating operation took effect since the object was loaded. -/
structure InlineSync where
  loaded : WhiteInternetSubscription
  origin : OriginServer
  answer : Option NodeAnswer := none
  deactivated : Bool := false
  deriving DecidableEq, Repr

namespace InlineSync

def targetVersion (sync : InlineSync) : ℕ := orOne sync.loaded.desiredVersion

/-- The response the sync accepts, if it accepts one. -/
def confirmed (sync : InlineSync) : Option SyncResponse :=
  match sync.answer with
  | some ⟨some resp, inventory⟩ =>
    if ConfirmedBy sync.origin resp inventory then some resp else none
  | _ => none

/-- The object after a confirmed sync. -/
def object (sync : InlineSync) (resp : SyncResponse) (now : Time) : WhiteInternetSubscription :=
  let sub := { sync.loaded with actualVersion := sync.targetVersion }
  let sub :=
    if orOne sub.desiredVersion = sync.targetVersion then
      { sub with status := .active, provisioningStatus := .active }
    else sub
  { sub with
    lastReconciledNodeEpoch := verifiedEpoch sync.origin resp, lastSyncedAt := some now }

/-- The row after the object's flush. -/
def flush (loaded object row : WhiteInternetSubscription) : WhiteInternetSubscription :=
  { row with
    status := Lib.written loaded.status object.status row.status
    provisioningStatus :=
      Lib.written loaded.provisioningStatus object.provisioningStatus row.provisioningStatus
    actualVersion := Lib.written loaded.actualVersion object.actualVersion row.actualVersion
    lastReconciledNodeEpoch := Lib.written loaded.lastReconciledNodeEpoch
      object.lastReconciledNodeEpoch row.lastReconciledNodeEpoch
    lastSyncedAt := Lib.written loaded.lastSyncedAt object.lastSyncedAt row.lastSyncedAt }

/-- The final write, on the row as it is by then. -/
def finish (sync : InlineSync) (now : Time) (row : WhiteInternetSubscription) :
    WhiteInternetSubscription :=
  match sync.confirmed with
  | some resp => flush sync.loaded (sync.object resp now) row
  | none => row

end InlineSync

/-! ### What runs next to it -/

/-- The deactivating operations: a ban or the refund of a period, a trial reset, the expiry, and the
    refund of a traffic pack or of a device slot. -/
inductive Deactivation
  | disable (reason : String)
  | resetTrial
  | expire (reason : String)
  | revokePack (bytes : ℕ)
  | revokeSlot
  deriving DecidableEq, Repr

/-- What a deactivating operation does to the row; a row it does not select stays as it is. -/
def Deactivation.apply (sub : WhiteInternetSubscription) :
    Deactivation → WhiteInternetSubscription
  | .disable reason => if sub.status ≠ .disabled then sub.disable reason else sub
  | .resetTrial => if sub.isTrial then sub.resetTrial else sub
  | .expire reason => sub.expire reason
  | .revokePack bytes => sub.revokePack bytes
  | .revokeSlot => sub.revokeSlot

/-- The transactions that end in an inline sync. -/
inductive SyncedChange
  | create (id : ℕ) (userId : UserId) (originNodeId : ServerId) (uuid : Uuid) (baseBytes : ℕ)
      (durationDays : ℤ) (isTrial : Bool) (now : Time)
  | convert (durationDays : ℤ) (newOrigin : Option ServerId) (now : Time)
  | extend (n : ℤ) (now : Time)

/-- The row such a transaction commits, if it goes through. -/
def SyncedChange.apply (row : Option WhiteInternetSubscription) :
    SyncedChange → Option WhiteInternetSubscription
  | .create id userId originNodeId uuid baseBytes durationDays isTrial now =>
    match row with
    | none => some (.create id userId originNodeId uuid baseBytes durationDays isTrial now)
    | some _ => none
  | .convert durationDays newOrigin now => row.map (·.convertTrial durationDays newOrigin now)
  | .extend n now => row.bind fun sub => (sub.extend n now).toOption

/-- One subscription, and the inline syncs under way for it. -/
structure SyncState where
  row : Option WhiteInternetSubscription := none
  syncs : List InlineSync := []
  deriving DecidableEq, Repr

/-- `other` is any other operation on the row: none of them takes the desired version back or lets
    the actual one get ahead of it. -/
inductive SyncEvent
  | start (change : SyncedChange) (origin : Option OriginServer)
  | answer (i : ℕ) (a : NodeAnswer)
  | finish (i : ℕ) (now : Time)
  | deactivate (d : Deactivation)
  | other (row : WhiteInternetSubscription)

namespace SyncState

/-- The transaction commits the row; the sync begins where the origin can be reached. -/
def start (s : SyncState) (change : SyncedChange) (origin : Option OriginServer) : SyncState :=
  match change.apply s.row, origin with
  | none, _ => s
  | some row, none => { s with row := some row }
  | some row, some origin => { row := some row, syncs := s.syncs ++ [⟨row, origin, none, false⟩] }

def finish (s : SyncState) (i : ℕ) (now : Time) : SyncState :=
  match s.syncs[i]? with
  | none => s
  | some sync => { row := s.row.map (sync.finish now), syncs := s.syncs.eraseIdx i }

def deactivate (s : SyncState) (d : Deactivation) : SyncState :=
  match s.row with
  | none => s
  | some sub =>
    let sub' := d.apply sub
    { row := some sub'
      syncs := s.syncs.map fun sync => { sync with
        deactivated := sync.deactivated || decide (sub.desiredVersion < sub'.desiredVersion) } }

def other (s : SyncState) (row : WhiteInternetSubscription) : SyncState :=
  match s.row with
  | none => s
  | some sub =>
    if sub.desiredVersion ≤ row.desiredVersion ∧ row.actualVersion ≤ row.desiredVersion then
      { s with row := some row }
    else s

def step (s : SyncState) : SyncEvent → SyncState
  | .start change origin => s.start change origin
  | .answer i a => { s with syncs := s.syncs.modify i fun sync =>
      { sync with answer := sync.answer.or (some a) } }
  | .finish i now => s.finish i now
  | .deactivate d => s.deactivate d
  | .other row => s.other row

end SyncState

/-! ### The property and its condition -/

/-- The write takes the row back to where it was before a deactivation. -/
def Undoes (row row' : WhiteInternetSubscription) : Prop :=
  row.status ≠ .active ∧ row'.status = .active ∨
  row.provisioningStatus ≠ .active ∧ row'.provisioningStatus = .active ∨
  row'.desiredVersion ≠ row.desiredVersion ∨
  row'.actualVersion ≠ row.actualVersion ∧ row'.actualVersion < row.desiredVersion

instance (row row' : WhiteInternetSubscription) : Decidable (Undoes row row') := by
  unfold Undoes; infer_instance

/-- The final write of a sync that a deactivation has overtaken. -/
def OvertakenFinish (P : InlineSync → Time → WhiteInternetSubscription → Prop) (s : SyncState) :
    SyncEvent → Prop
  | .finish i now => ∀ sync ∈ s.syncs[i]?, ∀ row ∈ s.row, sync.deactivated = true → P sync now row
  | _ => True

/-- A deactivated subscription stays deactivated. -/
def StaysDeactivated : SyncState → SyncEvent → Prop :=
  OvertakenFinish fun sync now row => ¬Undoes row (sync.finish now row)

/-- Every column the final write could set on the row has got the value already, or had it when
    the object was loaded. -/
def NothingToWrite (sync : InlineSync) (row : WhiteInternetSubscription) : Prop :=
  (sync.loaded.status = .active ∨ row.status = .active) ∧
  (sync.loaded.provisioningStatus = .active ∨ row.provisioningStatus = .active) ∧
  row.actualVersion = sync.targetVersion

instance (sync : InlineSync) (row : WhiteInternetSubscription) :
    Decidable (NothingToWrite sync row) := by unfold NothingToWrite; infer_instance

/-- The node does not confirm the sync, or the sync has nothing to write. -/
def HarmlessFinish : SyncState → SyncEvent → Prop :=
  OvertakenFinish fun sync _ row => sync.confirmed = none ∨ NothingToWrite sync row

/-! ### What one final write does -/

theorem orOne_of_pos {n : ℕ} (h : 0 < n) : orOne n = n := if_neg h.ne'

namespace InlineSync

/-- How a sync stands to the row: the object was loaded before the node had its version, and the
    row is at that version or, after a deactivation, past it. -/
structure Behind (sync : InlineSync) (row : WhiteInternetSubscription) : Prop where
  unsynced : sync.loaded.actualVersion < sync.loaded.desiredVersion
  le : sync.loaded.desiredVersion ≤ row.desiredVersion
  lt : sync.deactivated = true → sync.loaded.desiredVersion < row.desiredVersion

variable {sync : InlineSync} {row : WhiteInternetSubscription} {resp : SyncResponse} {now : Time}

theorem Behind.targetVersion (h : sync.Behind row) :
    sync.targetVersion = sync.loaded.desiredVersion :=
  orOne_of_pos (Nat.zero_lt_of_lt h.unsynced)

/-- A later version of the row keeps a sync behind it. -/
theorem Behind.mono {row' : WhiteInternetSubscription} (h : sync.Behind row)
    (hle : row.desiredVersion ≤ row'.desiredVersion) : sync.Behind row' :=
  ⟨h.unsynced, h.le.trans hle, fun hd => (h.lt hd).trans_le hle⟩

@[simp] theorem finish_desiredVersion :
    (sync.finish now row).desiredVersion = row.desiredVersion := by
  rw [finish]
  split <;> rfl

/-- The object knows no other version than the one it was loaded with. -/
theorem object_eq : sync.object resp now = { sync.loaded with
    actualVersion := sync.targetVersion, status := .active, provisioningStatus := .active
    lastReconciledNodeEpoch := verifiedEpoch sync.origin resp, lastSyncedAt := some now } := by
  simp only [object]
  rw [if_pos (by rfl)]

theorem finish_of_unconfirmed (h : sync.confirmed = none) : sync.finish now row = row := by
  simp only [finish, h]

theorem finish_status (h : sync.confirmed = some resp) :
    (sync.finish now row).status = Lib.written sync.loaded.status .active row.status := by
  simp only [finish, h, flush, object_eq]

theorem finish_provisioningStatus (h : sync.confirmed = some resp) :
    (sync.finish now row).provisioningStatus =
      Lib.written sync.loaded.provisioningStatus .active row.provisioningStatus := by
  simp only [finish, h, flush, object_eq]

theorem finish_actualVersion (hb : sync.Behind row) (h : sync.confirmed = some resp) :
    (sync.finish now row).actualVersion = sync.targetVersion := by
  have hne : sync.targetVersion ≠ sync.loaded.actualVersion := by
    rw [hb.targetVersion]
    exact hb.unsynced.ne'
  simp only [finish, h, flush, object_eq]
  exact Lib.written_of_ne hne _

/-- The final write never lets the actual version get ahead of the desired one. -/
theorem finish_actualVersion_le (hb : sync.Behind row)
    (hrow : row.actualVersion ≤ row.desiredVersion) :
    (sync.finish now row).actualVersion ≤ row.desiredVersion := by
  cases h : sync.confirmed with
  | none => rwa [finish_of_unconfirmed h]
  | some resp =>
    rw [finish_actualVersion hb h, hb.targetVersion]
    exact hb.le

/-- A sync that a deactivation has overtaken undoes it exactly when the node confirmed the sync and
    it has something to write. -/
theorem undoes_iff (hb : sync.Behind row) (hd : sync.deactivated = true) :
    Undoes row (sync.finish now row) ↔
      ¬(sync.confirmed = none ∨ NothingToWrite sync row) := by
  cases h : sync.confirmed with
  | none =>
    rw [finish_of_unconfirmed h]
    simp [Undoes]
  | some resp =>
    have hlt : sync.targetVersion < row.desiredVersion := hb.targetVersion ▸ hb.lt hd
    rw [Undoes]
    rw [finish_status h, finish_provisioningStatus h, finish_desiredVersion,
      finish_actualVersion hb h, Lib.written_new_iff, Lib.written_new_iff]
    simp only [NothingToWrite, reduceCtorEq, false_or, hlt, ne_eq, not_true_eq_false, and_true]
    tauto

end InlineSync

/-! ### What the other operations do to the versions -/

theorem Deactivation.actualVersion (d : Deactivation) (sub : WhiteInternetSubscription) :
    (d.apply sub).actualVersion = sub.actualVersion := by
  cases d with
  | disable reason =>
    simp only [apply, WhiteInternetSubscription.disable]
    split <;> rfl
  | resetTrial =>
    simp only [apply, WhiteInternetSubscription.resetTrial, WhiteInternetSubscription.disable]
    split <;> rfl
  | expire reason =>
    simp only [apply, WhiteInternetSubscription.expire]
    split <;> rfl
  | revokePack bytes => rw [apply, WhiteInternetSubscription.revokePack_actualVersion]
  | revokeSlot => rw [apply, WhiteInternetSubscription.revokeSlot_actualVersion]

theorem Deactivation.desiredVersion_le (d : Deactivation) (sub : WhiteInternetSubscription) :
    sub.desiredVersion ≤ (d.apply sub).desiredVersion := by
  cases d with
  | disable reason =>
    simp only [apply, WhiteInternetSubscription.disable]
    split
    · exact Nat.le_succ _
    · exact le_rfl
  | resetTrial =>
    simp only [apply, WhiteInternetSubscription.resetTrial, WhiteInternetSubscription.disable]
    split
    · exact Nat.le_succ _
    · exact le_rfl
  | expire reason =>
    simp only [apply, WhiteInternetSubscription.expire]
    split
    · exact Nat.le_succ _
    · exact le_rfl
  | revokePack bytes =>
    rw [apply, WhiteInternetSubscription.revokePack_desiredVersion]
    exact Nat.le_succ _
  | revokeSlot =>
    rw [apply, WhiteInternetSubscription.revokeSlot_desiredVersion]
    exact Nat.le_succ _

/-- A transaction that ends in an inline sync commits a version the node has not got yet. -/
theorem SyncedChange.apply_unsynced {change : SyncedChange} {row : Option WhiteInternetSubscription}
    {sub' : WhiteInternetSubscription} (h : change.apply row = some sub')
    (hrow : ∀ sub ∈ row, sub.actualVersion ≤ sub.desiredVersion) :
    sub'.actualVersion < sub'.desiredVersion ∧
      ∀ sub ∈ row, sub.desiredVersion ≤ sub'.desiredVersion := by
  cases change with
  | create id userId originNodeId uuid baseBytes durationDays isTrial now =>
    cases row with
    | none =>
      simp only [apply, Option.some.injEq] at h
      rw [← h]
      exact ⟨Nat.zero_lt_one, fun sub hsub => absurd hsub (Option.not_mem_none sub)⟩
    | some sub => cases h
  | convert durationDays newOrigin now =>
    obtain ⟨sub, rfl, rfl⟩ := Option.map_eq_some_iff.mp h
    have hle := hrow sub rfl
    obtain ⟨hactual, hdesired⟩ := sub.convertTrial_versions durationDays newOrigin now
    refine ⟨by omega, ?_⟩
    rintro _ ⟨⟩
    omega
  | extend n now =>
    obtain ⟨sub, rfl, hext⟩ := Option.bind_eq_some_iff.mp h
    have hle := hrow sub rfl
    obtain ⟨-, -, hactual, hdesired⟩ :=
      WhiteInternetSubscription.extend_ok (Lib.toOption_eq_some hext)
    refine ⟨by omega, ?_⟩
    rintro _ ⟨⟩
    omega

/-! ### The runs -/

/-- The versions of the row are in order, and every sync under way is behind it. -/
structure SyncInv (s : SyncState) : Prop where
  row : ∀ sub ∈ s.row, sub.actualVersion ≤ sub.desiredVersion
  syncs : ∀ sync ∈ s.syncs, ∃ sub ∈ s.row, sync.Behind sub

namespace SyncInv
variable {s : SyncState}

theorem start (hs : SyncInv s) (change : SyncedChange) (origin : Option OriginServer) :
    SyncInv (s.start change origin) := by
  simp only [SyncState.start]
  cases happ : change.apply s.row with
  | none => exact hs
  | some sub' =>
    obtain ⟨hlt, hle⟩ := SyncedChange.apply_unsynced happ hs.row
    have hold : ∀ sync ∈ s.syncs, sync.Behind sub' := fun sync hmem => by
      obtain ⟨sub, hsub, hb⟩ := hs.syncs sync hmem
      exact hb.mono (hle sub hsub)
    cases origin with
    | none =>
      refine ⟨?_, fun sync hmem => ⟨sub', rfl, hold sync hmem⟩⟩
      rintro _ ⟨⟩
      exact hlt.le
    | some origin =>
      refine ⟨?_, fun sync hmem => ⟨sub', rfl, ?_⟩⟩
      · rintro _ ⟨⟩
        exact hlt.le
      · rcases List.mem_append.mp hmem with hmem | hmem
        · exact hold sync hmem
        · obtain rfl := List.mem_singleton.mp hmem
          exact ⟨hlt, le_rfl, by simp⟩

theorem answer (hs : SyncInv s) (i : ℕ) (a : NodeAnswer) : SyncInv (s.step (.answer i a)) := by
  refine ⟨hs.row, fun sync hmem => ?_⟩
  obtain ⟨j, hj⟩ := List.mem_iff_getElem?.mp hmem
  rw [SyncState.step, List.getElem?_modify] at hj
  obtain ⟨old, hold, rfl⟩ := Option.map_eq_some_iff.mp hj
  obtain ⟨sub, hsub, hb⟩ := hs.syncs old (List.mem_of_getElem? hold)
  refine ⟨sub, hsub, ?_⟩
  split
  · exact ⟨hb.unsynced, hb.le, hb.lt⟩
  · exact hb

theorem finish (hs : SyncInv s) (i : ℕ) (now : Time) : SyncInv (s.finish i now) := by
  rw [SyncState.finish]
  cases hi : s.syncs[i]? with
  | none => exact hs
  | some sync =>
    obtain ⟨sub, hsub, hb⟩ := hs.syncs sync (List.mem_of_getElem? hi)
    have hrow : s.row = some sub := hsub
    refine ⟨?_, fun other hmem => ?_⟩
    · intro sub' hsub'
      rw [hrow] at hsub'
      cases hsub'
      rw [InlineSync.finish_desiredVersion]
      exact InlineSync.finish_actualVersion_le hb (hs.row sub hsub)
    · obtain ⟨sub₁, hsub₁, hb₁⟩ := hs.syncs other (List.mem_of_mem_eraseIdx hmem)
      refine ⟨sync.finish now sub₁, Option.mem_map_of_mem _ hsub₁, hb₁.mono ?_⟩
      rw [InlineSync.finish_desiredVersion]

theorem deactivate (hs : SyncInv s) (d : Deactivation) : SyncInv (s.deactivate d) := by
  rw [SyncState.deactivate]
  cases hrow : s.row with
  | none => exact hs
  | some sub =>
    refine ⟨?_, fun sync hmem => ?_⟩
    · rintro _ ⟨⟩
      rw [d.actualVersion]
      exact (hs.row sub hrow).trans (d.desiredVersion_le sub)
    · obtain ⟨old, hold, rfl⟩ := List.mem_map.mp hmem
      obtain ⟨sub₁, hsub₁, hb⟩ := hs.syncs old hold
      obtain rfl : sub₁ = sub := Option.some.inj (hsub₁.symm.trans hrow)
      have hb' := hb.mono (d.desiredVersion_le sub₁)
      refine ⟨d.apply sub₁, rfl, hb'.unsynced, hb'.le, fun hd => ?_⟩
      rcases Bool.or_eq_true_iff.mp hd with hd | hd
      · exact hb'.lt hd
      · exact hb.le.trans_lt (of_decide_eq_true hd)

theorem other (hs : SyncInv s) (row : WhiteInternetSubscription) : SyncInv (s.other row) := by
  rw [SyncState.other]
  cases hrow : s.row with
  | none => exact hs
  | some sub =>
    dsimp only
    split_ifs with h
    · refine ⟨?_, fun sync hmem => ?_⟩
      · rintro _ ⟨⟩
        exact h.2
      · obtain ⟨sub₁, hsub₁, hb⟩ := hs.syncs sync hmem
        obtain rfl : sub₁ = sub := Option.some.inj (hsub₁.symm.trans hrow)
        exact ⟨row, rfl, hb.mono h.1⟩
    · exact hs

theorem step (s : SyncState) (e : SyncEvent) (hs : SyncInv s) : SyncInv (s.step e) := by
  cases e with
  | start change origin => exact hs.start change origin
  | answer i a => exact hs.answer i a
  | finish i now => exact hs.finish i now
  | deactivate d => exact hs.deactivate d
  | other row => exact hs.other row

end SyncInv

theorem syncInv_start : SyncInv {} :=
  ⟨fun sub hsub => absurd hsub (Option.not_mem_none sub),
    fun _ hmem => absurd hmem List.not_mem_nil⟩

/-- At one step the deactivation stands exactly when the final write is harmless. -/
theorem staysDeactivated_iff_of_inv {s : SyncState} (e : SyncEvent) (hs : SyncInv s) :
    StaysDeactivated s e ↔ HarmlessFinish s e := by
  cases e with
  | finish i now =>
    refine forall₅_congr fun sync hi row hrow hd => ?_
    obtain ⟨sub, hsub, hb⟩ := hs.syncs sync (List.mem_of_getElem? hi)
    obtain rfl : sub = row := Option.some.inj (hsub.symm.trans hrow)
    exact (not_congr (InlineSync.undoes_iff hb hd)).trans not_not
  | start change origin => exact Iff.rfl
  | answer i a => exact Iff.rfl
  | deactivate d => exact Iff.rfl
  | other row => exact Iff.rfl

/-- In a run from before the purchase, no inline sync undoes a deactivation if and only if every
    final write that comes after one is unconfirmed or has nothing to write. -/
theorem stays_deactivated_iff (es : List SyncEvent) :
    Lib.Always SyncState.step StaysDeactivated {} es ↔
      Lib.Always SyncState.step HarmlessFinish {} es :=
  Lib.always_congr_of_inv SyncState.step SyncInv.step
    (fun _ e hs => staysDeactivated_iff_of_inv e hs) es {} syncInv_start

/-- A ban between the purchase's commit and the final write of its sync: the node applies the sync,
    and the row of the banned user is active again, at the version the ban left behind. -/
theorem inline_sync_undoes_ban :
    ¬Lib.Always SyncState.step StaysDeactivated {}
      [.start (.create 1 7 1 11 53687091200 30 false 0) (some { xrayInstanceEpoch := some 5 }),
       .deactivate (.disable "user_banned"),
       .answer 0 ⟨some { result := .applied, verifiedEpoch := some 5 }, none⟩,
       .finish 0 1] := by
  intro h
  exact h.2.2.2.1 _ rfl _ rfl rfl (.inl ⟨by decide, by decide +kernel⟩)

end Just1kBot
