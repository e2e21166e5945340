import Mathlib.Data.List.Basic
import Mathlib.Data.List.Dedup

/-! The messages of a chat's hub: the rows of `hub_messages`, the entry of `_hub_cache`, and what
    `_load_hub_ids_from_db`, `_store_hub_id_in_db`, `_remove_hub_ids_from_db`, `_safe_delete_batch`
    and `_delete_hub_messages` of `utils/telegram.py` do to them, in transactions of their own.

    The answers of Telegram are those of the last try, after `_retry_flood` has waited once. A
    transaction that fails may have been applied all the same. The entry of the cache may be gone
    at each point where it is read. -/

namespace Just1kBot

abbrev MessageId := ℕ

/-- An entry of `_hub_cache`. -/
structure HubCache where
  ids : List MessageId
  effectMsgId : Option MessageId
  deriving DecidableEq, Repr

/-- A chat: the messages sent by `render_hub` that are still there, the rows with their effect flags,
    the oldest first, the entry of the cache, and the next message id. `refused` is history: the
    messages whose deletion was answered by an error that counts as a deletion. -/
structure Hub where
  live : List MessageId := []
  rows : List (MessageId × Bool) := []
  cache : Option HubCache := none
  nextId : MessageId := 1
  refused : List MessageId := []
  deriving DecidableEq, Repr

/-- A transaction that writes. -/
inductive DbOutcome
  | ok
  | failed (applied : Bool)
  deriving DecidableEq, Repr

/-- The answer to `delete_message`. -/
inductive DeleteAnswer
  | deleted
  /-- `TelegramBadRequest`: not found, not valid, or it can't be deleted. -/
  | marked
  /-- Any other exception; the message may be gone. -/
  | failed (gone : Bool)
  deriving DecidableEq, Repr

/-- The answer to `delete_messages`. -/
inductive BulkAnswer
  | deleted
  | badRequest
  | failed (gone : MessageId → Bool)

/-- What Telegram and the database answer to a clean-up. -/
structure DeleteAnswers where
  bulk : List MessageId → BulkAnswer := fun _ => .deleted
  single : MessageId → DeleteAnswer := fun _ => .deleted
  remove : DbOutcome := .ok
  expires : Bool := false

namespace Hub

def stored (h : Hub) : List MessageId := h.rows.map Prod.fst

/-- The entry of the cache is gone. -/
def expire (h : Hub) : Hub := { h with cache := none }

def expireIf (gone : Bool) (h : Hub) : Hub := if gone then h.expire else h

/-- A message is gone from the chat. -/
def vanish (m : MessageId) (h : Hub) : Hub := { h with live := h.live.filter (· ≠ m) }

/-- `add_hub_message_id`. -/
def addRow (m : MessageId) (isEffect : Bool) (h : Hub) : Hub :=
  if m ∈ h.stored then h else { h with rows := h.rows ++ [(m, isEffect)] }

/-- `remove_hub_message_ids`. -/
def removeRows (ids : List MessageId) (h : Hub) : Hub :=
  { h with rows := h.rows.filter fun r => r.1 ∉ ids }

/-- `get_latest_effect_message_id`. -/
def latestEffect (h : Hub) : Option MessageId :=
  ((h.rows.filter fun r => r.2).getLast?).map Prod.fst

/-- `_load_hub_ids_from_db`. A read that fails leaves everything as it was. -/
def load (reads : Bool) (h : Hub) : Option (List MessageId) × Hub :=
  match h.cache with
  | some c => (some c.ids, h)
  | none =>
    if reads then (some h.stored, { h with cache := some ⟨h.stored, h.latestEffect⟩ }) else (none, h)

/-- The cache after an id was stored. -/
def cacheStored (m : MessageId) (isEffect : Bool) : Option HubCache → HubCache
  | some c => if m ∈ c.ids then c else { c with ids := c.ids ++ [m] }
  | none => ⟨[m], if isEffect then some m else none⟩

/-- `_store_hub_id_in_db`, and whether it returns. -/
def store (o : DbOutcome) (expires : Bool) (m : MessageId) (isEffect : Bool) (h : Hub) :
    Bool × Hub :=
  let h := h.expireIf expires
  match o with
  | .ok => (true, { h.addRow m isEffect with cache := some (cacheStored m isEffect h.cache) })
  | .failed applied => (false, if applied then h.addRow m isEffect else h)

/-- The entry of the cache after ids were removed. -/
def cacheRemoved (ids : List MessageId) (c : HubCache) : HubCache where
  ids := c.ids.filter (· ∉ ids)
  effectMsgId := c.effectMsgId.filter (· ∉ ids)

/-- `_remove_hub_ids_from_db`, and whether it returns. -/
def remove (o : DbOutcome) (expires : Bool) (ids : List MessageId) (h : Hub) : Bool × Hub :=
  if ids = [] then (true, h)
  else
    match o with
    | .ok =>
      let h := (h.removeRows ids).expireIf expires
      (true, { h with cache := h.cache.map (cacheRemoved ids) })
    | .failed applied => (false, (if applied then h.removeRows ids else h).expire)

end Hub

/-- What `_safe_delete_batch` has come to. -/
structure Deletion where
  deleted : List MessageId := []
  failed : List MessageId := []
  hub : Hub

namespace Deletion

/-- One message of `_delete_individually`. -/
def single (a : DeleteAnswers) (d : Deletion) (m : MessageId) : Deletion :=
  match a.single m with
  | .deleted => { d with deleted := d.deleted ++ [m], hub := d.hub.vanish m }
  | .marked =>
    { d with deleted := d.deleted ++ [m], hub := { d.hub with refused := m :: d.hub.refused } }
  | .failed gone =>
    { d with failed := d.failed ++ [m], hub := if gone then d.hub.vanish m else d.hub }

/-- One request. -/
def chunk (a : DeleteAnswers) (d : Deletion) (ids : List MessageId) : Deletion :=
  match a.bulk ids with
  | .deleted =>
    { d with
      deleted := d.deleted ++ ids
      hub := { d.hub with live := d.hub.live.filter (· ∉ ids) } }
  | .badRequest => ids.foldl (single a) d
  | .failed gone =>
    { d with
      failed := d.failed ++ ids
      hub := { d.hub with live := d.hub.live.filter fun m => !(m ∈ ids && gone m) } }

end Deletion

/-- The slices of 100 ids. -/
def chunks (ids : List MessageId) : List (List MessageId) :=
  (List.range ((ids.length + 99) / 100)).map fun k => (ids.drop (100 * k)).take 100

namespace Hub

/-- `_safe_delete_batch`. -/
def safeDeleteBatch (a : DeleteAnswers) (ids : List MessageId) (h : Hub) : Deletion :=
  (chunks ids.eraseDups).foldl (Deletion.chunk a) { hub := h }

/-- What `_delete_hub_messages` leaves, whether it returns, and the ids it returns. -/
structure Cleanup where
  ok : Bool
  failed : List MessageId
  hub : Hub

/-- `_delete_hub_messages`. -/
def deleteMessages (a : DeleteAnswers) (ids : List MessageId) (h : Hub) : Cleanup :=
  if ids = [] then ⟨true, [], h⟩
  else
    let d := h.safeDeleteBatch a ids
    let r := d.hub.remove a.remove a.expires d.deleted
    ⟨r.1, d.failed, r.2⟩

end Hub

/-! ### What the steps keep -/

namespace Hub

/-- A message that is still there has its id stored, was refused a deletion, or is the one of which
    the id is not stored yet. -/
def TrackedBut (u : Option MessageId) (h : Hub) : Prop :=
  ∀ m ∈ h.live, m ∈ h.stored ∨ m ∈ h.refused ∨ m ∈ u

/-- The entry of the cache, if there is one, lists every stored id whose message is still there, but
    for the one that is not stored yet. -/
def MirrorsBut (u : Option MessageId) (h : Hub) : Prop :=
  ∀ c ∈ h.cache, ∀ m ∈ h.stored, m ∈ h.live → m ∈ c.ids ∨ m ∈ u

/-- The stored ids whose messages are still there are among these. -/
def Covered (ids : List MessageId) (h : Hub) : Prop := ∀ m ∈ h.stored, m ∈ h.live → m ∈ ids

theorem mem_stored_addRow {h : Hub} {m m' : MessageId} {e : Bool} :
    m' ∈ (h.addRow m e).stored ↔ m' ∈ h.stored ∨ m' = m := by
  rw [addRow]
  split_ifs with hm
  · exact ⟨.inl, fun h' => h'.elim id fun heq => heq ▸ hm⟩
  · simp [stored]

@[simp] theorem live_addRow (h : Hub) (m : MessageId) (e : Bool) :
    (h.addRow m e).live = h.live := by
  rw [addRow]
  split_ifs <;> rfl

@[simp] theorem refused_addRow (h : Hub) (m : MessageId) (e : Bool) :
    (h.addRow m e).refused = h.refused := by
  rw [addRow]
  split_ifs <;> rfl

@[simp] theorem cache_addRow (h : Hub) (m : MessageId) (e : Bool) :
    (h.addRow m e).cache = h.cache := by
  rw [addRow]
  split_ifs <;> rfl

theorem mem_stored_removeRows {h : Hub} {ids : List MessageId} {m : MessageId} :
    m ∈ (h.removeRows ids).stored ↔ m ∈ h.stored ∧ m ∉ ids := by
  simp only [stored, removeRows, List.mem_map, List.mem_filter, decide_eq_true_eq]
  constructor
  · rintro ⟨r, ⟨hr, hids⟩, rfl⟩
    exact ⟨⟨r, hr, rfl⟩, hids⟩
  · rintro ⟨⟨r, hr, rfl⟩, hids⟩
    exact ⟨r, ⟨hr, hids⟩, rfl⟩

end Hub

/-! ### A deletion -/

/-- What a deletion of `ids` does to the chat `h`: each id is counted on one side, and an id that is
    counted as deleted is gone or was refused. -/
structure Deletion.Spec (ids : List MessageId) (h : Hub) (d : Deletion) : Prop where
  rows : d.hub.rows = h.rows
  cache : d.hub.cache = h.cache
  live : ∀ m ∈ d.hub.live, m ∈ h.live
  refused : ∀ m ∈ h.refused, m ∈ d.hub.refused
  gone : ∀ m ∈ d.deleted, m ∈ d.hub.live → m ∈ d.hub.refused
  only : ∀ m ∈ d.deleted, m ∈ ids
  all : ∀ m ∈ ids, m ∈ d.deleted ∨ m ∈ d.failed

namespace Deletion

theorem spec_nil (h : Hub) : Spec [] h { hub := h } where
  rows := rfl
  cache := rfl
  live := fun _ hm => hm
  refused := fun _ hm => hm
  gone := fun _ hm => absurd hm List.not_mem_nil
  only := fun _ hm => absurd hm List.not_mem_nil
  all := fun _ hm => absurd hm List.not_mem_nil

/-- More ids are counted. -/
theorem Spec.count {ids more : List MessageId} {h : Hub} {d d' : Deletion} (hd : d.Spec ids h)
    (hrows : d'.hub.rows = d.hub.rows) (hcache : d'.hub.cache = d.hub.cache)
    (hlive : ∀ m ∈ d'.hub.live, m ∈ d.hub.live)
    (hrefused : ∀ m ∈ d.hub.refused, m ∈ d'.hub.refused)
    (hdeleted : ∀ m ∈ d'.deleted, m ∈ d.deleted ∨
      m ∈ more ∧ (m ∈ d'.hub.live → m ∈ d'.hub.refused))
    (hall : ∀ m, m ∈ d.deleted ∨ m ∈ d.failed ∨ m ∈ more → m ∈ d'.deleted ∨ m ∈ d'.failed) :
    d'.Spec (ids ++ more) h where
  rows := hrows.trans hd.rows
  cache := hcache.trans hd.cache
  live := fun m hm => hd.live m (hlive m hm)
  refused := fun m hm => hrefused m (hd.refused m hm)
  gone := by
    intro m hm hmlive
    rcases hdeleted m hm with hm | ⟨-, hgone⟩
    · exact hrefused m (hd.gone m hm (hlive m hmlive))
    · exact hgone hmlive
  only := by
    intro m hm
    rcases hdeleted m hm with hm | ⟨hm, -⟩
    · exact List.mem_append_left _ (hd.only m hm)
    · exact List.mem_append_right _ hm
  all := by
    intro m hm
    rcases List.mem_append.mp hm with hm | hm
    · exact hall m ((hd.all m hm).imp id .inl)
    · exact hall m (.inr (.inr hm))

variable {a : DeleteAnswers} {ids : List MessageId} {h : Hub} {d : Deletion}

theorem Spec.single (hd : d.Spec ids h) (m : MessageId) :
    (d.single a m).Spec (ids ++ [m]) h := by
  unfold Deletion.single
  split
  · refine hd.count rfl rfl (fun m' hm' => List.mem_of_mem_filter hm') (fun _ hm' => hm')
      (fun m' hm' => ?_) (fun m' hm' => ?_)
    · rcases List.mem_append.mp hm' with hm' | hm'
      · exact .inl hm'
      · refine .inr ⟨hm', fun hlive => ?_⟩
        simp [Hub.vanish, List.mem_singleton.mp hm'] at hlive
    · simpa [or_assoc, or_comm, or_left_comm] using hm'
  · refine hd.count rfl rfl (fun _ hm' => hm') (fun _ hm' => List.mem_cons_of_mem m hm')
      (fun m' hm' => ?_) (fun m' hm' => ?_)
    · refine (List.mem_append.mp hm').imp id fun hm' => ⟨hm', fun _ => ?_⟩
      rw [List.mem_singleton.mp hm']
      exact List.mem_cons_self
    · simpa [or_assoc, or_comm, or_left_comm] using hm'
  · next gone _ =>
    refine hd.count ?_ ?_ (fun m' hm' => ?_) ?_ (fun m' hm' => .inl hm') (fun m' hm' => ?_)
    · cases gone <;> rfl
    · cases gone <;> rfl
    · cases gone
      · exact hm'
      · exact List.mem_of_mem_filter hm'
    · cases gone <;> exact fun _ hm' => hm'
    · simpa [or_assoc, or_comm, or_left_comm] using hm'

theorem Spec.singles (hd : d.Spec ids h) (more : List MessageId) :
    (more.foldl (Deletion.single a) d).Spec (ids ++ more) h := by
  induction more generalizing d ids with
  | nil => simpa using hd
  | cons m more ih => simpa using ih (hd.single (a := a) m)

theorem Spec.chunk (hd : d.Spec ids h) (more : List MessageId) :
    (d.chunk a more).Spec (ids ++ more) h := by
  unfold Deletion.chunk
  split
  · refine hd.count rfl rfl (fun m hm => List.mem_of_mem_filter hm) (fun _ hm => hm)
      (fun m hm => ?_) (fun m hm => ?_)
    · refine (List.mem_append.mp hm).imp id fun hm => ⟨hm, fun hlive => ?_⟩
      simp [hm] at hlive
    · simpa [or_assoc, or_comm, or_left_comm] using hm
  · exact hd.singles more
  · refine hd.count rfl rfl (fun m hm => List.mem_of_mem_filter hm) (fun _ hm => hm)
      (fun m hm => .inl hm) (fun m hm => ?_)
    simpa [or_assoc, or_comm, or_left_comm] using hm

theorem Spec.chunks (hd : d.Spec ids h) (more : List (List MessageId)) :
    (more.foldl (Deletion.chunk a) d).Spec (ids ++ more.flatten) h := by
  induction more generalizing d ids with
  | nil => simpa using hd
  | cons c more ih => simpa using ih (hd.chunk (a := a) c)

end Deletion

/-- The slices hold the ids. -/
theorem mem_flatten_chunks {ids : List MessageId} {m : MessageId} :
    m ∈ (chunks ids).flatten ↔ m ∈ ids := by
  simp only [chunks, List.mem_flatten, List.mem_map, List.mem_range]
  constructor
  · rintro ⟨_, ⟨k, -, rfl⟩, hm⟩
    exact List.mem_of_mem_drop (List.mem_of_mem_take hm)
  · intro hm
    obtain ⟨j, hj, rfl⟩ := List.getElem_of_mem hm
    refine ⟨_, ⟨j / 100, by omega, rfl⟩, ?_⟩
    have hsplit : 100 * (j / 100) + j % 100 = j := Nat.div_add_mod j 100
    refine List.mem_iff_getElem.mpr ⟨j % 100, ?_, ?_⟩
    · rw [List.length_take, List.length_drop]
      omega
    · rw [List.getElem_take, List.getElem_drop]
      simp only [hsplit]

namespace Hub

theorem safeDeleteBatch_spec (a : DeleteAnswers) (ids : List MessageId) (h : Hub) :
    (h.safeDeleteBatch a ids).Spec ids h := by
  have hspec := (Deletion.spec_nil h).chunks (a := a) (chunks ids.eraseDups)
  have hmem (m : MessageId) : m ∈ [] ++ (chunks ids.eraseDups).flatten ↔ m ∈ ids := by
    rw [List.nil_append, mem_flatten_chunks, List.mem_eraseDups]
  exact ⟨hspec.rows, hspec.cache, hspec.live, hspec.refused, hspec.gone,
    fun m hm => (hmem m).mp (hspec.only m hm), fun m hm => hspec.all m ((hmem m).mpr hm)⟩

/-- What `_remove_hub_ids_from_db` does: it removes no other row, all of these if it returns, and
    where it leaves the cache an entry, that lists what it listed but for these. -/
structure Removed (ids : List MessageId) (h : Hub) (r : Bool × Hub) : Prop where
  live : r.2.live = h.live
  refused : r.2.refused = h.refused
  stored : ∀ m ∈ r.2.stored, m ∈ h.stored
  others : ∀ m ∈ h.stored, m ∉ ids → m ∈ r.2.stored
  done : r.1 = true → ∀ m ∈ ids, m ∉ r.2.stored
  kept : ∀ c' ∈ r.2.cache, r.1 = true ∧ ∃ c ∈ h.cache, ∀ m ∈ c.ids, m ∈ c'.ids ∨ m ∈ ids

theorem live_expireIf (gone : Bool) (h : Hub) : (h.expireIf gone).live = h.live := by
  cases gone <;> rfl

theorem rows_expireIf (gone : Bool) (h : Hub) : (h.expireIf gone).rows = h.rows := by
  cases gone <;> rfl

theorem stored_expireIf (gone : Bool) (h : Hub) : (h.expireIf gone).stored = h.stored := by
  cases gone <;> rfl

theorem refused_expireIf (gone : Bool) (h : Hub) : (h.expireIf gone).refused = h.refused := by
  cases gone <;> rfl

theorem mem_cache_expireIf {gone : Bool} {h : Hub} {c : HubCache}
    (hc : c ∈ (h.expireIf gone).cache) : c ∈ h.cache := by
  cases gone
  · exact hc
  · cases hc

theorem remove_spec (o : DbOutcome) (expires : Bool) (ids : List MessageId) (h : Hub) :
    Removed ids h (h.remove o expires ids) := by
  unfold remove
  split_ifs with hnil
  · subst hnil
    exact ⟨rfl, rfl, fun _ hm => hm, fun _ hm _ => hm, fun _ m hm => absurd hm List.not_mem_nil,
      fun c' hc' => ⟨rfl, c', hc', fun _ hm => .inl hm⟩⟩
  · have hmem (m : MessageId) : m ∈ (h.removeRows ids).stored ↔ m ∈ h.stored ∧ m ∉ ids :=
      mem_stored_removeRows
    rcases o with _ | applied
    · have hstored : ((h.removeRows ids).expireIf expires).stored = (h.removeRows ids).stored :=
        stored_expireIf expires _
      refine ⟨live_expireIf expires _, refused_expireIf expires _, fun m hm => ?_,
        fun m hm hids => ?_, fun _ m hm hm' => ?_, fun c' hc' => ⟨rfl, ?_⟩⟩
      · exact ((hmem m).mp (hstored ▸ hm)).1
      · exact hstored ▸ (hmem m).mpr ⟨hm, hids⟩
      · exact ((hmem m).mp (hstored ▸ hm')).2 hm
      · obtain ⟨c, hc, rfl⟩ := Option.map_eq_some_iff.mp hc'
        have hcache := mem_cache_expireIf hc
        refine ⟨c, hcache, fun m hm => ?_⟩
        by_cases hids : m ∈ ids
        · exact .inr hids
        · exact .inl (List.mem_filter.mpr ⟨hm, decide_eq_true hids⟩)
    · cases applied
      · exact ⟨rfl, rfl, fun _ hm => hm, fun _ hm _ => hm, fun h => absurd h Bool.false_ne_true,
          fun _ hc => absurd hc (Option.not_mem_none _)⟩
      · exact ⟨rfl, rfl, fun m hm => ((hmem m).mp hm).1, fun m hm hids => (hmem m).mpr ⟨hm, hids⟩,
          fun h => absurd h Bool.false_ne_true, fun _ hc => absurd hc (Option.not_mem_none _)⟩

/-- What `_delete_hub_messages` does to the chat `h`. A message that is still there stays stored or
    was refused; an entry of the cache that is left lists what it listed, but for messages that were
    deleted and are no longer stored, and none is left where the call raises; where it returns, no
    id of the list is stored but those it returns. -/
structure Cleanup.Spec (ids : List MessageId) (h : Hub) (r : Cleanup) : Prop where
  live : ∀ m ∈ r.hub.live, m ∈ h.live
  stored : ∀ m ∈ r.hub.stored, m ∈ h.stored
  refused : ∀ m ∈ h.refused, m ∈ r.hub.refused
  tracked : ∀ m ∈ r.hub.live, m ∈ h.stored → m ∈ r.hub.stored ∨ m ∈ r.hub.refused
  kept : ∀ c' ∈ r.hub.cache, r.ok = true ∧
    ∃ c ∈ h.cache, ∀ m ∈ c.ids, m ∈ c'.ids ∨ m ∈ ids ∧ m ∉ r.hub.stored
  done : r.ok = true → ∀ m ∈ ids, m ∈ r.hub.stored → m ∈ r.failed

theorem deleteMessages_spec (a : DeleteAnswers) (ids : List MessageId) (h : Hub) :
    (h.deleteMessages a ids).Spec ids h := by
  rw [deleteMessages]
  split_ifs with hids
  · subst hids
    exact ⟨fun _ hm => hm, fun _ hm => hm, fun _ hm => hm, fun _ _ hm => .inl hm,
      fun c' hc' => ⟨rfl, c', hc', fun _ hm => .inl hm⟩,
      fun _ m hm => absurd hm List.not_mem_nil⟩
  · have hd := h.safeDeleteBatch_spec a ids
    dsimp only
    generalize h.safeDeleteBatch a ids = d at hd ⊢
    have hr := d.hub.remove_spec a.remove a.expires d.deleted
    generalize d.hub.remove a.remove a.expires d.deleted = r at hr ⊢
    have hstored (m : MessageId) : m ∈ d.hub.stored ↔ m ∈ h.stored := by
      rw [Hub.stored, hd.rows, Hub.stored]
    refine ⟨fun m hm => ?_, fun m hm => ?_, fun m hm => ?_, fun m hm hm' => ?_, fun c' hc' => ?_,
      fun hok m hm hm' => ?_⟩
    · exact hd.live m (hr.live ▸ hm)
    · exact (hstored m).mp (hr.stored m hm)
    · exact hr.refused ▸ hd.refused m hm
    · -- A message that was counted and is still there was refused.
      by_cases hdeleted : m ∈ d.deleted
      · exact .inr (hr.refused ▸ hd.gone m hdeleted (hr.live ▸ hm))
      · exact .inl (hr.others m ((hstored m).mpr hm') hdeleted)
    · obtain ⟨hok, c, hc, hkept⟩ := hr.kept c' hc'
      refine ⟨hok, c, hd.cache ▸ hc, fun m hm => (hkept m hm).imp id fun hdeleted => ?_⟩
      exact ⟨hd.only m hdeleted, hr.done hok m hdeleted⟩
    · exact (hd.all m hm).resolve_left fun hdeleted => hr.done hok m hdeleted hm'

/-- The cache still mirrors the store. -/
theorem Cleanup.Spec.mirrorsBut {ids : List MessageId} {h : Hub} {r : Cleanup}
    (hr : r.Spec ids h) {u : Option MessageId} (h' : MirrorsBut u h) : MirrorsBut u r.hub := by
  intro c' hc' m hm hlive
  obtain ⟨-, c, hc, hkept⟩ := hr.kept c' hc'
  rcases h' c hc m (hr.stored m hm) (hr.live m hlive) with hmem | hu
  · rcases hkept m hmem with hmem | ⟨-, hgone⟩
    · exact .inl hmem
    · exact absurd hm hgone
  · exact .inr hu

theorem Cleanup.Spec.trackedBut {ids : List MessageId} {h : Hub} {r : Cleanup}
    (hr : r.Spec ids h) {u : Option MessageId} (h' : TrackedBut u h) : TrackedBut u r.hub := by
  intro m hm
  rcases h' m (hr.live m hm) with hstored | hrefused | hu
  · rcases hr.tracked m hm hstored with hstored | hrefused
    · exact .inl hstored
    · exact .inr (.inl hrefused)
  · exact .inr (.inl (hr.refused m hrefused))
  · exact .inr (.inr hu)

end Hub

end Just1kBot
