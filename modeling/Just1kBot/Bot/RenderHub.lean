import Just1kBot.Bot.HubMessages
import Just1kBot.Lib.Transition

/-! `render_hub` of `utils/telegram.py`, called without a session of the caller, on one chat: the
    render lock makes the calls of a chat run one after the other.

    A call edits the last hub message (or the one that triggered it) and deletes the others, or sends
    the text in parts, stores each id, and deletes the old messages. The texts do not matter, but for
    the number of parts. The target of an edit is one of the old ids, so what the code does for a
    target that is not is never reached. -/

namespace Just1kBot

/-- The answer to `edit_message_text`. -/
inductive EditAnswer
  | edited
  /-- `TelegramBadRequest`, "message is not modified". -/
  | notModified
  /-- Another `TelegramBadRequest`. -/
  | badRequest
  /-- Any other exception. -/
  | failed
  deriving DecidableEq, Repr

/-- The answer to `send_message`: whether a `TelegramBadRequest` is about the message effect, and
    whether it is about the entities. A network error means that the message was not delivered. -/
inductive SendAnswer
  | delivered
  | badRequest (effectError parseError : Bool)
  | failed
  deriving DecidableEq, Repr

/-- The tries of one part. -/
inductive SendStage
  | asWritten | noEffect | noEffectPlain | plain | plainNoEffect
  deriving DecidableEq, Repr

/-- The arguments of a call. `texts` is what `split_text_by_lines` gives. -/
structure RenderCall where
  texts : List (List Char) := [['x']]
  forceNew : Bool := false
  triggerMessageId : Option MessageId := none
  messageEffect : Bool := false
  deriving DecidableEq, Repr

/-- What the world answers to a call. `expiresAfterLoad` and `expiresAtStore` tell where the entry of
    the cache is gone. -/
structure RenderAnswers extends DeleteAnswers where
  reads : Bool := true
  expiresAfterLoad : Bool := false
  triggerGone : Bool × Bool := (true, true)
  edit : EditAnswer := .edited
  send : ℕ → SendStage → SendAnswer := fun _ _ => .delivered
  gap : ℕ → ℕ := fun _ => 0
  store : ℕ → DbOutcome := fun _ => .ok
  expiresAtStore : ℕ → Bool := fun _ => false

/-- One part: whether one of its tries is delivered. -/
def sendPart (send : SendStage → SendAnswer) (effect : Bool) : Bool :=
  match send .asWritten with
  | .delivered => true
  | .failed => false
  | .badRequest effectError parseError =>
    if effect && effectError then
      match send .noEffect with
      | .delivered => true
      | .failed => false
      | .badRequest _ parseError => parseError && send .noEffectPlain = .delivered
    else if parseError then
      match send .plain with
      | .delivered => true
      | .failed => false
      | .badRequest effectError _ => effect && effectError && send .plainNoEffect = .delivered
    else false

namespace RenderCall

/-- `text_parts`. -/
def textParts (call : RenderCall) : List (List Char) :=
  if call.texts = [] then [['—']] else call.texts

/-- `trigger_message_id`, where it is truthy. -/
def trigger (call : RenderCall) : Option MessageId := call.triggerMessageId.filter (· ≠ 0)

/-- `target_edit_id`. -/
def targetEditId (call : RenderCall) (oldIds : List MessageId) (effectId : Option MessageId) :
    Option MessageId :=
  if !call.forceNew && !call.messageEffect && call.textParts.length = 1 then
    (call.trigger.filter fun m => m ∈ oldIds && some m ≠ effectId).or
      (oldIds.getLast?.filter fun m => some m ≠ effectId)
  else none

end RenderCall

/-- How the parts were sent: whether all were, the ids that were stored, and the id that could not
    be. -/
structure Sending where
  ok : Bool
  sent : List MessageId
  unstored : Option MessageId := none
  hub : Hub

/-- How a call ends: the id it returns, unless it raises, what it rendered, the ids whose deletion
    failed, the id that could not be stored, and whether the sending of the parts was broken off after
    one of them was stored. -/
structure Rendered where
  returned : Option MessageId := none
  rendered : List MessageId := []
  failed : List MessageId := []
  unstored : Option MessageId := none
  brokenOff : Bool := false
  hub : Hub

namespace Hub

/-- The trigger is deleted, if it is none of the old messages. -/
def deleteTrigger (call : RenderCall) (oldIds : List MessageId) (target : Option MessageId)
    (gone : Bool) (h : Hub) : Hub :=
  match call.trigger with
  | none => h
  | some m => if some m ≠ target ∧ m ∉ oldIds ∧ gone then h.vanish m else h

/-- A message is sent under a new id. -/
def post (m : MessageId) (h : Hub) : Hub := { h with live := m :: h.live, nextId := m + 1 }

/-- The parts are sent and stored, from part `i` on. -/
def sendParts (a : RenderAnswers) (effect : Bool) :
    List (List Char) → ℕ → List MessageId → Hub → Sending
  | [], _, sent, h => { ok := true, sent, hub := h }
  | _ :: parts, i, sent, h =>
    let isEffect := effect && i = 0
    if sendPart (a.send i) isEffect then
      let m := h.nextId + a.gap i
      let r := (h.post m).store (a.store i) (a.expiresAtStore i) m isEffect
      if r.1 then sendParts a effect parts (i + 1) (sent ++ [m]) r.2
      else { ok := false, sent, unstored := some m, hub := r.2 }
    else { ok := false, sent, hub := h }

/-- The text is sent anew. -/
def renderNew (call : RenderCall) (a : RenderAnswers) (oldIds : List MessageId) (h : Hub) :
    Rendered :=
  let s := h.sendParts a call.messageEffect call.textParts 0 []
  if s.ok then
    let r := s.hub.deleteMessages a.toDeleteAnswers oldIds
    if r.ok then
      { returned := s.sent.getLast?
        rendered := s.sent
        failed := r.failed
        hub := { r.hub with
          cache := some ⟨s.sent ++ r.failed, s.sent.head?.filter fun _ => call.messageEffect⟩ } }
    else { hub := r.hub }
  else
    { unstored := s.unstored
      brokenOff := s.sent ≠ []
      hub := (s.hub.deleteMessages a.toDeleteAnswers (s.sent ++ s.unstored.toList)).hub }

/-- The target was edited, or shows the text already. -/
def finishEdit (a : RenderAnswers) (oldIds : List MessageId) (target : MessageId) (h : Hub) :
    Rendered :=
  let r := h.deleteMessages a.toDeleteAnswers (oldIds.filter (· ≠ target))
  if r.ok then
    let s := r.hub.store (a.store 0) (a.expiresAtStore 0) target false
    if s.1 then
      { returned := some target
        rendered := [target]
        failed := r.failed
        hub := { s.2 with cache := some ⟨target :: r.failed, none⟩ } }
    else { hub := s.2 }
  else { hub := r.hub }

/-- `render_hub`. -/
def render (call : RenderCall) (a : RenderAnswers) (h : Hub) : Rendered :=
  match h.load a.reads with
  | (none, h) => { hub := h }
  | (some oldIds, h) =>
    let h := h.expireIf a.expiresAfterLoad
    let target := call.targetEditId oldIds (h.cache.bind HubCache.effectMsgId)
    let h := h.deleteTrigger call oldIds target a.triggerGone.1
    match target with
    | none => (h.deleteTrigger call oldIds none a.triggerGone.2).renderNew call a oldIds
    | some m =>
      match a.edit with
      | .edited | .notModified => h.finishEdit a oldIds m
      | .badRequest => (h.deleteTrigger call oldIds none a.triggerGone.2).renderNew call a oldIds
      | .failed => { hub := h }

end Hub

/-- A call that returns leaves only what it rendered and messages whose deletion failed. -/
def Rendered.Clean (r : Rendered) : Prop :=
  r.returned.isSome = true → ∀ m ∈ r.hub.live, m ∈ r.rendered ∨ m ∈ r.failed ∨ m ∈ r.hub.refused

/-! ### Runs -/

inductive HubEvent
  | renders (call : RenderCall) (a : RenderAnswers)
  /-- The entry of the cache is dropped. -/
  | expires
  /-- A message disappears from the chat. -/
  | vanishes (m : MessageId)

namespace Hub

def step (h : Hub) : HubEvent → Hub
  | .renders call a => (h.render call a).hub
  | .expires => h.expire
  | .vanishes m => h.vanish m

/-- Every message that is still there has its id stored, unless its deletion was answered by an error
    that counts as a deletion. -/
def Tracked (h : Hub) : Prop := ∀ m ∈ h.live, m ∈ h.stored ∨ m ∈ h.refused

/-- The entry of the cache lists every stored id whose message is still there. -/
def Mirrors (h : Hub) : Prop := ∀ c ∈ h.cache, ∀ m ∈ h.stored, m ∈ h.live → m ∈ c.ids

/-- Every call is clean. -/
def Clean (h : Hub) : HubEvent → Prop
  | .renders call a => (h.render call a).Clean
  | _ => True

/-- A message whose id could not be stored is deleted. -/
def Compensated (h : Hub) : HubEvent → Prop
  | .renders call a => ∀ m ∈ (h.render call a).unstored, m ∉ (h.render call a).hub.live
  | _ => True

instance decidableCompensated (h : Hub) : ∀ e, Decidable (Compensated h e)
  | .renders call a =>
    inferInstanceAs (Decidable (∀ m ∈ (h.render call a).unstored, m ∉ (h.render call a).hub.live))
  | .expires => .isTrue trivial
  | .vanishes _ => .isTrue trivial

/-- Where the sending is broken off after a part was stored, the entry of the cache was there at
    every store. -/
def Steady (h : Hub) : HubEvent → Prop
  | .renders call a => (h.render call a).brokenOff = true →
      a.expiresAfterLoad = false ∧ ∀ i, a.expiresAtStore i = false
  | _ => True

end Hub

/-! ### Storing and sending -/

namespace Hub

theorem TrackedBut.post {h : Hub} (ht : TrackedBut none h) (m : MessageId) :
    TrackedBut (some m) (h.post m) := by
  intro m' hm'
  rcases List.mem_cons.mp hm' with rfl | hm'
  · exact .inr (.inr rfl)
  · exact (ht m' hm').imp id (Or.imp id fun hu => absurd hu (Option.not_mem_none _))

theorem MirrorsBut.post {h : Hub} (hm : MirrorsBut none h) (m : MessageId) :
    MirrorsBut (some m) (h.post m) := by
  intro c hc m' hstored hlive
  rcases List.mem_cons.mp hlive with rfl | hlive
  · exact .inr rfl
  · exact (hm c hc m' hstored hlive).imp id fun hu => absurd hu (Option.not_mem_none _)

theorem Covered.post {h : Hub} {ids : List MessageId} (hc : Covered ids h) (m : MessageId) :
    Covered (ids ++ [m]) (h.post m) := by
  intro m' hstored hlive
  rcases List.mem_cons.mp hlive with rfl | hlive
  · simp
  · exact List.mem_append_left _ (hc m' hstored hlive)

/-- What `_store_hub_id_in_db` does, whether it returns or not. -/
structure Stored (m : MessageId) (h : Hub) (r : Bool × Hub) : Prop where
  live : r.2.live = h.live
  refused : r.2.refused = h.refused
  stored : ∀ m' ∈ r.2.stored, m' ∈ h.stored ∨ m' = m
  others : ∀ m' ∈ h.stored, m' ∈ r.2.stored
  done : r.1 = true → m ∈ r.2.stored
  failed : r.1 = false → ∀ c ∈ r.2.cache, c ∈ h.cache

theorem store_spec (o : DbOutcome) (expires : Bool) (m : MessageId) (isEffect : Bool) (h : Hub) :
    Stored m h (h.store o expires m isEffect) := by
  have hmem (m' : MessageId) : m' ∈ ((h.expireIf expires).addRow m isEffect).stored ↔
      m' ∈ h.stored ∨ m' = m := by
    rw [mem_stored_addRow, stored_expireIf]
  have hlive : ((h.expireIf expires).addRow m isEffect).live = h.live := by
    rw [live_addRow, live_expireIf]
  have hrefused : ((h.expireIf expires).addRow m isEffect).refused = h.refused := by
    rw [refused_addRow, refused_expireIf]
  rcases o with _ | applied
  · exact ⟨hlive, hrefused, fun m' hm' => (hmem m').mp hm', fun m' hm' => (hmem m').mpr (.inl hm'),
      fun _ => (hmem m).mpr (.inr rfl), fun hf => absurd hf (by simp [store])⟩
  · cases applied
    · refine ⟨live_expireIf _ h, refused_expireIf _ h, fun m' hm' => .inl ?_, fun m' hm' => ?_,
        fun hf => absurd hf (by simp [store]), fun _ c hc => mem_cache_expireIf hc⟩
      · exact stored_expireIf expires h ▸ hm'
      · exact (stored_expireIf expires h).symm ▸ hm'
    · refine ⟨hlive, hrefused, fun m' hm' => (hmem m').mp hm', fun m' hm' => (hmem m').mpr (.inl hm'),
        fun hf => absurd hf (by simp [store]), fun _ c hc => ?_⟩
      have hcache : c ∈ (h.expireIf expires).cache := by
        rw [← cache_addRow _ m isEffect]
        exact hc
      exact mem_cache_expireIf hcache

theorem Stored.tracked {m : MessageId} {h : Hub} {r : Bool × Hub} (hr : Stored m h r)
    (hok : r.1 = true) (ht : TrackedBut (some m) h) : TrackedBut none r.2 := by
  intro m' hm'
  rcases ht m' (hr.live ▸ hm') with hstored | hrefused | hu
  · exact .inl (hr.others m' hstored)
  · exact .inr (.inl (hr.refused.symm ▸ hrefused))
  · cases Option.some.inj hu
    exact .inl (hr.done hok)

theorem Stored.trackedBut {m : MessageId} {h : Hub} {r : Bool × Hub} (hr : Stored m h r)
    {u : Option MessageId} (ht : TrackedBut u h) : TrackedBut u r.2 := by
  intro m' hm'
  rcases ht m' (hr.live ▸ hm') with hstored | hrefused | hu
  · exact .inl (hr.others m' hstored)
  · exact .inr (.inl (hr.refused.symm ▸ hrefused))
  · exact .inr (.inr hu)

theorem Stored.covered {m : MessageId} {h : Hub} {r : Bool × Hub} (hr : Stored m h r)
    {ids : List MessageId} (hc : Covered ids h) (hm : m ∈ ids) : Covered ids r.2 := by
  intro m' hm' hlive
  rcases hr.stored m' hm' with hm' | rfl
  · exact hc m' hm' (hr.live ▸ hlive)
  · exact hm

theorem Stored.mirrorsBut {m : MessageId} {h : Hub} {r : Bool × Hub} (hr : Stored m h r)
    (hfailed : r.1 = false) (hm : MirrorsBut (some m) h) : MirrorsBut (some m) r.2 := by
  intro c hc m' hm' hlive
  rcases hr.stored m' hm' with hm' | rfl
  · exact hm c (hr.failed hfailed c hc) m' hm' (hr.live ▸ hlive)
  · exact .inr rfl

/-- The entry is there when an id is stored, and lists it afterwards. -/
theorem mirrorsBut_store {o : DbOutcome} {m : MessageId} {isEffect : Bool} {h : Hub}
    (hok : (h.store o false m isEffect).1 = true) (hcache : h.cache.isSome = true)
    (hm : MirrorsBut (some m) h) : MirrorsBut none (h.store o false m isEffect).2 ∧
      (h.store o false m isEffect).2.cache.isSome = true := by
  have hr := store_spec o false m isEffect h
  rcases o with _ | applied
  · refine ⟨fun c hc m' hm' hlive => .inl ?_, rfl⟩
    obtain ⟨c₀, hc₀⟩ := Option.isSome_iff_exists.mp hcache
    have hentry : cacheStored m isEffect (some c₀) = c := by
      have hc : some (cacheStored m isEffect h.cache) = some c := hc
      rwa [hc₀, Option.some.injEq] at hc
    have hold : ∀ m' ∈ c₀.ids, m' ∈ c.ids := by
      intro m' hm'
      rw [← hentry, cacheStored]
      split_ifs
      · exact hm'
      · exact List.mem_append_left _ hm'
    have hnew : m ∈ c.ids := by
      rw [← hentry, cacheStored]
      split_ifs with hmem
      · exact hmem
      · exact List.mem_append_right _ List.mem_cons_self
    rcases hr.stored m' hm' with hm' | rfl
    · rcases hm c₀ hc₀ m' hm' (hr.live ▸ hlive) with hids | hu
      · exact hold m' hids
      · cases Option.some.inj hu
        exact hnew
    · exact hnew
  · cases hok

section Sending
variable (a : RenderAnswers) (effect : Bool)

theorem mem_sent_sendParts (parts : List (List Char)) :
    ∀ (i : ℕ) (sent : List MessageId) (h : Hub), ∀ m ∈ sent,
      m ∈ (h.sendParts a effect parts i sent).sent := by
  induction parts with
  | nil => exact fun _ _ _ _ hm => hm
  | cons part parts ih =>
    intro i sent h m hm
    simp only [sendParts]
    split_ifs
    · exact ih (i + 1) _ _ m (List.mem_append_left _ hm)
    · exact hm
    · exact hm

/-- What is sent is tracked, but for an id that could not be stored, and where all parts are sent
    they and the old ids are all that is stored. -/
theorem sendParts_spec (oldIds : List MessageId) (parts : List (List Char)) :
    ∀ (i : ℕ) (sent : List MessageId) (h : Hub), TrackedBut none h → Covered (oldIds ++ sent) h →
      TrackedBut (h.sendParts a effect parts i sent).unstored
        (h.sendParts a effect parts i sent).hub ∧
      ((h.sendParts a effect parts i sent).ok = true →
        (h.sendParts a effect parts i sent).unstored = none ∧
        Covered (oldIds ++ (h.sendParts a effect parts i sent).sent)
          (h.sendParts a effect parts i sent).hub) := by
  induction parts with
  | nil => exact fun i sent h ht hc => ⟨ht, fun _ => ⟨rfl, hc⟩⟩
  | cons part parts ih =>
    intro i sent h ht hc
    have hr := store_spec (a.store i) (a.expiresAtStore i) (h.nextId + a.gap i)
      (effect && decide (i = 0)) (h.post (h.nextId + a.gap i))
    simp only [sendParts]
    split_ifs with hsend hstore
    · have hcovered := hr.covered (hc.post (h.nextId + a.gap i)) (by simp)
      rw [List.append_assoc] at hcovered
      exact ih (i + 1) _ _ (hr.tracked hstore (ht.post _)) hcovered
    · exact ⟨hr.trackedBut (ht.post _), fun hok => by cases hok⟩
    · exact ⟨ht, fun hok => by cases hok⟩

/-- Where the entry is there at every store, it mirrors what is stored. -/
theorem mirrorsBut_sendParts (hsteady : ∀ i, a.expiresAtStore i = false)
    (parts : List (List Char)) :
    ∀ (i : ℕ) (sent : List MessageId) (h : Hub), MirrorsBut none h → h.cache.isSome = true →
      MirrorsBut (h.sendParts a effect parts i sent).unstored
        (h.sendParts a effect parts i sent).hub := by
  induction parts with
  | nil => exact fun _ _ _ hm _ => hm
  | cons part parts ih =>
    intro i sent h hm hcache
    simp only [sendParts]
    split_ifs with hsend hstore
    · rw [hsteady i] at hstore ⊢
      obtain ⟨hm', hcache'⟩ := mirrorsBut_store hstore hcache (hm.post _)
      exact ih (i + 1) _ _ hm' hcache'
    · exact (store_spec _ _ _ _ _).mirrorsBut (Bool.of_not_eq_true hstore) (hm.post _)
    · exact hm

/-- So it does where no part was stored. -/
theorem mirrorsBut_sendParts_nil (parts : List (List Char)) {h : Hub} (hm : MirrorsBut none h)
    (hnone : (h.sendParts a effect parts 0 []).sent = []) :
    MirrorsBut (h.sendParts a effect parts 0 []).unstored
      (h.sendParts a effect parts 0 []).hub := by
  cases parts with
  | nil => exact hm
  | cons part parts =>
    simp only [sendParts] at hnone ⊢
    split_ifs at hnone ⊢ with hsend hstore
    · exact (List.eq_nil_iff_forall_not_mem.mp hnone (h.nextId + a.gap 0)
        (mem_sent_sendParts a effect parts _ _ _ _ (by simp))).elim
    · exact (store_spec _ _ _ _ _).mirrorsBut (Bool.of_not_eq_true hstore) (hm.post _)
    · exact hm

end Sending

/-! ### A call -/

/-- What a call works on once the old ids are loaded. -/
structure Loaded (oldIds : List MessageId) (h : Hub) : Prop where
  tracked : TrackedBut none h
  covered : Covered oldIds h
  cache : ∀ c ∈ h.cache, c.ids = oldIds

theorem Loaded.mirrors {oldIds : List MessageId} {h : Hub} (hl : Loaded oldIds h) :
    MirrorsBut none h :=
  fun c hc m hm hlive => .inl (hl.cache c hc ▸ hl.covered m hm hlive)

theorem trackedBut_none {h : Hub} : TrackedBut none h ↔ Tracked h :=
  forall₂_congr fun _ _ => or_congr_right (or_iff_left (Option.not_mem_none _))

theorem mirrorsBut_none {h : Hub} : MirrorsBut none h ↔ Mirrors h :=
  forall₄_congr fun _ _ _ _ => forall_congr' fun _ => or_iff_left (Option.not_mem_none _)

/-- The ids are loaded from the cache or the database, and the cache has them then. -/
theorem load_loaded {h h' : Hub} (ht : TrackedBut none h) (hm : MirrorsBut none h) {reads : Bool}
    {oldIds : List MessageId} (hload : h.load reads = (some oldIds, h')) :
    Loaded oldIds h' ∧ h'.cache.isSome = true := by
  unfold load at hload
  split at hload
  · next c hc =>
    cases hload
    refine ⟨⟨ht, mirrorsBut_none.mp hm c hc, fun c' hc' => ?_⟩, by rw [hc]; rfl⟩
    rw [Option.some.inj (hc'.symm.trans hc)]
  · split_ifs at hload
    · cases hload
      refine ⟨⟨ht, fun m hm _ => hm, fun c' hc' => ?_⟩, rfl⟩
      rw [← Option.some.inj hc']
    · cases hload

/-- The chat after the old ids were loaded and the trigger may have been deleted. -/
structure Prepared (stays : Prop) (h h' : Hub) : Prop where
  live : ∀ m ∈ h'.live, m ∈ h.live
  rows : h'.rows = h.rows
  refused : h'.refused = h.refused
  cache : ∀ c ∈ h'.cache, c ∈ h.cache
  kept : stays → h'.cache = h.cache

theorem Prepared.of_expireIf (gone : Bool) (h : Hub) :
    Prepared (gone = false) h (h.expireIf gone) where
  live := fun _ hm => live_expireIf gone h ▸ hm
  rows := rows_expireIf gone h
  refused := refused_expireIf gone h
  cache := fun _ hc => mem_cache_expireIf hc
  kept := by
    rintro rfl
    rfl

theorem Prepared.deleteTrigger {stays : Prop} {h h' : Hub} (hp : Prepared stays h h')
    (call : RenderCall) (oldIds : List MessageId) (target : Option MessageId) (gone : Bool) :
    Prepared stays h (h'.deleteTrigger call oldIds target gone) := by
  unfold Hub.deleteTrigger
  split
  · exact hp
  · split_ifs
    · exact ⟨fun m hm => hp.live m (List.mem_of_mem_filter hm), hp.rows, hp.refused, hp.cache,
        hp.kept⟩
    · exact hp

theorem Prepared.tracked {stays : Prop} {h h' : Hub} (hp : Prepared stays h h')
    (ht : TrackedBut none h) : TrackedBut none h' := by
  intro m hm
  rw [stored, hp.rows, hp.refused]
  exact ht m (hp.live m hm)

theorem Prepared.loaded {stays : Prop} {oldIds : List MessageId} {h h' : Hub}
    (hp : Prepared stays h h') (hl : Loaded oldIds h) : Loaded oldIds h' where
  tracked := hp.tracked hl.tracked
  covered := by
    intro m hm hlive
    rw [stored, hp.rows] at hm
    exact hl.covered m hm (hp.live m hlive)
  cache := fun c hc => hl.cache c (hp.cache c hc)

theorem mem_of_targetEditId {call : RenderCall} {oldIds : List MessageId}
    {effectId : Option MessageId} {m : MessageId}
    (h : call.targetEditId oldIds effectId = some m) : m ∈ oldIds := by
  rw [RenderCall.targetEditId] at h
  split_ifs at h
  rcases Option.or_eq_some_iff.mp h with h | ⟨-, h⟩
  · have hcond := (Option.filter_eq_some_iff.mp h).2
    simp only [Bool.and_eq_true, decide_eq_true_eq] at hcond
    exact hcond.1
  · exact List.mem_of_getLast? (Option.filter_eq_some_iff.mp h).1

theorem load_tracked {h h' : Hub} (ht : TrackedBut none h) {reads : Bool}
    {oldIds : Option (List MessageId)} (hload : h.load reads = (oldIds, h')) :
    TrackedBut none h' := by
  unfold load at hload
  split at hload
  · cases hload
    exact ht
  · split_ifs at hload <;> cases hload <;> exact ht

theorem load_none {h h' : Hub} {reads : Bool} (hload : h.load reads = (none, h')) : h' = h := by
  unfold load at hload
  split at hload
  · cases hload
  · split_ifs at hload
    · cases hload
    · exact (congrArg Prod.snd hload).symm

/-- A call fails to load the old ids, sends its text anew, edits an old message, or fails to. -/
theorem render_cases (call : RenderCall) (a : RenderAnswers) (h : Hub) :
    h.render call a = { hub := h } ∨
    ∃ oldIds h₁ h₂, h.load a.reads = (some oldIds, h₁) ∧
      Prepared (a.expiresAfterLoad = false) h₁ h₂ ∧
      (h.render call a = h₂.renderNew call a oldIds ∨
        (∃ m ∈ oldIds, h.render call a = h₂.finishEdit a oldIds m) ∨
        h.render call a = { hub := h₂ }) := by
  rcases hload : h.load a.reads with ⟨_ | oldIds, h₁⟩
  · left
    rw [render, hload, load_none hload]
  · right
    have hp := Prepared.of_expireIf a.expiresAfterLoad h₁
    rw [render, hload]
    dsimp only
    generalize h₁.expireIf a.expiresAfterLoad = h₂ at hp ⊢
    rcases htarget : call.targetEditId oldIds (h₂.cache.bind HubCache.effectMsgId) with _ | m
    · exact ⟨oldIds, h₁, _, rfl,
        (hp.deleteTrigger call oldIds none _).deleteTrigger call oldIds none _, .inl rfl⟩
    · have hp' := hp.deleteTrigger call oldIds (some m) a.triggerGone.1
      have hedit := mem_of_targetEditId htarget
      rcases a.edit with _ | _ | _ | _
      · exact ⟨oldIds, h₁, _, rfl, hp', .inr (.inl ⟨m, hedit, rfl⟩)⟩
      · exact ⟨oldIds, h₁, _, rfl, hp', .inr (.inl ⟨m, hedit, rfl⟩)⟩
      · exact ⟨oldIds, h₁, _, rfl, hp'.deleteTrigger call oldIds none _, .inl rfl⟩
      · exact ⟨oldIds, h₁, _, rfl, hp', .inr (.inr rfl)⟩

section Render
variable (call : RenderCall) (a : RenderAnswers) {oldIds : List MessageId} {h : Hub}

theorem renderNew_tracked (ht : TrackedBut none h)
    (hcompensated : ∀ m ∈ (h.renderNew call a oldIds).unstored,
      m ∉ (h.renderNew call a oldIds).hub.live) :
    TrackedBut none (h.renderNew call a oldIds).hub := by
  have hsent := sendParts_spec a call.messageEffect h.stored call.textParts 0 [] h ht
    fun m hm _ => List.mem_append_left _ hm
  rw [renderNew] at *
  generalize h.sendParts a call.messageEffect call.textParts 0 [] = s at *
  dsimp only at *
  by_cases hok : s.ok = true
  · have hr := s.hub.deleteMessages_spec a.toDeleteAnswers oldIds
    have htracked := hsent.1
    rw [(hsent.2 hok).1] at htracked
    rw [if_pos hok]
    split_ifs
    · exact hr.trackedBut htracked
    · exact hr.trackedBut htracked
  · rw [if_neg hok] at hcompensated ⊢
    have hr := s.hub.deleteMessages_spec a.toDeleteAnswers (s.sent ++ s.unstored.toList)
    intro m hlive
    rcases hr.trackedBut hsent.1 m hlive with hm | hrefused | hu
    · exact .inl hm
    · exact .inr (.inl hrefused)
    · exact absurd hlive (hcompensated m hu)

/-- The end of a call that sends its text anew. -/
theorem renderNew_mirrors (hl : Loaded oldIds h)
    (hcompensated : ∀ m ∈ (h.renderNew call a oldIds).unstored,
      m ∉ (h.renderNew call a oldIds).hub.live)
    (hsteady : (h.renderNew call a oldIds).brokenOff = true →
      h.cache.isSome = true ∧ ∀ i, a.expiresAtStore i = false) :
    MirrorsBut none (h.renderNew call a oldIds).hub ∧ (h.renderNew call a oldIds).Clean := by
  have htracked := renderNew_tracked call a hl.tracked hcompensated
  have hsent := sendParts_spec a call.messageEffect oldIds call.textParts 0 [] h hl.tracked
    (by rw [List.append_nil]; exact hl.covered)
  have hsteadily (hcache : h.cache.isSome = true) (hstay : ∀ i, a.expiresAtStore i = false) :=
    mirrorsBut_sendParts a call.messageEffect hstay call.textParts 0 [] h hl.mirrors hcache
  have hnothing := mirrorsBut_sendParts_nil a call.messageEffect call.textParts hl.mirrors
  rw [renderNew] at *
  generalize h.sendParts a call.messageEffect call.textParts 0 [] = s at *
  dsimp only at *
  by_cases hok : s.ok = true
  · have hcovered := (hsent.2 hok).2
    have hr := s.hub.deleteMessages_spec a.toDeleteAnswers oldIds
    rw [if_pos hok] at htracked ⊢
    generalize s.hub.deleteMessages a.toDeleteAnswers oldIds = r at *
    by_cases hdeleted : r.ok = true
    · rw [if_pos hdeleted] at htracked ⊢
      have hids : ∀ m ∈ r.hub.stored, m ∈ r.hub.live → m ∈ s.sent ∨ m ∈ r.failed := by
        intro m hm hlive
        rcases List.mem_append.mp (hcovered m (hr.stored m hm) (hr.live m hlive)) with hold | hnew
        · exact .inr (hr.done hdeleted m hold hm)
        · exact .inl hnew
      refine ⟨fun c hc m hm hlive => .inl ?_, fun _ m hlive => ?_⟩
      · cases Option.some.inj hc
        exact List.mem_append.mpr (hids m hm hlive)
      · rcases htracked m hlive with hm | hrefused | hu
        · exact (hids m hm hlive).imp id .inl
        · exact .inr (.inr hrefused)
        · cases hu
    · rw [if_neg hdeleted]
      exact ⟨fun c hc => absurd (hr.kept c hc).1 hdeleted, fun hreturned => by cases hreturned⟩
  · rw [if_neg hok] at hcompensated hsteady ⊢
    have hr := s.hub.deleteMessages_spec a.toDeleteAnswers (s.sent ++ s.unstored.toList)
    have hmirrors : MirrorsBut s.unstored s.hub := by
      by_cases hnone : s.sent = []
      · exact hnothing hnone
      · obtain ⟨hcache, hstay⟩ := hsteady (decide_eq_true hnone)
        exact hsteadily hcache hstay
    refine ⟨fun c hc m hm hlive => ?_, fun hreturned => by cases hreturned⟩
    exact (hr.mirrorsBut hmirrors c hc m hm hlive).imp id fun hu =>
      absurd hlive (hcompensated m hu)

variable {target : MessageId}

theorem finishEdit_tracked (ht : TrackedBut none h) :
    TrackedBut none (h.finishEdit a oldIds target).hub := by
  rw [finishEdit]
  have hr := h.deleteMessages_spec a.toDeleteAnswers (oldIds.filter (· ≠ target))
  dsimp only
  generalize h.deleteMessages a.toDeleteAnswers (oldIds.filter (· ≠ target)) = r at *
  have hs := r.hub.store_spec (a.store 0) (a.expiresAtStore 0) target false
  have hafter := hs.trackedBut (hr.trackedBut ht)
  split_ifs
  · exact hafter
  · exact hafter
  · exact hr.trackedBut ht

/-- The end of a call that edits a message. -/
theorem finishEdit_mirrors (hl : Loaded oldIds h) (htarget : target ∈ oldIds) :
    MirrorsBut none (h.finishEdit a oldIds target).hub ∧
      (h.finishEdit a oldIds target).Clean := by
  have htracked : TrackedBut none (h.finishEdit a oldIds target).hub :=
    finishEdit_tracked a hl.tracked
  rw [finishEdit] at *
  have hr := h.deleteMessages_spec a.toDeleteAnswers (oldIds.filter (· ≠ target))
  dsimp only at *
  generalize h.deleteMessages a.toDeleteAnswers (oldIds.filter (· ≠ target)) = r at *
  have hs := r.hub.store_spec (a.store 0) (a.expiresAtStore 0) target false
  generalize r.hub.store (a.store 0) (a.expiresAtStore 0) target false = s at *
  by_cases hdeleted : r.ok = true
  · rw [if_pos hdeleted] at htracked ⊢
    by_cases hstored : s.1 = true
    · rw [if_pos hstored] at htracked ⊢
      have hids : ∀ m ∈ s.2.stored, m ∈ s.2.live → m = target ∨ m ∈ r.failed := by
        intro m hm hlive
        refine or_iff_not_imp_left.mpr fun hne => ?_
        have hm := (hs.stored m hm).resolve_right hne
        have hold := hl.covered m (hr.stored m hm) (hr.live m (hs.live ▸ hlive))
        exact hr.done hdeleted m (List.mem_filter.mpr ⟨hold, decide_eq_true hne⟩) hm
      refine ⟨fun c hc m hm hlive => .inl ?_, fun _ m hlive => ?_⟩
      · cases Option.some.inj hc
        exact List.mem_cons.mpr (hids m hm hlive)
      · rcases htracked m hlive with hm | hrefused | hu
        · exact (hids m hm hlive).imp List.mem_singleton.mpr .inl
        · exact .inr (.inr hrefused)
        · cases hu
    · rw [if_neg hstored]
      refine ⟨fun c hc m hm hlive => .inl ?_, fun hreturned => by cases hreturned⟩
      -- The entry that is left lists the target, which is one of the old ids and was not deleted.
      obtain ⟨-, c₀, hc₀, hkept⟩ := hr.kept c (hs.failed (Bool.of_not_eq_true hstored) c hc)
      have hold : m ∈ c₀.ids := by
        rw [hl.cache c₀ hc₀]
        rcases hs.stored m hm with hm | rfl
        · exact hl.covered m (hr.stored m hm) (hr.live m (hs.live ▸ hlive))
        · exact htarget
      rcases hkept m hold with hlisted | ⟨hstale, hgone⟩
      · exact hlisted
      · rcases hs.stored m hm with hm | rfl
        · exact absurd hm hgone
        · simp at hstale
  · rw [if_neg hdeleted]
    exact ⟨fun c hc => absurd (hr.kept c hc).1 hdeleted, fun hreturned => by cases hreturned⟩

theorem render_tracked (ht : TrackedBut none h)
    (hcompensated : Compensated h (.renders call a)) : TrackedBut none (h.render call a).hub := by
  simp only [Compensated] at hcompensated
  rcases h.render_cases call a with heq | ⟨oldIds, h₁, h₂, hload, hp, hend⟩
  · rw [heq]
    exact ht
  · have ht₂ := hp.tracked (load_tracked ht hload)
    rcases hend with heq | ⟨m, -, heq⟩ | heq <;> rw [heq] at hcompensated ⊢
    · exact renderNew_tracked call a ht₂ hcompensated
    · exact finishEdit_tracked a ht₂
    · exact ht₂

theorem render_mirrors (ht : TrackedBut none h) (hm : MirrorsBut none h)
    (hcompensated : Compensated h (.renders call a)) (hsteady : Steady h (.renders call a)) :
    MirrorsBut none (h.render call a).hub ∧ (h.render call a).Clean := by
  simp only [Compensated, Steady] at hcompensated hsteady
  rcases h.render_cases call a with heq | ⟨oldIds, h₁, h₂, hload, hp, hend⟩
  · rw [heq]
    exact ⟨hm, fun hreturned => by cases hreturned⟩
  · obtain ⟨hl, hcache⟩ := load_loaded ht hm hload
    have hl₂ := hp.loaded hl
    rcases hend with heq | ⟨m, hmem, heq⟩ | heq <;> rw [heq] at hcompensated hsteady ⊢
    · refine renderNew_mirrors call a hl₂ hcompensated fun hbroken => ?_
      obtain ⟨hstays, hstore⟩ := hsteady hbroken
      rw [hp.kept hstays]
      exact ⟨hcache, hstore⟩
    · exact finishEdit_mirrors a hl₂ hmem
    · exact ⟨hl₂.mirrors, fun hreturned => by cases hreturned⟩

end Render

/-! ### Runs of calls -/

theorem tracked_step (h : Hub) (e : HubEvent) (ht : Tracked h) (hc : Compensated h e) :
    Tracked (h.step e) := by
  cases e with
  | renders call a => exact trackedBut_none.mp (render_tracked call a (trackedBut_none.mpr ht) hc)
  | expires => exact ht
  | vanishes m => exact fun m' hm' => ht m' (List.mem_of_mem_filter hm')

theorem mirrors_step (h : Hub) (e : HubEvent) (ht : Tracked h) (hm : Mirrors h)
    (hc : Compensated h e) (hs : Steady h e) : Mirrors (h.step e) ∧ Clean h e := by
  cases e with
  | renders call a =>
    exact (render_mirrors call a (trackedBut_none.mpr ht) (mirrorsBut_none.mpr hm) hc hs).imp_left
      mirrorsBut_none.mp
  | expires => exact ⟨fun c hc => absurd hc (Option.not_mem_none _), trivial⟩
  | vanishes m =>
    exact ⟨fun c hc m' hm' hlive => hm c hc m' hm' (List.mem_of_mem_filter hlive), trivial⟩

/-- After every call each message that is still there is stored, or its deletion was answered by an
    error that counts as a deletion. Where no entry of the cache is gone in the middle of a sending
    that is broken off, an entry lists what is stored, and a call that returns leaves only its parts
    and messages whose deletion failed. -/
theorem tracked_of_compensated (h : Hub) (ht : Tracked h) (hm : Mirrors h) (es : List HubEvent)
    (hcompensated : Lib.Always step Compensated h es) :
    Lib.Throughout step Tracked h es ∧
      (Lib.Always step Steady h es →
        Lib.Throughout step Mirrors h es ∧ Lib.Always step Clean h es) := by
  refine ⟨Lib.throughout_of_always step tracked_step (fun _ ht => ht) es h ht hcompensated,
    fun hsteady => ?_⟩
  have hguards := Lib.always_and step es h hcompensated hsteady
  have hinv (h : Hub) (e : HubEvent) (hi : Tracked h ∧ Mirrors h)
      (hg : Compensated h e ∧ Steady h e) : Tracked (h.step e) ∧ Mirrors (h.step e) :=
    ⟨tracked_step h e hi.1 hg.1, (mirrors_step h e hi.1 hi.2 hg.1 hg.2).1⟩
  have hclean (h : Hub) (e : HubEvent) (hi : Tracked h ∧ Mirrors h)
      (hg : Compensated h e ∧ Steady h e) : Clean h e :=
    (mirrors_step h e hi.1 hi.2 hg.1 hg.2).2
  exact ⟨Lib.throughout_of_always step hinv (fun _ hi => hi.2) es h ⟨ht, hm⟩ hguards,
    Lib.always_of_inv_of_always step hinv hclean es h ⟨ht, hm⟩ hguards⟩

/-- Two parts, an edit of the last one after a restart, a message whose id could not be stored, and
    the text once more. -/
def unstoredMessage : List HubEvent :=
  [.renders { texts := [['a'], ['b']] } {},
   .expires,
   .renders {} {},
   .renders { forceNew := true } { store := fun _ => .failed false },
   .renders { forceNew := true } {}]

theorem tracked_of_compensated_unstored :
    Lib.Throughout step Tracked {} unstoredMessage ∧
      Lib.Throughout step Mirrors {} unstoredMessage ∧ Lib.Always step Clean {} unstoredMessage :=
  (tracked_of_compensated {} (fun _ hm => absurd hm List.not_mem_nil)
    (fun _ hc => absurd hc (Option.not_mem_none _))
    unstoredMessage (by decide +kernel)).imp_right fun h =>
      h ⟨fun _ => ⟨rfl, fun _ => rfl⟩, trivial, fun _ => ⟨rfl, fun _ => rfl⟩,
        fun _ => ⟨rfl, fun _ => rfl⟩, fun _ => ⟨rfl, fun _ => rfl⟩, trivial⟩

/-- A message that Telegram does not let the bot delete any more, when the text is sent anew. -/
def undeletableMessage : List HubEvent :=
  [.renders {} {},
   .renders { forceNew := true } { bulk := fun _ => .badRequest, single := fun _ => .marked }]

theorem undeletable_untracked : Lib.Always step Compensated {} undeletableMessage ∧
    ¬ ∀ m ∈ (Lib.run step {} undeletableMessage).live,
      m ∈ (Lib.run step {} undeletableMessage).stored := by
  decide +kernel

end Hub

end Just1kBot
