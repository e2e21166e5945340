import Just1kBot.Lib.AsyncLock
import Just1kBot.Lib.Transition
import Mathlib.Data.Fintype.Basic
import Mathlib.Data.List.Nodup
import Mathlib.Data.Rat.Lemmas
import Mathlib.Logic.Function.Basic

/-! The lock registries: `get_user_action_lock` of `utils/user_locks.py` and `_get_hub_render_lock`
    of `utils/telegram.py`, with those who take the locks.

    A registry maps a key to a lock and the time it was last fetched. A fetch makes a pass over the
    registry now and then that drops the old locks. The locks of a key are numbered in the order they
    are made; a fetch and the first step of the `acquire` after it are one step, as no `await` stands
    between them. Seconds are rational numbers. -/

namespace Just1kBot.LockRegistry
open Lib (AsyncLock Always Throughout run)

/-- The constants of a registry. -/
structure Config where
  cleanupInterval : ℚ
  ttl : ℚ

/-- `_user_action_locks`. -/
def userActionLocks : Config where
  cleanupInterval := 3600
  ttl := 3600

/-- `_hub_render_locks`. -/
def hubRenderLocks : Config where
  cleanupInterval := 3600
  ttl := 3600

/-- What belongs to a key: the registered lock and its last fetch, the locks made for the key so far,
    and the tasks in the critical section, each with its lock. A task is one `acquire`. -/
structure Slot where
  entry : Option (ℕ × ℚ) := none
  made : ℕ := 0
  locks : ℕ → AsyncLock ℕ := fun _ => {}
  inside : List (ℕ × ℕ) := []

namespace Slot

/-- The lock is old and not locked. -/
def evictable (ttl now : ℚ) (s : Slot) : Bool :=
  s.entry.any fun e => ttl < now - e.2 && !(s.locks e.1).locked

/-- `_cleanup_old_locks`, `_cleanup_render_locks`. -/
def cleanup (ttl now : ℚ) (s : Slot) : Slot :=
  if s.evictable ttl now then { s with entry := none } else s

/-- The rest of a fetch: the entry is made, or its time is renewed. -/
def touch (now : ℚ) (s : Slot) : Slot :=
  match s.entry with
  | none => { s with entry := some (s.made, now), made := s.made + 1 }
  | some (g, _) => { s with entry := some (g, now) }

/-- The task asks for the lock `g`, and is inside if it takes it. -/
def acquire (g t : ℕ) (s : Slot) : Slot :=
  { s with
    locks := Function.update s.locks g ((s.locks g).acquire t)
    inside := if (s.locks g).free then (t, g) :: s.inside else s.inside }

/-- The next step of a waiter for the lock `g`. -/
def resume (g t : ℕ) (s : Slot) : Slot :=
  { s with
    locks := Function.update s.locks g ((s.locks g).resume t)
    inside := if (s.locks g).waitOf t = some .woken then (t, g) :: s.inside else s.inside }

/-- A task leaves the critical section. -/
def release (g t : ℕ) (s : Slot) : Slot :=
  if (t, g) ∈ s.inside then
    { s with
      locks := Function.update s.locks g (s.locks g).release
      inside := s.inside.erase (t, g) }
  else s

/-- A waiter for the lock `g` is cancelled. -/
def cancel (g t : ℕ) (s : Slot) : Slot :=
  { s with locks := Function.update s.locks g ((s.locks g).cancel t) }

end Slot

/-- The registry, and the number of tasks so far. -/
structure Registry (κ : Type*) where
  slots : κ → Slot := fun _ => {}
  lastCleanup : ℚ := 0
  tasks : ℕ := 0

inductive Event (κ : Type*)
  /-- `async with` on the fetched lock. -/
  | enters (key : κ) (now : ℚ)
  /-- The same, unless the lock is locked (`ActionLockMiddleware`). -/
  | triesToEnter (key : κ) (now : ℚ)
  /-- The next step of a task that waits for the lock `lock`. -/
  | resumes (key : κ) (lock task : ℕ)
  | releases (key : κ) (lock task : ℕ)
  | cancels (key : κ) (lock task : ℕ)
  deriving DecidableEq

section System
variable {κ : Type*} [DecidableEq κ] (c : Config)

namespace Registry

/-- A slot is written. -/
def modify (key : κ) (f : Slot → Slot) (s : Registry κ) : Registry κ :=
  { s with slots := Function.update s.slots key (f (s.slots key)) }

/-- The periodic pass of a fetch. -/
def tidy (now : ℚ) (s : Registry κ) : Registry κ :=
  if c.cleanupInterval < now - s.lastCleanup then
    { s with slots := fun key => (s.slots key).cleanup c.ttl now, lastCleanup := now }
  else s

/-- `get_user_action_lock`, `_get_hub_render_lock`. -/
def fetch (key : κ) (now : ℚ) (s : Registry κ) : Registry κ :=
  (s.tidy c now).modify key (Slot.touch now)

/-- The number of the lock that a fetch has just returned. -/
def current (key : κ) (s : Registry κ) : ℕ := ((s.slots key).entry.map Prod.fst).getD 0

/-- A new task asks for the lock that was fetched. -/
def ask (key : κ) (s : Registry κ) : Registry κ :=
  { s.modify key (Slot.acquire (s.current key) s.tasks) with tasks := s.tasks + 1 }

end Registry

/-- One step of the code. -/
def step (s : Registry κ) : Event κ → Registry κ
  | .enters key now => (s.fetch c key now).ask key
  | .triesToEnter key now =>
    let s := s.fetch c key now
    if ((s.slots key).locks (s.current key)).locked then s else s.ask key
  | .resumes key g t => s.modify key (Slot.resume g t)
  | .releases key g t => s.modify key (Slot.release g t)
  | .cancels key g t => s.modify key (Slot.cancel g t)

/-! ### What is claimed -/

/-- One task at most is in the critical section of a key. -/
def Exclusive (s : Registry κ) : Prop := ∀ key, (s.slots key).inside.length ≤ 1

/-- No new lock stands in the place of one that is held or waited for. -/
def Kept (s : Registry κ) : Prop :=
  ∀ key g, ((s.slots key).locks g).inUse = true → ∀ e ∈ (s.slots key).entry, e.1 = g

/-- The pass of a fetch at `now` drops no lock that a task waits for. -/
def Attended (s : Registry κ) (now : ℚ) : Prop :=
  c.cleanupInterval < now - s.lastCleanup → ∀ key, ∀ e ∈ (s.slots key).entry,
    c.ttl < now - e.2 → ((s.slots key).locks e.1).locked = false →
      ((s.slots key).locks e.1).inUse = false

/-- Every fetch of the run attends to the waiters. -/
def Attends (s : Registry κ) : Event κ → Prop
  | .enters _ now | .triesToEnter _ now => Attended c s now
  | _ => True

end System

/-! ### One key -/

namespace Slot

/-- What the locks of a key keep to: a lock in use is the registered one, and each lock lets one task
    in. -/
structure Sound (s : Slot) : Prop where
  valid : ∀ g, (s.locks g).Valid
  registered : ∀ g, (s.locks g).inUse = true → ∃ last, s.entry = some (g, last)
  locked : ∀ e ∈ s.inside, (s.locks e.2).locked = true
  apart : (s.inside.map Prod.snd).Nodup

theorem sound_new : Sound {} where
  valid := fun _ => AsyncLock.valid_new
  registered := fun _ h => absurd h Bool.false_ne_true
  locked := fun _ h => absurd h List.not_mem_nil
  apart := List.nodup_nil

theorem inUse_of_locked {l : AsyncLock ℕ} (h : l.locked = true) : l.inUse = true := by
  rw [AsyncLock.inUse, h, Bool.true_or]

theorem Sound.length_inside {s : Slot} (h : s.Sound) : s.inside.length ≤ 1 := by
  rcases hinside : s.inside with _ | ⟨a, _ | ⟨b, rest⟩⟩
  · exact Nat.zero_le 1
  · exact le_rfl
  · have ha := h.locked a (by simp [hinside])
    have hb := h.locked b (by simp [hinside])
    obtain ⟨_, hentry⟩ := h.registered a.2 (inUse_of_locked ha)
    obtain ⟨_, hentry'⟩ := h.registered b.2 (inUse_of_locked hb)
    have hsame : a.2 = b.2 := congrArg Prod.fst (Option.some.inj (hentry.symm.trans hentry'))
    have hapart := h.apart
    rw [hinside] at hapart
    simp [hsame] at hapart

theorem Sound.kept {s : Slot} (h : s.Sound) {g : ℕ} (hg : (s.locks g).inUse = true) :
    ∀ e ∈ s.entry, e.1 = g := by
  intro e he
  obtain ⟨last, hentry⟩ := h.registered g hg
  exact congrArg Prod.fst (Option.some.inj (he.symm.trans hentry))

theorem Sound.cleanup {s : Slot} (h : s.Sound) {ttl now : ℚ}
    (hunused : ∀ e ∈ s.entry, ttl < now - e.2 → (s.locks e.1).locked = false →
      (s.locks e.1).inUse = false) : (s.cleanup ttl now).Sound := by
  rw [Slot.cleanup]
  split_ifs with hold
  · refine ⟨h.valid, fun g hg => ?_, h.locked, h.apart⟩
    obtain ⟨last, hentry⟩ := h.registered g hg
    simp only [evictable, hentry, Option.any_some, Bool.and_eq_true, decide_eq_true_eq,
      Bool.not_eq_true'] at hold
    exact absurd hg (by rw [hunused (g, last) hentry hold.1 hold.2]; exact Bool.false_ne_true)
  · exact h

theorem Sound.touch {s : Slot} (h : s.Sound) (now : ℚ) : (s.touch now).Sound := by
  unfold Slot.touch
  split
  · next hnone =>
    refine ⟨h.valid, fun g hg => ?_, h.locked, h.apart⟩
    obtain ⟨last, hentry⟩ := h.registered g hg
    rw [hnone] at hentry
    cases hentry
  · next g' last' hsome =>
    refine ⟨h.valid, fun g hg => ⟨now, ?_⟩, h.locked, h.apart⟩
    have hsame : g' = g := h.kept hg (g', last') hsome
    rw [hsame]

theorem entry_touch (s : Slot) (now : ℚ) : ∃ g, (s.touch now).entry = some (g, now) := by
  unfold Slot.touch
  split
  · exact ⟨s.made, rfl⟩
  · next g _ _ => exact ⟨g, rfl⟩

/-- One lock is written, and the tasks inside. -/
theorem Sound.update {s : Slot} (h : s.Sound) {g : ℕ} {l : AsyncLock ℕ} {inside : List (ℕ × ℕ)}
    (hvalid : l.Valid) (huse : l.inUse = true → ∃ last, s.entry = some (g, last))
    (hlocked : ∀ e ∈ inside, (Function.update s.locks g l e.2).locked = true)
    (hapart : (inside.map Prod.snd).Nodup) :
    Sound { s with locks := Function.update s.locks g l, inside } where
  valid := by
    intro g'
    by_cases hg : g' = g
    · subst hg
      simpa using hvalid
    · simpa [Function.update_of_ne hg] using h.valid g'
  registered := by
    intro g' hg'
    by_cases hg : g' = g
    · subst hg
      exact huse (by simpa using hg')
    · exact h.registered g' (by simpa [Function.update_of_ne hg] using hg')
  locked := hlocked
  apart := hapart

/-- A lock changes that lets nobody in or out. -/
theorem Sound.update_same {s : Slot} (h : s.Sound) {g : ℕ} {l : AsyncLock ℕ} (hvalid : l.Valid)
    (huse : l.inUse = true → ∃ last, s.entry = some (g, last))
    (hsame : l.locked = (s.locks g).locked) :
    Sound { s with locks := Function.update s.locks g l } := by
  refine h.update hvalid huse (fun e he => ?_) h.apart
  by_cases hg : e.2 = g
  · rw [hg, Function.update_self, hsame, ← hg]
    exact h.locked e he
  · rw [Function.update_of_ne hg]
    exact h.locked e he

/-- A task takes a lock that is free. -/
theorem Sound.update_taken {s : Slot} (h : s.Sound) {g : ℕ} {l : AsyncLock ℕ} (hvalid : l.Valid)
    (huse : l.inUse = true → ∃ last, s.entry = some (g, last))
    (hfree : (s.locks g).locked = false) (htaken : l.locked = true) (t : ℕ) :
    Sound { s with locks := Function.update s.locks g l, inside := (t, g) :: s.inside } := by
  have hother : ∀ e ∈ s.inside, e.2 ≠ g := by
    rintro e he rfl
    rw [h.locked e he] at hfree
    cases hfree
  refine h.update hvalid huse (fun e he => ?_) ?_
  · rcases List.mem_cons.mp he with rfl | he
    · rw [Function.update_self, htaken]
    · rw [Function.update_of_ne (hother e he)]
      exact h.locked e he
  · refine List.nodup_cons.mpr ⟨fun hmem => ?_, h.apart⟩
    obtain ⟨e, he, heq⟩ := List.mem_map.mp hmem
    exact hother e he heq

theorem Sound.acquire {s : Slot} (h : s.Sound) {g : ℕ} {last : ℚ}
    (hentry : s.entry = some (g, last)) (t : ℕ) : (s.acquire g t).Sound := by
  have hvalid := (h.valid g).acquire t
  rw [Slot.acquire]
  split_ifs with hfree
  · have hunlocked : (s.locks g).locked = false := by
      simp only [AsyncLock.free, Bool.and_eq_true, Bool.not_eq_true'] at hfree
      exact hfree.1
    refine h.update_taken hvalid (fun _ => ⟨last, hentry⟩) hunlocked ?_ t
    rw [AsyncLock.acquire, if_pos hfree]
  · refine h.update_same hvalid (fun _ => ⟨last, hentry⟩) ?_
    rw [AsyncLock.acquire, if_neg hfree]

theorem Sound.resume {s : Slot} (h : s.Sound) (g t : ℕ) : (s.resume g t).Sound := by
  have hvalid := (h.valid g).resume t
  have huse (hl : ((s.locks g).resume t).inUse = true) : ∃ last, s.entry = some (g, last) :=
    h.registered g (AsyncLock.inUse_of_resume hl)
  have hlocked := (s.locks g).locked_resume t
  rw [Slot.resume]
  split_ifs with hwoken
  · have hfree := (h.valid g).free_of_woken hwoken
    exact h.update_taken hvalid huse hfree (by rw [hlocked, hwoken]; simp) t
  · exact h.update_same hvalid huse (by rw [hlocked, decide_eq_false hwoken, Bool.or_false])

theorem Sound.release {s : Slot} (h : s.Sound) (g t : ℕ) : (s.release g t).Sound := by
  rw [Slot.release]
  split_ifs with hmem
  · refine h.update (h.valid g).release
      (fun hl => h.registered g (AsyncLock.inUse_of_release hl)) (fun e he => ?_) ?_
    · rw [List.Nodup.mem_erase_iff (List.Nodup.of_map Prod.snd h.apart)] at he
      have hne : e.2 ≠ g := fun heq => he.1 (List.inj_on_of_nodup_map h.apart he.2 hmem heq)
      rw [Function.update_of_ne hne]
      exact h.locked e he.2
    · exact h.apart.sublist (List.erase_sublist.map Prod.snd)
  · exact h

theorem Sound.cancel {s : Slot} (h : s.Sound) (g t : ℕ) : (s.cancel g t).Sound :=
  h.update_same ((h.valid g).cancel t) (fun hl => h.registered g (AsyncLock.inUse_of_cancel hl))
    rfl

end Slot

/-! ### Every run -/

section System
variable {κ : Type*} [DecidableEq κ] (c : Config)

/-- Every key is sound. -/
def Sound (s : Registry κ) : Prop := ∀ key, (s.slots key).Sound

theorem Sound.modify {s : Registry κ} (h : Sound s) {key : κ} {f : Slot → Slot}
    (hf : (f (s.slots key)).Sound) : Sound (s.modify key f) := by
  intro key'
  by_cases hkey : key' = key
  · subst hkey
    simpa [Registry.modify] using hf
  · simpa [Registry.modify, Function.update_of_ne hkey] using h key'

omit [DecidableEq κ] in
theorem Sound.tidy {s : Registry κ} (h : Sound s) {now : ℚ} (hnow : Attended c s now) :
    Sound (s.tidy c now) := by
  rw [Registry.tidy]
  split_ifs with hdue
  · exact fun key => (h key).cleanup (hnow hdue key)
  · exact h

theorem Sound.fetch {s : Registry κ} (h : Sound s) {now : ℚ} (hnow : Attended c s now) (key : κ) :
    Sound (s.fetch c key now) :=
  have htidy := h.tidy c hnow
  htidy.modify ((htidy key).touch now)

theorem entry_fetch (s : Registry κ) (key : κ) (now : ℚ) :
    ((s.fetch c key now).slots key).entry = some ((s.fetch c key now).current key, now) := by
  obtain ⟨g, hg⟩ := ((s.tidy c now).slots key).entry_touch now
  have hentry : ((s.fetch c key now).slots key).entry = some (g, now) := by
    simpa [Registry.fetch, Registry.modify] using hg
  rw [Registry.current, hentry]
  rfl

theorem Sound.ask {s : Registry κ} (h : Sound s) {key : κ} {last : ℚ}
    (hentry : (s.slots key).entry = some (s.current key, last)) : Sound (s.ask key) :=
  h.modify ((h key).acquire hentry s.tasks)

theorem step_sound {s : Registry κ} (h : Sound s) {e : Event κ} (he : Attends c s e) :
    Sound (step c s e) := by
  cases e with
  | enters key now => exact (h.fetch c he key).ask (entry_fetch c s key now)
  | triesToEnter key now =>
    have hfetch := h.fetch c he key
    rw [step]
    split_ifs
    · exact hfetch
    · exact hfetch.ask (entry_fetch c s key now)
  | resumes key g t => exact h.modify ((h key).resume g t)
  | releases key g t => exact h.modify ((h key).release g t)
  | cancels key g t => exact h.modify ((h key).cancel g t)

omit [DecidableEq κ] in
theorem sound_new : Sound ({} : Registry κ) := fun _ => Slot.sound_new

omit [DecidableEq κ] in
theorem Sound.safe {s : Registry κ} (h : Sound s) : Exclusive s ∧ Kept s :=
  ⟨fun key => (h key).length_inside, fun key _ hg => (h key).kept hg⟩

/-- In every run whose passes attend to the waiters, one task at most is in the critical section of
    a key, and no lock is replaced while it is held or waited for. -/
theorem exclusive_of_attends (es : List (Event κ)) (hes : Always (step c) (Attends c) {} es) :
    Throughout (step c) (fun s => Exclusive s ∧ Kept s) {} es :=
  Lib.throughout_of_always (step c) (fun _ _ h he => step_sound c h he) (fun _ h => h.safe) es _
    sound_new hes

/-! ### A registry that is only tried -/

/-- Nobody waits for a lock. -/
def Unqueued (s : Registry κ) : Prop := ∀ key g, ((s.slots key).locks g).waiters = []

/-- The event is not the one that waits. -/
def Event.isTry : Event κ → Bool
  | .enters _ _ => false
  | _ => true

omit [DecidableEq κ] in
/-- Where nobody waits, a lock that is not locked is not in use. -/
theorem Unqueued.attended {s : Registry κ} (h : Unqueued s) (now : ℚ) : Attended c s now := by
  intro _ key e _ _ hfree
  rw [AsyncLock.inUse, hfree, h key e.1]
  rfl

theorem Unqueued.modify {s : Registry κ} (h : Unqueued s) {key : κ} {f : Slot → Slot}
    (hf : ∀ g, ((f (s.slots key)).locks g).waiters = []) : Unqueued (s.modify key f) := by
  intro key' g
  by_cases hkey : key' = key
  · subst hkey
    simpa [Registry.modify] using hf g
  · simpa [Registry.modify, Function.update_of_ne hkey] using h key' g

/-- One lock is written. -/
theorem waiters_update {locks : ℕ → AsyncLock ℕ} (h : ∀ g, (locks g).waiters = []) {g : ℕ}
    {l : AsyncLock ℕ} (hl : l.waiters = []) (g' : ℕ) :
    (Function.update locks g l g').waiters = [] := by
  by_cases hg : g' = g
  · rw [hg, Function.update_self, hl]
  · rw [Function.update_of_ne hg, h g']

theorem Unqueued.fetch {s : Registry κ} (h : Unqueued s) (key : κ) (now : ℚ) :
    Unqueued (s.fetch c key now) := by
  have htidy : Unqueued (s.tidy c now) := by
    rw [Registry.tidy]
    split_ifs
    · intro key' g
      simp only [Slot.cleanup]
      split_ifs <;> exact h key' g
    · exact h
  refine htidy.modify fun g => ?_
  unfold Slot.touch
  split <;> exact htidy key g

theorem step_unqueued {s : Registry κ} (h : Unqueued s) {e : Event κ} (he : e.isTry = true) :
    Unqueued (step c s e) := by
  cases e with
  | enters key now => cases he
  | triesToEnter key now =>
    have hfetch := h.fetch c key now
    rw [step]
    split_ifs with hlocked
    · exact hfetch
    · refine hfetch.modify (waiters_update (hfetch key) ?_)
      rw [AsyncLock.acquire, if_pos]
      · exact hfetch key _
      · simp only [AsyncLock.free, Bool.of_not_eq_true hlocked, hfetch key]
        rfl
  | resumes key g t =>
    refine h.modify (waiters_update (h key) ?_)
    have hnone : ((s.slots key).locks g).waitOf t = none := by rw [AsyncLock.waitOf, h key g]; rfl
    rw [AsyncLock.resume, hnone]
    exact h key g
  | releases key g t =>
    refine h.modify fun g' => ?_
    rw [Slot.release]
    split_ifs
    · refine waiters_update (h key) ?_ g'
      simp only [AsyncLock.release, AsyncLock.wakeFirst, h key g]
    · exact h key g'
  | cancels key g t =>
    refine h.modify (waiters_update (h key) ?_)
    rw [AsyncLock.cancel, h key g]
    rfl

/-- The locks of the user actions are only tried, so their registry needs no condition. -/
theorem exclusive_of_tries (es : List (Event κ)) (hes : ∀ e ∈ es, e.isTry = true) :
    Throughout (step c) (fun s => Exclusive s ∧ Kept s) {} es := by
  have hstep (s : Registry κ) (e : Event κ) (h : Sound s ∧ Unqueued s) (he : e.isTry = true) :
      Sound (step c s e) ∧ Unqueued (step c s e) := by
    refine ⟨step_sound c h.1 ?_, step_unqueued c h.2 he⟩
    cases e with
    | enters key now => cases he
    | triesToEnter key now => exact h.2.attended c now
    | _ => trivial
  exact Lib.throughout_of_always (step c) hstep (fun _ h => h.1.safe) es {}
    ⟨sound_new, fun _ _ => rfl⟩ (Lib.always_of_forall (step c) es {} hes)

end System

/-! ### Runs -/

section Runs
variable {κ : Type*} [DecidableEq κ] [Fintype κ]

instance (c : Config) (s : Registry κ) (now : ℚ) : Decidable (Attended c s now) := by
  unfold Attended
  infer_instance

instance (c : Config) (s : Registry κ) : ∀ e, Decidable (Attends c s e)
  | .enters _ now | .triesToEnter _ now => inferInstanceAs (Decidable (Attended c s now))
  | .resumes _ _ _ | .releases _ _ _ | .cancels _ _ _ => .isTrue trivial

instance (s : Registry κ) : Decidable (Exclusive s) := by
  unfold Exclusive
  infer_instance

end Runs

/-- Two tasks on one key and one on another; the second is woken at once, and the old lock is dropped
    when it is idle. -/
def handover : List (Event Bool) :=
  [.enters true 0, .enters true 1, .enters false 2, .releases true 0 0, .resumes true 0 1,
    .releases true 0 1, .enters false 5000, .enters true 5001]

theorem exclusive_of_attends_handover :
    (((run (step hubRenderLocks) {} handover).slots true).inside = [(4, 1)]) ∧
      Throughout (step hubRenderLocks) (fun s => Exclusive s ∧ Kept s) {} handover :=
  ⟨by decide +kernel, exclusive_of_attends hubRenderLocks handover (by decide +kernel)⟩

/-- The first task holds the lock for more than an hour; it is released, and before the task that
    waits takes its step, a third task fetches the lock: the pass drops it, and both are let in. -/
theorem waiter_evicted :
    ¬ Throughout (step hubRenderLocks) (fun s => Exclusive s ∧ Kept s) {}
      [.enters () 0, .enters () 1, .releases () 0 0, .enters () 5000, .resumes () 0 1] := by
  intro h
  exact absurd (Lib.run_of_throughout _ _ _ h).1 (by decide +kernel)

end Just1kBot.LockRegistry
