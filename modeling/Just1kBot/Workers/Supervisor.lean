import Just1kBot.Lib.Transition
import Mathlib.Data.Rat.Lemmas
import Mathlib.Logic.Function.Basic
import Mathlib.Tactic.Linarith

/-! The supervisor of the background workers: `_spawn`, `_supervise_workers` and
    `heartbeat_allowed` of `services/workers/__init__.py`.

    Each pass looks at every worker once. A worker that is found dead is restarted by a later pass,
    after a back-off or a cooldown, and a critical one that dies too often ends the process. Seconds
    are rational numbers. -/

namespace Just1kBot.Supervisor
open Lib (Always Throughout run)

structure WorkerDefinition where
  critical : Bool
  maxConsecutiveFailures : ℕ := 10
  stabilityWindow : ℚ := 300
  deriving Repr

/-- `starting` lasts until the first task is spawned. -/
inductive WorkerState
  | starting | running | backoff | cooldown | failed
  deriving DecidableEq, Repr

/-- How a task ends that nobody has told to. -/
inductive Ending
  | cancelled | raised (errorType : String) | returned
  deriving DecidableEq, Repr

def Ending.errorType : Ending → String
  | .cancelled => "CancelledError"
  | .raised errorType => errorType
  | .returned => "UnexpectedReturn"

structure WorkerHealth where
  state : WorkerState := .starting
  lastStartedAt : Option ℚ := none
  lastFinishedAt : Option ℚ := none
  consecutiveFailures : ℕ := 0
  lastErrorType : Option String := none
  cooldownUntil : Option ℚ := none
  nextRestartAt : Option ℚ := none
  deriving DecidableEq, Repr

/-- A task. When it ended and when a pass found it so is history. -/
structure Task where
  startedAt : ℚ
  ended : Option (ℚ × Ending) := none
  seenAt : Option ℚ := none
  deriving DecidableEq, Repr

/-- A task ends once. -/
def Task.finish (time : ℚ) (ending : Ending) (t : Task) : Task :=
  if t.ended = none then { t with ended := some (time, ending) } else t

/-- A worker: its record, and all of its tasks, the latest one first. That one is the task in
    `_worker_tasks`. -/
structure Slot where
  health : WorkerHealth := {}
  tasks : List Task := []
  deriving DecidableEq, Repr

namespace Slot

/-- `_spawn`. -/
def spawn (now : ℚ) (w : Slot) : Slot where
  health := { w.health with state := .running, lastStartedAt := some now }
  tasks := { startedAt := now } :: w.tasks

/-- The back-off after so many failures in a row. -/
def backoffDelay (count : ℕ) : ℚ := min 30 (2 ^ count)

def cooldownDelay : ℚ := 900

/-- A task that is done: the death is counted, and what follows is decided. The second part says
    that it is fatal. -/
def bury (d : WorkerDefinition) (now : ℚ) (ending : Ending) (w : Slot) : Slot × Bool :=
  let ranFor := now - w.health.lastStartedAt.getD now
  let count := (if d.stabilityWindow ≤ ranFor then 0 else w.health.consecutiveFailures) + 1
  let health : WorkerHealth := { w.health with
    consecutiveFailures := count
    lastFinishedAt := some now
    lastErrorType := some ending.errorType }
  let tasks := w.tasks.modify 0 fun t => { t with seenAt := some now }
  if d.maxConsecutiveFailures < count then
    if d.critical then (⟨{ health with state := .failed }, tasks⟩, true)
    else
      (⟨{ health with state := .cooldown, cooldownUntil := some (now + cooldownDelay) }, tasks⟩,
        false)
  else
    (⟨{ health with
      state := .backoff, nextRestartAt := some (now + max 0 (backoffDelay count)) }, tasks⟩, false)

/-- A task that is still running: a stable run clears the record. -/
def keep (d : WorkerDefinition) (now : ℚ) (w : Slot) : Slot :=
  if w.health.consecutiveFailures ≠ 0 ∧
      ∃ started ∈ w.health.lastStartedAt, d.stabilityWindow ≤ now - started then
    { w with health := { w.health with
      consecutiveFailures := 0, lastErrorType := none, cooldownUntil := none, state := .running } }
  else w

/-- One worker's part of a pass, which reads the clock when it begins and when it spawns. -/
def check (d : WorkerDefinition) (now spawnAt : ℚ) (w : Slot) : Slot × Bool :=
  match w.health.state with
  | .cooldown =>
    if ∃ till ∈ w.health.cooldownUntil, now < till then (w, false)
    else (({ w with health := { w.health with state := .backoff } } : Slot).spawn spawnAt, false)
  | .backoff =>
    if ∃ restart ∈ w.health.nextRestartAt, now < restart then (w, false)
    else
      (({ w with health := { w.health with nextRestartAt := none } } : Slot).spawn spawnAt, false)
  | _ =>
    match w.tasks.head? with
    | none => (w, false)
    | some t =>
      match t.ended with
      | none => (w.keep d now, false)
      | some (_, ending) => w.bury d now ending

/-- The task `k` ends, if it has not ended yet. -/
def finish (k : ℕ) (time : ℚ) (ending : Ending) (w : Slot) : Slot :=
  { w with tasks := w.tasks.modify k (Task.finish time ending) }

end Slot

section System
variable {ι : Type*} [DecidableEq ι] (d : ι → WorkerDefinition) (order : List ι)

/-- The workers, `_fatal_shutdown` with `shutdown_event`, `_started_at`, and the latest time that
    was read or at which a task ended. -/
structure State (ι : Type*) where
  slots : ι → Slot
  fatalShutdown : Bool := false
  startedAt : ℚ
  clock : ℚ

/-- A task ends, or the supervisor makes a pass, which lasts until `till` and in which each worker
    has its own two readings of the clock. -/
inductive Event (ι : Type*)
  | finish (name : ι) (k : ℕ) (time : ℚ) (ending : Ending)
  | tick (reads : ι → ℚ × ℚ) (till : ℚ)

/-- `start_background_workers`. -/
def start (now : ℚ) : State ι where
  slots _ := ({} : Slot).spawn now
  startedAt := now
  clock := now

/-- One worker of a pass, unless the process is shutting down. -/
def checkWorker (reads : ι → ℚ × ℚ) (s : State ι) (name : ι) : State ι :=
  if s.fatalShutdown then s
  else
    let r := (s.slots name).check (d name) (reads name).1 (reads name).2
    { s with slots := Function.update s.slots name r.1, fatalShutdown := r.2 }

def step (s : State ι) : Event ι → State ι
  | .finish name k time ending =>
    { s with
      slots := Function.update s.slots name ((s.slots name).finish k time ending)
      clock := time }
  | .tick reads till => { order.foldl (checkWorker d reads) s with clock := till }

def startupGracePeriod : ℚ := 30

/-- `heartbeat_allowed`: each critical worker has a task that runs, after a time of grace. -/
def heartbeatAllowed (s : State ι) (now : ℚ) : Bool :=
  !s.fatalShutdown && order.all fun name =>
    let w := s.slots name
    !(d name).critical || (w.health.state ≠ .failed &&
      (now - s.startedAt < startupGracePeriod ||
        (w.health.state = .running && w.tasks.head?.any fun t => t.ended = none)))

/-- The clock does not go back. -/
def OnTime (s : State ι) : Event ι → Prop
  | .finish _ _ time _ => s.clock ≤ time
  | .tick reads till =>
    s.clock ≤ till ∧
      ∀ name ∈ order, s.clock ≤ (reads name).1 ∧ (reads name).1 ≤ (reads name).2 ∧
        (reads name).2 ≤ till

instance (s : State ι) : DecidablePred (OnTime order s) := fun e => by
  cases e <;> unfold OnTime <;> infer_instance

end System

/-! ### What a history says -/

/-- The deaths in a row. A run counts as stable if the window has passed when a pass finds it
    ended. -/
def failures (window : ℚ) : List Task → ℕ
  | [] => 0
  | t :: past =>
    match t.seenAt with
    | none => failures window past
    | some seen => (if window ≤ seen - t.startedAt then 0 else failures window past) + 1

/-- How long a worker is left alone after so many deaths in a row. -/
def delay (d : WorkerDefinition) (count : ℕ) : ℚ :=
  if d.maxConsecutiveFailures < count then Slot.cooldownDelay else Slot.backoffDelay count

/-- Each task was started after the one before it ended, and the delay had passed. -/
def Spaced (d : WorkerDefinition) : List Task → Prop
  | t' :: t :: past =>
    (∃ e ∈ t.ended, e.1 + delay d (failures d.stabilityWindow (t :: past)) ≤ t'.startedAt) ∧
      Spaced d (t :: past)
  | _ => True

/-- A task is alive. -/
def Task.Alive (t : Task) : Prop := t.ended = none

instance : DecidablePred Task.Alive := fun t => by unfold Task.Alive; infer_instance

/-- The task ended, and a pass has found it so. -/
def Task.Seen (clock : ℚ) (t : Task) : Prop :=
  ∃ e ∈ t.ended, ∃ seen ∈ t.seenAt, e.1 ≤ seen ∧ seen ≤ clock

/-! ### One worker -/

/-- The worker's latest task has not been found ended, and the earlier ones have. -/
structure Running (d : WorkerDefinition) (clock : ℚ) (health : WorkerHealth) (t : Task)
    (past : List Task) : Prop where
  seen : ∀ t' ∈ past, t'.Seen clock
  unseen : t.seenAt = none
  last : health.lastStartedAt = some t.startedAt
  started : t.startedAt ≤ clock
  ended : ∀ e ∈ t.ended, e.1 ≤ clock
  budget : d.critical = true →
    failures d.stabilityWindow past ≤ d.maxConsecutiveFailures
  count : health.consecutiveFailures = failures d.stabilityWindow past ∨
    health.consecutiveFailures = 0 ∧ d.stabilityWindow ≤ clock - t.startedAt

/-- All tasks have been found ended, and the deaths in a row are counted. -/
structure Found (d : WorkerDefinition) (clock : ℚ) (health : WorkerHealth) (tasks : List Task) :
    Prop where
  seen : ∀ t ∈ tasks, t.Seen clock
  count : health.consecutiveFailures = failures d.stabilityWindow tasks

/-- The delay after the task's end has passed by `due`. -/
def Due (d : WorkerDefinition) (count : ℕ) (t : Task) (due : Option ℚ) : Prop :=
  ∃ e ∈ t.ended, ∃ time ∈ due, e.1 + delay d count ≤ time

/-- The record of a worker fits its tasks. -/
def Slot.Sound (d : WorkerDefinition) (clock : ℚ) (w : Slot) : Prop :=
  Spaced d w.tasks ∧
    match w.health.state, w.tasks with
    | .running, t :: past => Running d clock w.health t past
    | .backoff, t :: past =>
      Found d clock w.health (t :: past) ∧
        w.health.consecutiveFailures ≤ d.maxConsecutiveFailures ∧
        Due d w.health.consecutiveFailures t w.health.nextRestartAt
    | .cooldown, t :: past =>
      Found d clock w.health (t :: past) ∧ d.critical = false ∧
        Due d w.health.consecutiveFailures t w.health.cooldownUntil
    | .failed, t :: past =>
      Found d clock w.health (t :: past) ∧ d.critical = true ∧
        d.maxConsecutiveFailures < w.health.consecutiveFailures
    | _, _ => False

section Worker
variable {d : WorkerDefinition} {clock clock' : ℚ} {health : WorkerHealth} {t : Task}
  {past : List Task} {w : Slot}

@[simp] theorem Task.startedAt_finish (time : ℚ) (ending : Ending) :
    (t.finish time ending).startedAt = t.startedAt := by
  unfold finish; split <;> rfl

@[simp] theorem Task.seenAt_finish (time : ℚ) (ending : Ending) :
    (t.finish time ending).seenAt = t.seenAt := by
  unfold finish; split <;> rfl

theorem Task.ended_finish {time : ℚ} {ending : Ending} {e : ℚ × Ending}
    (h : e ∈ (t.finish time ending).ended) : e ∈ t.ended ∨ e = (time, ending) := by
  unfold finish at h
  split at h
  · exact .inr (Option.some.inj h).symm
  · exact .inl h

theorem Task.Seen.mono (h : t.Seen clock) (hle : clock ≤ clock') : t.Seen clock' := by
  obtain ⟨e, he, seen, hseen, hes, hsc⟩ := h
  exact ⟨e, he, seen, hseen, hes, hsc.trans hle⟩

/-- What has been seen is not changed. -/
theorem Task.Seen.finish (h : t.Seen clock) (time : ℚ) (ending : Ending) :
    t.finish time ending = t := by
  obtain ⟨e, he, -⟩ := h
  exact if_neg (by rw [Option.mem_def.mp he]; exact Option.some_ne_none e)

theorem Running.mono (h : Running d clock health t past) (hle : clock ≤ clock') :
    Running d clock' health t past where
  seen := fun t' ht' => (h.seen t' ht').mono hle
  unseen := h.unseen
  last := h.last
  started := h.started.trans hle
  ended := fun e he => (h.ended e he).trans hle
  budget := h.budget
  count := h.count.imp_right fun ⟨hzero, hwin⟩ => ⟨hzero, hwin.trans (sub_le_sub_right hle _)⟩

theorem Found.mono {tasks : List Task} (h : Found d clock health tasks) (hle : clock ≤ clock') :
    Found d clock' health tasks :=
  ⟨fun t ht => (h.seen t ht).mono hle, h.count⟩

/-- The shapes of a sound record. -/
theorem Slot.Sound.cases (h : w.Sound d clock) :
    ∃ t past, w.tasks = t :: past ∧ Spaced d (t :: past) ∧
      ((w.health.state = .running ∧ Running d clock w.health t past) ∨
        (w.health.state ≠ .running ∧ w.health.state ≠ .starting ∧
          Found d clock w.health (t :: past))) := by
  obtain ⟨health, tasks⟩ := w
  obtain ⟨hspaced, h⟩ := h
  rcases tasks with _ | ⟨t, past⟩
  · simp at h
  refine ⟨t, past, rfl, hspaced, ?_⟩
  cases hstate : health.state <;> simp_all

theorem Slot.Sound.mono (h : w.Sound d clock) (hle : clock ≤ clock') : w.Sound d clock' := by
  obtain ⟨health, tasks⟩ := w
  obtain ⟨hspaced, h⟩ := h
  refine ⟨hspaced, ?_⟩
  rcases tasks with _ | ⟨t, past⟩
  · simp at h
  dsimp only at h ⊢
  cases hstate : health.state <;> rw [hstate] at h
  · exact h
  · exact Running.mono h hle
  · exact ⟨h.1.mono hle, h.2⟩
  · exact ⟨h.1.mono hle, h.2⟩
  · exact ⟨h.1.mono hle, h.2⟩

theorem sound_start (d : WorkerDefinition) (now : ℚ) : (({} : Slot).spawn now).Sound d now :=
  ⟨trivial, fun _ ht => absurd ht List.not_mem_nil, rfl, rfl, le_refl _, (fun _ he => by cases he),
    fun _ => Nat.zero_le _, .inl rfl⟩

/-- What is known of tasks that were seen is not changed. -/
theorem modify_eq_self {f : Task → Task} {tasks : List Task} (h : ∀ t ∈ tasks, f t = t) (k : ℕ) :
    tasks.modify k f = tasks := by
  induction tasks generalizing k with
  | nil => cases k <;> rfl
  | cons t past ih =>
    obtain ⟨ht, hpast⟩ := List.forall_mem_cons.mp h
    cases k with
    | zero => rw [List.modify_zero_cons, ht]
    | succ k => rw [List.modify_succ_cons, ih hpast]

/-- Only the start of the latest task matters. -/
theorem Spaced.congr_head {t' : Task} (h : Spaced d (t :: past))
    (hstart : t'.startedAt = t.startedAt) : Spaced d (t' :: past) := by
  cases past with
  | nil => trivial
  | cons t₂ past => exact ⟨by rw [hstart]; exact h.1, h.2⟩

theorem Running.finish (h : Running d clock health t past) {time : ℚ} (ending : Ending)
    (hle : clock ≤ time) : Running d time health (t.finish time ending) past where
  seen := (h.mono hle).seen
  unseen := (t.seenAt_finish time ending).trans h.unseen
  last := by rw [h.last, Task.startedAt_finish]
  started := by rw [Task.startedAt_finish]; exact h.started.trans hle
  ended := by
    intro e he
    rcases Task.ended_finish he with he | rfl
    · exact (h.ended e he).trans hle
    · exact le_refl _
  budget := h.budget
  count := by rw [Task.startedAt_finish]; exact (h.mono hle).count

theorem Slot.Sound.finish (h : w.Sound d clock) (k : ℕ) {time : ℚ} (ending : Ending)
    (hle : clock ≤ time) : (w.finish k time ending).Sound d time := by
  obtain ⟨t, past, htasks, hspaced, ⟨hstate, hrun⟩ | ⟨-, -, hfound⟩⟩ := h.cases
  · cases k with
    | zero =>
      refine ⟨?_, ?_⟩
      · rw [Slot.finish, htasks]
        exact hspaced.congr_head (Task.startedAt_finish ..)
      · simp only [Slot.finish, htasks, List.modify_zero_cons, hstate]
        exact hrun.finish ending hle
    | succ k =>
      have hsame : w.finish (k + 1) time ending = w := by
        rw [Slot.finish, htasks, List.modify_succ_cons,
          modify_eq_self fun t' ht' => (hrun.seen t' ht').finish time ending, ← htasks]
      rw [hsame]
      exact h.mono hle
  · have hsame : w.finish k time ending = w := by
      rw [Slot.finish, htasks,
        modify_eq_self fun t' ht' => (hfound.seen t' ht').finish time ending, ← htasks]
    rw [hsame]
    exact h.mono hle

/-- Whatever has ended has been found so. -/
def Slot.AllSeen (w : Slot) : Prop := ∀ t ∈ w.tasks, t.ended ≠ none → t.seenAt ≠ none

theorem Task.Seen.seenAt_ne (h : t.Seen clock) : t.seenAt ≠ none := by
  obtain ⟨e, -, seen, hseen, -⟩ := h
  rw [Option.mem_def.mp hseen]
  exact Option.some_ne_none seen

/-- The deaths in a row after one more. -/
theorem failures_seen (window now : ℚ) (t : Task) (past : List Task) :
    failures window ({ t with seenAt := some now } :: past) =
      (if window ≤ now - t.startedAt then 0 else failures window past) + 1 := rfl

/-- A restart, once the delay has passed. -/
theorem sound_spawn {spawnAt : ℚ} (htasks : w.tasks = t :: past) (hspaced : Spaced d (t :: past))
    (hfound : Found d clock w.health (t :: past)) (hle : clock ≤ spawnAt)
    (hbudget : d.critical = true → w.health.consecutiveFailures ≤ d.maxConsecutiveFailures)
    (hdue : ∃ e ∈ t.ended, e.1 + delay d w.health.consecutiveFailures ≤ spawnAt) :
    (w.spawn spawnAt).Sound d spawnAt ∧ (w.spawn spawnAt).AllSeen := by
  refine ⟨⟨?_, ?_⟩, ?_⟩
  · rw [Slot.spawn, htasks]
    rw [hfound.count] at hdue
    exact ⟨hdue, hspaced⟩
  · simp only [Slot.spawn, htasks]
    exact ⟨(hfound.mono hle).seen, rfl, rfl, le_refl _, (fun _ he => by cases he),
      fun hcrit => hfound.count ▸ hbudget hcrit, .inl hfound.count⟩
  · intro t' ht' hended
    rw [Slot.spawn, htasks] at ht'
    rcases List.mem_cons.mp ht' with rfl | ht'
    · exact absurd rfl hended
    · exact (hfound.seen t' ht').seenAt_ne

/-- A worker that is found dead. -/
theorem sound_bury {now time : ℚ} {ending : Ending} (htasks : w.tasks = t :: past)
    (hspaced : Spaced d (t :: past)) (hrun : Running d clock w.health t past)
    (hended : t.ended = some (time, ending)) (hle : clock ≤ now) :
    (w.bury d now ending).1.Sound d now ∧ (w.bury d now ending).1.AllSeen ∧
      ((w.bury d now ending).2 = true ↔ (w.bury d now ending).1.health.state = .failed) := by
  have htime : time ≤ now := (hrun.ended _ hended).trans hle
  set count :=
    (if d.stabilityWindow ≤ now - t.startedAt then 0 else w.health.consecutiveFailures) + 1
    with hcount
  -- the record may have been cleared by a pass during the run; then the run is a stable one
  have hfailures : count = failures d.stabilityWindow ({ t with seenAt := some now } :: past) := by
    rw [hcount, failures_seen]
    split
    · rfl
    · next hshort =>
      rcases hrun.count with heq | ⟨-, hwin⟩
      · rw [heq]
      · exact absurd (hwin.trans (sub_le_sub_right hle _)) hshort
  have hfound : ∀ health : WorkerHealth, health.consecutiveFailures = count →
      Found d now health ({ t with seenAt := some now } :: past) := by
    intro health hhealth
    refine ⟨fun t' ht' => ?_, hhealth.trans hfailures⟩
    rcases List.mem_cons.mp ht' with rfl | ht'
    · exact ⟨_, hended, now, rfl, htime, le_refl _⟩
    · exact (hrun.seen t' ht').mono hle
  have hspaced' : Spaced d ({ t with seenAt := some now } :: past) := hspaced.congr_head rfl
  have hall : ∀ health : WorkerHealth,
      (Slot.mk health ({ t with seenAt := some now } :: past)).AllSeen := fun health t' ht' _ =>
    ((hfound { health with consecutiveFailures := count } rfl).seen t' ht').seenAt_ne
  simp only [Slot.bury, htasks, hrun.last, Option.getD_some, List.modify_zero_cons, ← hcount]
  split
  · next hmax =>
    split
    · next hcrit =>
      refine ⟨⟨hspaced', ?_⟩, hall _, by simp⟩
      change Found d now _ _ ∧ _ ∧ _
      exact ⟨hfound _ rfl, hcrit, hmax⟩
    · next hcrit =>
      refine ⟨⟨hspaced', ?_⟩, hall _, by simp⟩
      change Found d now _ _ ∧ _ ∧ Due d count _ _
      refine ⟨hfound _ rfl, by simpa using hcrit, _, hended, _, rfl, ?_⟩
      rw [delay, if_pos hmax]
      exact add_le_add_left htime _
  · next hmax =>
    refine ⟨⟨hspaced', ?_⟩, hall _, by simp⟩
    change Found d now _ _ ∧ _ ∧ Due d count _ _
    refine ⟨hfound _ rfl, not_lt.mp hmax, _, hended, _, rfl, ?_⟩
    rw [delay, if_neg hmax]
    exact add_le_add htime (le_max_right _ _)

/-- A worker that is alive. -/
theorem sound_keep {now : ℚ} (hstate : w.health.state = .running) (htasks : w.tasks = t :: past)
    (hspaced : Spaced d (t :: past)) (hrun : Running d clock w.health t past)
    (halive : t.ended = none) (hle : clock ≤ now) :
    (w.keep d now).Sound d now ∧ (w.keep d now).AllSeen ∧
      (w.keep d now).health.state = .running := by
  have hrun' := hrun.mono hle
  have hall : ∀ t' ∈ t :: past, t'.ended ≠ none → t'.seenAt ≠ none := by
    intro t' ht' hended
    rcases List.mem_cons.mp ht' with rfl | ht'
    · exact absurd halive hended
    · exact (hrun.seen t' ht').seenAt_ne
  rw [Slot.keep]
  split
  · next hstable =>
    obtain ⟨started, hstarted, hwin⟩ := hstable.2
    obtain rfl := Option.some.inj (hrun.last.symm.trans hstarted)
    refine ⟨⟨by rw [htasks]; exact hspaced, ?_⟩, by rw [Slot.AllSeen, htasks]; exact hall, rfl⟩
    simp only [htasks]
    exact ⟨hrun'.seen, hrun'.unseen, hrun'.last, hrun'.started, hrun'.ended, hrun'.budget,
      .inr ⟨rfl, hwin⟩⟩
  · refine ⟨⟨by rw [htasks]; exact hspaced, ?_⟩, by rw [Slot.AllSeen, htasks]; exact hall, hstate⟩
    simp only [hstate, htasks]
    exact hrun'

/-- A delay that has passed at the first reading of the clock has passed at the second one. -/
theorem Due.passed {count : ℕ} {due : Option ℚ} {now spawnAt : ℚ} (h : Due d count t due)
    (hpassed : ¬ ∃ time ∈ due, now < time) (hspawn : now ≤ spawnAt) :
    ∃ e ∈ t.ended, e.1 + delay d count ≤ spawnAt := by
  obtain ⟨e, he, time, htime, hle⟩ := h
  have hdue : time ≤ now := not_lt.mp fun hlt => hpassed ⟨time, htime, hlt⟩
  exact ⟨e, he, hle.trans (hdue.trans hspawn)⟩

/-- One worker's part of a pass. -/
theorem Slot.Sound.check {now spawnAt : ℚ} (h : w.Sound d clock)
    (hfailed : w.health.state ≠ .failed) (hnow : clock ≤ now) (hspawn : now ≤ spawnAt) :
    (w.check d now spawnAt).1.Sound d spawnAt ∧ (w.check d now spawnAt).1.AllSeen ∧
      ((w.check d now spawnAt).2 = true ↔ (w.check d now spawnAt).1.health.state = .failed) := by
  have hmono := h.mono (hnow.trans hspawn)
  obtain ⟨t, past, htasks, hspaced, ⟨hstate, hrun⟩ | ⟨hrunning, hstarting, hfound⟩⟩ := h.cases
  · simp only [Slot.check, hstate, htasks, List.head?_cons]
    split
    · next halive =>
      obtain ⟨hsound, hall, hkept⟩ := sound_keep hstate htasks hspaced hrun halive hnow
      exact ⟨hsound.mono hspawn, hall, by simp [hkept]⟩
    · next hended =>
      obtain ⟨hsound, hall, hfatal⟩ := sound_bury htasks hspaced hrun hended hnow
      exact ⟨hsound.mono hspawn, hall, hfatal⟩
  · have hseen : w.AllSeen := by
      intro t' ht' _
      rw [htasks] at ht'
      exact (hfound.seen t' ht').seenAt_ne
    have hrest := h.2
    rw [htasks] at hrest
    cases hstate : w.health.state with
    | backoff =>
      simp only [hstate] at hrest
      simp only [Slot.check, hstate]
      split
      · exact ⟨hmono, hseen, by simp [hstate]⟩
      · next hpassed =>
        obtain ⟨-, hbudget, hdue⟩ := hrest
        obtain ⟨hsound, hall⟩ := sound_spawn
          (w := { w with health := { w.health with nextRestartAt := none } }) htasks hspaced
          (Found.mk hfound.seen hfound.count) (hnow.trans hspawn) (fun _ => hbudget)
          (hdue.passed hpassed hspawn)
        exact ⟨hsound, hall, by simp [Slot.spawn]⟩
    | cooldown =>
      simp only [hstate] at hrest
      simp only [Slot.check, hstate]
      split
      · exact ⟨hmono, hseen, by simp [hstate]⟩
      · next hpassed =>
        obtain ⟨-, hcrit, hdue⟩ := hrest
        obtain ⟨hsound, hall⟩ := sound_spawn
          (w := { w with health := { w.health with state := .backoff } }) htasks hspaced
          (Found.mk hfound.seen hfound.count) (hnow.trans hspawn)
          (fun hyes => absurd hyes (by simp [hcrit])) (hdue.passed hpassed hspawn)
        exact ⟨hsound, hall, by simp [Slot.spawn]⟩
    | failed => exact absurd hstate hfailed
    | running => exact absurd hstate hrunning
    | starting => exact absurd hstate hstarting

/-- A sound record shows that the worker has failed for good. -/
theorem Slot.Sound.failed_iff (h : w.Sound d clock) :
    w.health.state = .failed ↔
      d.critical = true ∧ d.maxConsecutiveFailures < failures d.stabilityWindow w.tasks := by
  obtain ⟨t, past, htasks, -, ⟨hstate, hrun⟩ | ⟨hrunning, hstarting, hfound⟩⟩ := h.cases
  · rw [htasks, hstate, failures, hrun.unseen]
    refine iff_of_false (by simp) ?_
    rintro ⟨hcrit, hmax⟩
    exact absurd (hrun.budget hcrit) (not_le.mpr hmax)
  · have hrest := h.2
    rw [htasks] at hrest ⊢
    rw [← hfound.count]
    cases hstate : w.health.state with
    | failed => simp only [hstate] at hrest; simpa using hrest.2
    | backoff =>
      simp only [hstate] at hrest
      exact iff_of_false (by simp) fun ⟨_, hmax⟩ => absurd hrest.2.1 (not_le.mpr hmax)
    | cooldown =>
      simp only [hstate] at hrest
      exact iff_of_false (by simp) fun ⟨hcrit, _⟩ => absurd hcrit (by simp [hrest.2.1])
    | running => exact absurd hstate hrunning
    | starting => exact absurd hstate hstarting

theorem Task.Seen.not_alive (h : t.Seen clock) : ¬ t.Alive := by
  obtain ⟨e, he, -⟩ := h
  rw [Task.Alive, Option.mem_def.mp he]
  exact Option.some_ne_none e

/-- At most one task is alive. -/
theorem Slot.Sound.one_alive (h : w.Sound d clock) : (w.tasks.filter (·.Alive)).length ≤ 1 := by
  have hnone : ∀ {ts : List Task}, (∀ t ∈ ts, t.Seen clock) → ts.filter (·.Alive) = [] :=
    fun hts => List.filter_eq_nil_iff.mpr fun t ht => by simpa using (hts t ht).not_alive
  obtain ⟨t, past, htasks, -, ⟨-, hrun⟩ | ⟨-, -, hfound⟩⟩ := h.cases
  · rw [htasks, List.filter_cons, hnone hrun.seen]
    split <;> simp
  · rw [htasks, hnone hfound.seen]
    exact Nat.zero_le 1

end Worker

/-! ### All workers -/

section System
variable {ι : Type*} [DecidableEq ι] {d : ι → WorkerDefinition} {order : List ι}

/-- The records fit, and the process shuts down when a worker has failed for good. -/
structure Sound (d : ι → WorkerDefinition) (s : State ι) : Prop where
  slots : ∀ name, (s.slots name).Sound (d name) s.clock
  fatal : s.fatalShutdown = true ↔ ∃ name, (s.slots name).health.state = .failed

omit [DecidableEq ι] in
theorem sound_init (now : ℚ) : Sound d (start now) where
  slots name := sound_start (d name) now
  fatal := by simp [start, Slot.spawn]

/-- Once the process shuts down, a pass does nothing. -/
theorem pass_of_fatal {s : State ι} (reads : ι → ℚ × ℚ) (names : List ι)
    (h : s.fatalShutdown = true) : names.foldl (checkWorker d reads) s = s := by
  induction names with
  | nil => rfl
  | cons name names ih => rw [List.foldl_cons, checkWorker, if_pos h, ih]

/-- A pass changes only the workers it looks at. -/
theorem pass_frame {reads : ι → ℚ × ℚ} {names : List ι} {name : ι} (h : name ∉ names)
    (s : State ι) : (names.foldl (checkWorker d reads) s).slots name = s.slots name := by
  induction names generalizing s with
  | nil => rfl
  | cons name' names ih =>
    rw [List.foldl_cons, ih (List.not_mem_of_not_mem_cons h), checkWorker]
    split
    · rfl
    · exact Function.update_of_ne (List.ne_of_not_mem_cons h) _ _

/-- In a pass that does not end the process, each worker is checked by itself. -/
theorem pass_slots {reads : ι → ℚ × ℚ} {names : List ι} (hnodup : names.Nodup) (s : State ι)
    (h : (names.foldl (checkWorker d reads) s).fatalShutdown = false) :
    s.fatalShutdown = false ∧ ∀ name ∈ names, (names.foldl (checkWorker d reads) s).slots name =
      ((s.slots name).check (d name) (reads name).1 (reads name).2).1 := by
  induction names generalizing s with
  | nil => exact ⟨h, fun _ hname => absurd hname List.not_mem_nil⟩
  | cons name names ih =>
    obtain ⟨hnot, hnodup⟩ := List.nodup_cons.mp hnodup
    obtain ⟨hfatal, hslots⟩ := ih hnodup _ h
    have hs : ¬ s.fatalShutdown = true := by
      intro hyes
      rw [checkWorker, if_pos hyes, hyes] at hfatal
      cases hfatal
    refine ⟨by simpa using hs, fun name' hname' => ?_⟩
    rcases List.mem_cons.mp hname' with rfl | hname'
    · rw [List.foldl_cons, pass_frame hnot, checkWorker, if_neg hs]
      exact Function.update_self ..
    · rw [List.foldl_cons, hslots name' hname', checkWorker, if_neg hs]
      dsimp only
      rw [Function.update_of_ne fun heq : name' = name => hnot (heq ▸ hname')]

/-- A pass over some workers, which have their readings between its beginning and its end. -/
theorem sound_pass {reads : ι → ℚ × ℚ} {clock till : ℚ} (names : List ι) (hnodup : names.Nodup)
    (hreads : ∀ name ∈ names, clock ≤ (reads name).1 ∧ (reads name).1 ≤ (reads name).2 ∧
      (reads name).2 ≤ till) (s : State ι) (hall : ∀ name, (s.slots name).Sound (d name) till)
    (hrest : ∀ name ∈ names, (s.slots name).Sound (d name) clock)
    (hfatal : s.fatalShutdown = true ↔ ∃ name, (s.slots name).health.state = .failed) :
    let s' := names.foldl (checkWorker d reads) s
    (∀ name, (s'.slots name).Sound (d name) till) ∧
      (s'.fatalShutdown = true ↔ ∃ name, (s'.slots name).health.state = .failed) ∧
      (s'.fatalShutdown = false → ∀ name ∈ names, (s'.slots name).AllSeen) := by
  induction names generalizing s with
  | nil => exact ⟨hall, hfatal, fun _ _ hname => absurd hname List.not_mem_nil⟩
  | cons name names ih =>
    by_cases hs : s.fatalShutdown = true
    · rw [pass_of_fatal reads _ hs]
      exact ⟨hall, hfatal, fun hno => absurd hs (by simp [hno])⟩
    obtain ⟨hnot, hnodup⟩ := List.nodup_cons.mp hnodup
    obtain ⟨⟨hnow, hspawn, htill⟩, hreads⟩ := List.forall_mem_cons.mp hreads
    obtain ⟨hslot, hrest⟩ := List.forall_mem_cons.mp hrest
    have hnofailed : ∀ name, (s.slots name).health.state ≠ .failed :=
      fun name hyes => hs (hfatal.mpr ⟨name, hyes⟩)
    obtain ⟨hsound, hseen, hdies⟩ := hslot.check (hnofailed name) hnow hspawn
    have hne : ∀ name' ∈ names, name' ≠ name := fun name' hname' heq => hnot (heq ▸ hname')
    have hpass := ih hnodup hreads (checkWorker d reads s name) ?_ ?_ ?_
    · obtain ⟨hall', hfatal', hseen'⟩ := hpass
      refine ⟨hall', hfatal', fun hno => List.forall_mem_cons.mpr ⟨?_, hseen' hno⟩⟩
      rw [List.foldl_cons, pass_frame hnot, checkWorker, if_neg hs]
      dsimp only
      rwa [Function.update_self]
    · intro name'
      rw [checkWorker, if_neg hs]
      dsimp only
      rcases eq_or_ne name' name with rfl | hne'
      · rw [Function.update_self]
        exact hsound.mono htill
      · rw [Function.update_of_ne hne']
        exact hall name'
    · intro name' hname'
      rw [checkWorker, if_neg hs]
      dsimp only
      rw [Function.update_of_ne (hne name' hname')]
      exact hrest name' hname'
    · rw [checkWorker, if_neg hs]
      dsimp only
      rw [hdies]
      constructor
      · intro hyes
        exact ⟨name, by rwa [Function.update_self]⟩
      · rintro ⟨name', hyes⟩
        rcases eq_or_ne name' name with rfl | hne'
        · rwa [Function.update_self] at hyes
        · rw [Function.update_of_ne hne'] at hyes
          exact absurd hyes (hnofailed name')

/-- One event keeps the records sound. -/
theorem Sound.step {s : State ι} (hnodup : order.Nodup) (h : Sound d s) (e : Event ι)
    (htime : OnTime order s e) : Sound d (step d order s e) := by
  cases e with
  | finish name k time ending =>
    have hslot : ∀ name',
        (Function.update s.slots name ((s.slots name).finish k time ending)) name' =
          if name' = name then (s.slots name).finish k time ending else s.slots name' :=
      fun name' => Function.update_apply ..
    refine ⟨fun name' => ?_, h.fatal.trans (exists_congr fun name' => ?_)⟩
    · simp only [Supervisor.step, hslot]
      split
      · next heq => exact heq ▸ (h.slots name).finish k ending htime
      · exact (h.slots name').mono htime
    · simp only [Supervisor.step, hslot]
      split
      · next heq => rw [heq, Slot.finish]
      · rfl
  | tick reads till =>
    obtain ⟨htill, hreads⟩ := htime
    obtain ⟨hall, hfatal, -⟩ := sound_pass order hnodup hreads s
      (fun name => (h.slots name).mono htill) (fun name _ => h.slots name) h.fatal
    exact ⟨hall, hfatal⟩

/-- A pass that does not end the process finds every worker that is dead. -/
def FindsDeaths (d : ι → WorkerDefinition) (order : List ι) (s : State ι) : Event ι → Prop
  | .finish .. => True
  | .tick reads till => (step d order s (.tick reads till)).fatalShutdown = false →
      ∀ name ∈ order, ((step d order s (.tick reads till)).slots name).AllSeen

theorem Sound.findsDeaths {s : State ι} (hnodup : order.Nodup) (h : Sound d s) (e : Event ι)
    (htime : OnTime order s e) : FindsDeaths d order s e := by
  cases e with
  | finish => trivial
  | tick reads till =>
    obtain ⟨htill, hreads⟩ := htime
    exact (sound_pass order hnodup hreads s (fun name => (h.slots name).mono htill)
      (fun name _ => h.slots name) h.fatal).2.2

omit [DecidableEq ι] in
/-- After the time of grace the heartbeat says that every critical worker has one task alive. -/
theorem Sound.alive_of_heartbeat {s : State ι} (h : Sound d s) {now : ℚ}
    (hbeat : heartbeatAllowed d order s now = true)
    (hgrace : startupGracePeriod ≤ now - s.startedAt) {name : ι} (hname : name ∈ order)
    (hcrit : (d name).critical = true) :
    ((s.slots name).tasks.filter (·.Alive)).length = 1 := by
  simp only [heartbeatAllowed, Bool.and_eq_true, List.all_eq_true] at hbeat
  have hworker := hbeat.2 name hname
  simp only [hcrit, not_lt.mpr hgrace, Bool.not_true, Bool.false_or, Bool.and_eq_true,
    decide_false, Option.any_eq_true] at hworker
  obtain ⟨-, -, t, ht, halive⟩ := hworker
  have hmem : t ∈ (s.slots name).tasks.filter (·.Alive) :=
    List.mem_filter.mpr ⟨List.mem_of_mem_head? ht, halive⟩
  exact le_antisymm (h.slots name).one_alive (List.length_pos_of_mem hmem)

/-! ### One worker by itself -/

/-- What happens to one worker. -/
inductive SlotEvent
  | finish (k : ℕ) (time : ℚ) (ending : Ending)
  | check (now spawnAt : ℚ)

def Slot.step (d : WorkerDefinition) (w : Slot) : SlotEvent → Slot
  | .finish k time ending => w.finish k time ending
  | .check now spawnAt => (w.check d now spawnAt).1

/-- The part of an event that is about this worker. -/
def Event.of (order : List ι) (name : ι) : Event ι → Option SlotEvent
  | .finish name' k time ending => if name = name' then some (.finish k time ending) else none
  | .tick reads _ => if name ∈ order then some (.check (reads name).1 (reads name).2) else none

/-- As long as the process does not shut down, each worker goes through its own events. -/
theorem slots_run (hnodup : order.Nodup) (name : ι) (es : List (Event ι)) (s : State ι)
    (h : (run (step d order) s es).fatalShutdown = false) :
    s.fatalShutdown = false ∧ (run (step d order) s es).slots name =
      run (Slot.step (d name)) (s.slots name) (es.filterMap (Event.of order name)) := by
  induction es generalizing s with
  | nil => exact ⟨h, rfl⟩
  | cons e es ih =>
    obtain ⟨hfatal, hslots⟩ := ih (step d order s e) h
    cases e with
    | finish name' k time ending =>
      refine ⟨hfatal, ?_⟩
      rw [Lib.run_cons, hslots, List.filterMap_cons, Event.of, step]
      dsimp only
      split
      · next heq =>
        split at heq
        · cases heq
        · next hne => rw [Function.update_of_ne hne]
      · next e' heq =>
        split at heq
        · next hname =>
          cases heq
          subst hname
          rw [Function.update_self]
          rfl
        · cases heq
    | tick reads till =>
      obtain ⟨hs, hchecked⟩ := pass_slots hnodup s hfatal
      refine ⟨hs, ?_⟩
      rw [Lib.run_cons, hslots, List.filterMap_cons, Event.of]
      by_cases hname : name ∈ order
      · rw [if_pos hname]
        exact congrArg (fun w => run (Slot.step (d name)) w _) (hchecked name hname)
      · rw [if_neg hname]
        exact congrArg (fun w => run (Slot.step (d name)) w _) (pass_frame hname s)

/-! ### Whole histories -/

/-- At most one task of a worker is alive, no worker was restarted before its delay had passed, and
    the process shuts down when a critical worker has died too often in a row. -/
def Supervised (d : ι → WorkerDefinition) (s : State ι) : Prop :=
  (∀ name, ((s.slots name).tasks.filter (·.Alive)).length ≤ 1 ∧
    Spaced (d name) (s.slots name).tasks) ∧
    (s.fatalShutdown = true ↔ ∃ name, (d name).critical = true ∧
      (d name).maxConsecutiveFailures <
        failures (d name).stabilityWindow (s.slots name).tasks)

omit [DecidableEq ι] in
theorem Sound.guarantees {s : State ι} (h : Sound d s) : Supervised d s :=
  ⟨fun name => ⟨(h.slots name).one_alive, (h.slots name).1⟩,
    h.fatal.trans (exists_congr fun name => (h.slots name).failed_iff)⟩

/-- The supervisor over whole histories: what it promises of each worker and of the shutdown holds
    in every state, each pass finds every death, and until the shutdown a worker goes its own way,
    whatever the others do. -/
theorem supervised (d : ι → WorkerDefinition) {order : List ι} (hnodup : order.Nodup) (now : ℚ) :
    (∀ es, Always (step d order) (OnTime order) (start now) es →
      Throughout (step d order) (Supervised d) (start now) es ∧
        Always (step d order) (FindsDeaths d order) (start now) es) ∧
    ∀ name es es', (run (step d order) (start now) es).fatalShutdown = false →
      (run (step d order) (start now) es').fatalShutdown = false →
      es.filterMap (Event.of order name) = es'.filterMap (Event.of order name) →
      (run (step d order) (start now) es).slots name =
        (run (step d order) (start now) es').slots name := by
  refine ⟨fun es h => ⟨?_, ?_⟩, fun name es es' hes hes' hsame => ?_⟩
  · exact Lib.throughout_of_always _ (fun _ e hs htime => hs.step hnodup e htime)
      (fun _ hs => hs.guarantees) es _ (sound_init now) h
  · exact Lib.always_of_inv_of_always _ (fun _ e hs htime => hs.step hnodup e htime)
      (fun _ e hs htime => hs.findsDeaths hnodup e htime) es _ (sound_init now) h
  · rw [(slots_run hnodup name es _ hes).2, (slots_run hnodup name es' _ hes').2, hsame]

end System

/-! ### The workers of the bot -/

inductive WorkerName
  | traffic | cleanup | notifications | creditNotifications | heartbeat | nodeMonitor
  | whiteInternetReconciliation | whiteInternetTraffic
  deriving DecidableEq, Repr

/-- `WORKERS`, in their order. -/
def workers : List WorkerName :=
  [.traffic, .cleanup, .notifications, .creditNotifications, .heartbeat, .nodeMonitor,
    .whiteInternetReconciliation, .whiteInternetTraffic]

/-- The definitions of these workers. -/
def definition : WorkerName → WorkerDefinition
  | .whiteInternetReconciliation | .whiteInternetTraffic => { critical := true }
  | _ => { critical := false }

theorem supervised_workers :
    workers.Nodup ∧ Throughout (step definition workers) (Supervised definition) (start 0)
      [.finish .cleanup 0 5 .returned, .tick (fun _ => (15, 15)) 15] :=
  have hnodup : workers.Nodup := by decide
  ⟨hnodup, ((supervised definition hnodup 0).1 _ (by decide +kernel)).1⟩

/-- The deaths in a row, where a run is stable if it lasted for the window itself. -/
def shortRuns (window : ℚ) : List Task → ℕ
  | [] => 0
  | t :: past =>
    match t.ended with
    | none => shortRuns window past
    | some (time, _) => (if window ≤ time - t.startedAt then 0 else shortRuns window past) + 1

/-- A worker that ends ten seconds before its window has passed, eleven times. -/
def elevenDeaths : List (Event WorkerName) :=
  (List.range 11).flatMap fun n =>
    [.finish .whiteInternetTraffic 0 (315 * n + 290) .returned,
      .tick (fun _ => (315 * n + 300, 315 * n + 300)) (315 * n + 300),
      .tick (fun _ => (315 * n + 315, 315 * n + 315)) (315 * n + 315)]

/-- The passes come too late to see that the runs were short. -/
theorem elevenDeaths_pass :
    ¬ ∀ es, Always (step definition workers) (OnTime workers) (start 0) es →
      Throughout (step definition workers) (fun s => s.fatalShutdown = true ↔
        ∃ name, (definition name).critical = true ∧ (definition name).maxConsecutiveFailures <
          shortRuns (definition name).stabilityWindow (s.slots name).tasks) (start 0) es := by
  intro h
  have hlast := Lib.run_of_throughout _ _ _ (h elevenDeaths (by decide +kernel))
  have hfatal := hlast.mpr ⟨.whiteInternetTraffic, rfl, by decide +kernel⟩
  revert hfatal
  decide +kernel

end Just1kBot.Supervisor
