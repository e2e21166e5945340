import Just1kBot.Bot.Broadcast
import Just1kBot.Lib.Transition
import Mathlib.Data.List.Sort

/-! The broadcasts of the bot: their workers side by side, `resume_pending_broadcasts`, the clean-up
    of stuck broadcasts in `_cleanup_old_records` of `services/workers/cleanup.py`, and crashes of
    the process.

    What an event does to one broadcast is at most one event of that broadcast. The checks of a
    launch are left out. -/

namespace Just1kBot

/-- `ORDER BY created_at DESC, id DESC`. -/
def BroadcastProgress.Newer (p q : BroadcastProgress) : Prop :=
  q.createdAt < p.createdAt ∨ q.createdAt = p.createdAt ∧ q.id ≤ p.id

instance : DecidableRel BroadcastProgress.Newer := fun p q =>
  inferInstanceAs (Decidable (q.createdAt < p.createdAt ∨ q.createdAt = p.createdAt ∧ q.id ≤ p.id))

/-- `resume_items`, by their ids, and `stop_ids`: a row is stopped where its admin has a broadcast
    that runs, or a newer one that is resumed. -/
def resumePlan (inProgress : List TelegramId) :
    List BroadcastProgress → List TelegramId → List ProgressId × List ProgressId
  | [], _ => ([], [])
  | p :: pending, seenAdmins =>
    if inProgress.contains p.adminId || seenAdmins.contains p.adminId then
      let plan := resumePlan inProgress pending seenAdmins
      (plan.1, p.id :: plan.2)
    else
      let plan := resumePlan inProgress pending (p.adminId :: seenAdmins)
      (p.id :: plan.1, plan.2)

/-- The broadcasts, and `_broadcast_in_progress`. -/
structure BroadcastProcess where
  broadcasts : List Broadcast := []
  inProgress : List TelegramId := []
  deriving DecidableEq, Repr

inductive BroadcastProcessEvent
  /-- A broadcast is launched. -/
  | launches (adminId : TelegramId) (createdAt : Time)
  /-- A launch claims its admin, or gives the claim up. -/
  | claims (adminId : TelegramId) (claimed : Bool)
  /-- A task of a broadcast takes its first step. -/
  | starts (id : ProgressId)
  /-- A worker of a broadcast takes its next step. -/
  | works (id : ProgressId) (n : ℕ) (i : WorkerInput)
  /-- `_cleanup_old_records` runs: `stuck` are the rows that were left alone for two hours. -/
  | cleansUp (stuck : ProgressId → Bool)
  /-- `resume_pending_broadcasts` runs. -/
  | resumes
  | crashes

namespace BroadcastProcess

/-- What `resume_pending_broadcasts` plans. -/
def plan (f : BroadcastProcess) : List ProgressId × List ProgressId :=
  let pending := (f.broadcasts.map Broadcast.progress).filter fun p => p.status = .inProgress
  resumePlan f.inProgress (pending.insertionSort BroadcastProgress.Newer) []

/-- What `resume_pending_broadcasts` does to a broadcast. Rows that are left in `stopping` are
    stopped too. -/
def resumeEvent (plan : List ProgressId × List ProgressId) (p : BroadcastProgress) :
    Option BroadcastEvent :=
  if p.status = .stopping then some .stop
  else if p.status ≠ .inProgress then none
  else if plan.2.contains p.id then some .stop
  else if plan.1.contains p.id then some .spawn
  else none

/-- What an event does to a broadcast. -/
def eventOf (f : BroadcastProcess) (p : BroadcastProgress) :
    BroadcastProcessEvent → Option BroadcastEvent
  | .launches _ _ => none
  | .claims _ _ => none
  | .starts id => if p.id = id then some .start else none
  | .works id n i => if p.id = id then some (.work n i) else none
  | .cleansUp stuck => if p.status = .inProgress ∧ stuck p.id then some .stop else none
  | .resumes => resumeEvent f.plan p
  | .crashes => some .crash

/-- A broadcast after an event. -/
def after (f : BroadcastProcess) (e : BroadcastProcessEvent) (b : Broadcast) : Broadcast :=
  match f.eventOf b.progress e with
  | none => b
  | some e => b.step e

/-- The row that a launch inserts, and its task. -/
def launched (f : BroadcastProcess) : BroadcastProcessEvent → List Broadcast
  | .launches adminId createdAt =>
    let last := (f.broadcasts.map fun b => b.progress.id).foldr max 0
    [{ progress := { id := last + 1, adminId, createdAt }, waiting := 1 }]
  | _ => []

/-- `_broadcast_in_progress` after an event: a worker puts its admin in and takes it out at its end. -/
def inProgressAfter (f : BroadcastProcess) (e : BroadcastProcessEvent) : List TelegramId :=
  match e with
  | .launches adminId _ => adminId :: f.inProgress
  | .claims adminId claimed =>
    if claimed then adminId :: f.inProgress else f.inProgress.filter fun a => a ≠ adminId
  | .resumes =>
    ((f.broadcasts.filter fun b => f.plan.1.contains b.progress.id).map
      fun b => b.progress.adminId) ++ f.inProgress
  | .crashes => []
  | e =>
    let admins (p : Broadcast → Bool) := (f.broadcasts.filter p).map fun b => b.progress.adminId
    let ended := admins fun b => b.active && !(f.after e b).active
    (admins fun b => !b.active && (f.after e b).active) ++
      f.inProgress.filter fun a => !ended.contains a

def step (f : BroadcastProcess) (e : BroadcastProcessEvent) : BroadcastProcess where
  broadcasts := f.broadcasts.map (f.after e) ++ f.launched e
  inProgress := f.inProgressAfter e

/-- Every broadcast keeps its promises. -/
def Promises (f : BroadcastProcess) : Prop := ∀ b ∈ f.broadcasts, b.Promises

/-- The last processed ids never go back. -/
def NeverBack (f : BroadcastProcess) (e : BroadcastProcessEvent) : Prop :=
  ∀ b ∈ f.broadcasts, b.progress.lastProcessedId ≤ (f.after e b).progress.lastProcessedId

/-- No finalisation meets a row that is not in progress. -/
def Attends (f : BroadcastProcess) (e : BroadcastProcessEvent) : Prop :=
  ∀ b ∈ f.broadcasts, ∀ e' ∈ f.eventOf b.progress e, b.Attends e'

instance (f : BroadcastProcess) (e : BroadcastProcessEvent) : Decidable (f.Attends e) :=
  inferInstanceAs (Decidable (∀ b ∈ f.broadcasts, ∀ e' ∈ f.eventOf b.progress e, b.Attends e'))

/-- No broadcast has been worked on. -/
def Opened (f : BroadcastProcess) : Prop :=
  ∀ b ∈ f.broadcasts, b = { progress := b.progress } ∧ b.progress.status ≠ .completed ∧
    b.progress.successCount = 0 ∧ b.progress.failCount = 0

/-! ### Runs -/

def Sound (f : BroadcastProcess) : Prop := ∀ b ∈ f.broadcasts, b.Sound

variable {f : BroadcastProcess}

/-- A broadcast that has not been worked on. -/
theorem sound_opened {b : Broadcast} (hb : b = { progress := b.progress, waiting := b.waiting })
    (hstatus : b.progress.status ≠ .completed) (hsuccess : b.progress.successCount = 0)
    (hfail : b.progress.failCount = 0) : b.Sound ∧ b.Promises := by
  have hsound : b.Sound := by
    rw [hb]
    refine ⟨List.Pairwise.nil, le_rfl, ?_, .inl ⟨rfl, rfl⟩, fun _ ha => absurd ha List.not_mem_nil,
      fun hout => absurd hout (by simp), fun _ hp => absurd hp List.not_mem_nil⟩
    simp [hsuccess, hfail]
  refine ⟨hsound, hsound.promises (fun h => absurd h hstatus) fun _ => hstatus⟩

theorem sound_of_opened (hf : f.Opened) : f.Sound ∧ f.Promises := by
  have hall (b : Broadcast) (hb : b ∈ f.broadcasts) : b.Sound ∧ b.Promises := by
    obtain ⟨heq, hstatus, hsuccess, hfail⟩ := hf b hb
    refine sound_opened ?_ hstatus hsuccess hfail
    rw [heq]
  exact ⟨fun b hb => (hall b hb).1, fun b hb => (hall b hb).2⟩

theorem after_sound {b : Broadcast} (hs : b.Sound) (e : BroadcastProcessEvent) :
    (f.after e b).Sound := by
  rw [after]
  split
  · exact hs
  · exact b.sound_step _ hs

theorem launched_sound (f : BroadcastProcess) (e : BroadcastProcessEvent) :
    ∀ b ∈ f.launched e, b.Sound ∧ b.Promises := by
  intro b hb
  cases e with
  | launches adminId createdAt =>
    rw [List.mem_singleton.mp hb]
    exact sound_opened rfl (by simp) rfl rfl
  | _ => cases hb

theorem sound_step (f : BroadcastProcess) (e : BroadcastProcessEvent) (hs : f.Sound) :
    (f.step e).Sound := by
  intro b hb
  rcases List.mem_append.mp hb with hb | hb
  · obtain ⟨b, hmem, rfl⟩ := List.mem_map.mp hb
    exact after_sound (hs b hmem) e
  · exact (f.launched_sound e b hb).1

theorem after_promises_iff {b : Broadcast} (hs : b.Sound) (hp : b.Promises)
    (e : BroadcastProcessEvent) :
    (f.after e b).Promises ↔ ∀ e' ∈ f.eventOf b.progress e, b.Attends e' := by
  rw [after]
  rcases f.eventOf b.progress e with _ | e'
  · exact iff_of_true hp fun _ h => absurd h (Option.not_mem_none _)
  · refine (Broadcast.promises_step_iff hs hp e').trans ⟨fun h e'' he'' => ?_, fun h => h e' rfl⟩
    rw [← Option.some.inj he'']
    exact h

theorem promises_step_iff (hs : f.Sound) (hp : f.Promises) (e : BroadcastProcessEvent) :
    (f.step e).Promises ↔ f.Attends e := by
  constructor
  · intro h b hb
    exact (after_promises_iff (hs b hb) (hp b hb) e).mp
      (h _ (List.mem_append_left _ (List.mem_map_of_mem hb)))
  · intro h b hb
    rcases List.mem_append.mp hb with hb | hb
    · obtain ⟨b, hmem, rfl⟩ := List.mem_map.mp hb
      exact (after_promises_iff (hs b hmem) (hp b hmem) e).mpr (h b hmem)
    · exact (f.launched_sound e b hb).2

theorem neverBack (hs : f.Sound) (e : BroadcastProcessEvent) : f.NeverBack e := by
  intro b hb
  rw [after]
  split
  · exact le_rfl
  · exact Broadcast.lastProcessedId_le_step (hs b hb) _

/-- The process crashes while an attempt waits for its checkpoint, and the broadcast is resumed. -/
def crashed : List BroadcastProcessEvent :=
  [.claims 7 true, .launches 7 0, .starts 1, .works 1 0 {},
   .works 1 0 { audience := ⟨[5, 3], by decide⟩ },
   .works 1 0 {}, .works 1 0 {}, .works 1 0 {}, .crashes, .resumes, .starts 1,
   .works 1 0 {}, .works 1 0 { audience := ⟨[5, 3], by decide⟩ },
   .works 1 0 { first := .retryAfter, second := .forbidden }, .works 1 0 {}, .works 1 0 {},
   .works 1 0 {}, .works 1 0 { audience := ⟨[5, 3], by decide⟩ }, .works 1 0 {}]

/-- The clean-up stops the row while its worker waits for a recipient. -/
def stuck : List BroadcastProcessEvent :=
  [.claims 7 true, .launches 7 0, .starts 1, .works 1 0 {},
   .works 1 0 { audience := ⟨[3, 5], by decide⟩ }, .works 1 0 {}, .cleansUp fun _ => true,
   .works 1 0 {}, .works 1 0 {}, .works 1 0 {}, .works 1 0 {},
   .works 1 0 { audience := ⟨[8], by decide⟩ }, .works 1 0 {}]

end BroadcastProcess

end Just1kBot
