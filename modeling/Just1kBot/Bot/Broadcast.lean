import Just1kBot.Lib.Keyset
import Just1kBot.Models

/-! One broadcast: its row of `broadcast_progress`, and the workers that
    `_send_broadcast_to_users_with_resume` of `bot/handlers/admin/broadcast.py` makes of its tasks.

    A worker goes from one transaction or sending to the next; in between the row may be stopped from
    outside, and the process may crash. Who belongs to the audience is told anew for each batch.
    Rows are not deleted here: the clean-up deletes one only when it was left alone for a week. -/

namespace Just1kBot

abbrev ProgressId := ℕ

/-- `BroadcastProgress.status`. -/
inductive BroadcastStatus | inProgress | completed | stopped | stopping
  deriving DecidableEq, Repr

structure BroadcastProgress where
  id : ProgressId
  adminId : TelegramId
  createdAt : Time
  status : BroadcastStatus := .inProgress
  lastProcessedId : UserId := 0
  successCount : ℕ := 0
  failCount : ℕ := 0
  deriving DecidableEq, Repr

/-- What `_dispatch_message` comes to. -/
inductive DispatchOutcome | delivered | forbidden | retryAfter | failed
  deriving DecidableEq, Repr

/-- A recipient after the tries, with `is_success` and `is_forbidden`. -/
structure SendAttempt where
  user : UserId
  isSuccess : Bool
  isForbidden : Bool
  deriving DecidableEq, Repr

/-- The tries for one recipient: the second one only where the first is told to wait. -/
def sendAttempt (user : UserId) (first second : DispatchOutcome) : SendAttempt :=
  match first, second with
  | .delivered, _ => ⟨user, true, false⟩
  | .forbidden, _ => ⟨user, false, true⟩
  | .failed, _ => ⟨user, false, false⟩
  | .retryAfter, .delivered => ⟨user, true, false⟩
  | .retryAfter, .forbidden => ⟨user, false, true⟩
  | .retryAfter, .retryAfter => ⟨user, false, false⟩
  | .retryAfter, .failed => ⟨user, false, false⟩

/-- What a worker does next. -/
inductive WorkerPlace
  /-- The row is read for the first time. -/
  | opening
  /-- The status and the next batch are read. -/
  | querying (lastId : UserId)
  /-- The next of these is tried. -/
  | sending (lastId : UserId) (batch : List UserId)
  /-- The attempt is written to the row. -/
  | checkpointing (a : SendAttempt) (rest : List UserId)
  /-- The recipient is marked as one who has blocked the bot. -/
  | marking (lastId : UserId) (rest : List UserId)
  /-- The row is completed. -/
  | finalizing
  /-- An exception is handled. -/
  | handling
  deriving DecidableEq, Repr

/-- The users that the audience filter admits; ids are primary keys. -/
structure Audience where
  ids : List UserId
  nodup : ids.Nodup

/-- What a worker meets at a step. A transaction that raises may have been applied all the same. -/
structure WorkerInput where
  audience : Audience := ⟨[], List.nodup_nil⟩
  first : DispatchOutcome := .delivered
  second : DispatchOutcome := .delivered
  fault : Option Bool := none

/-- A broadcast: its row, the tasks that have not taken their first step, the workers, and whether the
    id is in `_active_broadcast_progress_ids`. The rest is history: who was tried, the last one
    first, and whether the checkpoint was committed; who was marked; whether the last batch was
    empty; whether the row was stopped from outside; and how often a worker was cut off. -/
structure Broadcast where
  progress : BroadcastProgress
  waiting : ℕ := 0
  workers : List WorkerPlace := []
  active : Bool := false
  attempts : List (UserId × Bool) := []
  botBlocked : List UserId := []
  exhausted : Bool := false
  stoppedOutside : Bool := false
  cutOffs : ℕ := 0
  deriving DecidableEq, Repr

inductive BroadcastEvent
  /-- A task is created. -/
  | spawn
  /-- A task takes its first step. -/
  | start
  /-- A worker takes its next step. -/
  | work (n : ℕ) (i : WorkerInput)
  /-- The row is set to `stopped` from outside. -/
  | stop
  | crash

/-- `_get_next_batch`, with its default limit. -/
def getNextBatch (audience : Audience) (lastId : UserId) : List UserId :=
  Lib.Keyset.page id 50 lastId audience.ids

namespace Broadcast

def withStatus (status : BroadcastStatus) (b : Broadcast) : Broadcast :=
  { b with progress := { b.progress with status } }

/-- The end of a worker. -/
def leave (b : Broadcast) : Broadcast := { b with active := false }

/-- The last attempt was committed. -/
def commitLast : List (UserId × Bool) → List (UserId × Bool)
  | [] => []
  | a :: as => (a.1, true) :: as

/-- The durable checkpoint. -/
def checkpoint (a : SendAttempt) (b : Broadcast) : Broadcast :=
  { b with
    progress :=
      { b.progress with
        lastProcessedId := a.user
        successCount := b.progress.successCount + if a.isSuccess then 1 else 0
        failCount := b.progress.failCount + if a.isSuccess then 0 else 1 }
    attempts := commitLast b.attempts }

/-- An exception cuts a worker off. -/
def cutOff (b : Broadcast) : Broadcast := { b with cutOffs := b.cutOffs + 1 }

/-- The exception handler stops a row that is in progress. -/
def stopIfInProgress (b : Broadcast) : Broadcast :=
  if b.progress.status = .inProgress then b.withStatus .stopped else b

/-- A step of a worker, and what it does next, if it has not ended. -/
def workerStep (b : Broadcast) (i : WorkerInput) : WorkerPlace → Broadcast × Option WorkerPlace
  | .opening =>
    if i.fault.isSome then (b, some .handling)
    else if b.progress.status ≠ .inProgress then (b.leave, none)
    else (b, some (.querying b.progress.lastProcessedId))
  | .querying lastId =>
    if i.fault.isSome then (b, some .handling)
    else if b.progress.status ≠ .inProgress then (b, some .finalizing)
    else
      match getNextBatch i.audience lastId with
      | [] => ({ b with exhausted := true }, some .finalizing)
      | u :: us => ({ b with exhausted := false }, some (.sending lastId (u :: us)))
  | .sending lastId [] => (b, some (.querying lastId))
  | .sending _ (u :: rest) =>
    ({ b with attempts := (u, false) :: b.attempts },
      some (.checkpointing (sendAttempt u i.first i.second) rest))
  | .checkpointing a rest =>
    match i.fault with
    | none =>
      (b.checkpoint a, some (if a.isForbidden then .marking a.user rest else .sending a.user rest))
    | some true => ((b.checkpoint a).cutOff, some .handling)
    | some false => (b.cutOff, some .handling)
  | .marking lastId rest =>
    match i.fault with
    | none => ({ b with botBlocked := lastId :: b.botBlocked }, some (.sending lastId rest))
    | some true => ({ b with botBlocked := lastId :: b.botBlocked }, some .handling)
    | some false => (b, some .handling)
  | .finalizing =>
    match i.fault with
    | none => ((b.withStatus .completed).leave, none)
    | some true => (b.withStatus .completed, some .handling)
    | some false => (b, some .handling)
  | .handling =>
    if i.fault = some false then (b.leave, none) else (b.stopIfInProgress.leave, none)

def step (b : Broadcast) : BroadcastEvent → Broadcast
  | .spawn => { b with waiting := b.waiting + 1 }
  | .start =>
    if b.waiting = 0 then b
    else if b.active then { b with waiting := b.waiting - 1 }
    else
      { b with waiting := b.waiting - 1, active := true, workers := .opening :: b.workers }
  | .work n i =>
    match b.workers[n]? with
    | none => b
    | some place =>
      match b.workerStep i place with
      | (b', some place') => { b' with workers := b.workers.set n place' }
      | (b', none) => { b' with workers := b.workers.eraseIdx n }
  | .stop => { b.withStatus .stopped with stoppedOutside := true }
  | .crash => { b with waiting := 0, workers := [], active := false, cutOffs := b.cutOffs + 1 }

end Broadcast

/-! ### What holds of a broadcast -/

namespace Broadcast

/-- The attempts rise: each is beyond all earlier ones that were committed. -/
def Rising (attempts : List (UserId × Bool)) : Prop :=
  attempts.Pairwise fun later earlier => earlier.2 = true → earlier.1 < later.1

/-- How many attempts were not committed. -/
def uncommitted (attempts : List (UserId × Bool)) : ℕ := attempts.countP fun a => !a.2

/-- An attempt waits for its checkpoint. -/
def inFlight : WorkerPlace → Bool
  | .checkpointing _ _ => true
  | _ => false

/-- What a broadcast promises. -/
structure Promises (b : Broadcast) : Prop where
  /-- Each recipient is beyond all earlier ones but those whose attempt was cut off. -/
  rising : Rising b.attempts
  /-- What cuts a worker off leaves one attempt without its checkpoint at most. -/
  repeats : uncommitted b.attempts ≤ b.cutOffs + b.workers.countP inFlight
  counts : b.progress.successCount + b.progress.failCount = b.attempts.countP fun a => a.2
  single : b.workers.length ≤ 1
  /-- The last batch query before the completion returned nobody. -/
  exhausted : b.progress.status = .completed → b.exhausted = true
  /-- A row that was stopped from outside is not completed. -/
  stopped : b.stoppedOutside = true → b.progress.status ≠ .completed

/-- The row is in progress, or was stopped from outside. -/
def Working (b : Broadcast) : Prop := b.progress.status = .inProgress ∨ b.stoppedOutside = true

/-- The users of a batch rise from the last id on. -/
def RisesFrom (lastId : UserId) (batch : List UserId) : Prop := (lastId :: batch).Pairwise (· < ·)

/-- What holds where a worker is. -/
def Fits (b : Broadcast) : WorkerPlace → Prop
  | .opening | .handling => True
  | .querying lastId => lastId = b.progress.lastProcessedId ∧ b.Working
  | .sending lastId batch | .marking lastId batch =>
    lastId = b.progress.lastProcessedId ∧ RisesFrom lastId batch ∧ b.Working
  | .checkpointing a rest =>
    b.progress.lastProcessedId < a.user ∧ RisesFrom a.user rest ∧
      b.attempts.head? = some (a.user, false) ∧ b.Working
  | .finalizing => (b.exhausted = true ∨ b.progress.status ≠ .inProgress) ∧ b.Working

/-- What every step keeps. -/
structure Sound (b : Broadcast) : Prop where
  rising : Rising b.attempts
  repeats : uncommitted b.attempts ≤ b.cutOffs + b.workers.countP inFlight
  counts : b.progress.successCount + b.progress.failCount = b.attempts.countP fun a => a.2
  single : b.active = false ∧ b.workers = [] ∨ b.active = true ∧ ∃ place, b.workers = [place]
  last : ∀ a ∈ b.attempts, a.2 = true → a.1 ≤ b.progress.lastProcessedId
  outside : b.stoppedOutside = true → b.progress.status ≠ .inProgress
  fits : ∀ place ∈ b.workers, b.Fits place

/-- The finalisation of a worker meets its row in progress. -/
def Attends (b : Broadcast) : BroadcastEvent → Prop
  | .work n i => b.workers[n]? = some .finalizing → i.fault ≠ some false →
      b.progress.status = .inProgress
  | _ => True

instance (b : Broadcast) : ∀ e, Decidable (b.Attends e)
  | .work n i => inferInstanceAs (Decidable (b.workers[n]? = some .finalizing →
      i.fault ≠ some false → b.progress.status = .inProgress))
  | .spawn => .isTrue trivial
  | .start => .isTrue trivial
  | .stop => .isTrue trivial
  | .crash => .isTrue trivial

end Broadcast

theorem getNextBatch_rises (audience : Audience) (lastId : UserId) :
    Broadcast.RisesFrom lastId (getNextBatch audience lastId) := by
  refine List.pairwise_cons.mpr ⟨fun u hu => (Lib.Keyset.mem_of_mem_page hu).2, ?_⟩
  refine Lib.Keyset.pairwise_lt_page ?_
  rw [List.map_id']
  exact audience.nodup

namespace Broadcast

theorem RisesFrom.tail {lastId u : UserId} {rest : List UserId}
    (h : RisesFrom lastId (u :: rest)) : lastId < u ∧ RisesFrom u rest := by
  obtain ⟨hlast, hrest⟩ := List.pairwise_cons.mp h
  exact ⟨hlast u List.mem_cons_self, hrest⟩

theorem RisesFrom.nil (lastId : UserId) : RisesFrom lastId [] := List.pairwise_singleton _ _

section Attempts
variable {attempts : List (UserId × Bool)} {u : UserId}

theorem Rising.push (h : Rising attempts) (hu : ∀ a ∈ attempts, a.2 = true → a.1 < u) :
    Rising ((u, false) :: attempts) := List.pairwise_cons.mpr ⟨hu, h⟩

theorem Rising.commitLast (h : Rising attempts) : Rising (commitLast attempts) := by
  cases attempts with
  | nil => exact h
  | cons a attempts => exact List.pairwise_cons.mpr (List.pairwise_cons.mp h)

theorem uncommitted_commitLast (h : attempts.head? = some (u, false)) :
    uncommitted (commitLast attempts) + 1 = uncommitted attempts := by
  cases attempts with
  | nil => cases h
  | cons a attempts =>
    cases Option.some.inj h
    simp [uncommitted, Broadcast.commitLast]

theorem committed_commitLast (h : attempts.head? = some (u, false)) :
    ((Broadcast.commitLast attempts).countP fun a => a.2) = (attempts.countP fun a => a.2) + 1 := by
  cases attempts with
  | nil => cases h
  | cons a attempts =>
    cases Option.some.inj h
    simp [Broadcast.commitLast]

theorem last_commitLast {last : UserId} (hlast : ∀ a ∈ attempts, a.2 = true → a.1 ≤ last)
    (hu : last < u) (h : attempts.head? = some (u, false)) :
    ∀ a ∈ Broadcast.commitLast attempts, a.2 = true → a.1 ≤ u := by
  cases attempts with
  | nil => cases h
  | cons a attempts =>
    cases Option.some.inj h
    intro a ha hcommitted
    rcases List.mem_cons.mp ha with rfl | ha
    · exact le_rfl
    · exact (hlast a (List.mem_cons_of_mem _ ha) hcommitted).trans hu.le

end Attempts

/-! ### A step of a worker -/

section Worker
variable {b : Broadcast} {place : WorkerPlace}

/-- A worker that has moved on, or ended. -/
def settle (b : Broadcast) (place : Option WorkerPlace) : Broadcast :=
  { b with workers := place.toList }

theorem Sound.attempts_le (hs : Sound b) (hw : b.workers = [place]) :
    uncommitted b.attempts ≤ b.cutOffs + if inFlight place then 1 else 0 := by
  have hrepeats := hs.repeats
  rw [hw, List.countP_singleton] at hrepeats
  exact hrepeats

/-- A worker moves on and leaves the row alone. -/
theorem Sound.move (hs : Sound b) (ha : b.active = true) (hw : b.workers = [place])
    (hflight : inFlight place = false) {exhausted : Bool} {botBlocked : List UserId}
    {place' : WorkerPlace} (hfits : { b with exhausted, botBlocked }.Fits place') :
    Sound ({ b with exhausted, botBlocked }.settle (some place')) where
  rising := hs.rising
  repeats := by
    have hle := hs.attempts_le hw
    rw [hflight] at hle
    exact hle.trans (Nat.le_add_right _ _)
  counts := hs.counts
  single := .inr ⟨ha, place', rfl⟩
  last := hs.last
  outside := hs.outside
  fits := by
    intro p hp
    rw [List.mem_singleton.mp hp]
    cases place' <;> exact hfits

/-- A worker ends. -/
theorem Sound.gone (hs : Sound b) (hw : b.workers = [place]) (hflight : inFlight place = false)
    {status : BroadcastStatus} (hstatus : b.stoppedOutside = true → status ≠ .inProgress) :
    Sound ((b.withStatus status).leave.settle none) where
  rising := hs.rising
  repeats := by
    have hle := hs.attempts_le hw
    rw [hflight] at hle
    exact hle
  counts := hs.counts
  single := .inl ⟨rfl, rfl⟩
  last := hs.last
  outside := hstatus
  fits := fun _ hp => absurd hp List.not_mem_nil

/-- The checkpoint is committed, and the worker goes on or is cut off. -/
theorem Sound.checkpoint (hs : Sound b) (ha : b.active = true) {a : SendAttempt}
    {rest : List UserId} (hw : b.workers = [.checkpointing a rest]) (cut : ℕ)
    {place' : WorkerPlace} (hfits : (b.checkpoint a).Fits place') :
    Sound ({ b.checkpoint a with cutOffs := b.cutOffs + cut }.settle (some place')) := by
  have hmem : WorkerPlace.checkpointing a rest ∈ b.workers := by
    rw [hw]
    exact List.mem_cons_self
  obtain ⟨hlt, -, hhead, -⟩ := hs.fits _ hmem
  refine ⟨hs.rising.commitLast, ?_, ?_, .inr ⟨ha, place', rfl⟩, ?_, hs.outside, ?_⟩
  · have hle := hs.attempts_le hw
    have hone := uncommitted_commitLast hhead
    rw [inFlight, if_pos rfl] at hle
    change uncommitted (commitLast b.attempts) ≤ b.cutOffs + cut + List.countP inFlight [place']
    omega
  · have hcounts := hs.counts
    have hone := committed_commitLast hhead
    change b.progress.successCount + (if a.isSuccess then 1 else 0) +
      (b.progress.failCount + if a.isSuccess then 0 else 1) =
        (commitLast b.attempts).countP fun a => a.2
    rw [hone, ← hcounts]
    rcases a.isSuccess <;> simp <;> omega
  · exact last_commitLast hs.last hlt hhead
  · intro p hp
    rw [List.mem_singleton.mp hp]
    cases place' <;> exact hfits

/-- A recipient is tried. -/
theorem Sound.push (hs : Sound b) (ha : b.active = true) {lastId u : UserId} {rest : List UserId}
    (hw : b.workers = [.sending lastId (u :: rest)]) (a : SendAttempt) (hu : a.user = u) :
    Sound ({ b with attempts := (u, false) :: b.attempts }.settle
      (some (.checkpointing a rest))) := by
  have hmem : WorkerPlace.sending lastId (u :: rest) ∈ b.workers := by
    rw [hw]
    exact List.mem_cons_self
  obtain ⟨rfl, hrises, hworking⟩ := hs.fits _ hmem
  obtain ⟨hlt, hrest⟩ := hrises.tail
  refine ⟨?_, ?_, ?_, .inr ⟨ha, _, rfl⟩, ?_, hs.outside, ?_⟩
  · exact hs.rising.push fun a ha hcommitted => (hs.last a ha hcommitted).trans_lt hlt
  · have hle := hs.attempts_le hw
    simp only [inFlight] at hle
    change uncommitted ((u, false) :: b.attempts) ≤ b.cutOffs + 1
    simp only [uncommitted, List.countP_cons] at hle ⊢
    simpa using hle
  · have hcounts := hs.counts
    change _ = ((u, false) :: b.attempts).countP fun a => a.2
    rw [List.countP_cons_of_neg (by simp)]
    exact hcounts
  · intro a ha hcommitted
    rcases List.mem_cons.mp ha with rfl | ha
    · cases hcommitted
    · exact hs.last a ha hcommitted
  · intro p hp
    rw [List.mem_singleton.mp hp]
    subst hu
    exact ⟨hlt, hrest, rfl, hworking⟩

/-- An exception cuts off an attempt that waits for its checkpoint. -/
theorem Sound.cutOff (hs : Sound b) (ha : b.active = true) (hw : b.workers = [place]) :
    Sound (b.cutOff.settle (some .handling)) where
  rising := hs.rising
  repeats := by
    have hle := hs.attempts_le hw
    change uncommitted b.attempts ≤ b.cutOffs + 1 + 0
    split_ifs at hle <;> omega
  counts := hs.counts
  single := .inr ⟨ha, _, rfl⟩
  last := hs.last
  outside := hs.outside
  fits := by
    intro p hp
    rw [List.mem_singleton.mp hp]
    trivial

theorem user_sendAttempt (u : UserId) (first second : DispatchOutcome) :
    (sendAttempt u first second).user = u := by
  cases first <;> cases second <;> rfl

theorem workerStep_sound (hs : Sound b) (ha : b.active = true) (hw : b.workers = [place])
    (i : WorkerInput) :
    Sound ((b.workerStep i place).1.settle (b.workerStep i place).2) := by
  have hmem : place ∈ b.workers := by
    rw [hw]
    exact List.mem_cons_self
  have hfits := hs.fits place hmem
  cases place with
  | opening =>
    simp only [workerStep]
    split_ifs with hfault hstatus
    · exact hs.move ha hw rfl trivial
    · exact hs.gone hw rfl hs.outside
    · exact hs.move ha hw rfl ⟨rfl, .inl (not_not.mp hstatus)⟩
  | querying lastId =>
    obtain ⟨rfl, hworking⟩ := hfits
    simp only [workerStep]
    split_ifs with hfault hstatus
    · exact hs.move ha hw rfl trivial
    · exact hs.move ha hw rfl ⟨.inr hstatus, hworking⟩
    · have hrises := getNextBatch_rises i.audience b.progress.lastProcessedId
      generalize getNextBatch i.audience b.progress.lastProcessedId = batch at hrises ⊢
      rcases batch with _ | ⟨u, us⟩
      · exact hs.move ha hw rfl ⟨.inl rfl, hworking⟩
      · exact hs.move ha hw rfl ⟨rfl, hrises, hworking⟩
  | sending lastId batch =>
    cases batch with
    | nil =>
      obtain ⟨rfl, -, hworking⟩ := hfits
      exact hs.move ha hw rfl ⟨rfl, hworking⟩
    | cons u rest => exact hs.push ha hw _ (user_sendAttempt u i.first i.second)
  | checkpointing a rest =>
    obtain ⟨hlt, hrest, hhead, hworking⟩ := hfits
    simp only [workerStep]
    rcases i.fault with _ | _ | _
    · refine hs.checkpoint ha hw 0 ?_
      cases a.isForbidden <;> exact ⟨rfl, hrest, hworking⟩
    · exact hs.cutOff ha hw
    · exact hs.checkpoint ha hw 1 trivial
  | marking lastId rest =>
    simp only [workerStep]
    rcases i.fault with _ | _ | _
    · exact hs.move ha hw rfl hfits
    · exact hs.move ha hw rfl trivial
    · exact hs.move ha hw rfl trivial
  | finalizing =>
    have hcompleted : BroadcastStatus.completed ≠ .inProgress := by decide
    simp only [workerStep]
    rcases i.fault with _ | _ | _
    · exact hs.gone hw rfl fun _ => hcompleted
    · exact hs.move ha hw rfl trivial
    · refine ⟨hs.rising, ?_, hs.counts, .inr ⟨ha, _, rfl⟩, hs.last, fun _ => hcompleted, ?_⟩
      · exact hs.attempts_le hw
      · intro p hp
        rw [List.mem_singleton.mp hp]
        trivial
  | handling =>
    have hstopped : BroadcastStatus.stopped ≠ .inProgress := by decide
    simp only [workerStep, stopIfInProgress]
    split_ifs
    · exact hs.gone hw rfl hs.outside
    · exact hs.gone hw rfl fun _ => hstopped
    · exact hs.gone hw rfl hs.outside

/-- A step of a worker is one of the only worker, or none. -/
theorem step_work (hs : Sound b) (n : ℕ) (i : WorkerInput) :
    b.workers[n]? = none ∧ b.step (.work n i) = b ∨
    ∃ place, n = 0 ∧ b.active = true ∧ b.workers = [place] ∧
      b.step (.work n i) = (b.workerStep i place).1.settle (b.workerStep i place).2 := by
  rcases hs.single with ⟨-, hw⟩ | ⟨ha, place, hw⟩
  · left
    simp [step, hw]
  · cases n with
    | zero =>
      right
      refine ⟨place, rfl, ha, hw, ?_⟩
      simp only [step, hw, List.getElem?_cons_zero]
      rcases hstep : b.workerStep i place with ⟨b', _ | place'⟩
      · simp [settle]
      · simp [settle]
    | succ n =>
      left
      simp [step, hw]

end Worker

/-! ### Every step -/

variable {b : Broadcast}

/-- The row is stopped from outside. -/
theorem Sound.stop (hs : Sound b) : Sound (b.step .stop) := by
  refine ⟨hs.rising, hs.repeats, hs.counts, hs.single, hs.last, fun _ => ?_, fun place hp => ?_⟩
  · change BroadcastStatus.stopped ≠ .inProgress
    decide
  · have hfits := hs.fits place hp
    cases place with
    | opening => trivial
    | querying lastId => exact ⟨hfits.1, .inr rfl⟩
    | sending lastId batch => exact ⟨hfits.1, hfits.2.1, .inr rfl⟩
    | checkpointing a rest => exact ⟨hfits.1, hfits.2.1, hfits.2.2.1, .inr rfl⟩
    | marking lastId rest => exact ⟨hfits.1, hfits.2.1, .inr rfl⟩
    | finalizing =>
      refine ⟨.inr ?_, .inr rfl⟩
      change BroadcastStatus.stopped ≠ .inProgress
      decide
    | handling => trivial

theorem Sound.crash (hs : Sound b) : Sound (b.step .crash) where
  rising := hs.rising
  repeats := by
    have hrepeats := hs.repeats
    change uncommitted b.attempts ≤ b.cutOffs + 1 + 0
    rcases hs.single with ⟨-, hw⟩ | ⟨-, place, hw⟩
    · rw [hw, List.countP_nil] at hrepeats
      omega
    · rw [hw, List.countP_singleton] at hrepeats
      split_ifs at hrepeats <;> omega
  counts := hs.counts
  single := .inl ⟨rfl, rfl⟩
  last := hs.last
  outside := hs.outside
  fits := fun _ hp => absurd hp List.not_mem_nil

/-- A task begins, unless a worker is there already. -/
theorem Sound.start (hs : Sound b) : Sound (b.step .start) := by
  simp only [step]
  split_ifs with hwaiting hactive
  · exact hs
  · exact ⟨hs.rising, hs.repeats, hs.counts, hs.single, hs.last, hs.outside, hs.fits⟩
  · rcases hs.single with ⟨-, hw⟩ | ⟨ha, -⟩
    · have hrepeats := hs.repeats
      rw [hw] at hrepeats
      refine ⟨hs.rising, ?_, hs.counts, .inr ⟨rfl, .opening, by rw [hw]⟩, hs.last, hs.outside, ?_⟩
      · rw [hw]
        exact hrepeats
      · intro place hp
        rw [hw] at hp
        rw [List.mem_singleton.mp hp]
        trivial
    · exact absurd ha hactive

theorem sound_step (b : Broadcast) (e : BroadcastEvent) (hs : Sound b) : Sound (b.step e) := by
  cases e with
  | spawn => exact ⟨hs.rising, hs.repeats, hs.counts, hs.single, hs.last, hs.outside, hs.fits⟩
  | start => exact hs.start
  | work n i =>
    rcases step_work hs n i with ⟨-, heq⟩ | ⟨place, -, ha, hw, heq⟩
    · rw [heq]
      exact hs
    · rw [heq]
      exact workerStep_sound hs ha hw i
  | stop => exact hs.stop
  | crash => exact hs.crash

/-! ### The promises -/

theorem Sound.promises (hs : Sound b)
    (hexhausted : b.progress.status = .completed → b.exhausted = true)
    (hstopped : b.stoppedOutside = true → b.progress.status ≠ .completed) : Promises b where
  rising := hs.rising
  repeats := hs.repeats
  counts := hs.counts
  single := by
    rcases hs.single with ⟨-, hw⟩ | ⟨-, place, hw⟩
    · rw [hw]
      exact Nat.zero_le 1
    · rw [hw]
      exact le_rfl
  exhausted := hexhausted
  stopped := hstopped

/-- The finalisation keeps the promises exactly where it meets the row in progress. -/
theorem promises_finalizing_iff (hs : Sound b) (hp : Promises b) (ha : b.active = true)
    (hw : b.workers = [.finalizing]) (i : WorkerInput) :
    Promises ((b.workerStep i .finalizing).1.settle (b.workerStep i .finalizing).2) ↔
      (i.fault ≠ some false → b.progress.status = .inProgress) := by
  have hsound := workerStep_sound hs ha hw i
  have hmem : WorkerPlace.finalizing ∈ b.workers := by
    rw [hw]
    exact List.mem_cons_self
  obtain ⟨hexhausted, hworking⟩ := hs.fits _ hmem
  have hcompletes (hstatus : b.progress.status = .inProgress) :
      b.exhausted = true ∧ ¬ b.stoppedOutside = true :=
    ⟨hexhausted.resolve_right (not_not.mpr hstatus), fun hout => hs.outside hout hstatus⟩
  simp only [workerStep] at hsound ⊢
  generalize i.fault = fault at hsound ⊢
  rcases fault with _ | _ | _
  · constructor
    · intro h _
      exact hworking.resolve_right fun hout => h.stopped hout rfl
    · intro h
      obtain ⟨hdone, hinside⟩ := hcompletes (h (by simp))
      exact hsound.promises (fun _ => hdone) fun hout => absurd hout hinside
  · exact ⟨fun _ h => absurd rfl h, fun _ => hsound.promises hp.exhausted hp.stopped⟩
  · constructor
    · intro h _
      exact hworking.resolve_right fun hout => h.stopped hout rfl
    · intro h
      obtain ⟨hdone, hinside⟩ := hcompletes (h (by simp))
      exact hsound.promises (fun _ => hdone) fun hout => absurd hout hinside

/-- No other step of a worker completes the row. -/
theorem promises_workerStep (hs : Sound b) (hp : Promises b) {place : WorkerPlace}
    (ha : b.active = true) (hw : b.workers = [place]) (hplace : place ≠ .finalizing)
    (i : WorkerInput) :
    Promises ((b.workerStep i place).1.settle (b.workerStep i place).2) := by
  have hsound := workerStep_sound hs ha hw i
  cases place with
  | opening =>
    simp only [workerStep] at hsound ⊢
    split_ifs at hsound ⊢ <;> exact hsound.promises hp.exhausted hp.stopped
  | querying lastId =>
    simp only [workerStep] at hsound ⊢
    split_ifs at hsound ⊢ with hfault hstatus
    · exact hsound.promises hp.exhausted hp.stopped
    · exact hsound.promises hp.exhausted hp.stopped
    · have hstatus := not_not.mp hstatus
      have hnot : b.progress.status ≠ .completed := by
        rw [hstatus]
        decide
      generalize getNextBatch i.audience lastId = batch at hsound ⊢
      rcases batch with _ | ⟨u, us⟩
      · exact hsound.promises (fun _ => rfl) hp.stopped
      · exact hsound.promises (fun h => absurd h hnot) hp.stopped
  | sending lastId batch =>
    cases batch with
    | nil => exact hsound.promises hp.exhausted hp.stopped
    | cons u rest => exact hsound.promises hp.exhausted hp.stopped
  | checkpointing a rest =>
    simp only [workerStep] at hsound ⊢
    generalize i.fault = fault at hsound ⊢
    rcases fault with _ | _ | _ <;> exact hsound.promises hp.exhausted hp.stopped
  | marking lastId rest =>
    simp only [workerStep] at hsound ⊢
    generalize i.fault = fault at hsound ⊢
    rcases fault with _ | _ | _ <;> exact hsound.promises hp.exhausted hp.stopped
  | finalizing => exact absurd rfl hplace
  | handling =>
    have hstopped : BroadcastStatus.stopped ≠ .completed := by decide
    simp only [workerStep, stopIfInProgress] at hsound ⊢
    split_ifs at hsound ⊢
    · exact hsound.promises hp.exhausted hp.stopped
    · exact hsound.promises (fun h => absurd h hstopped) fun _ => hstopped
    · exact hsound.promises hp.exhausted hp.stopped

/-- A step keeps the promises exactly where no finalisation meets a row that is not in progress. -/
theorem promises_step_iff (hs : Sound b) (hp : Promises b) (e : BroadcastEvent) :
    Promises (b.step e) ↔ b.Attends e := by
  have hsound := sound_step b e hs
  cases e with
  | spawn => exact iff_of_true (hsound.promises hp.exhausted hp.stopped) trivial
  | start =>
    refine iff_of_true ?_ trivial
    simp only [step] at hsound ⊢
    split_ifs at hsound ⊢ <;> exact hsound.promises hp.exhausted hp.stopped
  | work n i =>
    rcases step_work hs n i with ⟨hnone, heq⟩ | ⟨place, rfl, ha, hw, heq⟩
    · rw [heq]
      refine iff_of_true hp fun hsome => ?_
      rw [hnone] at hsome
      cases hsome
    · rw [heq, Attends, hw, List.getElem?_cons_zero]
      by_cases hplace : place = .finalizing
      · subst hplace
        rw [promises_finalizing_iff hs hp ha hw i]
        exact ⟨fun h _ => h, fun h => h rfl⟩
      · refine iff_of_true (promises_workerStep hs hp ha hw hplace i) fun hsome => ?_
        exact absurd (Option.some.inj hsome) hplace
  | stop =>
    have hstopped : BroadcastStatus.stopped ≠ .completed := by decide
    exact iff_of_true (hsound.promises (fun h => absurd h hstopped) fun _ => hstopped) trivial
  | crash => exact iff_of_true (hsound.promises hp.exhausted hp.stopped) trivial

/-- The last processed id never goes back. -/
theorem lastProcessedId_le_step (hs : Sound b) (e : BroadcastEvent) :
    b.progress.lastProcessedId ≤ (b.step e).progress.lastProcessedId := by
  cases e with
  | work n i =>
    rcases step_work hs n i with ⟨-, heq⟩ | ⟨place, -, ha, hw, heq⟩
    · rw [heq]
    · have hmem : place ∈ b.workers := by
        rw [hw]
        exact List.mem_cons_self
      have hfits := hs.fits place hmem
      rw [heq]
      cases place with
      | checkpointing a rest =>
        simp only [workerStep]
        rcases i.fault with _ | _ | _
        · exact hfits.1.le
        · exact le_rfl
        · exact hfits.1.le
      | opening =>
        simp only [workerStep]
        split_ifs <;> exact le_rfl
      | querying lastId =>
        simp only [workerStep]
        split_ifs
        · exact le_rfl
        · exact le_rfl
        · split <;> exact le_rfl
      | sending lastId batch => cases batch <;> exact le_rfl
      | marking lastId rest =>
        simp only [workerStep]
        rcases i.fault with _ | _ | _ <;> exact le_rfl
      | finalizing =>
        simp only [workerStep]
        rcases i.fault with _ | _ | _ <;> exact le_rfl
      | handling =>
        simp only [workerStep, stopIfInProgress]
        split_ifs <;> exact le_rfl
  | start =>
    simp only [step]
    split_ifs <;> exact le_rfl
  | spawn => exact le_rfl
  | stop => exact le_rfl
  | crash => exact le_rfl

end Broadcast

end Just1kBot
