import Just1kBot.Lib.Transition
import Mathlib.Data.List.Nodup
import Mathlib.Tactic.Linarith

/-! Post-commit tasks: `database/connection.py`.

    A task is queued on the session and stays there whatever the session commits or rolls back in
    the meantime: the list is read once, when the scope ends. A scope that ends well starts all of
    it, any other scope none. So a task follows its own transaction exactly when that transaction
    fared as the scope did. -/

namespace Just1kBot

/-- A queued task, with the number of the transaction it was queued in. -/
structure PostCommitTask where
  number : ℕ
  transaction : ℕ
  deriving DecidableEq, Repr

/-- What the outside sees of a scope. -/
inductive ScopeEvent
  | committed (transaction : ℕ)
  | started (task : PostCommitTask)
  deriving DecidableEq, Repr

/-- A session with its `info["post_commit_tasks"]`, the transactions and tasks counted, and what
    was seen so far. -/
structure DbSession where
  postCommitTasks : List PostCommitTask := []
  queued : ℕ := 0
  transaction : ℕ := 0
  trace : List ScopeEvent := []
  deriving DecidableEq, Repr

namespace DbSession

/-- `queue_post_commit_task`. -/
def queuePostCommitTask (s : DbSession) : DbSession :=
  { s with
    postCommitTasks := s.postCommitTasks ++ [⟨s.queued, s.transaction⟩]
    queued := s.queued + 1 }

/-- `session.commit()`, which may fail and leave its transaction uncommitted. -/
def commit (s : DbSession) (committed : Bool) : DbSession :=
  { s with
    transaction := s.transaction + 1
    trace := s.trace ++ if committed then [.committed s.transaction] else [] }

/-- `session.rollback()`. -/
def rollback (s : DbSession) : DbSession := { s with transaction := s.transaction + 1 }

/-- `_run_post_commit_tasks`. -/
def runPostCommitTasks (s : DbSession) : DbSession :=
  { s with
    postCommitTasks := []
    trace := s.trace ++ s.postCommitTasks.map .started }

/-- `session.info.pop("post_commit_tasks", None)`. -/
def dropPostCommitTasks (s : DbSession) : DbSession := { s with postCommitTasks := [] }

end DbSession

/-- What the body of a scope does with its session. -/
inductive ScopeAction
  | queue
  | commit (committed : Bool)
  | rollback
  | work
  deriving DecidableEq, Repr

def DbSession.act (s : DbSession) : ScopeAction → DbSession
  | .queue => s.queuePostCommitTask
  | .commit committed => s.commit committed
  | .rollback => s.rollback
  | .work => s

/-- How a scope ends: its own commit succeeds; it fails; it takes effect and is interrupted; or the
    body raised before it. -/
inductive ScopeEnding
  | completed
  | commitFailed
  | commitInterrupted
  | raised
  deriving DecidableEq, Repr

/-- The end of `session_scope`. -/
def DbSession.leave (s : DbSession) : ScopeEnding → DbSession
  | .completed => (s.commit true).runPostCommitTasks
  | .commitFailed => (s.commit false).rollback.dropPostCommitTasks
  | .commitInterrupted => (s.commit true).rollback.dropPostCommitTasks
  | .raised => s.rollback.dropPostCommitTasks

/-- `session_scope`, from the actions its body got through. -/
def sessionScope (body : List ScopeAction) (ending : ScopeEnding) : DbSession :=
  (Lib.run DbSession.act {} body).leave ending

/-! ### What a task should do -/

/-- The task is started when its transaction was committed and only then, once at most, and not
    before the commit. -/
structure FollowsTransaction (trace : List ScopeEvent) (t : PostCommitTask) : Prop where
  started_iff : .started t ∈ trace ↔ .committed t.transaction ∈ trace
  once : trace.count (.started t) ≤ 1
  after : ∀ before later, trace = before ++ .started t :: later → .committed t.transaction ∈ before

/-- The task a body that begins with `before` queues next. -/
def nextTask (before : List ScopeAction) : PostCommitTask :=
  let s := Lib.run DbSession.act {} before
  ⟨s.queued, s.transaction⟩

/-- Whether the transaction that runs when the rest of the body begins is committed. -/
def Commits (ending : ScopeEnding) : List ScopeAction → Prop
  | [] => ending = .completed ∨ ending = .commitInterrupted
  | .commit committed :: _ => committed = true
  | .rollback :: _ => False
  | .queue :: rest => Commits ending rest
  | .work :: rest => Commits ending rest

instance decidableCommits (ending : ScopeEnding) : ∀ rest, Decidable (Commits ending rest)
  | [] => inferInstanceAs (Decidable (_ ∨ _))
  | .commit committed :: _ => inferInstanceAs (Decidable (committed = true))
  | .rollback :: _ => .isFalse id
  | .queue :: rest => decidableCommits ending rest
  | .work :: rest => decidableCommits ending rest

/-! ### The body of a scope -/

/-- What the session of a running body looks like: only commits were seen, of transactions past,
    and the tasks queued so far wait under numbers of their own. -/
structure DbSession.Running (s : DbSession) : Prop where
  seen : ∀ e ∈ s.trace, ∃ n < s.transaction, e = .committed n
  numbered : ∀ t ∈ s.postCommitTasks, t.number < s.queued
  nodup : (s.postCommitTasks.map PostCommitTask.number).Nodup

namespace DbSession.Running
variable {s : DbSession}

theorem act (h : s.Running) (a : ScopeAction) : (s.act a).Running := by
  cases a with
  | queue =>
    refine ⟨h.seen, fun t ht => ?_, ?_⟩
    · rcases List.mem_append.mp ht with ht | ht
      · exact (h.numbered t ht).trans (Nat.lt_succ_self _)
      · rw [List.mem_singleton.mp ht]
        exact Nat.lt_succ_self _
    · rw [DbSession.act, queuePostCommitTask, List.map_append, List.nodup_append]
      refine ⟨h.nodup, by simp, ?_⟩
      intro i hi j hj heq
      obtain ⟨t, ht, rfl⟩ := List.mem_map.mp hi
      have := h.numbered t ht
      simp only [List.map_cons, List.map_nil, List.mem_singleton] at hj
      omega
  | commit committed =>
    refine ⟨fun e he => ?_, h.numbered, h.nodup⟩
    rcases List.mem_append.mp he with he | he
    · obtain ⟨n, hn, rfl⟩ := h.seen e he
      exact ⟨n, hn.trans (Nat.lt_succ_self _), rfl⟩
    · split_ifs at he
      · exact ⟨s.transaction, Nat.lt_succ_self _, List.mem_singleton.mp he⟩
      · cases he
  | rollback =>
    refine ⟨fun e he => ?_, h.numbered, h.nodup⟩
    obtain ⟨n, hn, rfl⟩ := h.seen e he
    exact ⟨n, hn.trans (Nat.lt_succ_self _), rfl⟩
  | work => exact h

theorem run (h : s.Running) (body : List ScopeAction) : (Lib.run DbSession.act s body).Running :=
  Lib.run_inv (I := DbSession.Running) DbSession.act (fun _ a hs => hs.act a) body s h

theorem start : ({} : DbSession).Running := ⟨by simp, by simp, by simp⟩

/-- No task is started before the scope ends. -/
theorem not_started (h : s.Running) (t : PostCommitTask) : .started t ∉ s.trace := fun ht => by
  obtain ⟨n, -, hn⟩ := h.seen _ ht
  cases hn

theorem not_committed (h : s.Running) {n : ℕ} (hn : s.transaction ≤ n) :
    .committed n ∉ s.trace := fun hc => by
  obtain ⟨m, hm, hmn⟩ := h.seen _ hc
  cases hmn
  omega

end DbSession.Running

namespace DbSession
variable {s : DbSession}

/-- What the end of a scope adds to the commits: that of the transaction it runs in, if it has
    effect. -/
theorem committed_leave (s : DbSession) (ending : ScopeEnding) (n : ℕ) :
    .committed n ∈ (s.leave ending).trace ↔
      .committed n ∈ s.trace ∨ n = s.transaction ∧ Commits ending [] := by
  cases ending <;> simp [leave, commit, rollback, runPostCommitTasks, dropPostCommitTasks, Commits]

/-- Later actions commit no transaction past. -/
theorem committed_past (ending : ScopeEnding) (rest : List ScopeAction) {n : ℕ}
    (hn : n < s.transaction) :
    .committed n ∈ ((Lib.run act s rest).leave ending).trace ↔ .committed n ∈ s.trace := by
  induction rest generalizing s with
  | nil =>
    rw [Lib.run_nil, committed_leave]
    exact or_iff_left fun h => hn.ne h.1
  | cons a rest ih =>
    rw [Lib.run_cons]
    cases a with
    | queue => exact ih hn
    | work => exact ih hn
    | rollback => exact ih (hn.trans (Nat.lt_succ_self _))
    | commit committed =>
      have hlt : n < (s.act (.commit committed)).transaction := hn.trans (Nat.lt_succ_self _)
      rw [ih hlt]
      cases committed with
      | false => simp [act, commit]
      | true => simp [act, commit, hn.ne]

/-- The transaction that runs is committed when the rest of the scope commits it. -/
theorem committed_iff (h : s.Running) (ending : ScopeEnding) (rest : List ScopeAction) :
    .committed s.transaction ∈ ((Lib.run act s rest).leave ending).trace ↔
      Commits ending rest := by
  induction rest generalizing s with
  | nil =>
    rw [Lib.run_nil, committed_leave]
    exact (or_iff_right (h.not_committed le_rfl)).trans (and_iff_right rfl)
  | cons a rest ih =>
    rw [Lib.run_cons]
    cases a with
    | queue => exact ih (h.act .queue)
    | work => exact ih h
    | rollback =>
      have hlt : s.transaction < (s.act .rollback).transaction := Nat.lt_succ_self _
      exact (committed_past ending rest hlt).trans
        ⟨fun hc => (h.not_committed le_rfl hc).elim, False.elim⟩
    | commit committed =>
      have hlt : s.transaction < (s.act (.commit committed)).transaction := Nat.lt_succ_self _
      rw [committed_past ending rest hlt]
      cases committed with
      | false => simpa [act, commit, Commits] using h.not_committed le_rfl
      | true => simp [act, commit, Commits]

/-- A queued task waits until the scope ends. -/
theorem mem_tasks_run {t : PostCommitTask} (ht : t ∈ s.postCommitTasks) (rest : List ScopeAction) :
    t ∈ (Lib.run act s rest).postCommitTasks := by
  refine Lib.run_inv (I := fun s => t ∈ s.postCommitTasks) act (fun s a hs => ?_) rest s ht
  cases a with
  | queue => exact List.mem_append_left _ hs
  | commit | rollback | work => exact hs

/-- A scope that ends well starts all that waits, after everything it committed; another scope
    starts nothing. -/
theorem leave_trace (h : s.Running) (ending : ScopeEnding) :
    ∃ seen, (∀ t, .started t ∉ seen) ∧ (s.leave ending).trace =
      seen ++ (if ending = .completed then s.postCommitTasks else []).map .started := by
  have hnot := h.not_started
  have hcommit (t : PostCommitTask) : .started t ∉ s.trace ++ [.committed s.transaction] := by
    simp [hnot t]
  cases ending with
  | completed => exact ⟨_, hcommit, by simp [leave, commit, runPostCommitTasks]⟩
  | commitFailed =>
    exact ⟨_, hnot, by simp [leave, commit, rollback, dropPostCommitTasks]⟩
  | commitInterrupted =>
    exact ⟨_, hcommit, by simp [leave, commit, rollback, dropPostCommitTasks]⟩
  | raised => exact ⟨_, hnot, by simp [leave, rollback, dropPostCommitTasks]⟩

/-- A waiting task is started when the scope ends well, and not otherwise. -/
theorem started_iff (h : s.Running) (ending : ScopeEnding) {t : PostCommitTask}
    (ht : t ∈ s.postCommitTasks) :
    .started t ∈ (s.leave ending).trace ↔ ending = .completed := by
  obtain ⟨seen, hseen, htrace⟩ := leave_trace h ending
  rw [htrace, List.mem_append, or_iff_right (hseen t)]
  split_ifs with hend
  · simp [hend, ht]
  · simp [hend]

/-- No task is started twice. -/
theorem started_once (h : s.Running) (ending : ScopeEnding) (t : PostCommitTask) :
    (s.leave ending).trace.count (.started t) ≤ 1 := by
  obtain ⟨seen, hseen, htrace⟩ := leave_trace h ending
  rw [htrace, List.count_append, List.count_eq_zero.mpr (hseen t), Nat.zero_add]
  refine List.nodup_iff_count_le_one.mp ?_ _
  have hnodup : s.postCommitTasks.Nodup := List.Nodup.of_map _ h.nodup
  split_ifs
  · exact hnodup.map fun _ _ heq => ScopeEvent.started.inj heq
  · exact List.nodup_nil

/-- What was seen before a task is started includes every commit of the scope. -/
theorem committed_before_started (h : s.Running) (ending : ScopeEnding) {t : PostCommitTask}
    {n : ℕ} {before later : List ScopeEvent} (hc : .committed n ∈ (s.leave ending).trace)
    (hcut : (s.leave ending).trace = before ++ .started t :: later) :
    .committed n ∈ before := by
  obtain ⟨seen, hseen, htrace⟩ := leave_trace h ending
  rw [htrace] at hc hcut
  have hc : .committed n ∈ seen := by
    rcases List.mem_append.mp hc with hc | hc
    · exact hc
    · obtain ⟨_, -, heq⟩ := List.mem_map.mp hc
      cases heq
  rcases List.append_eq_append_iff.mp hcut with ⟨more, rfl, -⟩ | ⟨more, rfl, hmore⟩
  · exact List.mem_append_left _ hc
  · -- a start among what was seen is impossible, so the two cuts are one
    cases more with
    | nil => exact List.append_nil before ▸ hc
    | cons e more =>
      rw [List.cons_append] at hmore
      obtain rfl := (List.cons.inj hmore).1
      exact (hseen t (List.mem_append_right _ List.mem_cons_self)).elim

end DbSession

/-! ### Tasks and transactions -/

/-- A task follows its transaction exactly when this is committed if, and only if, the scope ends
    well. -/
theorem followsTransaction_iff (before rest : List ScopeAction) (ending : ScopeEnding) :
    FollowsTransaction (sessionScope (before ++ .queue :: rest) ending).trace (nextTask before) ↔
      (Commits ending rest ↔ ending = .completed) := by
  have hrun := DbSession.Running.start.run before
  have hnext : nextTask before ∈ ((Lib.run DbSession.act {} before).act .queue).postCommitTasks :=
    List.mem_append_right _ List.mem_cons_self
  have hend := (hrun.act .queue).run rest
  have hstarted := DbSession.started_iff hend ending (DbSession.mem_tasks_run hnext rest)
  have hcommitted := DbSession.committed_iff (hrun.act .queue) ending rest
  rw [sessionScope, Lib.run_append, Lib.run_cons]
  constructor
  · intro h
    exact hcommitted.symm.trans (h.started_iff.symm.trans hstarted)
  · intro h
    refine ⟨hstarted.trans (h.symm.trans hcommitted.symm), DbSession.started_once hend ending _, ?_⟩
    intro early later hcut
    refine DbSession.committed_before_started hend ending (hcommitted.mpr (h.mpr ?_)) hcut
    exact hstarted.mp (hcut ▸ List.mem_append_right _ List.mem_cons_self)

/-- All tasks of a scope follow their transactions exactly when each of these is committed if, and
    only if, the scope ends well. -/
theorem post_commit_tasks_follow (body : List ScopeAction) (ending : ScopeEnding) :
    (∀ before rest, body = before ++ .queue :: rest →
      FollowsTransaction (sessionScope body ending).trace (nextTask before)) ↔
    ∀ before rest, body = before ++ .queue :: rest →
      (Commits ending rest ↔ ending = .completed) := by
  refine forall₂_congr fun before rest => forall_congr' fun hbody => ?_
  rw [hbody]
  exact followsTransaction_iff before rest ending

/-- A device reset commits its rotation, and the page shown after it raises: the deprovisioning
    tasks are dropped. A rotation rolled back in a scope that ends well has its task started. -/
theorem post_commit_tasks_go_astray :
    ¬ FollowsTransaction (sessionScope [.queue, .queue, .commit true] .raised).trace
      (nextTask []) ∧
    ¬ FollowsTransaction (sessionScope [.queue, .rollback, .work] .completed).trace
      (nextTask []) :=
  ⟨fun h => absurd h.started_iff (by decide), fun h => absurd h.started_iff (by decide)⟩

end Just1kBot
