import Just1kBot.Lib.Keyset
import Just1kBot.WhiteInternet.Trials
import Mathlib

/-! The queue of `run_reconciliation_cycle`: how long a row waits for its turn.

    A cycle takes the 50 rows of a server that were synced longest ago, builds their tasks one by
    one, and runs them in any order. Every task stamps its row, whatever the node answered, unless
    it is lost: its row is gone or locked by another process, it raised, or the cycle broke off. So
    a row waits for those that are ahead of it, for new ones, and for the lost tasks. -/

namespace Just1kBot

namespace WhiteInternetSubscription

/-- `last_synced_at`, where NULL comes first. -/
def syncedAt (sub : WhiteInternetSubscription) : WithBot Time := sub.lastSyncedAt

/-- The place of a row in the queue. -/
def syncKey (sub : WhiteInternetSubscription) : WithBot Time ×ₗ ℕ := toLex (sub.syncedAt, sub.id)

end WhiteInternetSubscription

/-- An event on a row that takes its time from the clock. -/
def ExtraEvent.setNow (now : Time) : ExtraEvent → ExtraEvent
  | .reconcile task answer _ => .reconcile task answer now
  | .inlineSync sync _ => .inlineSync sync now
  | .change c => .change c
  | .purge => .purge
  | .finalize => .finalize

/-! ### The system -/

/-- What the cycle under way knows: its `now`, the epoch of the server, and the tags its relays have
    to verify. -/
structure SyncCycle where
  now : Time := 0
  targetEpoch : Epoch := 0
  inboundTags : List String := []
  deriving DecidableEq, Repr

/-- The tables, the clock, and the cycle at one server: the rows it loaded and has no task for yet,
    and the tasks that are not over. `passes`, `picked`, `written` and `lost` tell how often it took
    rows, which ones, which of them were stamped, and how many tasks were lost. -/
structure SyncQueue where
  tables : WhiteInternetTables
  nextId : ℕ
  now : Time
  cycle : SyncCycle := {}
  candidates : List WhiteInternetSubscription := []
  tasks : List (ℕ × ReconcileTask) := []
  passes : ℕ := 0
  picked : List ℕ := []
  written : List ℕ := []
  lost : ℕ := 0
  deriving DecidableEq

/-- The clock goes on; the cycle loads its rows, comes to the next of them, ends a task, loses one,
    or breaks off; others change a row or insert one. -/
inductive SyncQueueEvent
  | tick (d : ℕ)
  | select (cycle : SyncCycle)
  | prepare
  | finish (i : ℕ) (answer : ReconcileAnswer)
  | lose (i : ℕ)
  | breakOff
  | change (id : ℕ) (e : ExtraEvent)
  | create (userId : UserId) (origin : ServerId) (uuid : Uuid) (baseBytes : ℕ) (durationDays : ℤ)
      (isTrial : Bool)

namespace SyncQueue

/-- No rows of a batch are left. -/
def Idle (s : SyncQueue) : Prop := s.candidates = [] ∧ s.tasks = []

instance : DecidablePred Idle := fun s => by unfold Idle; infer_instance

/-- The query for `pending_subs`. -/
def select (s : SyncQueue) (server : ServerId) (cycle : SyncCycle) : SyncQueue :=
  let due := pendingSubs s.tables server cycle.targetEpoch cycle.now
  { s with
    cycle, candidates := due, passes := s.passes + 1
    picked := s.picked ++ due.map WhiteInternetSubscription.id }

/-- An exception, or the end of the process: the rows that are left wait for the next cycle. -/
def breakOff (s : SyncQueue) : SyncQueue :=
  { s with
    candidates := [], tasks := [], lost := s.lost + (s.candidates.length + s.tasks.length) }

/-- The task of a row, as it was loaded or expired. -/
def addTask (s : SyncQueue) (rest : List WhiteInternetSubscription)
    (sub : WhiteInternetSubscription) : SyncQueue :=
  { s with
    candidates := rest
    tasks := s.tasks ++
      [(sub.id, sub.reconcileTask s.cycle.targetEpoch s.cycle.inboundTags s.cycle.now)] }

/-- The cycle comes to its next row, which it expires first if it is due. A row that is gone by
    then ends the cycle. -/
def prepare (s : SyncQueue) : SyncQueue :=
  match s.candidates with
  | [] => s
  | loaded :: rest =>
    if Expirable loaded.status ∧ loaded.expiresAt ≤ s.cycle.now then
      match s.tables.subscription loaded.id with
      | none => s.breakOff
      | some row =>
        { s with
          tables := s.tables.putSubscription (row.expire "subscription_expired") }.addTask rest
            (row.expire "subscription_expired")
    else s.addTask rest loaded

/-- A task ends without a word. -/
def lose (s : SyncQueue) (i : ℕ) : SyncQueue :=
  { s with tasks := s.tasks.eraseIdx i, lost := s.lost + 1 }

/-- The tasks run once the rows have theirs, and each writes its answer to the row. -/
def finish (s : SyncQueue) (i : ℕ) (answer : ReconcileAnswer) : SyncQueue :=
  match s.candidates, s.tasks[i]? with
  | [], some (id, task) =>
    match s.tables.subscription id with
    | none => s.lose i
    | some row => { s with
        tables := s.tables.putSubscription (row.reconcile task answer s.now)
        tasks := s.tasks.eraseIdx i, written := s.written ++ [id] }
  | _, _ => s

/-- Another transaction changes a row, or deletes it. -/
def change (s : SyncQueue) (id : ℕ) (e : ExtraEvent) : SyncQueue :=
  match s.tables.subscription id with
  | none => s
  | some row =>
    match row.after (e.setNow s.now) with
    | none => { s with tables := { s.tables with
        subscriptions := s.tables.subscriptions.filter (·.id ≠ id) } }
    | some row' => { s with tables := s.tables.putSubscription row' }

def step (server : ServerId) (s : SyncQueue) : SyncQueueEvent → SyncQueue
  | .tick d => { s with now := s.now + d }
  | .select cycle => if s.Idle then s.select server cycle else s
  | .prepare => s.prepare
  | .finish i answer => s.finish i answer
  | .lose i => if s.candidates = [] ∧ i < s.tasks.length then s.lose i else s
  | .breakOff => s.breakOff
  | .change id e => s.change id e
  | .create userId origin uuid baseBytes durationDays isTrial => { s with
      tables := { s.tables with subscriptions := s.tables.subscriptions ++
        [.create s.nextId userId origin uuid baseBytes durationDays isTrial s.now] }
      nextId := s.nextId + 1 }

/-! ### What is promised -/

/-- No cycle is under way, and the row was last synced in the past, or never. -/
structure Starts (x : ℕ) (sub : WhiteInternetSubscription) (s : SyncQueue) : Prop where
  nodup : (s.tables.subscriptions.map WhiteInternetSubscription.id).Nodup
  fresh : ∀ row ∈ s.tables.subscriptions, row.id < s.nextId
  idle : s.Idle
  history : s.passes = 0 ∧ s.picked = [] ∧ s.written = [] ∧ s.lost = 0
  row : s.tables.subscription x = some sub
  past : sub.syncedAt < s.now

/-- How many rows are ahead of the row in the queue, whichever server they are on and whether they
    need to be synced or not. -/
def ahead (s : SyncQueue) (sub : WhiteInternetSubscription) : ℕ :=
  s.tables.subscriptions.countP fun a => a.id ≠ sub.id ∧ a.syncKey ≤ sub.syncKey

/-- The row has to be reconciled whenever the cycle takes rows, and nobody else stamps it. -/
def Attends (server : ServerId) (x : ℕ) (s : SyncQueue) : SyncQueueEvent → Prop
  | .select cycle => s.Idle → ∃ sub ∈ s.tables.subscription x,
      NeedsReconciliation server cycle.targetEpoch cycle.now sub
  | .change id e => id = x → ∀ sub ∈ s.tables.subscription x, ∀ sub' ∈ sub.after (e.setNow s.now),
      sub'.lastSyncedAt = sub.lastSyncedAt
  | _ => True

end SyncQueue

/-! ### Who writes `last_synced_at` -/

namespace WhiteInternetSubscription

variable {sub sub' : WhiteInternetSubscription}

@[simp] theorem reactivateExhausted_lastSyncedAt (sub : WhiteInternetSubscription) :
    sub.reactivateExhausted.lastSyncedAt = sub.lastSyncedAt := by
  rw [reactivateExhausted]
  split <;> rfl

@[simp] theorem clear90p_lastSyncedAt (sub : WhiteInternetSubscription) :
    sub.clear90p.lastSyncedAt = sub.lastSyncedAt := by
  rw [clear90p]
  split <;> rfl

@[simp] theorem afterAdjustment_lastSyncedAt (sub : WhiteInternetSubscription) :
    sub.afterAdjustment.lastSyncedAt = sub.lastSyncedAt := by
  rw [afterAdjustment, clear90p_lastSyncedAt]
  split <;> rfl

@[simp] theorem addSlot_lastSyncedAt (sub : WhiteInternetSubscription) :
    sub.addSlot.lastSyncedAt = sub.lastSyncedAt := by
  rw [addSlot]
  rfl

@[simp] theorem expire_lastSyncedAt (reason : String) (sub : WhiteInternetSubscription) :
    (sub.expire reason).lastSyncedAt = sub.lastSyncedAt := by
  rw [expire]
  split <;> rfl

theorem record_lastSyncedAt (nodeEpoch : Epoch) (up down : ℕ) (upBefore downBefore : Option ℕ)
    (sub : WhiteInternetSubscription) :
    (sub.recordAndDeductTraffic nodeEpoch up down upBefore downBefore).2.lastSyncedAt =
      sub.lastSyncedAt := by
  unfold recordAndDeductTraffic
  extract_lets deltaUplink deltaDownlink next
  split_ifs <;> rfl

theorem renew_lastSyncedAt {durationDays maxExpiryDays : ℤ} {baseBytes : Option ℕ} {now : Time}
    (h : sub.renew durationDays baseBytes maxExpiryDays now = .ok sub') :
    sub'.lastSyncedAt = sub.lastSyncedAt := by
  unfold renew at h
  split at h
  · cases h
  · extract_lets baseTime newExpiresAt at h
    split at h
    · cases h
    · cases h
      rfl

theorem extend_lastSyncedAt {n : ℤ} {now : Time} (h : sub.extend n now = .ok sub') :
    sub'.lastSyncedAt = sub.lastSyncedAt := by
  unfold extend at h
  extract_lets isNewCycle extended at h
  split_ifs at h
  · rw [← Except.ok.inj h]
    rfl
  · rw [← Except.ok.inj h]
    rfl

theorem convertTrial_lastSyncedAt (durationDays : ℤ) (newOrigin : Option ServerId) (now : Time)
    (sub : WhiteInternetSubscription) :
    (sub.convertTrial durationDays newOrigin now).lastSyncedAt = sub.lastSyncedAt := by
  cases newOrigin with
  | none => rfl
  | some origin => rfl

theorem revokePack_lastSyncedAt (bytes : ℕ) (sub : WhiteInternetSubscription) :
    (sub.revokePack bytes).lastSyncedAt = sub.lastSyncedAt := rfl

theorem revokeSlot_lastSyncedAt (sub : WhiteInternetSubscription) :
    sub.revokeSlot.lastSyncedAt = sub.lastSyncedAt := by
  rw [revokeSlot, revokePack_lastSyncedAt]

/-- Whatever the node answered, the row is stamped. -/
theorem reconcile_lastSyncedAt (task : ReconcileTask) (a : ReconcileAnswer) (now : Time)
    (sub : WhiteInternetSubscription) : (sub.reconcile task a now).lastSyncedAt = some now := by
  rw [reconcile]
  split <;> rfl

/-- A sync of a user's device stamps the row, or leaves the stamp alone. -/
theorem finish_lastSyncedAt (sync : InlineSync) (now : Time) (sub : WhiteInternetSubscription) :
    (sync.finish now sub).lastSyncedAt = sub.lastSyncedAt ∨
      (sync.finish now sub).lastSyncedAt = some now := by
  rw [InlineSync.finish]
  split
  · show Lib.written _ (some now) _ = _ ∨ Lib.written _ (some now) _ = _
    rw [Lib.written]
    split_ifs
    · exact .inl rfl
    · exact .inr rfl
  · exact .inl rfl

end WhiteInternetSubscription

open WhiteInternetSubscription

variable {sub sub' : WhiteInternetSubscription}

theorem RowOp.apply_lastSyncedAt {op : RowOp} (hop : op.Atomic) (h : op.apply sub = some sub') :
    sub'.lastSyncedAt = sub.lastSyncedAt := by
  cases op with
  | record =>
    cases h
    exact record_lastSyncedAt ..
  | renew durationDays now =>
    simp only [apply] at h
    split_ifs at h
    exact renew_lastSyncedAt (Lib.toOption_eq_some h)
  | convertTrial durationDays newOrigin now =>
    simp only [apply] at h
    split_ifs at h
    cases h
    exact convertTrial_lastSyncedAt ..
  | addDeviceSlot now =>
    obtain ⟨-, rfl⟩ := addDeviceSlot_ok_iff.mp (Lib.toOption_eq_some h)
    simp
  | topupQuota packGb now =>
    obtain ⟨-, rfl⟩ := topupQuota_ok_iff.mp (Lib.toOption_eq_some h)
    simp [addExtra]
  | addExtraTraffic extraBytes =>
    obtain ⟨-, rfl⟩ := addExtraTraffic_ok_iff.mp (Lib.toOption_eq_some h)
    simp [addExtra]
  | setBaseTrafficQuota baseBytes =>
    obtain ⟨-, rfl⟩ := setBaseTrafficQuota_ok_iff.mp (Lib.toOption_eq_some h)
    simp [withBase]
  | setDeviceLimit limit =>
    obtain ⟨-, rfl⟩ := setDeviceLimit_ok_iff.mp (Lib.toOption_eq_some h)
    rfl
  | resetTrafficUsed =>
    obtain ⟨-, rfl⟩ := resetTrafficUsed_ok_iff.mp (Lib.toOption_eq_some h)
    simp [clearUsage]
  | extend n now => exact extend_lastSyncedAt (Lib.toOption_eq_some h)
  | expire reason =>
    cases h
    exact expire_lastSyncedAt reason sub
  | disable | resetTrial =>
    simp only [apply] at h
    split_ifs at h
    cases h
    rfl
  | migrateTo origin =>
    cases h
    rfl
  | reconcile | inlineSync => exact hop.elim

theorem RowChange.apply_lastSyncedAt {c : RowChange} (h : c.apply sub = some sub') :
    sub'.lastSyncedAt = sub.lastSyncedAt := by
  cases c with
  | op o =>
    obtain ⟨hop, h⟩ := apply_op_iff.mp h
    exact RowOp.apply_lastSyncedAt hop h
  | moved o target =>
    simp only [apply] at h
    split_ifs at h with hserved
    obtain ⟨_, -, h⟩ := Option.bind_eq_some_iff.mp h
    have hop : o.Atomic := by cases o <;> trivial
    exact (RowOp.apply_lastSyncedAt hop h).trans rfl
  | migrateOrigin | allocate =>
    simp only [apply] at h
    split_ifs at h
    cases h
    rfl
  | detach | revokePack =>
    cases h
    rfl
  | revokeSlot =>
    cases h
    exact revokeSlot_lastSyncedAt sub

/-- Whatever happens to a row, its stamp stays or is the clock. -/
theorem WhiteInternetSubscription.after_lastSyncedAt {e : ExtraEvent} {now : Time}
    (h : sub.after (e.setNow now) = some sub') :
    sub'.lastSyncedAt = sub.lastSyncedAt ∨ sub'.lastSyncedAt = some now := by
  cases e with
  | change c =>
    cases h
    cases hc : c.apply sub with
    | none => exact .inl rfl
    | some changed => exact .inl (RowChange.apply_lastSyncedAt hc)
  | reconcile task answer _ =>
    cases h
    exact .inr (reconcile_lastSyncedAt task answer now sub)
  | inlineSync sync _ =>
    cases h
    exact finish_lastSyncedAt sync now sub
  | purge =>
    cases h
    exact .inl rfl
  | finalize =>
    rw [ExtraEvent.setNow, after] at h
    split_ifs at h
    cases h
    exact .inl rfl

/-! ### The order of the queue -/

theorem syncedBefore_iff {a b : WhiteInternetSubscription} :
    SyncedBefore a b ↔ a.syncKey ≤ b.syncKey := by
  rw [SyncedBefore, syncKey, syncKey, Prod.Lex.toLex_le_toLex, syncedAt, syncedAt]
  cases ha : a.lastSyncedAt with
  | none =>
    cases hb : b.lastSyncedAt with
    | none => exact ⟨fun h => .inr ⟨rfl, h⟩, fun h => (h.resolve_left (lt_irrefl _)).2⟩
    | some t => simp [WithBot.some_eq_coe, WithBot.none_eq_bot]
  | some s =>
    cases hb : b.lastSyncedAt with
    | none => simp [WithBot.some_eq_coe, WithBot.none_eq_bot]
    | some t => simp [WithBot.some_eq_coe]

/-- The batch is the head of the queue. -/
theorem pendingSubs_eq_first (t : WhiteInternetTables) (server : ServerId) (targetEpoch : Epoch)
    (now : Time) : pendingSubs t server targetEpoch now = Lib.Keyset.first syncKey batchSize
      (t.subscriptions.filter fun sub => NeedsReconciliation server targetEpoch now sub) := by
  have hrel : SyncedBefore = Lib.Keyset.Ahead syncKey := by
    funext a b
    exact propext syncedBefore_iff
  rw [pendingSubs, Lib.Keyset.first]
  congr!

namespace SyncQueue

variable {server : ServerId} {s s' : SyncQueue} {x n : ℕ} {ahead : Finset ℕ} {start : Time}
  {stamp : WithBot Time} {written : List ℕ}

/-! ### The invariant -/

/-- The rows that the cycles took: they are stamped, or wait for it. -/
def taken (s : SyncQueue) : List ℕ :=
  s.written ++ s.tasks.map Prod.fst ++ s.candidates.map WhiteInternetSubscription.id

/-- Where a row stands, while the row `x` keeps its stamp: those in front of `x` were ahead of it, or
    are new, and those that were written are behind it. -/
structure Placed (x n : ℕ) (ahead : Finset ℕ) (start : Time) (stamp : WithBot Time)
    (written : List ℕ) (sub : WhiteInternetSubscription) : Prop where
  waits : sub.id = x → sub.syncedAt = stamp
  front : sub.id ≠ x → sub.syncKey ≤ toLex (stamp, x) → sub.id ∈ ahead ∨ n ≤ sub.id
  written : sub.id ∈ written → start ≤ sub.syncedAt

/-- What holds as long as the row `x` is left out. -/
structure LeftOut (x n : ℕ) (ahead : Finset ℕ) (start : Time) (stamp : WithBot Time)
    (s : SyncQueue) : Prop where
  past : stamp < start
  since : start ≤ s.now
  grown : n ≤ s.nextId
  known : x < s.nextId
  nodup : (s.tables.subscriptions.map WhiteInternetSubscription.id).Nodup
  fresh : ∀ sub ∈ s.tables.subscriptions, sub.id < s.nextId
  placed : ∀ sub ∈ s.tables.subscriptions, Placed x n ahead start stamp s.written sub
  apart : s.taken.Nodup
  others : ∀ i ∈ s.taken, i ≠ x ∧ (i ∈ ahead ∨ n ≤ i) ∧ i < s.nextId
  filled : s.passes * batchSize = s.taken.length + s.lost

/-- A row that is not `x` may be stamped. -/
theorem Placed.after (h : Placed x n ahead start stamp written sub) (hid : sub'.id = sub.id)
    {now : Time} (hpast : stamp < start) (hnow : start ≤ now)
    (hsame : sub.id = x → sub'.lastSyncedAt = sub.lastSyncedAt)
    (hstamp : sub'.lastSyncedAt = sub.lastSyncedAt ∨ sub'.lastSyncedAt = some now) :
    Placed x n ahead start stamp written sub' := by
  refine ⟨fun hx => ?_, fun hx hle => ?_, fun hmem => ?_⟩
  · rw [syncedAt, hsame (hid ▸ hx)]
    exact h.waits (hid ▸ hx)
  · rw [hid] at hx ⊢
    rcases hstamp with hkept | hnew
    · refine h.front hx ?_
      rwa [syncKey, syncedAt, ← hkept, ← hid, ← syncedAt, ← syncKey]
    · have hle' : sub'.syncedAt ≤ stamp := (Prod.Lex.toLex_le_toLex'.mp hle).1
      rw [syncedAt, hnew] at hle'
      have hlt : (now : WithBot Time) < start := lt_of_le_of_lt hle' hpast
      exact absurd hnow (not_le.mpr (WithBot.coe_lt_coe.mp hlt))
  · rcases hstamp with hkept | hnew
    · rw [syncedAt, hkept]
      exact h.written (hid ▸ hmem)
    · rw [syncedAt, hnew]
      exact WithBot.coe_le_coe.mpr hnow

/-- A row of the table is written. -/
theorem LeftOut.put {id : ℕ} (h : s.LeftOut x n ahead start stamp)
    (hrow : s.tables.subscription id = some sub) (hid : sub'.id = sub.id)
    (hsame : id = x → sub'.lastSyncedAt = sub.lastSyncedAt)
    (hstamp : sub'.lastSyncedAt = sub.lastSyncedAt ∨ sub'.lastSyncedAt = some s.now) :
    ({ s with tables := s.tables.putSubscription sub' } : SyncQueue).LeftOut x n ahead start
      stamp := by
  have hmem := WhiteInternetTables.mem_of_subscription hrow
  have hkey := WhiteInternetTables.id_of_subscription hrow
  refine { h with nodup := ?_, fresh := fun row hin => ?_, placed := fun row hin => ?_ }
  · rw [WhiteInternetTables.putSubscription, Lib.Table.map_key_put]
    exact h.nodup
  · rcases Lib.Table.mem_put _ hin with rfl | hin
    · rw [hid]
      exact h.fresh sub hmem
    · exact h.fresh row hin
  · rcases Lib.Table.mem_put _ hin with rfl | hin
    · exact (h.placed sub hmem).after hid h.past h.since (fun hx => hsame (hkey.symm.trans hx))
        hstamp
    · exact h.placed row hin

/-- Of the rows that were taken some are written, and the others are taken still or lost. -/
theorem LeftOut.settle (h : s.LeftOut x n ahead start stamp) (gone : List ℕ)
    (htables : s'.tables = s.tables ∧ s'.nextId = s.nextId ∧ s'.now = s.now ∧
      s'.passes = s.passes)
    (hperm : (s'.taken ++ gone).Perm s.taken) (hlost : s'.lost = s.lost + gone.length)
    (hwritten : ∀ sub ∈ s.tables.subscriptions, sub.id ∈ s'.written →
      sub.id ∈ s.written ∨ start ≤ sub.syncedAt) : s'.LeftOut x n ahead start stamp := by
  obtain ⟨htables, hnext, hnow, hpasses⟩ := htables
  have hsub : ∀ i ∈ s'.taken, i ∈ s.taken := fun i hi =>
    hperm.subset (List.mem_append_left gone hi)
  refine ⟨h.past, hnow ▸ h.since, hnext ▸ h.grown, hnext ▸ h.known, htables ▸ h.nodup,
    fun sub hin => ?_, fun sub hin => ?_, ?_, fun i hi => hnext ▸ h.others i (hsub i hi), ?_⟩
  · rw [hnext]
    exact h.fresh sub (htables ▸ hin)
  · rw [htables] at hin
    obtain ⟨hwaits, hfront, hstamped⟩ := h.placed sub hin
    exact ⟨hwaits, hfront, fun hmem => (hwritten sub hin hmem).elim hstamped id⟩
  · exact (hperm.nodup_iff.mpr h.apart).of_append_left
  · have hlen := hperm.length_eq
    rw [List.length_append] at hlen
    rw [hpasses, h.filled, hlost]
    omega

/-! ### The steps -/

theorem LeftOut.tick (h : s.LeftOut x n ahead start stamp) (d : ℕ) :
    ({ s with now := s.now + d } : SyncQueue).LeftOut x n ahead start stamp :=
  { h with since := h.since.trans (le_add_of_nonneg_right (Int.natCast_nonneg d)) }

theorem LeftOut.breakOff (h : s.LeftOut x n ahead start stamp) :
    s.breakOff.LeftOut x n ahead start stamp := by
  refine h.settle (s.tasks.map Prod.fst ++ s.candidates.map WhiteInternetSubscription.id)
    ⟨rfl, rfl, rfl, rfl⟩ ?_ ?_ fun _ _ hmem => .inl hmem
  · rw [taken, taken, SyncQueue.breakOff, List.map_nil, List.map_nil, List.append_nil,
      List.append_nil, List.append_assoc]
  · rw [List.length_append, List.length_map, List.length_map, Nat.add_comm s.tasks.length]
    rfl

/-- The row at the head of the candidates goes over to the tasks. -/
theorem LeftOut.addTask {loaded : WhiteInternetSubscription}
    {rest : List WhiteInternetSubscription} (h : s.LeftOut x n ahead start stamp)
    (hcands : s.candidates = loaded :: rest) (hid : sub.id = loaded.id) :
    (s.addTask rest sub).LeftOut x n ahead start stamp := by
  refine h.settle [] ⟨rfl, rfl, rfl, rfl⟩ ?_ rfl fun _ _ hmem => .inl hmem
  have htaken : (s.addTask rest sub).taken = s.taken := by
    simp [taken, SyncQueue.addTask, hcands, hid]
  rw [htaken, List.append_nil]

theorem LeftOut.prepare (h : s.LeftOut x n ahead start stamp) :
    s.prepare.LeftOut x n ahead start stamp := by
  rw [SyncQueue.prepare]
  cases hcands : s.candidates with
  | nil => exact h
  | cons loaded rest =>
    dsimp only
    split_ifs with hdue
    · cases hrow : s.tables.subscription loaded.id with
      | none => exact h.breakOff
      | some row =>
        have hstamp := expire_lastSyncedAt "subscription_expired" row
        have hput := h.put hrow (expire_id _ row) (fun _ => hstamp) (.inl hstamp)
        refine hput.addTask hcands ?_
        rw [expire_id]
        exact WhiteInternetTables.id_of_subscription hrow
    · exact h.addTask hcands rfl

/-- A task that ends leaves the others. -/
theorem taken_eraseIdx {i : ℕ} {task : ℕ × ReconcileTask} (hi : s.tasks[i]? = some task) :
    (s.written ++ (s.tasks.eraseIdx i).map Prod.fst ++
      s.candidates.map WhiteInternetSubscription.id ++ [task.1]).Perm s.taken := by
  obtain ⟨hlt, rfl⟩ := List.getElem?_eq_some_iff.mp hi
  have htasks := (List.getElem_cons_eraseIdx_perm hlt).map Prod.fst
  rw [List.map_cons] at htasks
  rw [taken, List.append_assoc, List.append_assoc, List.append_assoc]
  refine List.Perm.append_left s.written ?_
  refine .trans ?_ (htasks.append_right _)
  rw [← List.append_assoc]
  exact List.perm_append_singleton _ _

theorem LeftOut.lose {i : ℕ} {task : ℕ × ReconcileTask} (h : s.LeftOut x n ahead start stamp)
    (hi : s.tasks[i]? = some task) : (s.lose i).LeftOut x n ahead start stamp :=
  h.settle [task.1] ⟨rfl, rfl, rfl, rfl⟩ (taken_eraseIdx hi) rfl fun _ _ hmem => .inl hmem

theorem LeftOut.finish (h : s.LeftOut x n ahead start stamp) (i : ℕ) (answer : ReconcileAnswer) :
    (s.finish i answer).LeftOut x n ahead start stamp := by
  rw [SyncQueue.finish]
  split
  · rename_i id task hcands hi
    have hperm := taken_eraseIdx hi
    have hmem : id ∈ s.taken := hperm.subset (by simp)
    cases hrow : s.tables.subscription id with
    | none => exact h.lose hi
    | some row =>
      have hid : (row.reconcile task answer s.now).id = row.id :=
        (reconcile_sameQuota task answer s.now row).id
      have hkey : (row.reconcile task answer s.now).id = id :=
        hid.trans (WhiteInternetTables.id_of_subscription hrow)
      have hstamp := reconcile_lastSyncedAt task answer s.now row
      have hput := h.put hrow hid (fun hx => absurd hx (h.others id hmem).1) (.inr hstamp)
      refine hput.settle [] ⟨rfl, rfl, rfl, rfl⟩ ?_ rfl fun sub hin hw => ?_
      · refine .trans ?_ hperm
        simp only [taken, List.append_assoc, List.append_nil]
        refine List.Perm.append_left s.written ?_
        exact List.perm_append_comm.trans (.of_eq (List.append_assoc ..))
      · rcases List.mem_append.mp hw with hw | hw
        · exact .inl hw
        · -- the only row with this id is the one that was just stamped
          have hfound : (s.tables.putSubscription
              (row.reconcile task answer s.now)).subscription sub.id =
                some (row.reconcile task answer s.now) := by
            rw [WhiteInternetTables.subscription_putSubscription hrow hkey,
              if_pos (List.mem_singleton.mp hw)]
          obtain rfl := WhiteInternetTables.subscription_of_mem hput.nodup hin hfound
          refine .inr ?_
          rw [syncedAt, hstamp]
          exact WithBot.coe_le_coe.mpr h.since
  · exact h

theorem LeftOut.delete (h : s.LeftOut x n ahead start stamp) (id : ℕ) :
    ({ s with tables := { s.tables with
        subscriptions := s.tables.subscriptions.filter (·.id ≠ id) } } : SyncQueue).LeftOut x n
      ahead start stamp := by
  refine { h with nodup := ?_, fresh := fun row hin => ?_, placed := fun row hin => ?_ }
  · exact h.nodup.sublist (List.filter_sublist.map _)
  · exact h.fresh row (List.mem_of_mem_filter hin)
  · exact h.placed row (List.mem_of_mem_filter hin)

theorem LeftOut.change (h : s.LeftOut x n ahead start stamp) {id : ℕ} {e : ExtraEvent}
    (hattends : Attends server x s (.change id e)) :
    (s.change id e).LeftOut x n ahead start stamp := by
  rw [SyncQueue.change]
  cases hrow : s.tables.subscription id with
  | none => exact h
  | some row =>
    dsimp only
    split
    · exact h.delete id
    · rename_i row' hafter
      refine h.put hrow (after_owner hafter).1 (fun hx => ?_) (after_lastSyncedAt hafter)
      exact hattends hx row (hx ▸ hrow) row' hafter

/-- A new row was never synced, and its id is not known yet. -/
theorem LeftOut.create (h : s.LeftOut x n ahead start stamp) (hid : sub.id = s.nextId) :
    ({ s with
        tables := { s.tables with subscriptions := s.tables.subscriptions ++ [sub] }
        nextId := s.nextId + 1 } : SyncQueue).LeftOut x n ahead start stamp := by
  refine { h with
    grown := h.grown.trans (Nat.le_succ _), known := h.known.trans (Nat.lt_succ_self _)
    nodup := ?_, fresh := fun row hin => ?_, placed := fun row hin => ?_, others := fun i hi => ?_ }
  · rw [List.map_append, List.map_singleton]
    refine List.nodup_append.mpr ⟨h.nodup, List.nodup_singleton _, fun i hi j hj hij => ?_⟩
    obtain ⟨row, hrow, rfl⟩ := List.mem_map.mp hi
    have hlt := h.fresh row hrow
    rw [hij, List.mem_singleton.mp hj, hid] at hlt
    exact lt_irrefl _ hlt
  · rcases List.mem_append.mp hin with hin | hin
    · exact (h.fresh row hin).trans (Nat.lt_succ_self _)
    · rw [List.mem_singleton.mp hin, hid]
      exact Nat.lt_succ_self _
  · rcases List.mem_append.mp hin with hin | hin
    · exact h.placed row hin
    · rw [List.mem_singleton.mp hin]
      refine ⟨fun hx => ?_, fun _ _ => .inr (hid ▸ h.grown), fun hmem => ?_⟩
      · exact absurd (hx.symm.trans hid) h.known.ne
      · have hold := (h.others sub.id (by simp [taken, hmem])).2.2
        exact absurd hid hold.ne
  · obtain ⟨hne, hwhere, hlt⟩ := h.others i hi
    exact ⟨hne, hwhere, hlt.trans (Nat.lt_succ_self _)⟩

/-- A batch without `x` is full, and its rows are ahead of `x`. -/
theorem LeftOut.batch {cycle : SyncCycle} (h : s.LeftOut x n ahead start stamp)
    (hneeds : ∃ sub ∈ s.tables.subscription x,
      NeedsReconciliation server cycle.targetEpoch cycle.now sub)
    (hx : ∀ a ∈ pendingSubs s.tables server cycle.targetEpoch cycle.now, a.id ≠ x) :
    (pendingSubs s.tables server cycle.targetEpoch cycle.now).length = batchSize ∧
      ((pendingSubs s.tables server cycle.targetEpoch cycle.now).map
        WhiteInternetSubscription.id).Nodup ∧
      ∀ a ∈ pendingSubs s.tables server cycle.targetEpoch cycle.now,
        a ∈ s.tables.subscriptions ∧ a.syncKey ≤ toLex (stamp, x) := by
  obtain ⟨sub, hrow, hneeds⟩ := hneeds
  have hsub := WhiteInternetTables.mem_of_subscription hrow
  have hid := WhiteInternetTables.id_of_subscription hrow
  have hkey : sub.syncKey = toLex (stamp, x) := by
    rw [syncKey, (h.placed sub hsub).waits hid, hid]
  have hnot : sub ∉ pendingSubs s.tables server cycle.targetEpoch cycle.now :=
    fun hmem => hx sub hmem hid
  have hrows : ∀ a ∈ pendingSubs s.tables server cycle.targetEpoch cycle.now,
      a ∈ s.tables.subscriptions := fun a ha => SweepInv.mem_of_mem_pendingSubs ha
  rw [pendingSubs_eq_first] at hnot hrows ⊢
  obtain ⟨hfull, hahead⟩ := Lib.Keyset.ahead_of_not_mem_first
    (List.mem_filter.mpr ⟨hsub, decide_eq_true hneeds⟩) hnot
  refine ⟨hfull, ?_, fun a ha => ⟨hrows a ha, hkey ▸ hahead a ha⟩⟩
  exact Lib.Keyset.nodup_map_first (h.nodup.sublist (List.filter_sublist.map _))

/-- The rows of a batch without `x` were not taken before. -/
theorem LeftOut.select {cycle : SyncCycle} (h : s.LeftOut x n ahead start stamp) (hidle : s.Idle)
    (hattends : Attends server x s (.select cycle)) (hx : x ∉ (s.select server cycle).picked) :
    (s.select server cycle).LeftOut x n ahead start stamp := by
  have hothers : ∀ a ∈ pendingSubs s.tables server cycle.targetEpoch cycle.now, a.id ≠ x :=
    fun a ha hax => hx (List.mem_append_right _ (List.mem_map.mpr ⟨a, ha, hax⟩))
  obtain ⟨hfull, hdistinct, hdue⟩ := h.batch (hattends hidle) hothers
  have htaken : (s.select server cycle).taken = s.written ++
      (pendingSubs s.tables server cycle.targetEpoch cycle.now).map
        WhiteInternetSubscription.id := by
    rw [taken, SyncQueue.select, hidle.2, List.map_nil, List.append_nil]
  have hbefore : s.taken = s.written := by
    rw [taken, hidle.1, hidle.2, List.map_nil, List.map_nil, List.append_nil, List.append_nil]
  refine { h with apart := ?_, others := fun i hi => ?_, filled := ?_ }
  · rw [htaken]
    refine List.nodup_append.mpr ⟨hbefore ▸ h.apart, hdistinct, fun i hi j hj hij => ?_⟩
    -- a row that was written is behind `x`
    obtain ⟨a, ha, rfl⟩ := List.mem_map.mp hj
    obtain ⟨hmem, hle⟩ := hdue a ha
    have hlate := (h.placed a hmem).written (hij ▸ hi)
    exact absurd (hlate.trans (Prod.Lex.toLex_le_toLex'.mp hle).1) (not_le.mpr h.past)
  · rw [htaken] at hi
    rcases List.mem_append.mp hi with hi | hi
    · exact h.others i (hbefore ▸ hi)
    · obtain ⟨a, ha, rfl⟩ := List.mem_map.mp hi
      obtain ⟨hmem, hle⟩ := hdue a ha
      exact ⟨hothers a ha, (h.placed a hmem).front (hothers a ha) hle, h.fresh a hmem⟩
  · have hcount := h.filled
    rw [hbefore] at hcount
    rw [htaken, List.length_append, List.length_map, hfull]
    show (s.passes + 1) * batchSize = s.written.length + batchSize + s.lost
    rw [Nat.succ_mul, hcount]
    omega

/-- What was picked stays picked. -/
theorem picked_step (s : SyncQueue) (e : SyncQueueEvent) :
    s.picked <+: (step server s e).picked := by
  cases e with
  | select cycle =>
    rw [step]
    split_ifs
    · exact List.prefix_append ..
    · exact List.prefix_rfl
  | prepare =>
    rw [step, SyncQueue.prepare]
    split
    · exact List.prefix_rfl
    · split_ifs
      · split <;> exact List.prefix_rfl
      · exact List.prefix_rfl
  | finish i answer =>
    rw [step, SyncQueue.finish]
    split
    · split <;> exact List.prefix_rfl
    · exact List.prefix_rfl
  | lose i =>
    rw [step]
    split_ifs <;> exact List.prefix_rfl
  | change id e =>
    rw [step, SyncQueue.change]
    split
    · exact List.prefix_rfl
    · split <;> exact List.prefix_rfl
  | tick | breakOff | create => exact List.prefix_rfl

/-- A row that was left out so far is picked now, or is left out still. -/
theorem LeftOut.step {e : SyncQueueEvent} (h : s.LeftOut x n ahead start stamp)
    (hattends : Attends server x s e) (hx : x ∉ (step server s e).picked) :
    (SyncQueue.step server s e).LeftOut x n ahead start stamp := by
  cases e with
  | tick d => exact h.tick d
  | select cycle =>
    rw [SyncQueue.step] at hx ⊢
    by_cases hidle : s.Idle
    · rw [if_pos hidle] at hx ⊢
      exact h.select hidle hattends hx
    · rw [if_neg hidle]
      exact h
  | prepare => exact h.prepare
  | finish i answer => exact h.finish i answer
  | lose i =>
    rw [SyncQueue.step]
    by_cases hi : s.candidates = [] ∧ i < s.tasks.length
    · rw [if_pos hi]
      exact h.lose (List.getElem?_eq_getElem hi.2)
    · rw [if_neg hi]
      exact h
  | breakOff => exact h.breakOff
  | change id e => exact h.change hattends
  | create userId origin uuid baseBytes durationDays isTrial => exact h.create rfl

/-! ### The runs -/

/-- The rows that are ahead of the row. -/
def aheadIds (s : SyncQueue) (sub : WhiteInternetSubscription) : Finset ℕ :=
  ((s.tables.subscriptions.filter fun a => a.id ≠ sub.id ∧ a.syncKey ≤ sub.syncKey).map
    WhiteInternetSubscription.id).toFinset

theorem card_aheadIds_le (s : SyncQueue) (sub : WhiteInternetSubscription) :
    (s.aheadIds sub).card ≤ s.ahead sub := by
  refine (List.toFinset_card_le _).trans ?_
  rw [List.length_map, SyncQueue.ahead, List.countP_eq_length_filter]

theorem Starts.leftOut (h : s.Starts x sub) :
    s.LeftOut x s.nextId (s.aheadIds sub) s.now sub.syncedAt := by
  obtain ⟨hnodup, hfresh, hidle, ⟨hpasses, -, hwritten, hlost⟩, hrow, hpast⟩ := h
  have hid := WhiteInternetTables.id_of_subscription hrow
  have htaken : s.taken = [] := by rw [taken, hidle.1, hidle.2, hwritten]; rfl
  refine ⟨hpast, le_rfl, le_rfl, ?_, hnodup, hfresh, fun a ha => ⟨fun hax => ?_, fun hax hle => ?_,
    fun hmem => ?_⟩, ?_, fun i hi => ?_, ?_⟩
  · rw [← hid]
    exact hfresh sub (WhiteInternetTables.mem_of_subscription hrow)
  · have hsame : sub = a := WhiteInternetTables.subscription_of_mem hnodup ha (hax ▸ hrow)
    rw [hsame]
  · refine .inl (List.mem_toFinset.mpr (List.mem_map_of_mem (List.mem_filter.mpr ⟨ha, ?_⟩)))
    refine decide_eq_true ⟨hid ▸ hax, ?_⟩
    rwa [syncKey.eq_def sub, hid]
  · rw [hwritten] at hmem
    cases hmem
  · rw [htaken]
    exact List.nodup_nil
  · rw [htaken] at hi
    cases hi
  · rw [htaken, hpasses, hlost, Nat.zero_mul]
    rfl

theorem leftOut_of_run {es : List SyncQueueEvent} (h : s.LeftOut x n ahead start stamp)
    (hattends : Lib.Always (step server) (Attends server x) s es)
    (hx : x ∉ (Lib.run (step server) s es).picked) :
    (Lib.run (step server) s es).LeftOut x n ahead start stamp := by
  have hinv := Lib.run_inv_of_always (step server)
    (I := fun s => x ∉ s.picked → s.LeftOut x n ahead start stamp)
    (fun s e hs he hnot => by
      have hbefore : x ∉ s.picked := fun hmem => hnot ((picked_step s e).subset hmem)
      exact (hs hbefore).step he hnot) es s (fun _ => h) hattends
  exact hinv hx

/-- A row that has to be reconciled is taken as soon as the passes at its server have more room than
    the rows that were ahead of it, the rows that were inserted since and the lost tasks fill. Tasks
    that the node answers with an error take no room twice. -/
theorem picked_of_run (server : ServerId) (s : SyncQueue) (es : List SyncQueueEvent) (x : ℕ)
    (sub : WhiteInternetSubscription) (hstart : s.Starts x sub)
    (hattends : Lib.Always (step server) (Attends server x) s es)
    (hmany : s.ahead sub + ((Lib.run (step server) s es).nextId - s.nextId) +
      (Lib.run (step server) s es).lost < (Lib.run (step server) s es).passes * batchSize) :
    x ∈ (Lib.run (step server) s es).picked := by
  by_contra hnot
  have h := leftOut_of_run hstart.leftOut hattends hnot
  generalize Lib.run (step server) s es = s' at h hmany
  have hsub : s'.taken.toFinset ⊆ s.aheadIds sub ∪ Finset.Ico s.nextId s'.nextId := by
    intro i hi
    obtain ⟨-, hwhere, hlt⟩ := h.others i (List.mem_toFinset.mp hi)
    rcases hwhere with hahead | hnew
    · exact Finset.mem_union_left _ hahead
    · exact Finset.mem_union_right _ (Finset.mem_Ico.mpr ⟨hnew, hlt⟩)
  have hlen : s'.taken.length ≤ s.ahead sub + (s'.nextId - s.nextId) := by
    rw [← List.toFinset_card_of_nodup h.apart, ← Nat.card_Ico]
    refine (Finset.card_le_card hsub).trans ((Finset.card_union_le _ _).trans ?_)
    exact Nat.add_le_add_right (card_aheadIds_le s sub) _
  have hfilled := h.filled
  omega

/-- A row of server 3 whose node is to be told about it. -/
def waitingRow (id : ℕ) (lastSyncedAt : Option Time) : WhiteInternetSubscription :=
  { id := id, userId := id, originNodeId := some 3, expiresAt := days 30
    lastSyncedAt := lastSyncedAt }

/-- One row was synced a minute ago, and one never. -/
def twoWaiting : SyncQueue :=
  { tables := { subscriptions := [waitingRow 1 none, waitingRow 2 (some 0)] }
    nextId := 3
    now := seconds 60 }

theorem picked_of_run_threeRows :
    2 ∈ (Lib.run (step 3) twoWaiting
      [.create 9 3 0 0 30 false, .select { targetEpoch := 5 }, .prepare, .prepare, .prepare,
        .finish 0 { sync := { result := .failed } }, .lose 0]).picked := by
  refine picked_of_run 3 twoWaiting _ 2 (waitingRow 2 (some 0))
    ⟨by decide, by decide, by decide, by decide, by decide, by decide⟩
    ⟨trivial, fun _ => ⟨waitingRow 2 (some 0), by decide, by decide⟩, trivial, trivial, trivial,
      trivial, trivial, trivial⟩ (by decide)

end SyncQueue

end Just1kBot
