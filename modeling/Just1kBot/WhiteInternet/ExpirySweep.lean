import Just1kBot.WhiteInternet.Subscription
import Just1kBot.Lib.Transition
import Mathlib.Data.List.Sort

/-! The expiry sweep of `services/workers/white_internet_reconciliation.py`.

    A cycle fixes its clock, selects a batch of subscriptions of a server, and then expires the due
    ones one by one, each in a transaction of its own. Whether a candidate is due is read off the
    object the selection loaded; the expiry locks the row and looks at its status only. A renewal
    that commits in between is therefore expired with all its paid time. -/

namespace Just1kBot

/-! ### Operations that move the end of a subscription -/

inductive Renewal
  | renew (durationDays : ℤ) (baseBytes : Option ℕ) (maxExpiryDays : ℤ)
  | extend (n : ℤ)
  | convert (durationDays : ℤ) (newOrigin : Option ServerId)
  deriving DecidableEq, Repr

/-- The row such an operation commits, if it goes through. -/
def Renewal.apply (sub : WhiteInternetSubscription) (now : Time) :
    Renewal → Option WhiteInternetSubscription
  | .renew durationDays baseBytes maxExpiryDays =>
    (sub.renew durationDays baseBytes maxExpiryDays now).toOption
  | .extend n => (sub.extend n now).toOption
  | .convert durationDays newOrigin => some (sub.convertTrial durationDays newOrigin now)

/-! ### The cycle -/

def batchSize : ℕ := 50

/-- A subscription the cycle selected: the object as it was loaded. `renewedUntil` is a history: the
    end that the last operation on the row since then stored. -/
structure Candidate where
  loaded : WhiteInternetSubscription
  renewedUntil : Option Time := none
  deriving DecidableEq, Repr

/-- A reconciliation cycle: its clock, and the candidates it has not come to. -/
structure Sweep where
  now : Time
  candidates : List Candidate := []
  deriving DecidableEq, Repr

structure SweepState where
  clock : Time := 0
  tables : WhiteInternetTables := {}
  nextId : ℕ := 1
  sweep : Option Sweep := none
  deriving DecidableEq

/-- The statuses the expiry applies to. -/
def Expirable (status : WhiteInternetStatus) : Prop :=
  status = .pending ∨ status = .active ∨ status = .exhausted

instance (status : WhiteInternetStatus) : Decidable (Expirable status) := by
  unfold Expirable; infer_instance

/-- The `WHERE` clause of `stmt_subs`. -/
def NeedsReconciliation (server : ServerId) (targetEpoch : Epoch) (now : Time)
    (sub : WhiteInternetSubscription) : Prop :=
  sub.originNodeId = some server ∧
    (sub.actualVersion ≠ sub.desiredVersion ∨
      sub.lastReconciledNodeEpoch ≠ some targetEpoch ∨
      sub.provisioningStatus = .pendingCreate ∨ sub.provisioningStatus = .pendingUpdate ∨
      sub.provisioningStatus = .pendingDelete ∨
      Expirable sub.status ∧ sub.expiresAt ≤ now)

instance (server : ServerId) (targetEpoch : Epoch) (now : Time) (sub : WhiteInternetSubscription) :
    Decidable (NeedsReconciliation server targetEpoch now sub) := by
  unfold NeedsReconciliation; infer_instance

/-- The order of `stmt_subs`: the longest unsynced first, then by id. -/
def SyncedBefore (a b : WhiteInternetSubscription) : Prop :=
  match a.lastSyncedAt, b.lastSyncedAt with
  | none, none => a.id ≤ b.id
  | none, some _ => True
  | some _, none => False
  | some s, some t => s < t ∨ s = t ∧ a.id ≤ b.id

instance : DecidableRel SyncedBefore := fun a b => by
  rw [SyncedBefore]
  split <;> infer_instance

/-- `pending_subs`. -/
def pendingSubs (t : WhiteInternetTables) (server : ServerId) (targetEpoch : Epoch) (now : Time) :
    List WhiteInternetSubscription :=
  ((t.subscriptions.filter fun sub => NeedsReconciliation server targetEpoch now sub).insertionSort
    SyncedBefore).take batchSize

/-- The check the cycle makes on the loaded object. -/
def Candidate.Due (c : Candidate) (now : Time) : Prop :=
  c.loaded.expiresAt ≤ now ∧ Expirable c.loaded.status

instance (c : Candidate) (now : Time) : Decidable (c.Due now) := by
  unfold Candidate.Due; infer_instance

/-- What can happen to the subscriptions while a cycle runs. `renewal` is one of the operations that
    move the end, `other` any operation on a row that leaves its end alone. -/
inductive SweepEvent
  | tick (d : ℕ)
  | startCycle
  | select (server : ServerId) (targetEpoch : Epoch)
  | expireNext
  | renewal (id : ℕ) (r : Renewal) (now : Time)
  | create (row : WhiteInternetSubscription)
  | delete (id : ℕ)
  | other (row : WhiteInternetSubscription)

namespace SweepState

/-- The cycle selects the next server's batch once it is through with the last one. -/
def select (s : SweepState) (server : ServerId) (targetEpoch : Epoch) : SweepState :=
  match s.sweep with
  | some ⟨now, []⟩ => { s with
      sweep := some ⟨now, (pendingSubs s.tables server targetEpoch now).map ({ loaded := · })⟩ }
  | _ => s

/-- The cycle comes to its next candidate: `expire_subscription_atomic` if it is due. A row that is
    gone ends the cycle with an exception. -/
def expireNext (s : SweepState) : SweepState :=
  match s.sweep with
  | some ⟨now, c :: rest⟩ =>
    if c.Due now then
      match s.tables.subscription c.loaded.id with
      | none => { s with sweep := none }
      | some row => { s with
          tables := s.tables.putSubscription (row.expire "subscription_expired")
          sweep := some ⟨now, rest⟩ }
    else { s with sweep := some ⟨now, rest⟩ }
  | _ => s

/-- The candidates of the cycle under way, changed. -/
def mapCandidates (f : Candidate → Candidate) (w : Sweep) : Sweep :=
  { w with candidates := w.candidates.map f }

/-- A candidate learns the end that an operation on its row stored. -/
def noteEnd (row : WhiteInternetSubscription) (c : Candidate) : Candidate :=
  if c.loaded.id = row.id then { c with renewedUntil := some row.expiresAt } else c

def renewal (s : SweepState) (id : ℕ) (r : Renewal) (now : Time) : SweepState :=
  match (s.tables.subscription id).bind fun sub => r.apply sub now with
  | none => s
  | some row => { s with
      tables := s.tables.putSubscription row
      sweep := s.sweep.map (mapCandidates (noteEnd row)) }

def create (s : SweepState) (row : WhiteInternetSubscription) : SweepState :=
  { s with
    tables := { s.tables with
      subscriptions := s.tables.subscriptions ++ [{ row with id := s.nextId }] }
    nextId := s.nextId + 1 }

def delete (s : SweepState) (id : ℕ) : SweepState :=
  { s with tables := { s.tables with
      subscriptions := s.tables.subscriptions.filter (·.id ≠ id) } }

def other (s : SweepState) (row : WhiteInternetSubscription) : SweepState :=
  match s.tables.subscription row.id with
  | none => s
  | some old => { s with
      tables := s.tables.putSubscription { row with expiresAt := old.expiresAt } }

def step (s : SweepState) : SweepEvent → SweepState
  | .tick d => { s with clock := s.clock + d }
  | .startCycle => { s with sweep := some { now := s.clock } }
  | .select server targetEpoch => s.select server targetEpoch
  | .expireNext => s.expireNext
  | .renewal id r now => s.renewal id r now
  | .create row => s.create row
  | .delete id => s.delete id
  | .other row => s.other row

end SweepState

/-! ### The property and its condition -/

/-- The sweep moves a row to EXPIRED only when the end stored in it has passed. -/
def ExpiresOnlyEnded (s : SweepState) : SweepEvent → Prop
  | .expireNext => ∀ id, ∀ row ∈ s.tables.subscription id,
      ∀ row' ∈ s.expireNext.tables.subscription id,
        row.status ≠ .expired → row'.status = .expired → row.expiresAt ≤ s.clock
  | _ => True

/-- When the sweep comes to a due candidate whose row can still be expired, no renewal of it that
    committed since the selection reaches past the clock. -/
def NoFreshRenewal (s : SweepState) : SweepEvent → Prop
  | .expireNext => ∀ now c rest, s.sweep = some ⟨now, c :: rest⟩ → c.Due now →
      ∀ row ∈ s.tables.subscription c.loaded.id, row.status ≠ .expired → row.status ≠ .disabled →
        ∀ e ∈ c.renewedUntil, e ≤ s.clock
  | _ => True

/-! ### The runs -/

theorem Renewal.apply_id {r : Renewal} {sub sub' : WhiteInternetSubscription} {now : Time}
    (h : r.apply sub now = some sub') : sub'.id = sub.id := by
  cases r with
  | renew durationDays baseBytes maxExpiryDays =>
    exact WhiteInternetSubscription.renew_id (Lib.toOption_eq_some h)
  | extend n => exact (WhiteInternetSubscription.extend_ok (Lib.toOption_eq_some h)).1
  | convert durationDays newOrigin =>
    obtain rfl := Option.some.inj h
    exact sub.convertTrial_id durationDays newOrigin now

/-- The end the row of a candidate has, as far as the history tells. -/
def Candidate.storedEnd (c : Candidate) : Time := c.renewedUntil.getD c.loaded.expiresAt

/-- The row of a candidate, if it is still there, ends when the history says. -/
def Candidate.Known (t : WhiteInternetTables) (c : Candidate) : Prop :=
  ∀ row ∈ t.subscription c.loaded.id, row.expiresAt = c.storedEnd

namespace Candidate.Known
variable {t : WhiteInternetTables} {c : Candidate} {id : ℕ} {old row : WhiteInternetSubscription}

/-- Writing a row back with the end it had. -/
theorem put_same (hc : c.Known t) (h : t.subscription id = some old) (hid : row.id = id)
    (hend : row.expiresAt = old.expiresAt) : c.Known (t.putSubscription row) := by
  intro found hfound
  rw [Option.mem_def, WhiteInternetTables.subscription_putSubscription h hid] at hfound
  split at hfound
  · rename_i hk
    obtain rfl := Option.some.inj hfound
    rw [hend]
    exact hc old (hk ▸ h)
  · exact hc found hfound

/-- Writing a row back with any end, which the candidate of that row learns. -/
theorem put_noted (hc : c.Known t) (h : t.subscription id = some old) (hid : row.id = id) :
    (SweepState.noteEnd row c).Known (t.putSubscription row) := by
  rw [SweepState.noteEnd]
  split
  · rename_i hk
    intro found hfound
    rw [Option.mem_def, WhiteInternetTables.subscription_putSubscription h hid,
      if_pos (hk.trans hid)] at hfound
    obtain rfl := Option.some.inj hfound
    rfl
  · rename_i hk
    intro found hfound
    rw [Option.mem_def, WhiteInternetTables.subscription_putSubscription h hid,
      if_neg fun h => hk (h.trans hid.symm)] at hfound
    exact hc found hfound

/-- A row with a new id is not the candidate's. -/
theorem append (hc : c.Known t) (hne : c.loaded.id ≠ row.id) :
    c.Known { t with subscriptions := t.subscriptions ++ [row] } := by
  intro found hfound
  refine hc found ?_
  simpa [WhiteInternetTables.subscription, Lib.Table.lookup_append, hne.symm] using hfound

theorem delete (hc : c.Known t) (k : ℕ) :
    c.Known { t with subscriptions := t.subscriptions.filter (·.id ≠ k) } := by
  intro found hfound
  refine hc found ?_
  simp only [WhiteInternetTables.subscription, Option.mem_def] at hfound ⊢
  split_ifs at hfound with hbounds
  rw [if_neg hbounds]
  exact Lib.Table.lookup_of_lookup_filter_ne _ hfound

end Candidate.Known

/-- Ids are unique and come from the sequence, the cycle's clock is not ahead, and of every
    candidate the history tells the end its row has. -/
structure SweepInv (s : SweepState) : Prop where
  nodup : (s.tables.subscriptions.map WhiteInternetSubscription.id).Nodup
  fresh : ∀ row ∈ s.tables.subscriptions, row.id < s.nextId
  clock : ∀ w ∈ s.sweep, w.now ≤ s.clock
  old : ∀ w ∈ s.sweep, ∀ c ∈ w.candidates, c.loaded.id < s.nextId
  known : ∀ w ∈ s.sweep, ∀ c ∈ w.candidates, c.Known s.tables

theorem sweepInv_start : SweepInv {} where
  nodup := List.nodup_nil
  fresh := fun _ h => absurd h List.not_mem_nil
  clock := fun _ h => absurd h (Option.not_mem_none _)
  old := fun _ h => absurd h (Option.not_mem_none _)
  known := fun _ h => absurd h (Option.not_mem_none _)

namespace SweepInv
variable {s : SweepState}

/-- Writing a row back keeps the ids of the table. -/
theorem map_id_putSubscription (t : WhiteInternetTables) (row : WhiteInternetSubscription) :
    (t.putSubscription row).subscriptions.map WhiteInternetSubscription.id =
      t.subscriptions.map WhiteInternetSubscription.id := Lib.Table.map_key_put _ row _

/-- Writing a row back, with a cycle that the history still fits. -/
theorem put (hs : SweepInv s) (row : WhiteInternetSubscription) {sweep : Option Sweep}
    (hclock : ∀ w ∈ sweep, w.now ≤ s.clock)
    (hold : ∀ w ∈ sweep, ∀ c ∈ w.candidates, c.loaded.id < s.nextId)
    (hknown : ∀ w ∈ sweep, ∀ c ∈ w.candidates, c.Known (s.tables.putSubscription row)) :
    SweepInv { s with tables := s.tables.putSubscription row, sweep := sweep } where
  nodup := by
    rw [map_id_putSubscription]
    exact hs.nodup
  fresh := by
    intro x hx
    have hid : x.id ∈ s.tables.subscriptions.map WhiteInternetSubscription.id :=
      map_id_putSubscription s.tables row ▸ List.mem_map_of_mem hx
    obtain ⟨y, hy, hxy⟩ := List.mem_map.mp hid
    exact hxy ▸ hs.fresh y hy
  clock := hclock
  old := hold
  known := hknown

theorem tick (hs : SweepInv s) (d : ℕ) : SweepInv (s.step (.tick d)) :=
  { hs with clock := fun w hw => (hs.clock w hw).trans (Int.le_add_of_nonneg_right d.cast_nonneg) }

theorem startCycle (hs : SweepInv s) : SweepInv (s.step .startCycle) where
  nodup := hs.nodup
  fresh := hs.fresh
  clock := by rintro _ ⟨⟩; exact le_rfl
  old := by rintro _ ⟨⟩ c hc; exact absurd hc List.not_mem_nil
  known := by rintro _ ⟨⟩ c hc; exact absurd hc List.not_mem_nil

/-- What the selection loads are rows of the table. -/
theorem mem_of_mem_pendingSubs {t : WhiteInternetTables} {server : ServerId} {targetEpoch : Epoch}
    {now : Time} {sub : WhiteInternetSubscription}
    (h : sub ∈ pendingSubs t server targetEpoch now) : sub ∈ t.subscriptions :=
  List.mem_of_mem_filter ((List.mem_insertionSort _).mp (List.mem_of_mem_take h))

theorem select (hs : SweepInv s) (server : ServerId) (targetEpoch : Epoch) :
    SweepInv (s.select server targetEpoch) := by
  rw [SweepState.select]
  split
  · rename_i now hsweep
    have hrow : ∀ c ∈ (pendingSubs s.tables server targetEpoch now).map
        fun sub => ({ loaded := sub } : Candidate), c.loaded ∈ s.tables.subscriptions ∧
          c.storedEnd = c.loaded.expiresAt := by
      intro c hc
      obtain ⟨sub, hsub, rfl⟩ := List.mem_map.mp hc
      exact ⟨mem_of_mem_pendingSubs hsub, rfl⟩
    refine { hs with clock := ?_, old := ?_, known := ?_ }
    · rintro _ ⟨⟩
      exact hs.clock ⟨now, []⟩ hsweep
    · rintro _ ⟨⟩ c hc
      exact hs.fresh c.loaded (hrow c hc).1
    · rintro _ ⟨⟩ c hc found hfound
      rw [(hrow c hc).2, WhiteInternetTables.subscription_of_mem hs.nodup (hrow c hc).1 hfound]
  · exact hs

theorem expireNext (hs : SweepInv s) : SweepInv s.expireNext := by
  rw [SweepState.expireNext]
  split
  · rename_i now c rest hsweep
    have hclock : now ≤ s.clock := hs.clock _ hsweep
    have hold : ∀ c' ∈ rest, c'.loaded.id < s.nextId := fun c' hc' =>
      hs.old _ hsweep c' (List.mem_cons_of_mem c hc')
    have hknown : ∀ c' ∈ rest, c'.Known s.tables := fun c' hc' =>
      hs.known _ hsweep c' (List.mem_cons_of_mem c hc')
    split
    · split
      · exact { hs with
          clock := fun _ h => absurd h (Option.not_mem_none _)
          old := fun _ h => absurd h (Option.not_mem_none _)
          known := fun _ h => absurd h (Option.not_mem_none _) }
      · rename_i row hrow
        have hid : (row.expire "subscription_expired").id = c.loaded.id :=
          (row.expire_id _).trans (WhiteInternetTables.id_of_subscription hrow)
        refine hs.put _ ?_ ?_ ?_
        · rintro _ ⟨⟩
          exact hclock
        · rintro _ ⟨⟩
          exact hold
        · rintro _ ⟨⟩ c' hc'
          exact (hknown c' hc').put_same hrow hid (row.expire_expiresAt _)
    · refine { hs with clock := ?_, old := ?_, known := ?_ }
      · rintro _ ⟨⟩
        exact hclock
      · rintro _ ⟨⟩
        exact hold
      · rintro _ ⟨⟩
        exact hknown
  · exact hs

theorem renewal (hs : SweepInv s) (id : ℕ) (r : Renewal) (now : Time) :
    SweepInv (s.renewal id r now) := by
  rw [SweepState.renewal]
  split
  · exact hs
  · rename_i row happ
    obtain ⟨sub, hsub, hrow⟩ := Option.bind_eq_some_iff.mp happ
    have hid : row.id = id := (r.apply_id hrow).trans (WhiteInternetTables.id_of_subscription hsub)
    have hnoted : ∀ c : Candidate, (SweepState.noteEnd row c).loaded = c.loaded := fun c => by
      rw [SweepState.noteEnd]
      split <;> rfl
    refine hs.put row ?_ ?_ ?_
    · intro w' hw'
      obtain ⟨w, hw, rfl⟩ := Option.map_eq_some_iff.mp hw'
      exact hs.clock w hw
    · intro w' hw' c' hc'
      obtain ⟨w, hw, rfl⟩ := Option.map_eq_some_iff.mp hw'
      obtain ⟨c, hc, rfl⟩ := List.mem_map.mp hc'
      rw [hnoted]
      exact hs.old w hw c hc
    · intro w' hw' c' hc'
      obtain ⟨w, hw, rfl⟩ := Option.map_eq_some_iff.mp hw'
      obtain ⟨c, hc, rfl⟩ := List.mem_map.mp hc'
      exact (hs.known w hw c hc).put_noted hsub hid

theorem create (hs : SweepInv s) (row : WhiteInternetSubscription) : SweepInv (s.create row) where
  nodup := by
    simp only [SweepState.create, List.map_append, List.map_cons, List.map_nil]
    refine List.nodup_append.mpr ⟨hs.nodup, List.nodup_singleton _, ?_⟩
    intro x hx y hy
    obtain ⟨z, hz, rfl⟩ := List.mem_map.mp hx
    obtain rfl := List.mem_singleton.mp hy
    exact (hs.fresh z hz).ne
  fresh := by
    intro x hx
    rcases List.mem_append.mp hx with hx | hx
    · exact (hs.fresh x hx).trans (Nat.lt_succ_self _)
    · obtain rfl := List.mem_singleton.mp hx
      exact Nat.lt_succ_self _
  clock := hs.clock
  old := fun w hw c hc => (hs.old w hw c hc).trans (Nat.lt_succ_self _)
  known := fun w hw c hc => (hs.known w hw c hc).append (hs.old w hw c hc).ne

theorem delete (hs : SweepInv s) (k : ℕ) : SweepInv (s.delete k) where
  nodup := hs.nodup.sublist (List.filter_sublist.map _)
  fresh := fun row hrow => hs.fresh row (List.mem_of_mem_filter hrow)
  clock := hs.clock
  old := hs.old
  known := fun w hw c hc => (hs.known w hw c hc).delete k

theorem other (hs : SweepInv s) (row : WhiteInternetSubscription) : SweepInv (s.other row) := by
  rw [SweepState.other]
  split
  · exact hs
  · rename_i old hold
    exact hs.put _ hs.clock hs.old fun w hw c hc => (hs.known w hw c hc).put_same hold rfl rfl

theorem step (s : SweepState) (e : SweepEvent) (hs : SweepInv s) : SweepInv (s.step e) := by
  cases e with
  | tick d => exact hs.tick d
  | startCycle => exact hs.startCycle
  | select server targetEpoch => exact hs.select server targetEpoch
  | expireNext => exact hs.expireNext
  | renewal id r now => exact hs.renewal id r now
  | create row => exact hs.create row
  | delete id => exact hs.delete id
  | other row => exact hs.other row

end SweepInv

/-! ### The sweep and the renewals -/

/-- The rows after the sweep came to a candidate: those of a due one's row are expired, and every
    other row is as before. -/
theorem SweepState.expireNext_changes {s : SweepState} {id : ℕ}
    {row row' : WhiteInternetSubscription} (h : s.tables.subscription id = some row)
    (h' : s.expireNext.tables.subscription id = some row') :
    row' = row ∨ ∃ now c rest, s.sweep = some ⟨now, c :: rest⟩ ∧ c.Due now ∧
      c.loaded.id = id ∧ row' = row.expire "subscription_expired" := by
  have hsame : s.tables.subscription id = some row' → row' = row := fun hr =>
    Option.some.inj (hr.symm.trans h)
  unfold expireNext at h'
  split at h'
  · rename_i now c rest hsweep
    split at h'
    · rename_i hdue
      split at h'
      · exact .inl (hsame h')
      · rename_i found hfound
        rw [WhiteInternetTables.subscription_putSubscription hfound
          ((found.expire_id _).trans (WhiteInternetTables.id_of_subscription hfound))] at h'
        split at h'
        · rename_i hid
          obtain rfl : found = row := Option.some.inj (hfound.symm.trans (hid ▸ h))
          exact .inr ⟨now, c, rest, hsweep, hdue, hid.symm, (Option.some.inj h').symm⟩
        · exact .inl (hsame h')
    · exact .inl (hsame h')
  · exact .inl (hsame h')

/-- A due candidate whose row is there has it expired. -/
theorem SweepState.expireNext_due {s : SweepState} {now : Time} {c : Candidate}
    {rest : List Candidate} {row : WhiteInternetSubscription}
    (hsweep : s.sweep = some ⟨now, c :: rest⟩) (hdue : c.Due now)
    (h : s.tables.subscription c.loaded.id = some row) :
    s.expireNext.tables.subscription c.loaded.id = some (row.expire "subscription_expired") := by
  have hid := (row.expire_id "subscription_expired").trans
    (WhiteInternetTables.id_of_subscription h)
  simp only [expireNext, hsweep, if_pos hdue, h]
  rw [WhiteInternetTables.subscription_putSubscription h hid, if_pos rfl]

/-- At one step the sweep expires only what has ended exactly when no fresh renewal is in its
    way. -/
theorem expiresOnlyEnded_iff_of_inv {s : SweepState} (e : SweepEvent) (hs : SweepInv s) :
    ExpiresOnlyEnded s e ↔ NoFreshRenewal s e := by
  cases e with
  | expireNext =>
    constructor
    · intro h now c rest hsweep hdue row hrow hexpired hdisabled e he
      have hend : row.expiresAt = e := by
        have hstored := hs.known _ hsweep c List.mem_cons_self row hrow
        rwa [Candidate.storedEnd, Option.mem_def.mp he, Option.getD_some] at hstored
      have hmoves := (WhiteInternetSubscription.expire_moves_iff "subscription_expired").mpr
        ⟨hexpired, hdisabled⟩
      rw [← hend]
      exact h c.loaded.id row hrow _ (SweepState.expireNext_due hsweep hdue hrow) hexpired hmoves.2
    · intro h id row hrow row' hrow' hne hexpired
      rcases SweepState.expireNext_changes hrow hrow' with
        rfl | ⟨now, c, rest, hsweep, hdue, rfl, rfl⟩
      · exact absurd hexpired hne
      · have hstatus := (WhiteInternetSubscription.expire_moves_iff _).mp ⟨hne, hexpired⟩
        rw [hs.known _ hsweep c List.mem_cons_self row hrow]
        cases hend : c.renewedUntil with
        | none =>
          -- no renewal since the selection: the end is the one that was due
          rw [Candidate.storedEnd, hend, Option.getD_none]
          exact hdue.1.trans (hs.clock _ hsweep)
        | some e =>
          rw [Candidate.storedEnd, hend, Option.getD_some]
          exact h now c rest hsweep hdue row hrow hstatus.1 hstatus.2 e hend
  | tick d => exact Iff.rfl
  | startCycle => exact Iff.rfl
  | select server targetEpoch => exact Iff.rfl
  | renewal id r now => exact Iff.rfl
  | create row => exact Iff.rfl
  | delete id => exact Iff.rfl
  | other row => exact Iff.rfl

/-- In every run the sweep expires only subscriptions that have ended if and only if it never comes
    to a due candidate that a renewal since its selection has carried past the clock. -/
theorem expires_only_ended_iff (es : List SweepEvent) :
    Lib.Always SweepState.step ExpiresOnlyEnded {} es ↔
      Lib.Always SweepState.step NoFreshRenewal {} es :=
  Lib.always_congr_of_inv SweepState.step SweepInv.step
    (fun _ e hs => expiresOnlyEnded_iff_of_inv e hs) es {} sweepInv_start

/-- A subscription of thirty days is selected as it ends, its owner pays for thirty more, and the
    sweep expires the renewed row. -/
theorem sweep_expires_renewed :
    ¬Lib.Always SweepState.step ExpiresOnlyEnded {}
      [.create { WhiteInternetSubscription.create 1 7 1 11 whiteInternetBaseTrafficBytes
         whiteInternetBaseDurationDays false 0 with status := .active },
       .tick 2592000000000,
       .startCycle,
       .select 1 5,
       .renewal 1 (.renew whiteInternetBaseDurationDays none whiteInternetMaxExpiryDays)
         2592000000000,
       .expireNext] := by
  intro h
  have hend := h.2.2.2.2.2.1 1 _ rfl _ rfl (by decide +kernel) (by decide +kernel)
  exact absurd hend (by decide +kernel)

end Just1kBot
