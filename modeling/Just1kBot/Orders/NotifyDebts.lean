import Just1kBot.Orders.CreditNotify
import Just1kBot.Orders.OrderHistory

/-! The two notification debts of an order over every interleaving of settlements, refunds,
    immediate deliveries and worker passes.

    Each event writes each debt in one way, read off the event and the state alone. The owner's
    debt always follows its own writes. The referrer's does as long as no immediate delivery
    writes back a row that it loaded before somebody else wrote the referrer's debt. -/

namespace Just1kBot.CreditNotify
open Lib (Debt Always Throughout)

/-! ### The debts in the metadata -/

namespace Row

def ownerDebt (r : Row) : Debt Unit :=
  ⟨if r.order.metadata.lateNotifyPending then some () else none,
    r.order.metadata.lateNotifyAttempts⟩

def referrerDebt (r : Row) : Debt ReferrerNotify :=
  ⟨r.order.metadata.referrerNotifyPending, r.referrerNotifyAttempts⟩

variable (r : Row)

theorem ownerDebt_pending_eq_none :
    r.ownerDebt.pending = none ↔ r.order.metadata.lateNotifyPending = false := by
  simp [ownerDebt]

@[simp] theorem ownerDebt_markNotified : r.markNotified.ownerDebt = {} := rfl

@[simp] theorem referrerDebt_markNotified : r.markNotified.referrerDebt = r.referrerDebt := rfl

@[simp] theorem ownerDebt_markReferrerNotified :
    r.markReferrerNotified.ownerDebt = r.ownerDebt := rfl

@[simp] theorem referrerDebt_markReferrerNotified : r.markReferrerNotified.referrerDebt = {} := rfl

@[simp] theorem ownerDebt_noteFailedOwnerAttempt :
    r.noteFailedOwnerAttempt.ownerDebt = r.ownerDebt.failed maxNotifyAttempts := by
  rw [noteFailedOwnerAttempt, Debt.failed]
  simp only [apply_ite Row.ownerDebt]
  rfl

@[simp] theorem referrerDebt_noteFailedOwnerAttempt :
    r.noteFailedOwnerAttempt.referrerDebt = r.referrerDebt := by
  rw [noteFailedOwnerAttempt]
  split <;> rfl

@[simp] theorem ownerDebt_noteFailedReferrerAttempt :
    r.noteFailedReferrerAttempt.ownerDebt = r.ownerDebt := by
  rw [noteFailedReferrerAttempt]
  split <;> rfl

@[simp] theorem referrerDebt_noteFailedReferrerAttempt :
    r.noteFailedReferrerAttempt.referrerDebt = r.referrerDebt.failed maxNotifyAttempts := by
  rw [noteFailedReferrerAttempt, Debt.failed]
  simp only [apply_ite Row.referrerDebt]
  rfl

theorem ownerDebt_write (o : Order) : (r.write o).ownerDebt = r.ownerDebt := rfl

theorem referrerDebt_write (o : Order) : (r.write o).referrerDebt = r.referrerDebt := rfl

end Row

/-! ### The writes of an event -/

section Writes
variable {α : Type}

/-- What a finished push does to its debt: nothing unless the debt is still owed. -/
def outcome (d : Debt α) : Option NotifyResult → Debt.Write α
  | some .accepted => if d.pending.isSome then .clear else .keep
  | some .failed => if d.pending.isSome then .count else .keep
  | some .forbidden => .keep
  | none => .keep

end Writes

/-- What a step of a worker delivery does to the owner's debt. -/
def ownerWork (r : Row) : Delivery → Debt.Write Unit
  | .anomaly => outcome r.ownerDebt (some .failed)
  | .dropOwner _ => .clear
  | .finalize ownerOk _ =>
    if r.order.status ≠ .paid then .clear else outcome r.ownerDebt ownerOk
  | .loaded _ | .dropReferrer _ | .sendOwner _ _ | .sendReferrer _ _ | .done => .keep

/-- What a step of a worker delivery does to the referrer's debt. -/
def referrerWork (r : Row) : Delivery → Debt.Write ReferrerNotify
  | .dropReferrer _ => .clear
  | .finalize _ refOk =>
    if r.order.status ≠ .paid then .clear else outcome r.referrerDebt refOk
  | .loaded _ | .anomaly | .dropOwner _ | .sendOwner _ _ | .sendReferrer _ _ | .done => .keep

/-- The row that the immediate delivery `k` is about to write back. -/
def State.writesBack (s : State) (k : ℕ) (delivered : Bool) : Option Row :=
  if delivered then (s.loaded[k]?.bind id).filter fun copy => copy.markNotified ≠ copy else none

/-- The one write of an event on the owner's debt. -/
def ownerWrite (s : State) : Event → Debt.Write Unit
  | .settle _ => if s.row.order.status = .refunded then .keep else .arm () true
  | .work k _ => (s.deliveries[k]?).elim .keep (ownerWork s.row)
  | .immediate k delivered => if (s.writesBack k delivered).isSome then .clear else .keep
  | .refund | .write _ | .snapshot | .abandon _ | .load => .keep

/-- The one write of an event on the referrer's debt: an immediate delivery never writes it. -/
def referrerWrite (s : State) : Event → Debt.Write ReferrerNotify
  | .settle (some n) => if s.row.order.status = .refunded then .keep else .arm n false
  | .work k _ => (s.deliveries[k]?).elim .keep (referrerWork s.row)
  | .settle none | .immediate _ _ | .refund | .write _ | .snapshot | .abandon _ | .load => .keep

/-- The event writes each debt by its own write and nothing else. -/
def Independent (s : State) (e : Event) : Prop :=
  (step s e).row.ownerDebt = (ownerWrite s e).apply maxNotifyAttempts s.row.ownerDebt ∧
    (step s e).row.referrerDebt = (referrerWrite s e).apply maxNotifyAttempts s.row.referrerDebt

instance (s : State) (e : Event) : Decidable (Independent s e) := by
  unfold Independent
  infer_instance

/-- An immediate delivery that writes its row back finds the referrer's debt as it loaded it. -/
def Fresh (s : State) : Event → Prop
  | .immediate k delivered =>
    ∀ copy ∈ s.writesBack k delivered, copy.referrerDebt = s.row.referrerDebt
  | _ => True

/-! ### One step -/

section Steps
variable (r : Row)

theorem ownerDebt_finalizeOwner (ok : Option NotifyResult) :
    (finalizeOwner ok r).ownerDebt =
      (outcome r.ownerDebt ok).apply maxNotifyAttempts r.ownerDebt := by
  have hpend : r.ownerDebt.pending.isSome = r.order.metadata.lateNotifyPending := by
    rw [Row.ownerDebt]
    cases r.order.metadata.lateNotifyPending <;> rfl
  cases ok with
  | none => rfl
  | some ok =>
    simp only [finalizeOwner, outcome.eq_def, hpend]
    cases r.order.metadata.lateNotifyPending <;> cases ok <;>
      simp [Debt.Write.apply]

theorem referrerDebt_finalizeReferrer (ok : Option NotifyResult) :
    (finalizeReferrer ok r).referrerDebt =
      (outcome r.referrerDebt ok).apply maxNotifyAttempts r.referrerDebt := by
  have hpend : r.referrerDebt.pending.isSome = r.order.metadata.referrerNotifyPending.isSome := rfl
  cases ok with
  | none => rfl
  | some ok =>
    simp only [finalizeReferrer, outcome.eq_def, hpend]
    cases r.order.metadata.referrerNotifyPending.isSome <;> cases ok <;>
      simp [Debt.Write.apply]

theorem referrerDebt_finalizeOwner (ok : Option NotifyResult) :
    (finalizeOwner ok r).referrerDebt = r.referrerDebt := by
  cases ok with
  | none => rfl
  | some ok =>
    simp only [finalizeOwner]
    cases r.order.metadata.lateNotifyPending <;> cases ok <;> simp

theorem ownerDebt_finalizeReferrer (ok : Option NotifyResult) :
    (finalizeReferrer ok r).ownerDebt = r.ownerDebt := by
  cases ok with
  | none => rfl
  | some ok =>
    simp only [finalizeReferrer]
    cases r.order.metadata.referrerNotifyPending.isSome <;> cases ok <;> simp

theorem ownerDebt_deliverOne (env : Env) (d : Delivery) :
    (deliverOne env r d).1.ownerDebt =
      (ownerWork r d).apply maxNotifyAttempts r.ownerDebt := by
  cases d with
  | loaded copy => rfl
  | anomaly => exact ownerDebt_finalizeOwner r (some .failed)
  | dropOwner ref => rfl
  | dropReferrer owner => rfl
  | sendOwner t ref => rfl
  | sendReferrer ok b => rfl
  | finalize o f =>
    rw [deliverOne, ownerWork, finalizeDelivery]
    split
    · rfl
    · rw [ownerDebt_finalizeReferrer, ownerDebt_finalizeOwner]
  | done => rfl

theorem referrerDebt_deliverOne (env : Env) (d : Delivery) :
    (deliverOne env r d).1.referrerDebt =
      (referrerWork r d).apply maxNotifyAttempts r.referrerDebt := by
  cases d with
  | loaded copy => rfl
  | anomaly => exact referrerDebt_finalizeOwner r (some .failed)
  | dropOwner ref => rfl
  | dropReferrer owner => rfl
  | sendOwner t ref => rfl
  | sendReferrer ok b => rfl
  | finalize o f =>
    rw [deliverOne, referrerWork, finalizeDelivery]
    split
    · rfl
    · rw [referrerDebt_finalizeReferrer, referrerDebt_finalizeOwner]
  | done => rfl

end Steps

theorem step_immediate (s : State) (k : ℕ) (delivered : Bool) :
    (step s (.immediate k delivered)).row =
      (s.writesBack k delivered).elim s.row fun copy => copy.flushNotified s.row := by
  rw [step, State.writesBack]
  rcases hk : s.loaded[k]? with _ | _ | copy
  · cases delivered <;> rfl
  · cases delivered <;> rfl
  · cases delivered with
    | false => rfl
    | true =>
      by_cases hc : copy.markNotified = copy
      · simp [Option.filter, hc, Row.flushNotified]
      · simp [Option.filter, hc]

/-- Writing a loaded row back clears the owner's debt and restores the referrer's. -/
theorem flushNotified_debts {copy : Row} (r : Row) (h : copy.markNotified ≠ copy) :
    (copy.flushNotified r).ownerDebt = {} ∧
      (copy.flushNotified r).referrerDebt = copy.referrerDebt := by
  rw [Row.flushNotified, if_neg h]
  exact ⟨rfl, rfl⟩

theorem State.ne_of_mem_writesBack {s : State} {k : ℕ} {delivered : Bool} {copy : Row}
    (h : copy ∈ s.writesBack k delivered) : copy.markNotified ≠ copy := by
  rw [State.writesBack] at h
  split at h
  · simpa using (Option.mem_filter_iff.mp h).2
  · cases h

theorem step_work (s : State) (k : ℕ) (env : Env) :
    (step s (.work k env)).row =
      (s.deliveries[k]?).elim s.row fun d => (deliverOne env s.row d).1 := by
  rw [step]
  cases s.deliveries[k]? <;> rfl

/-- Every event writes the owner's debt by its own write. -/
theorem ownerDebt_step (s : State) (e : Event) :
    (step s e).row.ownerDebt = (ownerWrite s e).apply maxNotifyAttempts s.row.ownerDebt := by
  cases e with
  | settle referrer =>
    simp only [step, Row.settle, ownerWrite]
    split <;> rfl
  | refund =>
    simp only [step, Row.refund]
    split <;> rfl
  | write order => rfl
  | snapshot => rfl
  | work k env =>
    rw [step_work, ownerWrite]
    cases s.deliveries[k]? with
    | none => rfl
    | some d => exact ownerDebt_deliverOne s.row env d
  | abandon k => rfl
  | load => rfl
  | immediate k delivered =>
    rw [step_immediate, ownerWrite]
    rcases hw : s.writesBack k delivered with _ | copy
    · rfl
    · exact (flushNotified_debts s.row (State.ne_of_mem_writesBack hw)).1

/-- An event writes the referrer's debt by its own write exactly when it is fresh. -/
theorem referrerDebt_step_iff (s : State) (e : Event) :
    (step s e).row.referrerDebt =
      (referrerWrite s e).apply maxNotifyAttempts s.row.referrerDebt ↔ Fresh s e := by
  cases e with
  | settle referrer =>
    refine iff_of_true ?_ trivial
    cases referrer <;> simp only [step, Row.settle, referrerWrite] <;> split <;> rfl
  | refund =>
    refine iff_of_true ?_ trivial
    simp only [step, Row.refund]
    split <;> rfl
  | write order => exact iff_of_true rfl trivial
  | snapshot => exact iff_of_true rfl trivial
  | work k env =>
    refine iff_of_true ?_ trivial
    rw [step_work, referrerWrite]
    cases s.deliveries[k]? with
    | none => rfl
    | some d => exact referrerDebt_deliverOne s.row env d
  | abandon k => exact iff_of_true rfl trivial
  | load => exact iff_of_true rfl trivial
  | immediate k delivered =>
    rw [step_immediate, Fresh]
    rcases hw : s.writesBack k delivered with _ | copy
    · exact iff_of_true rfl fun _ h => by cases h
    · rw [Option.elim_some, (flushNotified_debts s.row (State.ne_of_mem_writesBack hw)).2]
      exact ⟨fun h c hc => by cases hc; exact h, fun h => h copy rfl⟩

theorem independent_iff_fresh (s : State) (e : Event) : Independent s e ↔ Fresh s e :=
  (and_iff_right (ownerDebt_step s e)).trans (referrerDebt_step_iff s e)

/-! ### What later snapshots send -/

/-- The delivery has the owner's push before it. -/
def Delivery.OwesOwner : Delivery → Prop
  | .loaded copy => copy.ownerDebt.pending ≠ none
  | .dropReferrer (some _) | .sendOwner _ _ => True
  | _ => False

/-- The delivery has the referrer's push before it. -/
def Delivery.OwesReferrer : Delivery → Prop
  | .loaded copy => copy.referrerDebt.pending ≠ none
  | .dropOwner (some _) | .sendOwner _ (some _) | .sendReferrer _ _ => True
  | _ => False

/-- The event sends the owner's push of the worker delivery `k`. -/
def SendsOwner (s : State) (k : ℕ) (e : Event) : Prop :=
  ∃ env t ref, e = .work k env ∧ s.deliveries[k]? = some (.sendOwner t ref)

/-- The event sends the referrer's push of the worker delivery `k`. -/
def SendsReferrer (s : State) (k : ℕ) (e : Event) : Prop :=
  ∃ env ok b, e = .work k env ∧ s.deliveries[k]? = some (.sendReferrer ok b)

/-- No worker delivery from number `n` on owes the push. -/
def NoneFrom (owes : Delivery → Prop) (n : ℕ) (s : State) : Prop :=
  n ≤ s.deliveries.length ∧ ∀ k d, n ≤ k → s.deliveries[k]? = some d → ¬ owes d

theorem noneFrom_length (owes : Delivery → Prop) (s : State) :
    NoneFrom owes s.deliveries.length s := by
  refine ⟨le_rfl, fun k d hk hd => ?_⟩
  rw [List.getElem?_eq_none hk] at hd
  cases hd

theorem NoneFrom.set {owes : Delivery → Prop} {n k : ℕ} {s : State} {d : Delivery}
    (h : NoneFrom owes n s) (row : Row) (hd : n ≤ k → ¬ owes d) :
    NoneFrom owes n { s with row := row, deliveries := s.deliveries.set k d } := by
  refine ⟨by rw [List.length_set]; exact h.1, fun j d' hj hj' => ?_⟩
  rw [List.getElem?_set] at hj'
  split at hj'
  · next hkj =>
    split at hj'
    · cases hj'
      exact hd (hkj ▸ hj)
    · cases hj'
  · exact h.2 j d' hj hj'

/-- While new snapshots find nothing to send and no step makes something up, nothing is owed. -/
theorem NoneFrom.step {owes : Delivery → Prop} {n : ℕ} {s : State} (e : Event)
    (h : NoneFrom owes n s) (hdone : ¬ owes .done)
    (hwork : ∀ env d, ¬ owes d → ¬ owes (deliverOne env s.row d).2)
    (hnew : ¬ owes (.loaded s.row)) : NoneFrom owes n (step s e) := by
  cases e with
  | settle referrer => exact h
  | refund => exact h
  | write order => exact h
  | snapshot =>
    refine ⟨h.1.trans (by simp [CreditNotify.step]), fun k d hk hd => ?_⟩
    rcases List.mem_append.mp (List.mem_of_getElem? hd) with hmem | hmem
    · rcases Nat.lt_or_ge k s.deliveries.length with hlt | hge
      · rw [CreditNotify.step, List.getElem?_append_left hlt] at hd
        exact h.2 k d hk hd
      · rw [CreditNotify.step, List.getElem?_append_right hge] at hd
        rw [List.mem_singleton.mp (List.mem_of_getElem? hd)]
        exact hnew
    · rw [List.mem_singleton.mp hmem]
      exact hnew
  | work k env =>
    rw [CreditNotify.step]
    split
    · exact h
    · next d hd => exact h.set _ fun hk => hwork env d (h.2 k d hk hd)
  | abandon k => exact h.set s.row fun _ => hdone
  | load => exact h
  | immediate k delivered =>
    rw [CreditNotify.step]
    split <;> exact h

theorem not_owesOwner_dispatch (ref : Option ReferrerPush) : ¬ (dispatch none ref).OwesOwner := by
  rcases ref with _ | _ | b <;> exact id

theorem not_owesOwner_deliverOne (env : Env) (r : Row) (d : Delivery) (h : ¬ d.OwesOwner) :
    ¬ (deliverOne env r d).2.OwesOwner := by
  cases d with
  | loaded copy =>
    have hnone : copy.order.metadata.lateNotifyPending = false :=
      copy.ownerDebt_pending_eq_none.mp (not_not.mp h)
    rw [deliverOne, ownerPush, if_pos hnone]
    exact not_owesOwner_dispatch _
  | anomaly => exact id
  | dropOwner ref => exact not_owesOwner_dispatch ref
  | dropReferrer owner =>
    cases owner with
    | none => exact not_owesOwner_dispatch none
    | some o => exact absurd trivial h
  | sendOwner t ref => exact absurd trivial h
  | sendReferrer ok b => exact id
  | finalize o f => exact id
  | done => exact id

theorem not_owesReferrer_dispatch (owner : Option OwnerPush) :
    ¬ (dispatch owner none).OwesReferrer := by
  rcases owner with _ | _ | _ | t <;> exact id

theorem not_owesReferrer_deliverOne (env : Env) (r : Row) (d : Delivery)
    (h : ¬ d.OwesReferrer) : ¬ (deliverOne env r d).2.OwesReferrer := by
  cases d with
  | loaded copy =>
    have hnone : copy.order.metadata.referrerNotifyPending = none := not_not.mp h
    have hpush : referrerPush env copy = none := by rw [referrerPush, hnone]
    rw [deliverOne, hpush]
    exact not_owesReferrer_dispatch _
  | anomaly => exact id
  | dropOwner ref =>
    cases ref with
    | none => exact not_owesReferrer_dispatch none
    | some f => exact absurd trivial h
  | dropReferrer owner => exact not_owesReferrer_dispatch owner
  | sendOwner t ref =>
    cases ref with
    | none => exact id
    | some f => exact absurd trivial h
  | sendReferrer ok b => exact absurd trivial h
  | finalize o f => exact id
  | done => exact id

/-- A debt that is clear and not armed again is in no snapshot taken from here on. -/
def NotResent (s : State) (es : List Event) : Prop :=
  (s.row.ownerDebt.pending = none →
    Always step (fun s e => ∀ a fresh, ownerWrite s e ≠ .arm a fresh) s es →
    Always step (fun s' e => ∀ k, SendsOwner s' k e → k < s.deliveries.length) s es) ∧
  (s.row.referrerDebt.pending = none →
    Always step (fun s e => ∀ a fresh, referrerWrite s e ≠ .arm a fresh) s es →
    Always step (fun s' e => ∀ k, SendsReferrer s' k e → k < s.deliveries.length) s es)

/-- The owner's push is only ever due to snapshots taken while the debt was owed. -/
theorem owner_not_resent (s : State) (es : List Event) (hnone : s.row.ownerDebt.pending = none)
    (hkeep : Always step (fun s e => ∀ a fresh, ownerWrite s e ≠ .arm a fresh) s es) :
    Always step (fun s' e => ∀ k, SendsOwner s' k e → k < s.deliveries.length) s es := by
  refine Lib.always_of_inv_of_always step (G := fun s e => ∀ a fresh, ownerWrite s e ≠ .arm a fresh)
    (I := fun t => t.row.ownerDebt.pending = none ∧
      NoneFrom Delivery.OwesOwner s.deliveries.length t) ?_ ?_ es s
    ⟨hnone, noneFrom_length _ s⟩ hkeep
  · rintro t e ⟨hpend, hfrom⟩ hw
    refine ⟨?_, hfrom.step e id (not_owesOwner_deliverOne · t.row) (not_not.mpr hpend)⟩
    rw [ownerDebt_step]
    exact Debt.pending_apply _ hw hpend
  · rintro t e ⟨-, hfrom⟩ - k ⟨env, t', ref, rfl, hk⟩
    by_contra hge
    exact hfrom.2 k _ (not_lt.mp hge) hk trivial

/-- The same of the referrer's push, where no stale row is written back. -/
theorem referrer_not_resent (s : State) (es : List Event)
    (hnone : s.row.referrerDebt.pending = none) (hfresh : Always step Fresh s es)
    (hkeep : Always step (fun s e => ∀ a fresh, referrerWrite s e ≠ .arm a fresh) s es) :
    Always step (fun s' e => ∀ k, SendsReferrer s' k e → k < s.deliveries.length) s es := by
  refine Lib.always_of_inv_of_always step
    (G := fun s e => Fresh s e ∧ ∀ a fresh, referrerWrite s e ≠ .arm a fresh)
    (I := fun t => t.row.referrerDebt.pending = none ∧
      NoneFrom Delivery.OwesReferrer s.deliveries.length t) ?_ ?_ es s
    ⟨hnone, noneFrom_length _ s⟩ (Lib.always_and step es s hfresh hkeep)
  · rintro t e ⟨hpend, hfrom⟩ ⟨hf, hw⟩
    refine ⟨?_, hfrom.step e id (not_owesReferrer_deliverOne · t.row) (not_not.mpr hpend)⟩
    rw [(referrerDebt_step_iff t e).mpr hf]
    exact Debt.pending_apply _ hw hpend
  · rintro t e ⟨-, hfrom⟩ - k ⟨env, ok, b, rfl, hk⟩
    by_contra hge
    exact hfrom.2 k _ (not_lt.mp hge) hk trivial

/-! ### Attempts and credits -/

/-- The recorded failures of both debts, in the row and in the loaded rows. -/
structure Bounded (s : State) : Prop where
  owner : s.row.ownerDebt.Bounded maxNotifyAttempts
  referrer : s.row.referrerDebt.Bounded maxNotifyAttempts
  loaded : ∀ copy, some copy ∈ s.loaded → copy.referrerDebt.Bounded maxNotifyAttempts

theorem State.mem_loaded_of_writesBack {s : State} {k : ℕ} {delivered : Bool} {copy : Row}
    (h : copy ∈ s.writesBack k delivered) : some copy ∈ s.loaded := by
  rw [State.writesBack] at h
  split at h
  · obtain ⟨c, hc, hid⟩ := Option.bind_eq_some_iff.mp (Option.mem_filter_iff.mp h).1
    cases hid
    exact List.mem_of_getElem? hc
  · cases h

theorem mem_loaded_step {s : State} {e : Event} {copy : Row}
    (h : some copy ∈ (step s e).loaded) : some copy ∈ s.loaded ∨ copy = s.row := by
  cases e with
  | load =>
    rcases List.mem_append.mp h with h | h
    · exact .inl h
    · exact .inr (Option.some.inj (List.mem_singleton.mp h))
  | immediate k delivered =>
    rw [step] at h
    split at h
    · rcases List.mem_or_eq_of_mem_set h with h | h
      · exact .inl h
      · cases h
    · exact .inl h
  | work k env =>
    rw [step] at h
    split at h <;> exact .inl h
  | settle referrer => exact .inl h
  | refund => exact .inl h
  | write order => exact .inl h
  | snapshot => exact .inl h
  | abandon k => exact .inl h

theorem Bounded.step {s : State} (e : Event) (h : Bounded s) : Bounded (step s e) where
  owner := by
    rw [ownerDebt_step]
    exact Debt.bounded_apply _ _ h.owner
  referrer := by
    by_cases hf : Fresh s e
    · rw [(referrerDebt_step_iff s e).mpr hf]
      exact Debt.bounded_apply _ _ h.referrer
    · -- only a row that is written back can be stale, and its counter was in the row once
      cases e with
      | immediate k delivered =>
        rw [step_immediate]
        rcases hw : s.writesBack k delivered with _ | copy
        · exact h.referrer
        · rw [Option.elim_some, (flushNotified_debts s.row (State.ne_of_mem_writesBack hw)).2]
          exact h.loaded copy (State.mem_loaded_of_writesBack hw)
      | _ => exact absurd trivial hf
  loaded := by
    intro copy hcopy
    rcases mem_loaded_step hcopy with hcopy | rfl
    · exact h.loaded copy hcopy
    · exact h.referrer

/-- The delivery is to announce a top-up. -/
def Delivery.AnnouncesTopup : Delivery → Prop
  | .dropReferrer (some (.send .topup)) | .sendOwner .topup _ => True
  | _ => False

/-- A top-up is announced only when its credit is in the ledger. -/
def Credited (s : State) : Prop :=
  ∀ d ∈ s.deliveries, d.AnnouncesTopup → s.row.hasCredit = true

theorem hasCredit_finalizeOwner (ok : Option NotifyResult) (r : Row) :
    (finalizeOwner ok r).hasCredit = r.hasCredit := by
  rcases ok with _ | _ | _ | _ <;>
    simp only [finalizeOwner, Row.noteFailedOwnerAttempt, Row.markNotified] <;> split_ifs <;> rfl

theorem hasCredit_finalizeReferrer (ok : Option NotifyResult) (r : Row) :
    (finalizeReferrer ok r).hasCredit = r.hasCredit := by
  rcases ok with _ | _ | _ | _ <;>
    simp only [finalizeReferrer, Row.noteFailedReferrerAttempt, Row.markReferrerNotified] <;>
    split_ifs <;> rfl

/-- The worker never touches the ledger. -/
theorem hasCredit_deliverOne (env : Env) (r : Row) (d : Delivery) :
    (deliverOne env r d).1.hasCredit = r.hasCredit := by
  cases d with
  | anomaly => exact hasCredit_finalizeOwner (some .failed) r
  | finalize o f =>
    rw [deliverOne, finalizeDelivery]
    split
    · rfl
    · rw [hasCredit_finalizeReferrer, hasCredit_finalizeOwner]
  | _ => rfl

/-- A credit stays in the ledger. -/
theorem hasCredit_step {s : State} (e : Event) (h : s.row.hasCredit = true) :
    (step s e).row.hasCredit = true := by
  cases e with
  | settle referrer =>
    simp only [step, Row.settle]
    split <;> simp [h]
  | refund =>
    simp only [step, Row.refund]
    split <;> exact h
  | work k env =>
    rw [step_work]
    cases s.deliveries[k]? with
    | none => exact h
    | some d => exact (hasCredit_deliverOne env s.row d).trans h
  | immediate k delivered =>
    rw [step_immediate]
    rcases s.writesBack k delivered with _ | copy
    · exact h
    · rw [Option.elim_some, Row.flushNotified]
      split <;> exact h
  | write order => exact h
  | snapshot => exact h
  | abandon k => exact h
  | load => exact h

theorem announcesTopup_dispatch {owner : Option OwnerPush} {ref : Option ReferrerPush}
    (h : (dispatch owner ref).AnnouncesTopup) : owner = some (.send .topup) := by
  rcases owner with _ | _ | _ | t
  · rcases ref with _ | _ | b <;> exact h.elim
  · exact h.elim
  · exact h.elim
  · rcases ref with _ | _ | b <;> cases t <;> first | rfl | exact h.elim

/-- A snapshot plans the push of a top-up only over its credit. -/
theorem hasCredit_of_ownerPush {env : Env} {copy : Row} {hasCredit : Bool}
    (h : ownerPush env copy hasCredit = some (.send .topup)) : hasCredit = true := by
  rw [ownerPush] at h
  by_contra hne
  split at h
  · cases h
  split at h
  · cases h
  split at h
  · cases h
  · next hcredit =>
    refine hcredit ⟨?_, eq_false_of_ne_true hne⟩
    split at h
    · cases h
    · split at h <;> cases h
    · exact OwnerPush.send.inj (Option.some.inj h)

theorem announcesTopup_deliverOne {env : Env} {r : Row} {d : Delivery}
    (h : (deliverOne env r d).2.AnnouncesTopup) : d.AnnouncesTopup ∨ r.hasCredit = true := by
  cases d with
  | loaded copy => exact .inr (hasCredit_of_ownerPush (announcesTopup_dispatch h))
  | anomaly => exact h.elim
  | dropOwner ref => cases announcesTopup_dispatch h
  | dropReferrer owner =>
    rw [announcesTopup_dispatch h]
    exact .inl trivial
  | sendOwner t ref => rcases ref with _ | _ | b <;> exact h.elim
  | sendReferrer ok b => exact h.elim
  | finalize o f => exact h.elim
  | done => exact h.elim

theorem Credited.step {s : State} (e : Event) (h : Credited s) :
    Credited (CreditNotify.step s e) := by
  have old : ∀ d ∈ s.deliveries, d.AnnouncesTopup →
      (CreditNotify.step s e).row.hasCredit = true :=
    fun d hd ht => hasCredit_step e (h d hd ht)
  intro d hd ht
  cases e with
  | snapshot =>
    rcases List.mem_append.mp hd with hd | hd
    · exact old d hd ht
    · rw [List.mem_singleton.mp hd] at ht
      exact ht.elim
  | work k env =>
    rw [CreditNotify.step] at hd
    split at hd
    · exact old d hd ht
    · next d' hd' =>
      rcases List.mem_or_eq_of_mem_set hd with hd | rfl
      · exact old d hd ht
      · rcases announcesTopup_deliverOne ht with ht' | hcredit
        · exact old d' (List.mem_of_getElem? hd') ht'
        · exact hasCredit_step _ hcredit
  | abandon k =>
    rcases List.mem_or_eq_of_mem_set hd with hd | rfl
    · exact old d hd ht
    · exact ht.elim
  | immediate k delivered =>
    refine old d ?_ ht
    rw [CreditNotify.step] at hd
    split at hd <;> exact hd
  | settle referrer => exact old d hd ht
  | refund => exact old d hd ht
  | write order => exact old d hd ht
  | load => exact old d hd ht

/-- The event announces a top-up to its owner. -/
def AnnouncesTopup (s : State) (e : Event) : Prop :=
  ∃ k env ref, e = .work k env ∧ s.deliveries[k]? = some (.sendOwner .topup ref)

/-! ### The transactions behind the events -/

theorem grantBonus_referrer {db db' : Db} {now : Time} {o o' : Order}
    (h : grantBonus db now o = .ok (o', db')) :
    ∃ referrer : Option ReferrerNotify, o' = { o with metadata := { o.metadata with
      referrerNotifyPending := referrer.or o.metadata.referrerNotifyPending } } := by
  rw [grantBonus] at h
  split_ifs at h
  · obtain ⟨⟨g, db₁⟩, -, hn⟩ := Lib.bind_ok h
    simp only at hn
    split at hn
    · cases hn
      exact ⟨none, rfl⟩
    · next n _ =>
      cases hn
      exact ⟨some n, rfl⟩
  · cases h
    exact ⟨none, rfl⟩

/-- `_settle_benefits` of a paid order writes the debts as the event does. -/
theorem settleBenefits_debts {wi : WhiteInternetApi} {db db' : Db} {now : Time} {r : Row}
    {o' : Order} (hpaid : r.order.status = .paid)
    (h : settleBenefits wi db now r.order = .ok (o', db')) :
    ∃ referrer, ({ r with order := o' } : Row).ownerDebt = (r.settle referrer).ownerDebt ∧
      ({ r with order := o' } : Row).referrerDebt = (r.settle referrer).referrerDebt := by
  obtain ⟨db₁, -, h⟩ := Lib.bind_ok h
  obtain ⟨⟨o₂, db₂⟩, hbonus, h⟩ := Lib.bind_ok h
  have hdel : Delivered o₂ o' := by
    simp only at h
    split_ifs at h
    · exact fulfillOrder_delivered h
    · cases h
      exact .refl _
  obtain ⟨referrer, rfl⟩ := grantBonus_referrer hbonus
  obtain ⟨prevEnd, prevTariff, prevLimit, sub, rfl⟩ := hdel
  refine ⟨referrer, ?_⟩
  rw [Row.settle, if_neg (by simp [hpaid])]
  exact ⟨rfl, rfl⟩

/-- A refund leaves both debts on the order, whatever it does with the money. -/
theorem processRefund_debts {db db' : Db} {now : Time} {w : WebhookResult} {r : Row} {o' : Order}
    (h : processRefund db now w r.order = .ok (some o', db')) :
    ({ r with order := o' } : Row).ownerDebt = r.ownerDebt ∧
      ({ r with order := o' } : Row).referrerDebt = r.referrerDebt := by
  rw [processRefund] at h
  split_ifs at h
  · cases h
    exact ⟨rfl, rfl⟩
  · cases h
  · cases h
    exact ⟨rfl, rfl⟩
  · obtain ⟨db₁, -, heq⟩ := Lib.map_ok h
    cases heq
    exact ⟨rfl, rfl⟩

/-! ### Runs -/

/-- An order nobody has been told about and nothing is owed for. -/
def start (order : Order) : State :=
  { row := { order := { order with metadata := { order.metadata with
      lateNotifyPending := false, lateNotifyAttempts := none, referrerNotifyPending := none } } } }

theorem bounded_start (order : Order) : Bounded (start order) where
  owner := Debt.bounded_empty _
  referrer := Debt.bounded_empty _
  loaded := by
    intro copy h
    cases h

theorem credited_start (order : Order) : Credited (start order) := by
  intro d h
  cases h

/-- What is promised of the debts along a run. -/
structure DebtsKept (order : Order) (es : List Event) : Prop where
  independent : Always step Independent (start order) es
  notResent : ∀ es₁ es₂, es = es₁ ++ es₂ → NotResent (Lib.run step (start order) es₁) es₂
  bounded : Throughout step
    (fun s => (∀ n ∈ s.row.order.metadata.lateNotifyAttempts, n < maxNotifyAttempts) ∧
      ∀ n ∈ s.row.referrerNotifyAttempts, n < maxNotifyAttempts) (start order) es
  credited : Always step (fun s e => AnnouncesTopup s e → s.row.hasCredit = true) (start order) es

/-- The debts of an order are kept along every run whose immediate deliveries are fresh, and their
    writes are independent along no other run. -/
theorem debts_kept_iff (order : Order) (es : List Event) :
    DebtsKept order es ↔ Always step Fresh (start order) es := by
  constructor
  · intro h
    exact (Lib.always_congr_of_inv step (I := fun _ => True) (fun _ _ _ => trivial)
      (fun s e _ => independent_iff_fresh s e) es _ trivial).mp h.independent
  · intro hfresh
    refine ⟨?_, ?_, ?_, ?_⟩
    · exact (Lib.always_congr_of_inv step (I := fun _ => True) (fun _ _ _ => trivial)
        (fun s e _ => independent_iff_fresh s e) es _ trivial).mpr hfresh
    · rintro es₁ es₂ rfl
      have hrest := ((Lib.always_append step Fresh _ es₁ es₂).mp hfresh).2
      exact ⟨owner_not_resent _ es₂, fun hnone => referrer_not_resent _ es₂ hnone hrest⟩
    · exact Lib.throughout_of_always step (G := fun _ _ => True) (fun s e h _ => Bounded.step e h)
        (fun s h => ⟨h.owner, h.referrer⟩) es _ (bounded_start order)
        (Lib.always_of_forall step (Q := fun _ => True) es _ fun _ _ => trivial)
    · refine Lib.always_of_inv step (fun s e h => Credited.step e h) ?_ es _ (credited_start order)
      rintro s e h ⟨k, env, ref, rfl, hk⟩
      exact h _ (List.mem_of_getElem? hk) trivial

/-! ### A stale row -/

/-- The worker delivers both pushes while the webhook is sending its own from a row it loaded
    before, and the next pass finds the referrer's debt again. -/
def staleRun : List Event :=
  [.settle (some ⟨2, some 2, 15, 15, false, none, none⟩), .load, .snapshot, .work 0 {}, .work 0 {},
    .work 0 {}, .work 0 {}]

def writtenBack : List Event := [.immediate 0 true, .snapshot, .work 1 {}]

def settledTopup : Order := { id := 1, userId := 1, serviceType := .topup, amountRub := 100 }

/-- The referrer's debt is clear, is there again after the webhook's write, and is sent again. -/
theorem stale_row_resends :
    (¬ ∀ order es, DebtsKept order es) ∧
      (Lib.run step (start settledTopup) staleRun).row.referrerDebt = {} ∧
      SendsReferrer (Lib.run step (start settledTopup) (staleRun ++ writtenBack)) 1 (.work 1 {}) := by
  refine ⟨fun h => ?_, by decide +kernel, {}, none, 15, rfl, by decide +kernel⟩
  have hind := (h settledTopup (staleRun ++ writtenBack)).independent
  revert hind
  decide +kernel

end Just1kBot.CreditNotify
