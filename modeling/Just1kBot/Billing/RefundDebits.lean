import Just1kBot.Billing.Conservation

/-! Refund debits of one order.

    `create_order_refund_debit` compares the cap with everything that is booked already, the call
    that is being repeated included, and only then looks for the entry under its key. The cap holds
    after every sequence of calls; a repeated call finds its entry exactly while the credit would
    still have room for its amount a second time. -/

namespace Just1kBot
open Lib (sumWhere)
open Lib.Python (Number strip roundHalfUp)

/-! ### An insert and its repetition -/

namespace Ledger

/-- The row an insert of `v` finds by its key, `lk` aside. -/
def Stored (l : Ledger) (v : EntryValues) (e : AccountLedgerEntry) : Prop :=
  (l.entries.find? fun x => x.idempotencyKey = v.idempotencyKey || false) = some e ∧
    sameEntry e v = true

variable {l l' : Ledger} {now : Time} {v : EntryValues} {e : AccountLedgerEntry} {c : Bool}

theorem sameEntry_newEntry (l : Ledger) (now : Time) (v : EntryValues) :
    sameEntry (l.newEntry now v) v = true := by
  simp [sameEntry, newEntry]

/-- Whether it was made or found, the row an insert returns is the one its key finds. -/
theorem stored_of_insertOrGetEntry
    (h : l.insertOrGetEntry now v (fun _ => false) = .ok ((e, c), l')) :
    l'.Stored v e ∧
      (l'.entries = l.entries ∨ l'.entries = l.entries ++ [l.newEntry now v]) := by
  unfold insertOrGetEntry at h
  split_ifs at h with hadm
  · cases h
    refine ⟨⟨?_, sameEntry_newEntry l now v⟩, .inr rfl⟩
    have hnone : (l.entries.find? fun x => x.idempotencyKey = v.idempotencyKey || false) = none :=
      List.find?_eq_none.mpr fun x hx => by
        have : x.idempotencyKey ≠ v.idempotencyKey := fun heq => hadm x hx (.inl heq)
        simpa using this
    rw [post_entries, List.find?_append, hnone, Option.none_or, List.find?_singleton]
    simp [newEntry]
  · split at h
    · cases h
    · rename_i hfind
      split_ifs at h with hsame
      cases h
      exact ⟨⟨hfind, hsame⟩, .inl rfl⟩

/-- Further rows leave the row a key finds. -/
theorem Stored.append (h : l.Stored v e) {new : List AccountLedgerEntry}
    (hnew : l'.entries = l.entries ++ new) : l'.Stored v e := by
  refine ⟨?_, h.2⟩
  rw [hnew, List.find?_append, h.1, Option.some_or]

/-- An insert of a stored row finds it and changes nothing. -/
theorem Stored.insertOrGetEntry (h : l.Stored v e) (now : Time) :
    l.insertOrGetEntry now v (fun _ => false) = .ok ((e, false), l) := by
  have hadm : ¬ l.Admits v := fun hadm => by
    have hkey := List.find?_some h.1
    exact hadm e (List.mem_of_find?_eq_some h.1) (.inl (by simpa using hkey))
  rw [Ledger.insertOrGetEntry, if_neg hadm, h.1]
  simp only [h.2, if_true]

end Ledger

/-! ### One call -/

/-- The arguments of a call of `create_order_refund_debit`. -/
structure RefundCall where
  now : Time
  userId : UserId
  amountRub : Number
  orderId : OrderId
  refundId : String
  metadata : EntryMeta := {}

namespace RefundCall

def exec (db : Db) (c : RefundCall) : Except Err ((AccountLedgerEntry × Bool) × Db) :=
  db.createOrderRefundDebit c.now c.userId c.amountRub c.orderId c.refundId c.metadata

/-- The same call at another time: its entry differs in the metadata at most. -/
def replay (c : RefundCall) (now : Time) (metadata : EntryMeta) : RefundCall :=
  { c with now := now, metadata := metadata }

/-- The whole rubles the call debits. -/
def rubles (c : RefundCall) : ℤ :=
  match refundAmount c.amountRub with
  | .ok q => roundHalfUp q
  | .error _ => 0

/-- The call passes the checks of its arguments. -/
structure Valid (c : RefundCall) : Prop where
  id_ne : strip c.refundId ≠ ""
  amount_ok : ∃ q, refundAmount c.amountRub = .ok q
  rubles_pos : 0 < c.rubles

/-- The entry the call books. -/
def entry (c : RefundCall) (h : 0 < c.rubles) : EntryValues where
  userId := c.userId
  entryType := .refundDebit
  amount := -c.rubles
  orderId := some c.orderId
  idempotencyKey := .orderRefund c.orderId (strip c.refundId)
  metadata := c.metadata
  shape := ⟨by omega, .inr rfl, rfl, rfl⟩

/-- The credit of the order has room for the amount on top of the debits booked so far. -/
def Fits (db : Db) (c : RefundCall) : Prop :=
  0 < db.creditTotal c.orderId → |db.debitedTotal c.orderId| + c.rubles ≤ db.creditTotal c.orderId

instance (db : Db) (c : RefundCall) : Decidable (c.Fits db) := by unfold Fits; infer_instance

variable {db db' : Db} {c : RefundCall} {e : AccountLedgerEntry} {b : Bool}

/-- A valid call that fits inserts its entry. -/
theorem exec_of_fits (hv : c.Valid) (hfits : c.Fits db) :
    c.exec db = (db.ledger.insertOrGetEntry c.now (c.entry hv.rubles_pos)
      fun _ => false).map fun r => (r.1, { db with ledger := r.2 }) := by
  obtain ⟨q, hq⟩ := hv.amount_ok
  have hr : c.rubles = roundHalfUp q := by rw [rubles, hq]
  have hpos : ¬ roundHalfUp q ≤ 0 := by have := hv.rubles_pos; omega
  have hcap : ¬ (0 < db.creditTotal c.orderId ∧
      db.creditTotal c.orderId < |db.debitedTotal c.orderId| + roundHalfUp q) := by
    rintro ⟨h0, hlt⟩
    have := hfits h0
    omega
  rw [exec, Db.createOrderRefundDebit, if_neg hv.id_ne, hq]
  simp only [bind, Except.bind, dif_neg hpos, if_neg hcap, entry, hr]
  cases db.ledger.insertOrGetEntry _ _ _ <;> rfl

/-- A call that succeeds is valid and fits. -/
theorem exec_ok (h : c.exec db = .ok ((e, b), db')) : c.Valid ∧ c.Fits db := by
  unfold exec Db.createOrderRefundDebit at h
  split_ifs at h with hid
  obtain ⟨q, hq, h⟩ := Lib.bind_ok h
  have hr : c.rubles = roundHalfUp q := by rw [rubles, hq]
  split_ifs at h with hpos hcap
  refine ⟨⟨hid, ⟨q, hq⟩, by omega⟩, fun h0 => ?_⟩
  by_contra hlt
  exact hcap ⟨h0, by omega⟩

/-- What a call that succeeds leaves: its entry under its key, appended unless it was there. -/
theorem stored_of_exec (hv : c.Valid) (h : c.exec db = .ok ((e, b), db')) :
    db'.ledger.Stored (c.entry hv.rubles_pos) e ∧
      (db'.ledger.entries = db.ledger.entries ∨ db'.ledger.entries =
        db.ledger.entries ++ [db.ledger.newEntry c.now (c.entry hv.rubles_pos)]) := by
  rw [exec_of_fits hv (exec_ok h).2] at h
  obtain ⟨⟨⟨e', b'⟩, l'⟩, hins, heq⟩ := Lib.map_ok h
  cases heq
  exact Ledger.stored_of_insertOrGetEntry hins

/-- A call repeats a stored entry when it still fits, and only then. -/
theorem exec_stored_iff (hv : c.Valid) (h : db.ledger.Stored (c.entry hv.rubles_pos) e) :
    c.exec db = .ok ((e, false), db) ↔ c.Fits db := by
  refine ⟨fun hok => (exec_ok hok).2, fun hfits => ?_⟩
  rw [exec_of_fits hv hfits, h.insertOrGetEntry]
  rfl

end RefundCall

/-! ### Sequences of calls -/

/-- One call in its own transaction. -/
def refundStep (db : Db) (c : RefundCall) : Db := Lib.commit db (c.exec db)

abbrev refundRun (db : Db) (calls : List RefundCall) : Db := Lib.run refundStep db calls

namespace Db

/-- The refund debits of the order are within its credit. -/
def RefundsCapped (db : Db) (o : OrderId) : Prop := |db.debitedTotal o| ≤ db.creditTotal o

instance (db : Db) (o : OrderId) : Decidable (db.RefundsCapped o) := by
  unfold RefundsCapped; infer_instance

theorem debitedTotal_nonpos (db : Db) (o : OrderId) : db.debitedTotal o ≤ 0 := by
  have : 0 ≤ sumWhere (fun e => e.orderId = some o ∧ Ledger.IsRefund e) (fun e => -e.amount)
      db.ledger.entries :=
    Lib.sumWhere_nonneg fun e _ he => by
      have := IsRefund.amount_neg he.2
      omega
  rw [Lib.sumWhere_neg] at this
  rw [debitedTotal]
  omega

end Db

/-- A call leaves the ledger, or it fits and books its entry. -/
theorem refundStep_entries (db : Db) (c : RefundCall) :
    (refundStep db c).ledger.entries = db.ledger.entries ∨ ∃ h : 0 < c.rubles, c.Fits db ∧
      (refundStep db c).ledger.entries =
        db.ledger.entries ++ [db.ledger.newEntry c.now (c.entry h)] := by
  rw [refundStep]
  cases h : c.exec db with
  | error e => exact .inl rfl
  | ok p =>
    obtain ⟨⟨e, b⟩, db'⟩ := p
    obtain ⟨hv, hfits⟩ := RefundCall.exec_ok h
    rcases (RefundCall.stored_of_exec hv h).2 with hsame | hnew
    · exact .inl hsame
    · exact .inr ⟨hv.rubles_pos, hfits, hnew⟩

/-- A call credits no order, and keeps the refunds of a credited one within its credit. -/
theorem refundStep_capped {db : Db} {o : OrderId} (c : RefundCall) (h0 : 0 < db.creditTotal o)
    (h : db.RefundsCapped o) :
    (refundStep db c).creditTotal o = db.creditTotal o ∧ (refundStep db c).RefundsCapped o := by
  rcases refundStep_entries db c with hsame | ⟨hpos, hfits, hnew⟩
  · rw [Db.RefundsCapped, Db.creditTotal, Db.debitedTotal, hsame]
    exact ⟨rfl, h⟩
  · have hcredit : (refundStep db c).creditTotal o = db.creditTotal o := by
      rw [Db.creditTotal, hnew, Lib.sumWhere_append, Lib.sumWhere_singleton,
        if_neg (by rintro ⟨-, ⟨⟩⟩)]
      exact add_zero _
    have hdebited : (refundStep db c).debitedTotal o =
        db.debitedTotal o + if c.orderId = o then -c.rubles else 0 := by
      rw [Db.debitedTotal, hnew, Lib.sumWhere_append, Lib.sumWhere_singleton]
      refine congrArg (db.debitedTotal o + ·) (if_congr ?_ rfl rfl)
      exact ⟨fun h => Option.some.inj h.1, fun h => ⟨congrArg some h, .inl rfl⟩⟩
    refine ⟨hcredit, ?_⟩
    rw [Db.RefundsCapped, hcredit, hdebited]
    split_ifs with ho
    · subst ho
      have hroom := hfits h0
      have hneg := db.debitedTotal_nonpos c.orderId
      rw [abs_of_nonpos hneg] at hroom
      rw [abs_of_nonpos (by omega)]
      omega
    · rw [add_zero]
      exact h

theorem refundRun_capped {db : Db} {o : OrderId} (calls : List RefundCall)
    (h0 : 0 < db.creditTotal o) (h : db.RefundsCapped o) :
    (refundRun db calls).creditTotal o = db.creditTotal o ∧
      (refundRun db calls).RefundsCapped o := by
  refine Lib.run_inv (I := fun s : Db => s.creditTotal o = db.creditTotal o ∧ s.RefundsCapped o)
    refundStep (fun s c hs => ?_) calls db ⟨rfl, h⟩
  obtain ⟨hcredit, hcapped⟩ := refundStep_capped c (hs.1 ▸ h0) hs.2
  exact ⟨hcredit.trans hs.1, hcapped⟩

/-- A row a key finds is found after every further call. -/
theorem refundRun_stored {db : Db} {v : EntryValues} {e : AccountLedgerEntry}
    (calls : List RefundCall) (h : db.ledger.Stored v e) :
    (refundRun db calls).ledger.Stored v e := by
  refine Lib.run_inv (I := fun s : Db => s.ledger.Stored v e) refundStep (fun s c hs => ?_)
    calls db h
  rcases refundStep_entries s c with hsame | ⟨hpos, hfits, hnew⟩
  · exact hs.append (hsame.trans (List.append_nil _).symm)
  · exact hs.append hnew

/-- Refund debits of a credited order: after every sequence of calls they are within the credit, and
    a call that succeeded is repeated later, whatever came in between, exactly when the credit has
    room for its amount on top of everything booked by then. -/
theorem refund_debits_replay (db : Db) (o : OrderId) (h0 : 0 < db.creditTotal o)
    (hcapped : db.RefundsCapped o) :
    (∀ calls, (refundRun db calls).RefundsCapped o) ∧
    ∀ (before : List RefundCall) (c : RefundCall) (e : AccountLedgerEntry) (b : Bool) (db' : Db)
      (after : List RefundCall) (now : Time) (m : EntryMeta), c.orderId = o →
      c.exec (refundRun db before) = .ok ((e, b), db') →
      ((c.replay now m).exec (refundRun db' after) = .ok ((e, false), refundRun db' after) ↔
        |(refundRun db' after).debitedTotal o| + c.rubles ≤
          (refundRun db' after).creditTotal o) := by
  refine ⟨fun calls => (refundRun_capped calls h0 hcapped).2, ?_⟩
  rintro before c e b db' after now m rfl hok
  obtain ⟨hv, -⟩ := RefundCall.exec_ok hok
  have hv' : (c.replay now m).Valid := ⟨hv.id_ne, hv.amount_ok, hv.rubles_pos⟩
  have hstored : (refundRun db' after).ledger.Stored ((c.replay now m).entry hv'.rubles_pos) e :=
    refundRun_stored after (RefundCall.stored_of_exec hv hok).1
  have hcredit : 0 < (refundRun db' after).creditTotal c.orderId := by
    obtain ⟨h₁, hc₁⟩ := refundRun_capped before h0 hcapped
    obtain ⟨h₂, hc₂⟩ := refundStep_capped c (h₁.symm ▸ h0) hc₁
    rw [refundStep, hok, Lib.commit_ok] at h₂ hc₂
    have hdb' : 0 < db'.creditTotal c.orderId := by omega
    have h₃ := (refundRun_capped after hdb' hc₂).1
    omega
  rw [RefundCall.exec_stored_iff hv' hstored]
  exact ⟨fun h => h hcredit, fun h _ => h⟩

/-! ### A partial and a full refund, repeated -/

section Instances

def creditedDb : Db := ledgerRun (fun o => o) {} [.orderCredit 0 (.decimal 100) 1 {}]

def refundOf (amount : ℚ) : RefundCall :=
  { now := 1, userId := 1, amountRub := .decimal amount, orderId := 1, refundId := "refund" }

theorem refundBooked_shape {amount : ℤ} (h : 0 < amount) :
    EntryShape (-amount) none none (some 1) none .refundDebit :=
  ⟨by omega, .inr rfl, rfl, rfl⟩

/-- The entry a refund of `amount` books. -/
def refundBooked (amount : ℤ) (h : 0 < amount) : AccountLedgerEntry where
  userId := 1
  entryType := .refundDebit
  amount := -amount
  orderId := some 1
  idempotencyKey := .orderRefund 1 "refund"
  shape := refundBooked_shape h
  id := 2
  createdAt := 1

/-- A refund of 40 of 100 is repeated: the credit has room for 80. -/
theorem refund_debits_replay_partial :
    (refundOf 40).exec (refundStep creditedDb (refundOf 40)) =
      .ok ((refundBooked 40 (by decide), false), refundStep creditedDb (refundOf 40)) := by
  have hok : (refundOf 40).exec creditedDb =
      .ok ((refundBooked 40 (by decide), true), refundStep creditedDb (refundOf 40)) := by
    decide +kernel
  exact ((refund_debits_replay creditedDb 1 (by decide +kernel) (by decide +kernel)).2 []
    (refundOf 40) _ true _ [] 1 {} rfl hok).mpr (by decide +kernel)

/-- A full refund of 100 is not: its repetition is taken for a second one. -/
theorem refund_debits_replay_full :
    ¬ ∀ (db : Db) (c : RefundCall) (e : AccountLedgerEntry) (b : Bool) (db' : Db),
      0 < db.creditTotal c.orderId → db.RefundsCapped c.orderId →
      c.exec db = .ok ((e, b), db') → c.exec db' = .ok ((e, false), db') := by
  intro h
  have hok : (refundOf 100).exec creditedDb =
      .ok ((refundBooked 100 (by decide), true), refundStep creditedDb (refundOf 100)) := by
    decide +kernel
  have hagain := h creditedDb (refundOf 100) _ _ _ (by decide +kernel) (by decide +kernel) hok
  have : (refundOf 100).exec (refundStep creditedDb (refundOf 100)) =
      .error (.ledgerInvariant "refund_debit_exceeds_credit") := by decide +kernel
  rw [this] at hagain
  cases hagain

end Instances

end Just1kBot
