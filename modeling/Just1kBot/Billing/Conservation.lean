import Just1kBot.Billing.LedgerRun

/-! Lot conservation.

    A debit that is booked through the lots takes its whole amount from lots of its own user, no lot
    gives more than it holds, and whatever the available balance covers the lots cover too. The
    last part needs the accounting identity behind the balance: what the lots of a user were
    credited, less what was drawn from them and what was refunded, is at least the position. -/

namespace Just1kBot
open Lib (sumWhere groupKeys)
open Lib.Python (Number)

variable (owner : OrderId → UserId)

/-- The structure of a reachable ledger: ids are unique and past, rows booked on an order belong to
    its owner, each order has one credit, and every allocation ties a debit to a lot of one user. -/
structure Ledger.WellFormed (l : Ledger) : Prop where
  ids_lt : ∀ e ∈ l.entries, e.id < l.nextId
  ids_nodup : (l.entries.map (·.id)).Nodup
  owned : ∀ e ∈ l.entries, e.entryType = .paymentCredit ∨ IsRefund e →
    ∀ o, e.orderId = some o → e.userId = owner o
  no_payment : ∀ e ∈ l.entries, e.paymentId = none
  admin_no_order : ∀ e ∈ l.entries, e.entryType = .adminAdjustment → e.orderId = none
  one_credit : ∀ e ∈ l.entries, ∀ e' ∈ l.entries, e.entryType = .paymentCredit →
    e'.entryType = .paymentCredit → e.orderId = e'.orderId → e = e'
  alloc_pos : ∀ a ∈ l.allocations, 0 < a.amount
  alloc_lot : ∀ a ∈ l.allocations, ∃ c ∈ l.entries, c.id = a.creditEntryId ∧ IsLot a.userId c
  alloc_debit : ∀ a ∈ l.allocations, ∃ d ∈ l.entries, d.id = a.debitEntryId ∧ d.userId = a.userId

namespace Ledger

/-- What the lots of a user were credited. -/
def lotTotal (l : Ledger) (u : UserId) : ℤ := sumWhere (IsLot u) (·.amount) l.entries

/-- What was drawn from the lots of a user. -/
def drawnTotal (l : Ledger) (u : UserId) : ℤ := sumWhere (·.userId = u) (·.amount) l.allocations

/-- What was refunded to a user, as a positive amount. -/
def refundTotal (l : Ledger) (u : UserId) : ℤ :=
  sumWhere (fun e => e.userId = u ∧ IsRefund e) (fun e => -e.amount) l.entries

end Ledger

/-- The accounting of a reachable ledger. -/
structure Ledger.Conserved (l : Ledger) : Prop extends l.WellFormed owner where
  used_le : ∀ e ∈ l.entries, 0 < e.amount → l.usedByCredit e.id ≤ e.amount
  debit_exact : ∀ d ∈ l.entries, d.entryType = .purchaseDebit →
    sumWhere (·.debitEntryId = d.id) (·.amount) l.allocations = -d.amount
  pairs_nodup : (l.allocations.map fun a => (a.creditEntryId, a.debitEntryId)).Nodup
  position_le : ∀ u, l.position u ≤ l.lotTotal u - l.drawnTotal u - l.refundTotal u

/-! ### Amounts and shapes -/

theorem IsRefund.amount_neg {e : AccountLedgerEntry} (h : Ledger.IsRefund e) : e.amount < 0 := by
  have hs := e.shape
  rcases h with h | h <;> rw [h] at hs <;> exact hs.1

theorem purchaseDebit_amount_neg {v : EntryValues} (h : v.entryType = .purchaseDebit) :
    v.amount < 0 := by
  have hs := v.shape
  rw [h] at hs; exact hs.1

theorem paymentCredit_amount_pos {v : EntryValues} (h : v.entryType = .paymentCredit) :
    0 < v.amount := by
  have hs := v.shape
  rw [h] at hs; exact hs.1

namespace Ledger

/-! ### The capacity of the lots -/

section Capacity
variable {owner} {l : Ledger} (wf : l.WellFormed owner) (u : UserId)

/-- The lots of the user, in table order. -/
def lotsOf (l : Ledger) (u : UserId) : List AccountLedgerEntry :=
  l.entries.filter fun e => IsLot u e

theorem creditLots_perm (l : Ledger) (u : UserId) : (l.creditLots u).Perm (l.lotsOf u) :=
  List.perm_insertionSort _ _

theorem mem_lotsOf {l : Ledger} {u : UserId} {e : AccountLedgerEntry} :
    e ∈ l.lotsOf u ↔ e ∈ l.entries ∧ IsLot u e := by simp [lotsOf]

theorem mem_creditLots {l : Ledger} {u : UserId} {e : AccountLedgerEntry} :
    e ∈ l.creditLots u ↔ e ∈ l.entries ∧ IsLot u e :=
  (creditLots_perm l u).mem_iff.trans mem_lotsOf

/-- What was refunded on an order, read through the groups of the capacity query. -/
theorem refundByOrder_eq {l : Ledger} {credits : List AccountLedgerEntry} {o : OrderId}
    (ho : o ∈ credits.filterMap (·.orderId)) :
    l.refundByOrder credits o =
      sumWhere (fun e => IsRefund e ∧ e.orderId = some o) (fun e => -e.amount) l.entries := by
  have hneg : ∀ e ∈ l.refundRows credits, e.amount < 0 := fun e he => by
    have := (List.mem_filter.mp he).2
    simp only [decide_eq_true_eq] at this
    exact IsRefund.amount_neg this.1
  rw [refundByOrder, refundGroups, Lib.sumWhere_map]
  have habs : ∀ k : Option OrderId × Option PaymentId,
      |sumWhere (fun e : AccountLedgerEntry => (e.orderId, e.paymentId) = k) (·.amount)
        (l.refundRows credits)| =
      sumWhere (fun e : AccountLedgerEntry => (e.orderId, e.paymentId) = k) (fun e => -e.amount)
        (l.refundRows credits) := fun k => by
    rw [Lib.sumWhere_neg, abs_of_nonpos]
    have : 0 ≤ sumWhere (fun e : AccountLedgerEntry => (e.orderId, e.paymentId) = k)
        (fun e => -e.amount) (l.refundRows credits) :=
      Lib.sumWhere_nonneg fun e he _ => by have := hneg e he; omega
    rw [Lib.sumWhere_neg] at this
    omega
  simp only [habs]
  rw [sumWhere, Lib.sum_groups _ _ ((Lib.nodup_groupKeys _ _).filter _), refundRows,
    Lib.sumWhere_filter]
  refine Lib.sumWhere_congr fun e he => ⟨⟨fun h => ?_, fun h => ?_⟩, fun _ => rfl⟩
  · have := (List.mem_filter.mp h.2).2
    exact ⟨h.1.1, by simpa using this⟩
  · have hrow : IsRefund e ∧ (e.orderId ∈ (credits.filterMap (·.orderId)).map some ∨
        e.paymentId ∈ (credits.filterMap (·.paymentId)).map some) :=
      ⟨h.1, .inl (by rw [h.2]; exact List.mem_map_of_mem ho)⟩
    refine ⟨hrow, List.mem_filter.mpr ⟨?_, by simpa using h.2⟩⟩
    exact Lib.key_mem_groupKeys (fun e : AccountLedgerEntry => (e.orderId, e.paymentId))
      (List.mem_filter.mpr ⟨he, by simpa using hrow⟩)

include wf

theorem WellFormed.eq_of_id {a b : AccountLedgerEntry} (ha : a ∈ l.entries) (hb : b ∈ l.entries)
    (h : a.id = b.id) : a = b := List.inj_on_of_nodup_map wf.ids_nodup ha hb h

theorem WellFormed.lot_ids_nodup : ((l.lotsOf u).map (·.id)).Nodup :=
  wf.ids_nodup.sublist (List.filter_sublist.map _)

/-- What was drawn from the lots of a user, summed lot by lot. -/
theorem WellFormed.sum_used_le :
    ((l.lotsOf u).map fun c => l.usedByCredit c.id).sum ≤ l.drawnTotal u := by
  have hgroups := Lib.sum_groups (fun a : AccountLedgerAllocation => a.creditEntryId) (·.amount)
    (wf.lot_ids_nodup u) l.allocations
  rw [List.map_map] at hgroups
  refine hgroups.le.trans (Lib.sumWhere_le_of_imp (fun a ha hmem => ?_)
    fun a ha _ => (wf.alloc_pos a ha).le)
  obtain ⟨c, hc, hid⟩ := List.mem_map.mp hmem
  obtain ⟨hce, hlot⟩ := mem_lotsOf.mp hc
  obtain ⟨c', hc', hid', hlot'⟩ := wf.alloc_lot a ha
  have hcc := wf.eq_of_id hc' hce (hid'.trans hid.symm)
  subst hcc
  exact hlot'.1.symm.trans hlot.1

/-- The orders of the lots of a user are distinct: an order has one credit. -/
theorem WellFormed.lot_orders_nodup : ((l.lotsOf u).filterMap (·.orderId)).Nodup := by
  refine List.pairwise_filterMap.mpr ?_
  have hnd : (l.lotsOf u).Nodup := List.Nodup.of_map _ (wf.lot_ids_nodup u)
  refine hnd.imp_of_mem fun {c c'} hc hc' hne o ho o' ho' heq => hne ?_
  obtain ⟨hce, -, -, ht⟩ := mem_lotsOf.mp hc
  obtain ⟨hce', -, -, ht'⟩ := mem_lotsOf.mp hc'
  have hadmin : ∀ e ∈ l.entries, e.orderId.isSome → ¬ e.entryType = .adminAdjustment :=
    fun e he hs hadm => by rw [wf.admin_no_order e he hadm] at hs; cases hs
  refine wf.one_credit c hce c' hce' ?_ ?_ (by rw [ho, ho', heq])
  · exact ht.resolve_right (hadmin c hce (by rw [ho]; rfl))
  · exact ht'.resolve_right (hadmin c' hce' (by rw [ho']; rfl))

/-- What the refunds take from the lots of a user is at most what was refunded to that user. -/
theorem WellFormed.sum_refund_le :
    ((l.lotsOf u).map fun c => c.orderId.elim 0 (l.refundByOrder (l.creditLots u))).sum ≤
      l.refundTotal u := by
  have hmem : ∀ o ∈ (l.lotsOf u).filterMap (·.orderId),
      o ∈ (l.creditLots u).filterMap (·.orderId) := fun o ho =>
    ((creditLots_perm l u).filterMap _).mem_iff.mpr ho
  rw [Lib.sum_elim_key (fun c : AccountLedgerEntry => c.orderId),
    List.map_congr_left fun o ho => refundByOrder_eq (hmem o ho)]
  have hgroups := Lib.sum_groups (fun e : AccountLedgerEntry => e.orderId) (fun e => -e.amount)
    ((wf.lot_orders_nodup u).map (Option.some_injective _)) (l.entries.filter fun e => IsRefund e)
  simp only [Lib.sumWhere_filter, List.map_map, Function.comp_def] at hgroups
  rw [hgroups]
  refine Lib.sumWhere_le_of_imp (fun e he h => ⟨?_, h.1⟩) fun e he h => ?_
  · obtain ⟨o, ho, hoe⟩ := List.mem_map.mp h.2
    obtain ⟨c, hc, hco⟩ := List.mem_filterMap.mp ho
    obtain ⟨hce, hlot⟩ := mem_lotsOf.mp hc
    have hcredit : c.entryType = .paymentCredit := hlot.2.2.resolve_right fun hadm => by
      rw [wf.admin_no_order c hce hadm] at hco; cases hco
    rw [wf.owned e he (.inr h.1) o hoe.symm, ← wf.owned c hce (.inl hcredit) o hco]
    exact hlot.1
  · have := IsRefund.amount_neg h.2; omega

/-- The lots of a user hold together at least what they were credited less what was drawn from them
    and refunded. -/
theorem WellFormed.capacity_ge :
    l.lotTotal u - l.drawnTotal u - l.refundTotal u ≤
      Lib.Fifo.total (l.batchCreditCapacities (l.creditLots u)) (l.creditLots u) := by
  have hcap : ((l.lotsOf u).map (l.batchCreditCapacities (l.creditLots u))).sum =
      l.lotTotal u - ((l.lotsOf u).map fun c => l.usedByCredit c.id).sum -
        ((l.lotsOf u).map fun c => c.orderId.elim 0 (l.refundByOrder (l.creditLots u))).sum := by
    have hpoint : ∀ c ∈ l.lotsOf u, l.batchCreditCapacities (l.creditLots u) c =
        c.amount - l.usedByCredit c.id -
          c.orderId.elim 0 (l.refundByOrder (l.creditLots u)) := fun c hc => by
      rw [batchCreditCapacities, wf.no_payment c (mem_lotsOf.mp hc).1]; simp
    rw [List.map_congr_left hpoint, Lib.sum_map_sub, Lib.sum_map_sub]
    rfl
  have hmax : ((l.lotsOf u).map (l.batchCreditCapacities (l.creditLots u))).sum ≤
      Lib.Fifo.total (l.batchCreditCapacities (l.creditLots u)) (l.creditLots u) := by
    rw [Lib.Fifo.total, ((creditLots_perm l u).map _).sum_eq]
    exact List.sum_le_sum fun c _ => le_max_right _ _
  have := wf.sum_used_le u
  have := wf.sum_refund_le u
  omega

end Capacity

/-! ### Posting an entry -/

@[simp] theorem post_entries (l : Ledger) (now : Time) (v : EntryValues) :
    (l.post now v).entries = l.entries ++ [l.newEntry now v] := rfl

@[simp] theorem post_allocations (l : Ledger) (now : Time) (v : EntryValues) :
    (l.post now v).allocations = l.allocations := rfl

@[simp] theorem post_nextId (l : Ledger) (now : Time) (v : EntryValues) :
    (l.post now v).nextId = l.nextId + 1 := rfl

section Post
variable {owner} {l : Ledger} {now : Time} {v : EntryValues}

theorem WellFormed.post (wf : l.WellFormed owner) (hadm : l.Admits v)
    (hown : v.entryType = .paymentCredit ∨ IsRefund (l.newEntry now v) →
      ∀ o, v.orderId = some o → v.userId = owner o)
    (hp : v.paymentId = none) (hao : v.entryType = .adminAdjustment → v.orderId = none) :
    (l.post now v).WellFormed owner := by
  -- a second credit of an order would clash with the first
  have hone : ∀ e ∈ l.entries, e.entryType = .paymentCredit → v.entryType = .paymentCredit →
      e.orderId = v.orderId → False := fun e he ht htv ho => by
    have hs := v.shape
    rw [htv] at hs
    have hsome : v.orderId.isSome := hs.2.1.resolve_left (by simp [hp])
    exact hadm e he (.inr ⟨ht.trans htv.symm, .inl ⟨htv, .inr ⟨hsome, ho⟩⟩⟩)
  have hmem : ∀ e, e ∈ (l.post now v).entries → e ∈ l.entries ∨ e = l.newEntry now v :=
    fun e he => by simpa using he
  refine ⟨?_, ?_, ?_, ?_, ?_, ?_, wf.alloc_pos, ?_, ?_⟩
  · intro e he
    rcases hmem e he with he | rfl
    · exact Nat.lt_succ_of_lt (wf.ids_lt e he)
    · exact Nat.lt_succ_self _
  · rw [post_entries, List.map_append, List.nodup_append]
    refine ⟨wf.ids_nodup, by simp, ?_⟩
    intro i hi j hj rfl
    obtain ⟨e, he, rfl⟩ := List.mem_map.mp hi
    have hj : e.id = l.nextId := by simpa [newEntry] using hj
    exact (wf.ids_lt e he).ne hj
  · intro e he
    rcases hmem e he with he | rfl
    · exact wf.owned e he
    · exact hown
  · intro e he
    rcases hmem e he with he | rfl
    · exact wf.no_payment e he
    · exact hp
  · intro e he
    rcases hmem e he with he | rfl
    · exact wf.admin_no_order e he
    · exact hao
  · intro e he e' he' ht ht' ho
    rcases hmem e he with he | rfl <;> rcases hmem e' he' with he' | rfl
    · exact wf.one_credit e he e' he' ht ht' ho
    · exact (hone e he ht ht' ho).elim
    · exact (hone e' he' ht' ht ho.symm).elim
    · rfl
  · intro a ha
    obtain ⟨c, hc, h⟩ := wf.alloc_lot a ha
    exact ⟨c, by simp [hc], h⟩
  · intro a ha
    obtain ⟨d, hd, h⟩ := wf.alloc_debit a ha
    exact ⟨d, by simp [hd], h⟩

theorem not_isRefund_of_admin (ht : v.entryType = .adminAdjustment) :
    ¬ IsRefund (l.newEntry now v) := by
  rintro (h | h) <;> · rw [show (l.newEntry now v).entryType = _ from ht] at h; cases h

theorem not_isRefund_of_debit (ht : v.entryType = .purchaseDebit) :
    ¬ IsRefund (l.newEntry now v) := by
  rintro (h | h) <;> · rw [show (l.newEntry now v).entryType = _ from ht] at h; cases h

theorem WellFormed.post_admin (wf : l.WellFormed owner) (hadm : l.Admits v)
    (ht : v.entryType = .adminAdjustment) (ho : v.orderId = none) :
    (l.post now v).WellFormed owner := by
  have hs := v.shape
  rw [ht] at hs
  refine wf.post hadm (fun h => ?_) hs.2.1 fun _ => ho
  rcases h with h | h
  · rw [ht] at h; cases h
  · exact (not_isRefund_of_admin ht h).elim

theorem WellFormed.post_debit (wf : l.WellFormed owner) (hadm : l.Admits v)
    (ht : v.entryType = .purchaseDebit) : (l.post now v).WellFormed owner := by
  have hs := v.shape
  rw [ht] at hs
  refine wf.post hadm (fun h => ?_) hs.2.1 fun ha => ?_
  · rcases h with h | h
    · rw [ht] at h; cases h
    · exact (not_isRefund_of_debit ht h).elim
  · rw [ht] at ha; cases ha

/-- Nothing is drawn from or by an entry that does not exist yet. -/
theorem WellFormed.fresh_unused (wf : l.WellFormed owner) :
    l.usedByCredit l.nextId = 0 ∧ ∀ a ∈ l.allocations, a.debitEntryId ≠ l.nextId := by
  refine ⟨Lib.sumWhere_eq_zero fun a ha heq => ?_, fun a ha heq => ?_⟩
  · obtain ⟨c, hc, hid, -⟩ := wf.alloc_lot a ha
    exact (wf.ids_lt c hc).ne (hid.trans heq)
  · obtain ⟨d, hd, hid, -⟩ := wf.alloc_debit a ha
    exact (wf.ids_lt d hd).ne (hid.trans heq)

/-- How the totals of a user react to a new entry. -/
theorem position_post (u : UserId) :
    (l.post now v).position u = l.position u + if v.userId = u then v.amount else 0 := by
  rw [position, post_entries, Lib.sumWhere_append, Lib.sumWhere_singleton]; rfl

theorem lotTotal_post (u : UserId) :
    (l.post now v).lotTotal u =
      l.lotTotal u + if IsLot u (l.newEntry now v) then v.amount else 0 := by
  rw [lotTotal, post_entries, Lib.sumWhere_append, Lib.sumWhere_singleton]; rfl

theorem refundTotal_post (u : UserId) :
    (l.post now v).refundTotal u =
      l.refundTotal u + if v.userId = u ∧ IsRefund (l.newEntry now v) then -v.amount else 0 := by
  rw [refundTotal, post_entries, Lib.sumWhere_append, Lib.sumWhere_singleton]; rfl

theorem drawnTotal_post (u : UserId) : (l.post now v).drawnTotal u = l.drawnTotal u := rfl

/-- An entry that is not a purchase keeps the ledger conserved without an allocation. -/
theorem Conserved.post (cs : l.Conserved owner) (wf' : (l.post now v).WellFormed owner)
    (ht : v.entryType = .paymentCredit ∨ v.entryType = .refundDebit ∨
      v.entryType = .adminAdjustment) : (l.post now v).Conserved owner := by
  have hmem : ∀ e, e ∈ (l.post now v).entries → e ∈ l.entries ∨ e = l.newEntry now v :=
    fun e he => by simpa using he
  refine ⟨wf', ?_, ?_, cs.pairs_nodup, fun u => ?_⟩
  · intro e he hpos
    rcases hmem e he with he | rfl
    · exact cs.used_le e he hpos
    · exact cs.fresh_unused.1.le.trans hpos.le
  · intro d hd hd'
    rcases hmem d hd with hd | rfl
    · exact cs.debit_exact d hd hd'
    · have hd' : v.entryType = .purchaseDebit := hd'
      rcases ht with ht | ht | ht <;> rw [ht] at hd' <;> cases hd'
  · have := cs.position_le u
    rw [position_post, lotTotal_post, refundTotal_post, drawnTotal_post]
    by_cases hu : v.userId = u
    · have hs := v.shape
      rcases ht with ht | ht | ht <;> rw [ht] at hs <;>
        simp only [IsLot, IsRefund, newEntry, hu, ht, reduceCtorEq, or_self, or_false, and_true,
          true_and, and_false, false_or, if_true, if_false]
      · split_ifs <;> omega
      · omega
      · split_ifs <;> omega
    · simp only [IsLot, newEntry, hu, false_and, if_false]; omega

theorem Conserved.post_admin (cs : l.Conserved owner) (hadm : l.Admits v)
    (ht : v.entryType = .adminAdjustment) (ho : v.orderId = none) :
    (l.post now v).Conserved owner :=
  cs.post (cs.toWellFormed.post_admin hadm ht ho) (.inr (.inr ht))

end Post

/-! ### Drawing a debit from the lots -/

section Allocate
variable {owner} {l l' : Ledger} {u : UserId} {d : AccountLedgerEntry} {a : ℤ}
  {r : List AccountLedgerAllocation}

theorem allocateFifo_ok (h : l.allocateFifo u d a = .ok (r, l')) :
    ∃ draws, Lib.Fifo.draw (l.batchCreditCapacities (l.creditLots u)) (l.creditLots u) a =
        (draws, 0) ∧
      r = draws.map (fun p => ⟨u, p.1.id, d.id, p.2⟩) ∧
      l' = { l with allocations := l.allocations ++ r } := by
  unfold allocateFifo at h
  simp only at h
  split_ifs at h with hrest
  obtain ⟨rfl, rfl⟩ := by simpa using h
  exact ⟨_, Prod.ext rfl (by simpa using hrest), rfl, rfl⟩

/-- The rows of a successful allocation: they add up to the amount, each is positive, on a lot of
    the user and within its capacity, and no two are on one lot. -/
structure Drawn (l : Ledger) (u : UserId) (d : AccountLedgerEntry) (a : ℤ)
    (r : List AccountLedgerAllocation) : Prop where
  sum_eq : (r.map (·.amount)).sum = a
  user_eq : ∀ x ∈ r, x.userId = u
  debit_eq : ∀ x ∈ r, x.debitEntryId = d.id
  lot : ∀ x ∈ r, 0 < x.amount ∧ ∃ c ∈ l.entries, c.id = x.creditEntryId ∧ IsLot u c ∧
    x.amount ≤ l.batchCreditCapacities (l.creditLots u) c
  lots_nodup : (r.map (·.creditEntryId)).Nodup

theorem WellFormed.drawn (wf : l.WellFormed owner) (h : l.allocateFifo u d a = .ok (r, l')) :
    l.Drawn u d a r := by
  obtain ⟨draws, hdraw, rfl, -⟩ := allocateFifo_ok h
  have hsum := Lib.Fifo.draw_sum (l.batchCreditCapacities (l.creditLots u)) (l.creditLots u) a
  have hsub := Lib.Fifo.draw_sublist (l.batchCreditCapacities (l.creditLots u)) (l.creditLots u) a
  have hwithin := Lib.Fifo.draw_within (l.batchCreditCapacities (l.creditLots u)) (l.creditLots u) a
  rw [hdraw] at hsum hsub hwithin
  refine ⟨by simpa [Function.comp_def] using hsum, ?_, ?_, ?_, ?_⟩
  · intro x hx
    obtain ⟨p, -, rfl⟩ := List.mem_map.mp hx
    rfl
  · intro x hx
    obtain ⟨p, -, rfl⟩ := List.mem_map.mp hx
    rfl
  · intro x hx
    obtain ⟨p, hp, rfl⟩ := List.mem_map.mp hx
    obtain ⟨hpos, hcap⟩ := hwithin p hp
    obtain ⟨hc, hlot⟩ := mem_creditLots.mp (hsub.subset (List.mem_map_of_mem hp))
    exact ⟨hpos, p.1, hc, rfl, hlot, hcap⟩
  · have hids : ((l.creditLots u).map (·.id)).Nodup :=
      ((creditLots_perm l u).map _).nodup_iff.mpr (wf.lot_ids_nodup u)
    simpa [Function.comp_def] using hids.sublist (hsub.map (·.id))

/-- No lot holds more than its amount less what was drawn from it. -/
theorem WellFormed.capacity_le (wf : l.WellFormed owner) {c : AccountLedgerEntry}
    (hc : c ∈ l.entries) :
    l.batchCreditCapacities (l.creditLots u) c ≤ c.amount - l.usedByCredit c.id := by
  have hord : 0 ≤ c.orderId.elim 0 (l.refundByOrder (l.creditLots u)) := by
    cases ho : c.orderId with
    | none => exact le_refl 0
    | some o => exact Lib.sumWhere_nonneg fun g _ _ => abs_nonneg g.2
  rw [batchCreditCapacities, wf.no_payment c hc]
  simp only [Option.elim_none, add_zero]
  omega

theorem usedByCredit_allocate (h : l.allocateFifo u d a = .ok (r, l')) (id : EntryId) :
    l'.usedByCredit id =
      l.usedByCredit id + sumWhere (·.creditEntryId = id) (·.amount) r := by
  obtain ⟨-, -, -, rfl⟩ := allocateFifo_ok h
  exact Lib.sumWhere_append _ _ _ _

/-- What is drawn from a lot stays within its amount. -/
theorem WellFormed.used_le_allocate (wf : l.WellFormed owner)
    (hused : ∀ e ∈ l.entries, 0 < e.amount → l.usedByCredit e.id ≤ e.amount)
    (h : l.allocateFifo u d a = .ok (r, l')) :
    ∀ e ∈ l.entries, 0 < e.amount → l'.usedByCredit e.id ≤ e.amount := fun e he hpos => by
  have hr := wf.drawn h
  rw [usedByCredit_allocate h]
  obtain ⟨x, hx, hid, hsum⟩ | hsum := Lib.sumWhere_unique_key
    (fun x : AccountLedgerAllocation => x.creditEntryId) (·.amount) hr.lots_nodup e.id
  · obtain ⟨-, c, hc, hcid, hlot, hcap⟩ := hr.lot x hx
    have hce := wf.eq_of_id hc he (hcid.trans hid)
    subst hce
    have := wf.capacity_le (u := u) hc
    omega
  · have := hused e he hpos
    omega

namespace Drawn

/-- The rows add up to the amount for their own debit, and to nothing for any other. -/
theorem sum_debit (hr : l.Drawn u d a r) (id : EntryId) :
    sumWhere (·.debitEntryId = id) (·.amount) r = if d.id = id then a else 0 := by
  split_ifs with hid
  · have hall : r.filter (fun x => x.debitEntryId = id) = r :=
      List.filter_eq_self.mpr fun x hx => by simpa using (hr.debit_eq x hx).trans hid
    rw [sumWhere, hall]
    exact hr.sum_eq
  · exact Lib.sumWhere_eq_zero fun x hx heq => hid ((hr.debit_eq x hx).symm.trans heq)

/-- The same for the user of the debit. -/
theorem sum_user (hr : l.Drawn u d a r) (w : UserId) :
    sumWhere (·.userId = w) (·.amount) r = if u = w then a else 0 := by
  split_ifs with hw
  · have hall : r.filter (fun x => x.userId = w) = r :=
      List.filter_eq_self.mpr fun x hx => by simpa using (hr.user_eq x hx).trans hw
    rw [sumWhere, hall]
    exact hr.sum_eq
  · exact Lib.sumWhere_eq_zero fun x hx heq => hw ((hr.user_eq x hx).symm.trans heq)

/-- Rows of a debit that has drawn nothing yet repeat no pair of debit and lot. -/
theorem pairs_nodup (hr : l.Drawn u d a r) {as : List AccountLedgerAllocation}
    (has : (as.map fun x => (x.creditEntryId, x.debitEntryId)).Nodup)
    (hfresh : ∀ x ∈ as, x.debitEntryId ≠ d.id) :
    ((as ++ r).map fun x => (x.creditEntryId, x.debitEntryId)).Nodup := by
  rw [List.map_append, List.nodup_append]
  refine ⟨has, List.Nodup.of_map Prod.fst (by simpa [Function.comp_def] using hr.lots_nodup), ?_⟩
  intro p hp q hq hpq
  obtain ⟨x, hx, rfl⟩ := List.mem_map.mp hp
  obtain ⟨y, hy, rfl⟩ := List.mem_map.mp hq
  exact hfresh x hx ((Prod.mk.inj hpq).2.trans (hr.debit_eq y hy))

end Drawn

/-- A successful allocation keeps the ledger well-formed. -/
theorem WellFormed.allocate (wf : l.WellFormed owner) (hd : d ∈ l.entries) (hu : d.userId = u)
    (h : l.allocateFifo u d a = .ok (r, l')) : l'.WellFormed owner := by
  have hr := wf.drawn h
  obtain ⟨-, -, -, rfl⟩ := allocateFifo_ok h
  refine ⟨wf.ids_lt, wf.ids_nodup, wf.owned, wf.no_payment, wf.admin_no_order, wf.one_credit,
    ?_, ?_, ?_⟩
  · intro x hx
    rcases List.mem_append.mp hx with hx | hx
    · exact wf.alloc_pos x hx
    · exact (hr.lot x hx).1
  · intro x hx
    rcases List.mem_append.mp hx with hx | hx
    · exact wf.alloc_lot x hx
    · obtain ⟨-, c, hc, hid, hlot, -⟩ := hr.lot x hx
      exact ⟨c, hc, hid, hr.user_eq x hx ▸ hlot⟩
  · intro x hx
    rcases List.mem_append.mp hx with hx | hx
    · exact wf.alloc_debit x hx
    · exact ⟨d, hd, (hr.debit_eq x hx).symm, hu.trans (hr.user_eq x hx).symm⟩

/-- A debit that has drawn nothing yet keeps the ledger conserved when it draws its amount. -/
theorem Conserved.allocate {now : Time} {v : EntryValues} (cs : l.Conserved owner)
    (wf' : (l.post now v).WellFormed owner) (hneg : v.amount < 0)
    (hnr : ¬ IsRefund (l.newEntry now v))
    (h : (l.post now v).allocateFifo v.userId (l.newEntry now v) (-v.amount) = .ok (r, l')) :
    l'.Conserved owner := by
  have hr := wf'.drawn h
  have hfresh := cs.fresh_unused
  have hmem : ∀ e ∈ (l.post now v).entries, e ∈ l.entries ∨ e = l.newEntry now v := fun e he => by
    simpa using he
  have hused := wf'.used_le_allocate (fun e he hpos => ?_) h
  · have hnew : l.newEntry now v ∈ (l.post now v).entries := by simp
    have huser : (l.newEntry now v).userId = v.userId := rfl
    have wf'' := wf'.allocate hnew huser h
    obtain ⟨-, -, -, rfl⟩ := allocateFifo_ok h
    refine ⟨wf'', hused, fun e he ht => ?_, hr.pairs_nodup cs.pairs_nodup hfresh.2, fun u => ?_⟩
    · rw [post_allocations, Lib.sumWhere_append, hr.sum_debit]
      rcases hmem e he with he | rfl
      · have hne : (l.newEntry now v).id ≠ e.id := (cs.ids_lt e he).ne'
        rw [cs.debit_exact e he ht, if_neg hne, add_zero]
      · rw [if_pos rfl]
        exact (congrArg (· + -v.amount)
          (Lib.sumWhere_eq_zero fun x hx => hfresh.2 x hx)).trans (zero_add _)
    · have hlot : ¬ IsLot u (l.newEntry now v) := fun hlot => by
        have hpos : 0 < v.amount := hlot.2.1
        omega
      have hpos : (l.post now v).position u = _ := position_post u
      have hlots : (l.post now v).lotTotal u = _ := lotTotal_post u
      have href : (l.post now v).refundTotal u = _ := refundTotal_post u
      have hdrawn : sumWhere (·.userId = u) (·.amount) (l.allocations ++ r) = l.drawnTotal u + _ :=
        (Lib.sumWhere_append ..).trans (congrArg _ (hr.sum_user u))
      rw [if_neg hlot] at hlots
      rw [if_neg fun h => hnr h.2] at href
      have := cs.position_le u
      change (l.post now v).position u ≤ (l.post now v).lotTotal u -
        sumWhere (·.userId = u) (·.amount) (l.allocations ++ r) - (l.post now v).refundTotal u
      rw [hpos, hlots, href, hdrawn]
      split_ifs <;> omega
  · rcases hmem e he with he | rfl
    · exact cs.used_le e he hpos
    · have hpos : 0 < v.amount := hpos
      omega

/-- The lots cover whatever the available balance covers. -/
theorem Conserved.allocateFifo_ne_error {now : Time} {v : EntryValues} (cs : l.Conserved owner)
    (wf' : (l.post now v).WellFormed owner) (hneg : v.amount < 0)
    (hnr : ¬ IsRefund (l.newEntry now v))
    (hbal : -v.amount ≤ (l.getAccountBalance v.userId).available) :
    ∃ p, (l.post now v).allocateFifo v.userId (l.newEntry now v) (-v.amount) = .ok p := by
  have hle : -v.amount ≤ l.position v.userId := by
    unfold getAccountBalance at hbal
    simp only at hbal
    split_ifs at hbal <;> simp only at hbal <;> omega
  have hlot : ¬ IsLot v.userId (l.newEntry now v) := fun hlot => by
    have hpos : 0 < v.amount := hlot.2.1
    omega
  have hcap := wf'.capacity_ge v.userId
  rw [lotTotal_post, refundTotal_post, drawnTotal_post, if_neg hlot,
    if_neg fun h => hnr h.2] at hcap
  have hpos := cs.position_le v.userId
  have hdraw := (Lib.Fifo.draw_complete_iff
    ((l.post now v).batchCreditCapacities ((l.post now v).creditLots v.userId))
    ((l.post now v).creditLots v.userId) (show 0 ≤ -v.amount by omega)).mpr (by omega)
  rw [allocateFifo]
  simp only [hdraw, ne_eq, not_true_eq_false, if_false]
  exact ⟨_, rfl⟩

end Allocate

/-! ### Every posting -/

theorem conserved_empty : ({} : Ledger).Conserved owner := by
  refine ⟨⟨?_, ?_, ?_, ?_, ?_, ?_, ?_, ?_, ?_⟩, ?_, ?_, ?_, fun u => ?_⟩ <;>
    simp [position, lotTotal, drawnTotal, refundTotal]

theorem Conserved.backed {l l' : Ledger} (h : BackedPosting owner l l') (cs : l.Conserved owner) :
    l'.Conserved owner := by
  cases h with
  | credit now v o hadm ht ho hu hp =>
    refine cs.post (cs.toWellFormed.post hadm (fun _ o' ho' => ?_) hp fun ha => ?_) (.inl ht)
    · rw [hu, Option.some.inj (ho.symm.trans ho')]
    · rw [ht] at ha; cases ha
  | refund now v o hadm ht ho hu hp =>
    refine cs.post (cs.toWellFormed.post hadm (fun _ o' ho' => ?_) hp fun ha => ?_) (.inr (.inl ht))
    · rw [hu, Option.some.inj (ho.symm.trans ho')]
    · rw [ht] at ha; cases ha
  | bonus now v hadm ht ho hpos => exact cs.post_admin hadm ht ho
  | debit now v r l' hadm ht hbal halloc =>
    exact cs.allocate (cs.toWellFormed.post_debit hadm ht) (purchaseDebit_amount_neg ht)
      (not_isRefund_of_debit ht) halloc

theorem Conserved.posting {l l' : Ledger} (h : Posting owner l l') (cs : l.Conserved owner) :
    l'.Conserved owner := by
  rcases h with h | ⟨v, h⟩ | ⟨v, h⟩
  · exact cs.backed owner h
  · obtain ⟨now, r, halloc⟩ := h.allocated
    exact cs.allocate (cs.toWellFormed.post_admin h.admits h.type_eq h.no_order) h.neg
      (not_isRefund_of_admin h.type_eq) halloc
  · obtain ⟨now, rfl⟩ := h.posted
    exact cs.post_admin h.admits h.type_eq h.no_order

end Ledger

/-- The invariant of every run that starts on an empty ledger. -/
theorem ledgerRun_conserved (db : Db) (ops : List LedgerOp) :
    (ledgerRun owner { db with ledger := {} } ops).ledger.Conserved owner :=
  ledgerRun_inv owner (fun _ _ h cs => Ledger.Conserved.posting owner h cs) ops _
    (Ledger.conserved_empty owner)

/-! ### The failure of the allocation -/

def noCreditLots : Err := .ledgerInvariant "available_balance_has_no_credit_lots"

theorem wholeRubles_ne_noCreditLots {z : Bool} (x : Number) :
    wholeRubles z x ≠ .error noCreditLots := by
  intro h
  unfold wholeRubles at h
  split at h
  · cases h
  · cases h
  · cases h
  · split_ifs at h <;> cases h

theorem Ledger.insertOrGetEntry_ne_noCreditLots {l : Ledger} {now : Time} {v : EntryValues}
    {lk : AccountLedgerEntry → Bool} : l.insertOrGetEntry now v lk ≠ .error noCreditLots := by
  intro h
  unfold insertOrGetEntry at h
  split_ifs at h
  split at h
  · cases h
  · split_ifs at h
    cases h

/-- On a conserved ledger no order debit runs out of lots. -/
theorem createOrderDebit_ne_noCreditLots {db : Db} (cs : db.ledger.Conserved owner) (now : Time)
    (u : UserId) (amount : Number) (o : OrderId) (m : EntryMeta) (locked : Option User) :
    db.createOrderDebit now u amount o m locked ≠ .error noCreditLots := by
  intro h
  rcases Lib.bind_error h with h | ⟨a, -, h⟩
  · exact wholeRubles_ne_noCreditLots amount h
  rcases Lib.bind_error h with h | ⟨user, -, h⟩
  · unfold Db.lockAccountUser at h
    split at h <;> cases h
  by_cases ha : a.val = 0
  · rw [dif_pos ha] at h; cases h
  rw [dif_neg ha] at h
  simp only at h
  split at h
  · split at h <;> cases h
  split at h
  · cases h
  rename_i hbal
  rcases Lib.bind_error h with h | ⟨⟨⟨e, c⟩, l₁⟩, hins, h⟩
  · exact Ledger.insertOrGetEntry_ne_noCreditLots h
  rcases Ledger.insertOrGetEntry_ok hins with ⟨rfl, rfl, rfl, hadm⟩ | ⟨rfl, rfl⟩
  · simp only [if_true] at h
    have hneg : -a.val < 0 := by have := a.property.1; omega
    obtain ⟨p, hp⟩ := cs.allocateFifo_ne_error (cs.toWellFormed.post_debit hadm rfl) hneg
      (Ledger.not_isRefund_of_debit rfl) (by simpa using hbal)
    rcases Lib.bind_error h with h | ⟨q, -, h⟩
    · simp only [neg_neg] at hp
      rw [hp] at h; cases h
    · cases h
  · cases h

/-- Lot conservation: in every ledger a run of writing operations reaches, no lot has given more
    than its amount, every purchase debit is drawn in full from distinct lots of its own user, and
    `create_order_debit` never finds the lots short of the available balance. -/
theorem lot_conservation (db₀ : Db) (ops : List LedgerOp) :
    let db := ledgerRun owner { db₀ with ledger := {} } ops
    (∀ e ∈ db.ledger.entries, 0 < e.amount → db.ledger.usedByCredit e.id ≤ e.amount) ∧
    (∀ d ∈ db.ledger.entries, d.entryType = .purchaseDebit →
      sumWhere (·.debitEntryId = d.id) (·.amount) db.ledger.allocations = |d.amount| ∧
      ∀ a ∈ db.ledger.allocations, a.debitEntryId = d.id →
        ∃ lot ∈ db.ledger.entries, lot.id = a.creditEntryId ∧ Ledger.IsLot d.userId lot) ∧
    (db.ledger.allocations.map fun a => (a.creditEntryId, a.debitEntryId)).Nodup ∧
    ∀ now u amount o m locked, db.createOrderDebit now u amount o m locked ≠
      .error (.ledgerInvariant "available_balance_has_no_credit_lots") := by
  intro db
  have cs : db.ledger.Conserved owner := ledgerRun_conserved owner db₀ ops
  refine ⟨cs.used_le, fun d hd ht => ⟨?_, fun a ha had => ?_⟩, cs.pairs_nodup, ?_⟩
  · rw [cs.debit_exact d hd ht, abs_of_neg (purchaseDebit_amount_neg ht)]
  · obtain ⟨d', hd', hid, hu⟩ := cs.alloc_debit a ha
    have hdd := cs.toWellFormed.eq_of_id hd' hd (hid.trans had)
    subst hdd
    rw [hu]
    exact cs.alloc_lot a ha
  · exact createOrderDebit_ne_noCreditLots owner cs

end Just1kBot
