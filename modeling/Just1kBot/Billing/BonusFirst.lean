import Just1kBot.Billing.Neutrality

/-! Bonus first: how an order debit divides into bonus and real money.

    The balance reads the split off the bonus credited and spent, capped by the position; the debit
    is drawn lot by lot. The two agree because the bonus lots come first and hold together exactly
    the bonus that is credited and not spent, also where refunds and reversals have left a position
    below what the lots hold. -/

namespace Just1kBot
open Lib (sumWhere)
open Lib.Python (Number)

namespace Ledger

/-- Whatever the ledger, real and bonus money make up the available balance, and position and debt
    are its two signs. -/
theorem getAccountBalance_sum (l : Ledger) (u : UserId) :
    (l.getAccountBalance u).realAvailable + (l.getAccountBalance u).bonusAvailable =
        (l.getAccountBalance u).available ∧
      (l.getAccountBalance u).accountingPosition = l.position u ∧
      (l.getAccountBalance u).available = max 0 (l.position u) ∧
      (l.getAccountBalance u).debt = max 0 (-l.position u) := by
  rw [getAccountBalance]
  simp only
  split_ifs <;> refine ⟨?_, rfl, ?_, rfl⟩ <;> simp only <;> omega

/-! ### The bonus lots -/

section BonusLots
variable {owner : OrderId → UserId} {l l' : Ledger} {u : UserId}

/-- The bonus lots of a user, in the order they are drawn. -/
def bonusLots (l : Ledger) (u : UserId) : List AccountLedgerEntry :=
  (l.creditLots u).filter fun e => e.entryType = .adminAdjustment

theorem mem_bonusLots {e : AccountLedgerEntry} :
    e ∈ l.bonusLots u ↔ e ∈ l.entries ∧ IsBonus u e := by
  rw [bonusLots, List.mem_filter, mem_creditLots, decide_eq_true_eq, and_assoc]
  refine and_congr_right fun _ => ⟨?_, ?_⟩
  · rintro ⟨⟨hu, hpos, -⟩, ht⟩
    exact ⟨hu, ht, hpos⟩
  · rintro ⟨hu, ht, hpos⟩
    exact ⟨⟨hu, hpos, .inr ht⟩, ht⟩

theorem bonusLots_perm (l : Ledger) (u : UserId) :
    (l.bonusLots u).Perm (l.entries.filter fun e => IsBonus u e) := by
  refine ((creditLots_perm l u).filter _).trans (.of_eq ?_)
  rw [lotsOf, List.filter_filter]
  refine List.filter_congr fun e _ => ?_
  rw [← Bool.decide_and]
  refine decide_eq_decide.mpr ⟨?_, ?_⟩
  · rintro ⟨ht, hu, hpos, -⟩
    exact ⟨hu, ht, hpos⟩
  · rintro ⟨hu, ht, hpos⟩
    exact ⟨ht, hu, hpos, .inr ht⟩

/-- The order of the lots is one on triples of numbers. -/
theorem lotLe_total (a b : AccountLedgerEntry) : LotLe a b ∨ LotLe b a := by
  have hlex : ∀ (r s : ℕ) (x y : ℤ) (i j : ℕ),
      (r < s ∨ r = s ∧ (x < y ∨ x = y ∧ i ≤ j)) ∨ s < r ∨ s = r ∧ (y < x ∨ y = x ∧ j ≤ i) := by
    omega
  exact hlex _ _ _ _ _ _

theorem lotLe_trans (a b c : AccountLedgerEntry) (hab : LotLe a b) (hbc : LotLe b c) :
    LotLe a c := by
  have hlex : ∀ (r s t : ℕ) (x y z : ℤ) (i j k : ℕ),
      (r < s ∨ r = s ∧ (x < y ∨ x = y ∧ i ≤ j)) → (s < t ∨ s = t ∧ (y < z ∨ y = z ∧ j ≤ k)) →
      (r < t ∨ r = t ∧ (x < z ∨ x = z ∧ i ≤ k)) := by
    omega
  exact hlex _ _ _ _ _ _ _ _ _ hab hbc

/-- In the order of the lots no bonus lot comes after another one. -/
theorem creditLots_bonus_first (l : Ledger) (u : UserId) :
    (l.creditLots u).Pairwise fun a b =>
      b.entryType = .adminAdjustment → a.entryType = .adminAdjustment := by
  have : Std.Total LotLe := ⟨lotLe_total⟩
  have : IsTrans AccountLedgerEntry LotLe := ⟨lotLe_trans⟩
  refine (List.pairwise_insertionSort LotLe _).imp fun {a b} hle hb => ?_
  by_contra ha
  simp [LotLe, ha, hb] at hle

/-- What is drawn from the bonus lots of a user is the bonus spent. -/
theorem WellFormed.sum_used_bonusLots (wf : l.WellFormed owner) (u : UserId) :
    ((l.bonusLots u).map fun c => l.usedByCredit c.id).sum = l.bonusSpent u := by
  have hids : ((l.entries.filter fun e => IsBonus u e).map (·.id)).Nodup :=
    wf.ids_nodup.sublist (List.filter_sublist.map _)
  have hgroups := Lib.sum_groups (fun a : AccountLedgerAllocation => a.creditEntryId) (·.amount)
    hids l.allocations
  rw [List.map_map] at hgroups
  rw [((bonusLots_perm l u).map _).sum_eq]
  refine hgroups.trans (Lib.sumWhere_congr fun a ha => ⟨⟨fun hmem => ?_, ?_⟩, fun _ => rfl⟩)
  · obtain ⟨e, he, hid⟩ := List.mem_map.mp hmem
    obtain ⟨hel, hb⟩ := List.mem_filter.mp he
    have hb : IsBonus u e := by simpa using hb
    obtain ⟨c, hc, hcid, hlot⟩ := wf.alloc_lot a ha
    have hce := wf.eq_of_id hc hel (hcid.trans hid.symm)
    subst hce
    exact ⟨hlot.1.symm.trans hb.1, c, hel, hid, hb.2.1⟩
  · rintro ⟨hu, hadmin⟩
    obtain ⟨e, he, hid, hb⟩ := wf.bonus_of_alloc ha hu hadmin
    exact List.mem_map.mpr ⟨e, List.mem_filter.mpr ⟨he, by simpa using hb⟩, hid⟩

/-- A bonus lot holds what was not drawn from it: no order and no payment refunds it. -/
theorem WellFormed.capacity_bonusLot (wf : l.WellFormed owner) {c : AccountLedgerEntry}
    (hc : c ∈ l.bonusLots u) :
    l.batchCreditCapacities (l.creditLots u) c = c.amount - l.usedByCredit c.id := by
  obtain ⟨hce, -, ht, -⟩ := mem_bonusLots.mp hc
  rw [batchCreditCapacities, wf.no_payment c hce, wf.admin_no_order c hce ht]
  simp

/-- The bonus lots hold together the bonus that is credited and not spent. -/
theorem WellFormed.total_bonusLots (wf : l.WellFormed owner)
    (hused : ∀ e ∈ l.entries, 0 < e.amount → l.usedByCredit e.id ≤ e.amount) (u : UserId) :
    Lib.Fifo.total (l.batchCreditCapacities (l.creditLots u)) (l.bonusLots u) =
      l.bonusCredited u - l.bonusSpent u := by
  have hpoint : ∀ c ∈ l.bonusLots u, max 0 (l.batchCreditCapacities (l.creditLots u) c) =
      c.amount - l.usedByCredit c.id := fun c hc => by
    obtain ⟨hce, hb⟩ := mem_bonusLots.mp hc
    have := hused c hce hb.2.2
    rw [wf.capacity_bonusLot hc]
    omega
  have hcredited : ((l.bonusLots u).map (·.amount)).sum = l.bonusCredited u :=
    ((bonusLots_perm l u).map _).sum_eq
  rw [Lib.Fifo.total, List.map_congr_left hpoint, Lib.sum_map_sub, hcredited,
    wf.sum_used_bonusLots]

/-- The spent bonus is within the credited one. -/
theorem Conserved.bonusSpent_le (cs : l.Conserved owner) (u : UserId) :
    l.bonusSpent u ≤ l.bonusCredited u := by
  have := Lib.Fifo.total_nonneg (l.batchCreditCapacities (l.creditLots u)) (l.bonusLots u)
  rw [cs.toWellFormed.total_bonusLots cs.used_le] at this
  omega

/-- A debit spends the bonus that is there, up to its amount. -/
theorem WellFormed.bonusSpent_allocate (wf : l.WellFormed owner)
    (hused : ∀ e ∈ l.entries, 0 < e.amount → l.usedByCredit e.id ≤ e.amount)
    {d : AccountLedgerEntry} {a : ℤ} (h0 : 0 ≤ a) {r : List AccountLedgerAllocation}
    (h : l.allocateFifo u d a = .ok (r, l')) :
    l'.bonusSpent u = l.bonusSpent u + min a (l.bonusCredited u - l.bonusSpent u) := by
  obtain ⟨draws, hdraw, rfl, rfl⟩ := allocateFifo_ok h
  have hpref := Lib.Fifo.draw_preferred (l.batchCreditCapacities (l.creditLots u))
    (creditLots_bonus_first l u) h0
  have hsub := Lib.Fifo.draw_sublist (l.batchCreditCapacities (l.creditLots u)) (l.creditLots u) a
  rw [hdraw] at hpref hsub
  rw [bonusSpent, Lib.sumWhere_append, ← wf.total_bonusLots hused, bonusLots, ← hpref,
    Lib.sumWhere_map]
  refine congrArg (l.bonusSpent u + ·) (Lib.sumWhere_congr fun p hp => ⟨?_, fun _ => rfl⟩)
  have hlot := (mem_creditLots.mp (hsub.subset (List.mem_map_of_mem hp))).1
  constructor
  · rintro ⟨-, e, he, hid, ht⟩
    rwa [← wf.eq_of_id he hlot hid]
  · intro ht
    exact ⟨rfl, p.1, hlot, rfl, ht⟩

/-! ### A debit on the balance -/

section Split
variable {now : Time} {v : EntryValues} {a : ℤ} {r : List AccountLedgerAllocation}

/-- A debit is no bonus, and nothing is drawn from it. -/
theorem bonus_post_debit (ht : v.entryType = .purchaseDebit) (u : UserId) :
    (l.post now v).bonusCredited u = l.bonusCredited u ∧
      (l.post now v).bonusSpent u = l.bonusSpent u := by
  have hne : (l.newEntry now v).entryType ≠ .adminAdjustment := by
    rw [show (l.newEntry now v).entryType = v.entryType from rfl, ht]
    rintro ⟨⟩
  constructor
  · rw [bonusCredited, post_entries, Lib.sumWhere_append, Lib.sumWhere_singleton,
      if_neg fun h => hne h.2.1, add_zero]
    rfl
  · refine Lib.sumWhere_congr fun x hx => ⟨and_congr_right fun _ => ⟨?_, ?_⟩, fun _ => rfl⟩
    · rintro ⟨e, he, hid, hadmin⟩
      rcases List.mem_append.mp he with he | he
      · exact ⟨e, he, hid, hadmin⟩
      · rw [List.mem_singleton.mp he] at hadmin
        exact absurd hadmin hne
    · rintro ⟨e, he, h⟩
      exact ⟨e, List.mem_append_left _ he, h⟩

/-- The balance after a debit it covers: the bonus pays what it can and the real money the rest. -/
theorem Conserved.debit_split (cs : l.Conserved owner) (hadm : l.Admits v)
    (ht : v.entryType = .purchaseDebit)
    (hle : -v.amount ≤ (l.getAccountBalance v.userId).available)
    (halloc : (l.post now v).allocateFifo v.userId (l.newEntry now v) (-v.amount) = .ok (r, l')) :
    let before := l.getAccountBalance v.userId
    let after := l'.getAccountBalance v.userId
    after.bonusAvailable = before.bonusAvailable - min (-v.amount) before.bonusAvailable ∧
      after.realAvailable =
        before.realAvailable - (-v.amount - min (-v.amount) before.bonusAvailable) ∧
      0 ≤ after.bonusAvailable ∧ 0 ≤ after.realAvailable := by
  intro before after
  have hneg := purchaseDebit_amount_neg ht
  have wf' : (l.post now v).WellFormed owner := cs.toWellFormed.post_debit hadm ht
  have cs' := cs.allocate wf' hneg (not_isRefund_of_debit ht) halloc
  obtain ⟨hcred, hspent⟩ : (l.post now v).bonusCredited v.userId = l.bonusCredited v.userId ∧
      (l.post now v).bonusSpent v.userId = l.bonusSpent v.userId := bonus_post_debit ht v.userId
  have hused : ∀ e ∈ (l.post now v).entries, 0 < e.amount →
      (l.post now v).usedByCredit e.id ≤ e.amount := fun e he hpos => by
    rcases List.mem_append.mp he with he | he
    · exact cs.used_le e he hpos
    · rw [List.mem_singleton.mp he] at hpos
      have hpos : 0 < v.amount := hpos
      omega
  have hspent' := wf'.bonusSpent_allocate hused (by omega) halloc
  rw [hcred, hspent] at hspent'
  have hentries : l'.entries = (l.post now v).entries := by
    obtain ⟨-, -, -, rfl⟩ := allocateFifo_ok halloc
    rfl
  have hcred' : l'.bonusCredited v.userId = l.bonusCredited v.userId := by
    rw [← hcred, bonusCredited, bonusCredited, hentries]
  have hpos' : l'.position v.userId = l.position v.userId + v.amount := by
    have : (l.post now v).position v.userId = _ := position_post v.userId
    rw [if_pos rfl] at this
    rw [← this, position, position, hentries]
  rw [available_eq] at hle
  obtain ⟨hb, hr⟩ : before.bonusAvailable = _ ∧ before.realAvailable = _ :=
    getAccountBalance_classes (cs.toWellFormed.bonusSpent_nonneg v.userId)
      (cs.bonusSpent_le v.userId)
  obtain ⟨hb', hr'⟩ : after.bonusAvailable = _ ∧ after.realAvailable = _ :=
    getAccountBalance_classes (cs'.toWellFormed.bonusSpent_nonneg v.userId)
      (cs'.bonusSpent_le v.userId)
  rw [hpos', hcred', hspent'] at hb' hr'
  have := cs.bonusSpent_le v.userId
  refine ⟨?_, ?_, ?_, ?_⟩ <;> omega

end Split

end BonusLots

/-! ### The key of an order debit -/

/-- Only a debit of the order is booked under its debit key. -/
def DebitKeys (l : Ledger) : Prop :=
  ∀ e ∈ l.entries, ∀ o, e.idempotencyKey = .orderDebit o →
    e.entryType = .purchaseDebit ∧ e.orderId = some o

namespace DebitKeys
variable {l l' : Ledger} {now : Time} {v : EntryValues}

theorem post (h : l.DebitKeys) (hv : ∀ o, v.idempotencyKey = .orderDebit o →
    v.entryType = .purchaseDebit ∧ v.orderId = some o) : (l.post now v).DebitKeys := by
  intro e he
  rcases List.mem_append.mp he with he | he
  · exact h e he
  · rw [List.mem_singleton.mp he]
    exact hv

theorem insertOrGetEntry (h : l.DebitKeys) {lk : AccountLedgerEntry → Bool}
    {r : AccountLedgerEntry × Bool} (hins : l.insertOrGetEntry now v lk = .ok (r, l'))
    (hv : ∀ o, v.idempotencyKey = .orderDebit o →
      v.entryType = .purchaseDebit ∧ v.orderId = some o) : l'.DebitKeys := by
  rcases insertOrGetEntry_ok hins with ⟨-, -, rfl, -⟩ | ⟨-, rfl⟩
  · exact h.post hv
  · exact h

theorem allocate (h : l.DebitKeys) {u : UserId} {d : AccountLedgerEntry} {a : ℤ}
    {r : List AccountLedgerAllocation} (halloc : l.allocateFifo u d a = .ok (r, l')) :
    l'.DebitKeys := by
  obtain ⟨-, -, -, rfl⟩ := allocateFifo_ok halloc
  exact h

/-- The row an order debit inserts has nothing in its way but a debit of the same order. -/
theorem admits (h : l.DebitKeys) {o : OrderId} (ht : v.entryType = .purchaseDebit)
    (ho : v.orderId = some o) (hq : v.quoteId = none) (hk : v.idempotencyKey = .orderDebit o)
    (hnew : ∀ e ∈ l.entries, ¬ (e.entryType = .purchaseDebit ∧ e.orderId = some o)) :
    l.Admits v := by
  intro e he hclash
  rcases hclash with hkey | ⟨htype, hcase⟩
  · exact hnew e he (h e he o (hkey.trans hk))
  · rcases hcase with ⟨htv, -⟩ | ⟨-, ⟨hsome, -⟩ | ⟨-, horder⟩⟩ | ⟨htv, -⟩
    · rw [ht] at htv; cases htv
    · rw [hq] at hsome; cases hsome
    · exact hnew e he ⟨htype.trans ht, horder.trans ho⟩
    · rw [ht] at htv; cases htv

end DebitKeys

end Ledger

variable (owner : OrderId → UserId)

/-- The entry `create_order_debit` books. -/
def orderDebitEntry (u : UserId) (o : OrderId) (m : EntryMeta) (a : ℤ) (h0 : 0 < a) :
    EntryValues where
  userId := u
  entryType := .purchaseDebit
  amount := -a
  orderId := some o
  idempotencyKey := .orderDebit o
  metadata := m
  shape := ⟨by omega, rfl, .inr rfl, rfl⟩

/-- An order debit keeps the ledger, or books its entry and draws it from the lots. -/
theorem Db.createOrderDebit_ok {db db' : Db} {now : Time} {u : UserId} {amount : Number}
    {o : OrderId} {m : EntryMeta} {locked : Option User} {r : Option AccountLedgerEntry × Bool}
    (h : db.createOrderDebit now u amount o m locked = .ok (r, db')) :
    db' = db ∨ ∃ v p, db.ledger.Admits v ∧ v.entryType = .purchaseDebit ∧ v.orderId = some o ∧
      v.idempotencyKey = .orderDebit o ∧
      (db.ledger.post now v).allocateFifo v.userId (db.ledger.newEntry now v) (-v.amount) =
        .ok (p, db'.ledger) := by
  obtain ⟨a, -, h⟩ := Lib.bind_ok h
  obtain ⟨user, -, h⟩ := Lib.bind_ok h
  by_cases ha : a.val = 0
  · rw [dif_pos ha] at h
    cases h
    exact .inl rfl
  · rw [dif_neg ha] at h
    simp only at h
    split at h
    · split at h
      · cases h
      · cases h
        exact .inl rfl
    · split at h
      · cases h
      · obtain ⟨⟨⟨e, c⟩, l₁⟩, hins, h⟩ := Lib.bind_ok h
        rcases Ledger.insertOrGetEntry_ok hins with ⟨rfl, rfl, rfl, hadm⟩ | ⟨rfl, rfl⟩
        · simp only [if_true] at h
          obtain ⟨⟨p, l'⟩, halloc, h⟩ := Lib.bind_ok h
          cases h
          have h0 : 0 < a.val := lt_of_le_of_ne a.property.1 (Ne.symm ha)
          exact .inr ⟨orderDebitEntry user.id o m a.val h0, p, hadm, rfl, rfl, rfl,
            by simpa [orderDebitEntry] using halloc⟩
        · cases h
          exact .inl rfl

/-- Every operation books under its own keys. -/
theorem LedgerOp.exec_debitKeys {db db' : Db} {op : LedgerOp}
    (hop : op.exec owner db = .ok ((), db')) (h : db.ledger.DebitKeys) :
    db'.ledger.DebitKeys := by
  cases op with
  | orderCredit =>
    obtain ⟨_, hop⟩ := exec_ok hop
    obtain ⟨_, -, hop⟩ := Lib.bind_ok hop
    obtain ⟨_, hins, hop⟩ := Lib.bind_ok hop
    cases hop
    exact h.insertOrGetEntry hins (by rintro _ ⟨⟩)
  | orderDebit =>
    obtain ⟨_, hop⟩ := exec_ok hop
    rcases Db.createOrderDebit_ok hop with hdb | ⟨v, p, -, ht, ho, hk, halloc⟩
    · obtain rfl : db' = db := hdb
      exact h
    · refine (h.post fun o' ho' => ?_).allocate halloc
      rw [hk] at ho'
      cases ho'
      exact ⟨ht, ho⟩
  | orderRefundDebit =>
    obtain ⟨_, hop⟩ := exec_ok hop
    obtain ⟨_, _, l', hins, rfl⟩ := Db.createOrderRefundDebit_ok hop
    exact h.insertOrGetEntry hins (by rintro _ ⟨⟩)
  | adminAdjustment =>
    obtain ⟨_, hop⟩ := exec_ok hop
    obtain ⟨_, -, hop⟩ := Lib.bind_ok hop
    obtain ⟨_, -, hop⟩ := Lib.bind_ok hop
    obtain ⟨⟨⟨entry, created⟩, l₁⟩, hins, hop⟩ := Lib.bind_ok hop
    have h₁ := h.insertOrGetEntry hins (by rintro _ ⟨⟩)
    simp only at hop
    split at hop
    · obtain ⟨_, halloc, hop⟩ := Lib.bind_ok hop
      cases hop
      exact h₁.allocate halloc
    · cases hop
      exact h₁
  | grantBonus =>
    obtain ⟨_, hop⟩ := exec_ok hop
    rcases Db.grantReferralBonusForTopup_ok hop with hdb | ⟨_, _, hpos, -, -, -, hdb⟩
    · obtain rfl : db' = db := hdb
      exact h
    · obtain rfl : db' = _ := hdb
      exact h.post (by rintro _ ⟨⟩)
  | reverseBonus now payment order refundId =>
    obtain ⟨new, hnew⟩ := ledgerStep_reversed owner db now payment order refundId
    rw [ledgerStep, hop, Lib.commit] at hnew
    intro e he
    rw [hnew.entries_eq] at he
    rcases List.mem_append.mp he with he | he
    · exact h e he
    · intro o ho
      rw [(hnew.key_eq e he).1] at ho
      cases ho
  | other =>
    cases hop
    exact h

theorem ledgerRun_debitKeys (db : Db) (ops : List LedgerOp) :
    (ledgerRun owner { db with ledger := {} } ops).ledger.DebitKeys := by
  refine Lib.run_inv (I := fun db : Db => db.ledger.DebitKeys) (ledgerStep owner)
    (fun db op h => ?_) ops _ (fun e he => absurd he List.not_mem_nil)
  exact Lib.commit_inv (I := fun db : Db => db.ledger.DebitKeys) h fun _ db' hop =>
    LedgerOp.exec_debitKeys owner hop h

/-! ### The debit of an order -/

section Debit
variable {owner} {db : Db} {now : Time} {u : UserId} {a : ℤ} {o : OrderId} {m : EntryMeta}
  {locked : Option User} {user : User}

theorem wholeRubles_whole {z : Bool} (h : 0 ≤ a ∧ (z = false → a ≠ 0)) :
    wholeRubles z (.decimal a) = .ok ⟨a, h⟩ := by
  have hnum : 0 ≤ (a : ℚ).num ∧ (z = false → (a : ℚ).num ≠ 0) := by
    rw [Rat.num_intCast]
    exact h
  rw [wholeRubles]
  simp only [Rat.den_intCast, ne_eq, not_true, if_false]
  rw [dif_pos hnum]
  rfl

/-- The first debit of an order the balance covers is booked and drawn from the lots. -/
theorem createOrderDebit_new (now : Time) (m : EntryMeta) (cs : db.ledger.Conserved owner)
    (hkeys : db.ledger.DebitKeys)
    (hu : db.lockAccountUser u locked = .ok user) (h0 : 0 < a)
    (hle : a ≤ (db.ledger.getAccountBalance user.id).available)
    (hnew : ∀ e ∈ db.ledger.entries, ¬ (e.entryType = .purchaseDebit ∧ e.orderId = some o)) :
    ∃ r l', (db.ledger.post now (orderDebitEntry user.id o m a h0)).allocateFifo user.id
        (db.ledger.newEntry now (orderDebitEntry user.id o m a h0)) a = .ok (r, l') ∧
      db.createOrderDebit now u (.decimal a) o m locked =
        .ok ((some (db.ledger.newEntry now (orderDebitEntry user.id o m a h0)), true),
          { db with ledger := l' }) := by
  have hadm : db.ledger.Admits (orderDebitEntry user.id o m a h0) :=
    hkeys.admits rfl rfl rfl rfl hnew
  have hneg : (orderDebitEntry user.id o m a h0).amount < 0 := by simp [orderDebitEntry, h0]
  have hwf : (db.ledger.post now (orderDebitEntry user.id o m a h0)).WellFormed owner :=
    cs.toWellFormed.post_debit hadm rfl
  obtain ⟨⟨r, l'⟩, halloc⟩ := cs.allocateFifo_ne_error hwf hneg
    (Ledger.not_isRefund_of_debit rfl) (by simpa [orderDebitEntry] using hle)
  have halloc : (db.ledger.post now (orderDebitEntry user.id o m a h0)).allocateFifo user.id
      (db.ledger.newEntry now (orderDebitEntry user.id o m a h0)) a = .ok (r, l') := by
    simpa [orderDebitEntry] using halloc
  have hfind : db.ledger.entries.find? (fun e : AccountLedgerEntry =>
      decide (e.entryType = .purchaseDebit ∧ e.orderId = some o)) = none :=
    List.find?_eq_none.mpr fun e he => by simpa using hnew e he
  refine ⟨r, l', halloc, ?_⟩
  rw [orderDebitEntry] at hadm halloc ⊢
  rw [Db.createOrderDebit, wholeRubles_whole ⟨h0.le, fun _ => h0.ne'⟩, hu]
  simp only [bind, Except.bind, dif_neg h0.ne', hfind, if_neg (not_lt.mpr hle),
    Ledger.insertOrGetEntry, if_pos hadm, if_true, halloc]
  rfl

/-- Once an order is debited, no further debit of it changes anything. -/
theorem createOrderDebit_booked {x : Number} (hbooked : ∃ e ∈ db.ledger.entries,
      e.entryType = .purchaseDebit ∧ e.orderId = some o) :
    Lib.commit db (db.createOrderDebit now u x o m locked) = db := by
  cases h : db.createOrderDebit now u x o m locked with
  | error e => rfl
  | ok p =>
    obtain ⟨r, db'⟩ := p
    obtain ⟨w, -, h⟩ := Lib.bind_ok h
    obtain ⟨user', -, h⟩ := Lib.bind_ok h
    by_cases hw : w.val = 0
    · rw [dif_pos hw] at h
      cases h
      rfl
    · rw [dif_neg hw] at h
      simp only at h
      split at h
      · split at h
        · cases h
        · cases h
          rfl
      · rename_i hnone
        obtain ⟨e, he, hd⟩ := hbooked
        have := List.find?_eq_none.mp hnone e he
        simp [hd] at this

/-- The same debit once more finds the first entry. -/
theorem createOrderDebit_again {e : AccountLedgerEntry} (h0 : 0 < a)
    (hu : db.lockAccountUser u locked = .ok user)
    (hfind : db.ledger.entries.find? (fun e : AccountLedgerEntry =>
      decide (e.entryType = .purchaseDebit ∧ e.orderId = some o)) = some e)
    (huser : e.userId = user.id) (hamount : e.amount = -a) :
    db.createOrderDebit now u (.decimal a) o m locked = .ok ((some e, false), db) := by
  rw [Db.createOrderDebit, wholeRubles_whole ⟨h0.le, fun _ => h0.ne'⟩, hu]
  simp only [bind, Except.bind, dif_neg h0.ne', hfind, huser, hamount, ne_eq, not_true, or_self,
    if_false]
  rfl

end Debit

/-- Bonus-first spending: in every reachable ledger the first debit of an order within the available
    balance takes from the bonus what there is of it, up to the amount, and the rest from the real
    money; both stay non-negative and make up the balance, and no later debit of the order changes
    anything. -/
theorem bonus_first_spending (db₀ : Db) (ops : List LedgerOp) (now : Time) (u : UserId) (a : ℤ)
    (o : OrderId) (m : EntryMeta) (locked : Option User) (user : User)
    (hu : (ledgerRun owner { db₀ with ledger := {} } ops).lockAccountUser u locked = .ok user)
    (hid : user.id = u) (h0 : 0 < a)
    (hle : a ≤
      ((ledgerRun owner { db₀ with ledger := {} } ops).ledger.getAccountBalance u).available)
    (hnew : ∀ e ∈ (ledgerRun owner { db₀ with ledger := {} } ops).ledger.entries,
      ¬ (e.entryType = .purchaseDebit ∧ e.orderId = some o)) :
    let db := ledgerRun owner { db₀ with ledger := {} } ops
    let before := db.ledger.getAccountBalance u
    ∃ e db', db.createOrderDebit now u (.decimal a) o m locked = .ok ((some e, true), db') ∧
      (let after := db'.ledger.getAccountBalance u
      after.bonusAvailable = before.bonusAvailable - min a before.bonusAvailable ∧
        after.realAvailable = before.realAvailable - (a - min a before.bonusAvailable) ∧
        0 ≤ after.bonusAvailable ∧ 0 ≤ after.realAvailable ∧
        after.realAvailable + after.bonusAvailable = after.available ∧
        after.available = max 0 after.accountingPosition ∧
        after.debt = max 0 (-after.accountingPosition)) ∧
      (∀ now' m', db'.createOrderDebit now' u (.decimal a) o m' locked =
        .ok ((some e, false), db')) ∧
      ∀ now' u' x m' locked',
        Lib.commit db' (db'.createOrderDebit now' u' x o m' locked') = db' := by
  subst hid
  intro db before
  have cs : db.ledger.Conserved owner := ledgerRun_conserved owner db₀ ops
  have hkeys : db.ledger.DebitKeys := ledgerRun_debitKeys owner db₀ ops
  obtain ⟨r, l', halloc, hok⟩ := createOrderDebit_new now m cs hkeys hu h0 hle hnew
  have hadm : db.ledger.Admits (orderDebitEntry user.id o m a h0) :=
    hkeys.admits rfl rfl rfl rfl hnew
  have hamount : -(orderDebitEntry user.id o m a h0).amount = a := neg_neg a
  obtain ⟨hbonus, hreal, hb0, hr0⟩ := cs.debit_split hadm rfl (hamount.le.trans hle)
    ((congrArg _ hamount).trans halloc)
  rw [hamount] at hbonus hreal
  obtain ⟨hsum, hpos, havail, hdebt⟩ := l'.getAccountBalance_sum user.id
  have hentries : l'.entries = db.ledger.entries ++
      [db.ledger.newEntry now (orderDebitEntry user.id o m a h0)] := by
    obtain ⟨-, -, -, rfl⟩ := Ledger.allocateFifo_ok halloc
    rfl
  refine ⟨_, _, hok, ⟨hbonus, hreal, hb0, hr0, hsum, ?_, ?_⟩, ?_, ?_⟩
  · rw [hpos]
    exact havail
  · rw [hpos]
    exact hdebt
  -- the debit just booked is the only one of the order
  · have hold : db.ledger.entries.find? (fun e : AccountLedgerEntry =>
        decide (e.entryType = .purchaseDebit ∧ e.orderId = some o)) = none :=
      List.find?_eq_none.mpr fun e he => by simpa using hnew e he
    intro now' m'
    refine createOrderDebit_again h0 hu ?_ rfl rfl
    rw [hentries, List.find?_append, hold, Option.none_or, List.find?_singleton]
    exact if_pos (decide_eq_true ⟨rfl, rfl⟩)
  · intro now' u' x m' locked'
    refine createOrderDebit_booked
      ⟨db.ledger.newEntry now (orderDebitEntry user.id o m a h0), ?_, rfl, rfl⟩
    rw [hentries]
    exact List.mem_append_right _ (List.mem_singleton.mpr rfl)

/-- A top-up of 100, a bonus of 40, and 70 of the top-up refunded. -/
def mixedLedger : List LedgerOp :=
  [.orderCredit 0 (.decimal 100) 1 {}, .adminAdjustment 1 1 (.decimal 40) "gift" {},
    .orderRefundDebit 2 (.decimal 70) 1 "part" {}]

/-- Of a debit of 50 the bonus pays its 40 and the real money the other 10. -/
theorem bonus_first_spending_mixed :
    ∃ e db', (ledgerRun (fun o => o) { users := referralUsers } mixedLedger).createOrderDebit
        3 1 (.decimal 50) 2 {} none = .ok ((some e, true), db') ∧
      (db'.ledger.getAccountBalance 1).bonusAvailable = 0 ∧
      (db'.ledger.getAccountBalance 1).realAvailable = 20 := by
  have hu : (ledgerRun (fun o => o) { users := referralUsers } mixedLedger).lockAccountUser 1 =
      .ok { id := 1, telegramId := 1, referredBy := some 2 } := by decide +kernel
  obtain ⟨e, db', hok, ⟨hb, hr, -⟩, -⟩ := bonus_first_spending (fun o => o)
    { users := referralUsers } mixedLedger 3 1 50 2 {} none _ hu rfl (by decide)
    (by decide +kernel) (by decide +kernel)
  refine ⟨e, db', by simpa using hok, hb.trans ?_, hr.trans ?_⟩ <;> decide +kernel

end Just1kBot
