import Just1kBot.Billing.Conservation

/-! Debt and its allowance: invariant 10 of `scripts/audit_invariants.py`.

    The audit wants every user's position, plus what refunds and chargebacks took, to be
    non-negative. Credits, refunds and order debits keep it so by themselves. A reversal of a bonus
    and a negative adjustment do not look at the position: they keep it exactly when what they take
    is still covered, and every run whose steps are covered passes the audit. -/

namespace Just1kBot
open Lib (sumWhere)
open Lib.Python (Number)
open Relation (ReflGen ReflTransGen)

namespace Ledger

/-- The audited sum: the position and what refunds and chargebacks took from it. -/
def auditBalance (l : Ledger) (u : UserId) : ℤ :=
  l.position u + sumWhere (fun e => e.userId = u ∧ IsRefund e) (fun e => -e.amount) l.entries

/-- Invariant 10: no user is in debt beyond the refunds. -/
def AccountBalanceNonNegativity (l : Ledger) : Prop := ∀ u, 0 ≤ l.auditBalance u

/-! ### What a posting does to the audited sum -/

section Post
variable {l l' : Ledger} {now : Time} {v : EntryValues} {u : UserId}

theorem auditBalance_post (u : UserId) :
    (l.post now v).auditBalance u =
      l.auditBalance u + if v.userId = u ∧ ¬ IsRefund (l.newEntry now v) then v.amount else 0 := by
  have hpos : (l.post now v).position u = _ := position_post u
  have href : (l.post now v).refundTotal u = _ := refundTotal_post u
  rw [auditBalance, auditBalance, hpos]
  change _ + (l.post now v).refundTotal u = l.position u + l.refundTotal u + _
  rw [href]
  by_cases hu : v.userId = u <;> by_cases hr : IsRefund (l.newEntry now v) <;>
    simp only [hu, hr, and_self, and_true, and_false, not_true, not_false_iff, if_true,
      if_false] <;>
    omega

/-- An allocation moves no money of its own. -/
theorem auditBalance_allocate {d : AccountLedgerEntry} {a : ℤ} {r : List AccountLedgerAllocation}
    (h : l.allocateFifo v.userId d a = .ok (r, l')) : l'.auditBalance u = l.auditBalance u := by
  obtain ⟨-, -, -, rfl⟩ := allocateFifo_ok h
  rfl

theorem position_le_auditBalance (l : Ledger) (u : UserId) : l.position u ≤ l.auditBalance u := by
  have : 0 ≤ sumWhere (fun e => e.userId = u ∧ IsRefund e) (fun e => -e.amount) l.entries :=
    Lib.sumWhere_nonneg fun e _ he => by have := IsRefund.amount_neg he.2; omega
  rw [auditBalance]; omega

theorem available_eq (l : Ledger) (u : UserId) :
    (l.getAccountBalance u).available = max 0 (l.position u) := by
  rw [getAccountBalance]
  simp only
  split_ifs <;> simp only <;> omega

/-- Credits, refunds, bonuses and covered debits keep the audit passing. -/
theorem auditBalance_backed {owner : OrderId → UserId} (h : BackedPosting owner l l')
    (hl : l.AccountBalanceNonNegativity) : l'.AccountBalanceNonNegativity := fun u => by
  have hu := hl u
  cases h with
  | credit now v o hadm ht =>
    have := paymentCredit_amount_pos ht
    rw [auditBalance_post]; split_ifs <;> omega
  | refund now v o hadm ht =>
    rw [auditBalance_post, if_neg fun h => h.2 (.inl ht)]; omega
  | bonus now v hadm ht ho hpos =>
    rw [auditBalance_post]; split_ifs <;> omega
  | debit now v r l' hadm ht hbal halloc =>
    rw [auditBalance_allocate halloc, auditBalance_post]
    rw [available_eq] at hbal
    split_ifs with h
    · obtain ⟨rfl, -⟩ := h
      have := position_le_auditBalance l v.userId
      have := purchaseDebit_amount_neg ht
      omega
    · omega

/-- So does a transaction that books one of these or nothing. -/
theorem auditBalance_reflGen {owner : OrderId → UserId} (h : ReflGen (BackedPosting owner) l l')
    (hl : l.AccountBalanceNonNegativity) : l'.AccountBalanceNonNegativity := by
  rcases h with _ | h
  · exact hl
  · exact auditBalance_backed h hl

end Post

/-! ### Negative adjustments -/

/-- What the lots of a user still hold. -/
def lotCapacity (l : Ledger) (u : UserId) : ℤ :=
  Lib.Fifo.total (l.batchCreditCapacities (l.creditLots u)) (l.creditLots u)

section Capacity
variable {l : Ledger} {now : Time} {v : EntryValues}

/-- An entry that takes money is no lot and refunds nothing, so the lots hold what they held. -/
theorem lotCapacity_post (hneg : v.amount < 0) (hnr : ¬ IsRefund (l.newEntry now v)) (u : UserId) :
    (l.post now v).lotCapacity u = l.lotCapacity u := by
  have hlots : (l.post now v).creditLots u = l.creditLots u := by
    have hno : ¬ IsLot u (l.newEntry now v) := fun h => by
      have : 0 < v.amount := h.2.1
      omega
    simp only [creditLots, post_entries, List.filter_append, List.filter_singleton, hno,
      decide_false, cond_false, List.append_nil]
  have hrows : ∀ cs, (l.post now v).refundRows cs = l.refundRows cs := fun cs => by
    simp only [refundRows, post_entries, List.filter_append, List.filter_singleton, hnr, false_and,
      decide_false, cond_false, List.append_nil]
  have hgroups : ∀ cs, (l.post now v).refundGroups cs = l.refundGroups cs := fun cs => by
    rw [refundGroups, refundGroups, hrows]
  have hcap : ∀ cs, (l.post now v).batchCreditCapacities cs = l.batchCreditCapacities cs :=
    fun cs => funext fun c => by
      have horder : (l.post now v).refundByOrder cs = l.refundByOrder cs :=
        funext fun o => by rw [refundByOrder, refundByOrder, hgroups]
      have hpayment : (l.post now v).refundByPayment cs = l.refundByPayment cs :=
        funext fun p => by rw [refundByPayment, refundByPayment, hgroups]
      rw [batchCreditCapacities, batchCreditCapacities, horder, hpayment]
      rfl
  rw [lotCapacity, lotCapacity, hlots, hcap]

theorem lotCapacity_ge_of_deduction {l' : Ledger} (h : Deduction l v l') :
    -v.amount ≤ l.lotCapacity v.userId := by
  obtain ⟨now, r, halloc⟩ := h.allocated
  have hneg := h.neg
  obtain ⟨draws, hdraw, -, -⟩ := allocateFifo_ok halloc
  have hcap : (l.post now v).lotCapacity v.userId = _ :=
    lotCapacity_post hneg (not_isRefund_of_admin h.type_eq) v.userId
  rw [← hcap]
  exact (Lib.Fifo.draw_complete_iff _ _ (by omega)).mp (by rw [hdraw])

end Capacity

/-! ### Reversals -/

/-- The reversal key of a top-up is free for the user: nothing was reversed under it. -/
def KeyFree (l : Ledger) (key : IdemKey) : Prop := ∀ e ∈ l.entries, e.idempotencyKey ≠ key

instance (l : Ledger) (key : IdemKey) : Decidable (l.KeyFree key) := by
  unfold KeyFree; infer_instance

/-- What reversing these credits takes from a user: what is left of the first credit of theirs that
    is not reversed in full, unless the key was used. -/
def reversalDue (payment : Option PaymentId) (order : Option OrderId) (refundId : Option String)
    (credits : List AccountLedgerEntry) (l : Ledger) (u : UserId) : ℤ :=
  if l.KeyFree (reversalKey payment order refundId u) then
    ((credits.filter fun c => c.userId = u).find? fun c => 0 < l.maxCanReverse c).elim 0
      l.maxCanReverse
  else 0

section Reverse
variable {payment : Option PaymentId} {order : Option OrderId} {refundId : Option String}
  {now : Time}

theorem findReversal_none_of_free {l : Ledger} {u : UserId} {key : IdemKey} (h : l.KeyFree key) :
    l.findReversal u key = none :=
  List.find?_eq_none.mpr fun e he => by simp [h e he]

theorem not_free_of_findReversal {l : Ledger} {u : UserId} {key : IdemKey} {e : AccountLedgerEntry}
    (h : l.findReversal u key = some e) : ¬ l.KeyFree key := fun hf => by
  rw [findReversal_none_of_free hf] at h; cases h

theorem reversalDue_cons (c : AccountLedgerEntry) (cs : List AccountLedgerEntry) (l : Ledger)
    (u : UserId) :
    reversalDue payment order refundId (c :: cs) l u =
      if c.userId = u ∧ l.KeyFree (reversalKey payment order refundId u) ∧ 0 < l.maxCanReverse c
      then l.maxCanReverse c else reversalDue payment order refundId cs l u := by
  by_cases hu : c.userId = u
  · by_cases hf : l.KeyFree (reversalKey payment order refundId u)
    · by_cases hm : 0 < l.maxCanReverse c <;> simp [reversalDue, hu, hf, hm]
    · simp [reversalDue, hf]
  · simp [reversalDue, hu]

theorem reversalKey_injective {u u' : UserId}
    (h : reversalKey payment order refundId u = reversalKey payment order refundId u') :
    u = u' := by
  injection h

/-- Booking a reversal against one user leaves what is due from another. -/
theorem reversalDue_post {l : Ledger} {v : EntryValues} {u : UserId} (hu : v.userId ≠ u)
    (hk : v.idempotencyKey ≠ reversalKey payment order refundId u) :
    ∀ cs, reversalDue payment order refundId cs (l.post now v) u =
      reversalDue payment order refundId cs l u := by
  have hfree : (l.post now v).KeyFree (reversalKey payment order refundId u) ↔
      l.KeyFree (reversalKey payment order refundId u) := by
    simp [KeyFree, newEntry, or_imp, forall_and, hk]
  have hmax : ∀ c : AccountLedgerEntry, c.userId = u →
      (l.post now v).maxCanReverse c = l.maxCanReverse c := fun c hc => by
    rw [maxCanReverse, maxCanReverse, alreadyReversed, post_entries, Lib.sumWhere_append,
      Lib.sumWhere_singleton, if_neg fun h => hu (h.1.trans hc), add_zero]
    rfl
  intro cs
  induction cs with
  | nil => simp [reversalDue]
  | cons c cs ih =>
    rw [reversalDue_cons, reversalDue_cons, ih]
    by_cases hc : c.userId = u
    · simp only [hfree, hmax c hc]
    · simp [hc]

/-- The loop takes from every user exactly what is due. -/
theorem auditBalance_reverseLoop :
    ∀ (credits : List AccountLedgerEntry) (l l' : Ledger) (total total' : ℤ),
      reverseLoop now payment order refundId credits l total = .ok (total', l') →
      ∀ u, l'.auditBalance u = l.auditBalance u - reversalDue payment order refundId credits l u
  | [], l, l', total, total', h, u => by
    obtain ⟨-, rfl⟩ := by simpa [reverseLoop] using h
    simp [reversalDue]
  | credit :: rest, l, l', total, total', h, u => by
    unfold reverseLoop at h
    simp only at h
    rw [reversalDue_cons]
    split at h
    · rename_i existing hfound
      rw [auditBalance_reverseLoop rest l l' _ _ h u, if_neg]
      rintro ⟨rfl, hfree, -⟩
      exact not_free_of_findReversal hfound hfree
    · split_ifs at h with hleft
      · rw [auditBalance_reverseLoop rest l l' _ _ h u, if_neg]
        rintro ⟨-, -, hpos⟩
        omega
      · obtain ⟨l₁, h₁, h₂⟩ := Lib.bind_ok h
        obtain ⟨rfl, hadm⟩ := insert_ok h₁
        rw [auditBalance_reverseLoop rest _ l' _ _ h₂ u, auditBalance_post]
        by_cases hu : credit.userId = u
        · subst hu
          -- the key is used up, so nothing more is due from this user
          have hfree : l.KeyFree (reversalKey payment order refundId credit.userId) :=
            fun e he heq => hadm e he (.inl heq)
          have hused : reversalDue payment order refundId rest
              (l.post now (l.reversalEntry payment order refundId credit hleft))
              credit.userId = 0 :=
            if_neg fun hf => hf _ (List.mem_append_right _ (List.mem_singleton.mpr rfl)) rfl
          rw [hused, if_pos ⟨rfl, not_isRefund_of_admin rfl⟩, if_pos ⟨rfl, hfree, by omega⟩]
          simp only [reversalEntry]; omega
        · have hk : (l.reversalEntry payment order refundId credit hleft).idempotencyKey ≠
              reversalKey payment order refundId u := fun h => hu (reversalKey_injective h)
          have hv : (l.reversalEntry payment order refundId credit hleft).userId ≠ u := hu
          rw [if_neg fun h => hu h.1, if_neg fun h => hu h.1, reversalDue_post hv hk, add_zero]

theorem exists_credit_of_reversalDue {l : Ledger} {u : UserId} :
    ∀ {cs}, reversalDue payment order refundId cs l u ≠ 0 → ∃ c ∈ cs, c.userId = u
  | [], h => absurd (by simp [reversalDue]) h
  | c :: cs, h => by
    rw [reversalDue_cons] at h
    split_ifs at h with hc
    · exact ⟨c, by simp, hc.1⟩
    · obtain ⟨c', hc', hu⟩ := exists_credit_of_reversalDue h
      exact ⟨c', by simp [hc'], hu⟩

end Reverse

end Ledger

/-! ### Covered runs -/

/-- The step takes no more from a user than the audit still allows: an adjustment that nothing else
    stops is within the audited sum, and so is what each user owes a reversal. -/
def StaysCovered (db : Db) : LedgerOp → Prop
  | .adminAdjustment _ u (.decimal q) key _ =>
    (db.user u).isSome → db.ledger.KeyFree (.caller key) → q.den = 1 →
      -q.num ≤ db.ledger.lotCapacity u → -q.num ≤ db.ledger.auditBalance u
  | .reverseBonus _ payment order refundId =>
    payment.isSome ∨ order.isSome → ∀ c ∈ db.ledger.bonusCredits payment order,
      Ledger.reversalDue payment order refundId (db.ledger.bonusCredits payment order) db.ledger
        c.userId ≤ db.ledger.auditBalance c.userId
  | _ => True

instance (db : Db) (op : LedgerOp) : Decidable (StaysCovered db op) := by
  simp only [StaysCovered]
  split <;> infer_instance

variable (owner : OrderId → UserId)

include owner in
/-- An adjustment that nothing stops takes no more than the audited sum, if it is covered. -/
theorem exec_audit_adjustment {db db' : Db} {now : Time} {u : UserId} {amount : Number}
    {key : String} {m : EntryMeta} {res : AccountLedgerEntry × Bool}
    (h : db.createAdminAdjustment now u amount (.caller key) m = .ok (res, db'))
    (hcov : StaysCovered db (.adminAdjustment now u amount key m))
    (hdb : db.ledger.AccountBalanceNonNegativity) : db'.ledger.AccountBalanceNonNegativity := by
  rcases Db.createAdminAdjustment_posting owner h with
    hback | ⟨v, a, ha, hva, hu, hkey, huser, hd⟩
  · exact Ledger.auditBalance_reflGen hback hdb
  · obtain ⟨q, rfl, hden, hnum⟩ : ∃ q, amount = .decimal q ∧ q.den = 1 ∧ q.num = a.val := by
      unfold adjustmentAmount at ha
      split at ha
      · cases ha
      · cases ha
      · cases ha
      · split_ifs at ha with hq
        cases ha
        exact ⟨_, rfl, hq.2, rfl⟩
    have hfree : db.ledger.KeyFree (.caller key) := fun e he heq =>
      hd.admits e he (.inl (heq.trans hkey.symm))
    have hcap := Ledger.lotCapacity_ge_of_deduction hd
    rw [hva, hu, ← hnum] at hcap
    have hle := hcov huser hfree hden hcap
    obtain ⟨now', r, halloc⟩ := hd.allocated
    intro u'
    have hu' := hdb u'
    rw [Ledger.auditBalance_allocate halloc, Ledger.auditBalance_post]
    split_ifs with h
    · rw [← h.1, hu, hva, ← hnum]
      omega
    · omega

/-- A reversal takes from no user more than the audited sum, if it is covered. -/
theorem exec_audit_reversal {db db' : Db} {now : Time} {payment : Option PaymentId}
    {order : Option OrderId} {refundId : Option String} {res : ℤ}
    (h : db.reverseReferralBonusForTopup now payment order refundId = .ok (res, db'))
    (hcov : StaysCovered db (.reverseBonus now payment order refundId))
    (hdb : db.ledger.AccountBalanceNonNegativity) : db'.ledger.AccountBalanceNonNegativity := by
  unfold Db.reverseReferralBonusForTopup at h
  split_ifs at h with hnone
  · cases h
    exact hdb
  · obtain ⟨⟨total, l'⟩, hloop, h⟩ := Lib.bind_ok h
    cases h
    intro u
    have hu := hdb u
    rw [Ledger.auditBalance_reverseLoop _ _ _ _ _ hloop u]
    by_cases hdue : Ledger.reversalDue payment order refundId
        (db.ledger.bonusCredits payment order) db.ledger u = 0
    · omega
    · obtain ⟨c, hc, rfl⟩ := Ledger.exists_credit_of_reversalDue hdue
      have hsome : payment.isSome ∨ order.isSome := by
        cases payment <;> cases order <;> simp_all
      have := hcov hsome c hc
      omega

/-- A covered operation keeps the audit passing. -/
theorem LedgerOp.exec_audit {db db' : Db} {op : LedgerOp} (hop : op.exec owner db = .ok ((), db'))
    (hcov : StaysCovered db op) (hdb : db.ledger.AccountBalanceNonNegativity) :
    db'.ledger.AccountBalanceNonNegativity := by
  cases op with
  | orderCredit =>
    obtain ⟨_, h⟩ := exec_ok hop
    exact Ledger.auditBalance_reflGen (Db.createOrderCredit_posting owner h) hdb
  | orderDebit =>
    obtain ⟨_, h⟩ := exec_ok hop
    exact Ledger.auditBalance_reflGen (Db.createOrderDebit_posting owner h) hdb
  | orderRefundDebit =>
    obtain ⟨_, h⟩ := exec_ok hop
    exact Ledger.auditBalance_reflGen (Db.createOrderRefundDebit_posting owner h) hdb
  | grantBonus =>
    obtain ⟨_, h⟩ := exec_ok hop
    exact Ledger.auditBalance_reflGen (Db.grantReferralBonusForTopup_posting owner h) hdb
  | other =>
    cases hop
    exact hdb
  | adminAdjustment =>
    obtain ⟨_, h⟩ := exec_ok hop
    exact exec_audit_adjustment owner h hcov hdb
  | reverseBonus =>
    obtain ⟨_, h⟩ := exec_ok hop
    exact exec_audit_reversal h hcov hdb

/-- In every ledger a covered run reaches, no user is in debt beyond the refunds. -/
theorem audit_of_covered_run (db₀ : Db) (ops : List LedgerOp)
    (hcov : Lib.Always (ledgerStep owner) StaysCovered { db₀ with ledger := {} } ops) :
    (ledgerRun owner { db₀ with ledger := {} } ops).ledger.AccountBalanceNonNegativity := by
  refine Lib.run_inv_of_always (I := fun db => db.ledger.AccountBalanceNonNegativity)
    (ledgerStep owner) (fun db op hdb hop => ?_) ops _ (fun u => ?_) hcov
  · exact Lib.commit_inv (I := fun db => db.ledger.AccountBalanceNonNegativity) hdb
      fun _ db' h => LedgerOp.exec_audit owner h hop hdb
  · exact le_refl 0

/-- A referrer (user 2) and the user they brought (user 1). -/
def referralUsers : List User :=
  [{ id := 1, telegramId := 1, referredBy := some 2 }, { id := 2, telegramId := 2 }]

/-- A top-up of 100 by user 1 with its bonus, and the refund of the top-up with its reversal. -/
def topupAndBonus : List LedgerOp :=
  [.orderCredit 0 (.decimal 100) 1 {}, .grantBonus 0 1 none (some 1) 100]

def refundAndReversal : List LedgerOp :=
  [.orderRefundDebit 2 (.decimal 100) 1 "refund" {}, .reverseBonus 2 none (some 1) (some "refund")]

/-- The bonus comes and goes, and nobody spent it in between. -/
theorem audit_of_covered_run_unspent :
    (ledgerRun (fun o => o) { users := referralUsers }
      (topupAndBonus ++ refundAndReversal)).ledger.AccountBalanceNonNegativity :=
  audit_of_covered_run _ { users := referralUsers } _ (by decide +kernel)

/-- The referrer spends the bonus before the top-up is refunded, and ends in unexplained debt. -/
theorem audit_fails_on_spent_bonus :
    ¬ ∀ (owner : OrderId → UserId) (db₀ : Db) (ops : List LedgerOp),
      (ledgerRun owner { db₀ with ledger := {} } ops).ledger.AccountBalanceNonNegativity :=
  fun h => absurd (h (fun o => o) { users := referralUsers }
    (topupAndBonus ++ [.orderDebit 1 2 (.decimal 15) 2 {}] ++ refundAndReversal) 2)
    (by decide +kernel)

end Just1kBot
