import Just1kBot.Billing.Debt

/-! A bonus that comes and goes.

    A granted bonus counts as bonus credit for ever, and its reversal is drawn from no lot, so it
    counts nowhere as bonus spent. After the round trip the bonus class is larger than without the
    two entries by as much of the granted amount as the position can still fill: the classes agree
    exactly when the other bonus credit already fills the whole position. -/

namespace Just1kBot
open Lib (sumWhere)

namespace Ledger

/-! ### The balance classes -/

/-- The classes of a balance whose bonus credit covers what was spent of it. -/
theorem getAccountBalance_classes {l : Ledger} {u : UserId} (h0 : 0 ≤ l.bonusSpent u)
    (hle : l.bonusSpent u ≤ l.bonusCredited u) :
    (l.getAccountBalance u).bonusAvailable =
        min (max 0 (l.position u)) (l.bonusCredited u - l.bonusSpent u) ∧
      (l.getAccountBalance u).realAvailable =
        max 0 (l.position u) - min (max 0 (l.position u)) (l.bonusCredited u - l.bonusSpent u) := by
  rw [getAccountBalance]
  simp only
  split_ifs <;> simp only <;> constructor <;> omega

section Bonus
variable {owner : OrderId → UserId} {l : Ledger} {u : UserId}

/-- An entry that credits the user's bonus class. -/
def IsBonus (u : UserId) (e : AccountLedgerEntry) : Prop :=
  e.userId = u ∧ e.entryType = .adminAdjustment ∧ 0 < e.amount

instance (u : UserId) : DecidablePred (IsBonus u) := fun e => by unfold IsBonus; infer_instance

theorem WellFormed.bonusSpent_nonneg (wf : l.WellFormed owner) (u : UserId) :
    0 ≤ l.bonusSpent u := Lib.sumWhere_nonneg fun a ha _ => (wf.alloc_pos a ha).le

/-- An allocation that counts as bonus spent was drawn from a bonus entry of the user. -/
theorem WellFormed.bonus_of_alloc (wf : l.WellFormed owner) {a : AccountLedgerAllocation}
    (ha : a ∈ l.allocations) (hu : a.userId = u)
    (hadmin : ∃ e ∈ l.entries, e.id = a.creditEntryId ∧ e.entryType = .adminAdjustment) :
    ∃ e ∈ l.entries, e.id = a.creditEntryId ∧ IsBonus u e := by
  obtain ⟨e, he, hid, ht⟩ := hadmin
  obtain ⟨c, hc, hcid, hlot⟩ := wf.alloc_lot a ha
  have hce := wf.eq_of_id hc he (hcid.trans hid.symm)
  subst hce
  exact ⟨c, hc, hcid, hlot.1.trans hu, ht, hlot.2.1⟩

/-- When a bonus entry is unspent, the rest of the bonus credit covers what was spent. -/
theorem Conserved.bonusSpent_le_without (cs : l.Conserved owner) {g : AccountLedgerEntry}
    (hg : g ∈ l.entries) (hb : IsBonus u g)
    (hunspent : ∀ a ∈ l.allocations, a.creditEntryId ≠ g.id) :
    l.bonusSpent u ≤ l.bonusCredited u - g.amount := by
  -- the other bonus entries of the user, and what was drawn from them
  let others := (l.entries.filter fun e => e.id ≠ g.id).filter fun e => IsBonus u e
  have hids : (others.map (·.id)).Nodup :=
    cs.ids_nodup.sublist ((List.filter_sublist.trans List.filter_sublist).map _)
  have hgroups := Lib.sum_groups (fun a : AccountLedgerAllocation => a.creditEntryId) (·.amount)
    hids l.allocations
  rw [List.map_map] at hgroups
  have hspent : l.bonusSpent u ≤ sumWhere (·.creditEntryId ∈ others.map (·.id)) (·.amount)
      l.allocations := by
    refine Lib.sumWhere_le_of_imp (fun a ha h => ?_) fun a ha _ => (cs.alloc_pos a ha).le
    obtain ⟨e, he, hid, hbe⟩ := cs.toWellFormed.bonus_of_alloc ha h.1 h.2
    refine List.mem_map.mpr
      ⟨e, List.mem_filter.mpr ⟨List.mem_filter.mpr ⟨he, ?_⟩, by simpa using hbe⟩, hid⟩
    simpa [hid] using hunspent a ha
  have hused : (others.map fun e => l.usedByCredit e.id).sum ≤ (others.map (·.amount)).sum :=
    List.sum_le_sum fun e he => by
      obtain ⟨he, hbe⟩ := List.mem_filter.mp he
      exact cs.used_le e (List.mem_filter.mp he).1 (by simpa using hbe : IsBonus u e).2.2
  have hcredited : l.bonusCredited u = g.amount + (others.map (·.amount)).sum := by
    have := Lib.sumWhere_remove (p := IsBonus u) (f := (·.amount)) cs.ids_nodup hg
    rwa [if_pos hb] at this
  change ((others.map fun e => l.usedByCredit e.id)).sum = _ at hgroups
  omega

end Bonus

/-! ### What a reversal adds -/

/-- The reversal of a top-up appends negative adjustments, at most one for each user, and draws
    nothing. -/
structure Reversed (payment : Option PaymentId) (order : Option OrderId) (refundId : Option String)
    (l l' : Ledger) (new : List AccountLedgerEntry) : Prop where
  entries_eq : l'.entries = l.entries ++ new
  allocations_eq : l'.allocations = l.allocations
  negative : ∀ e ∈ new, e.entryType = .adminAdjustment ∧ e.amount < 0
  credited : ∀ e ∈ new, ∃ c ∈ l.entries, e.metadata.originalCreditId = some c.id ∧
    e.userId = c.userId
  key_eq : ∀ e ∈ new, e.idempotencyKey = reversalKey payment order refundId e.userId ∧
    ∀ e' ∈ l.entries, e'.idempotencyKey ≠ e.idempotencyKey
  users_nodup : (new.map (·.userId)).Nodup

namespace Reversed
variable {payment : Option PaymentId} {order : Option OrderId} {refundId : Option String}
  {l l' : Ledger} {new : List AccountLedgerEntry}

theorem refl : Reversed payment order refundId l l [] :=
  ⟨by simp, rfl, by simp, by simp, by simp, by simp⟩

/-- The reversal of one more credit, booked before the others. -/
theorem cons {now : Time} {credit : AccountLedgerEntry} {hleft : ¬ l.maxCanReverse credit ≤ 0}
    (hcredit : credit ∈ l.entries)
    (hadm : l.Admits (l.reversalEntry payment order refundId credit hleft))
    (hnew : Reversed payment order refundId
      (l.post now (l.reversalEntry payment order refundId credit hleft)) l' new)
    (hcredited : ∀ e ∈ new, ∃ c ∈ l.entries, e.metadata.originalCreditId = some c.id ∧
      e.userId = c.userId) :
    Reversed payment order refundId l l'
      (l.newEntry now (l.reversalEntry payment order refundId credit hleft) :: new) := by
  refine ⟨?_, hnew.allocations_eq, ?_, ?_, ?_, ?_⟩
  · rw [hnew.entries_eq, post_entries, List.append_assoc]
    rfl
  · intro e he
    rcases List.mem_cons.mp he with rfl | he
    · exact ⟨rfl, by simp only [newEntry, reversalEntry]; omega⟩
    · exact hnew.negative e he
  · intro e he
    rcases List.mem_cons.mp he with rfl | he
    · exact ⟨credit, hcredit, rfl, rfl⟩
    · exact hcredited e he
  · intro e he
    rcases List.mem_cons.mp he with rfl | he
    · exact ⟨rfl, fun e' he' heq => hadm e' he' (.inl heq)⟩
    · exact ⟨(hnew.key_eq e he).1, fun e' he' => (hnew.key_eq e he).2 e' (by simp [he'])⟩
  · -- a second entry for the user would repeat the key
    refine List.nodup_cons.mpr ⟨fun hmem => ?_, hnew.users_nodup⟩
    obtain ⟨e, he, heq⟩ := List.mem_map.mp hmem
    obtain ⟨hkey, hfree⟩ := hnew.key_eq e he
    refine hfree (l.newEntry now (l.reversalEntry payment order refundId credit hleft))
      (by simp) ?_
    rw [hkey, heq]
    rfl

/-- A user's reversal is the only new entry of that user. -/
theorem sum_user (h : Reversed payment order refundId l l' new) {r : AccountLedgerEntry}
    (hr : r ∈ new) : sumWhere (·.userId = r.userId) (·.amount) new = r.amount := by
  rcases Lib.sumWhere_unique_key (fun e : AccountLedgerEntry => e.userId) (·.amount)
    h.users_nodup r.userId with ⟨e, he, hu, hsum⟩ | hsum
  · rw [hsum, List.inj_on_of_nodup_map h.users_nodup he hr hu]
  · have hneg := (h.negative r hr).2
    have hle : -r.amount ≤ sumWhere (·.userId = r.userId) (fun e => -e.amount) new :=
      Lib.le_sumWhere hr rfl fun e he _ => by
        have := (h.negative e he).2
        omega
    rw [Lib.sumWhere_neg, hsum] at hle
    omega

/-- A reversal credits no bonus. -/
theorem bonusCredited_eq (h : Reversed payment order refundId l l' new) (u : UserId) :
    l'.bonusCredited u = l.bonusCredited u := by
  have hzero : sumWhere (IsBonus u) (·.amount) new = 0 :=
    Lib.sumWhere_eq_zero fun e he hb => by
      have := (h.negative e he).2
      have := hb.2.2
      omega
  rw [bonusCredited, h.entries_eq, Lib.sumWhere_append]
  change _ + sumWhere (IsBonus u) (·.amount) new = _
  rw [hzero, add_zero]
  rfl

/-- A reversal spends no bonus. -/
theorem bonusSpent_eq {owner : OrderId → UserId} (h : Reversed payment order refundId l l' new)
    (cs : l'.Conserved owner) (u : UserId) : l'.bonusSpent u = l.bonusSpent u := by
  rw [bonusSpent, h.allocations_eq]
  refine Lib.sumWhere_congr fun a ha => ⟨and_congr_right fun hu => ⟨fun hx => ?_, ?_⟩, fun _ => rfl⟩
  · -- a lot is positive, so none of the new entries is one
    obtain ⟨e, he, hid, ht⟩ := hx
    rw [h.entries_eq] at he
    rcases List.mem_append.mp he with he | he
    · exact ⟨e, he, hid, ht⟩
    · have ha' : a ∈ l'.allocations := by rwa [h.allocations_eq]
      obtain ⟨c, hc, hcid, hlot⟩ := cs.alloc_lot a ha'
      have hec := cs.toWellFormed.eq_of_id hc (by rw [h.entries_eq]; simp [he])
        (hcid.trans hid.symm)
      have := (h.negative e he).2
      have := hlot.2.1
      rw [hec] at this
      omega
  · rintro ⟨e, he, hx⟩
    exact ⟨e, by rw [h.entries_eq]; simp [he], hx⟩

end Reversed

theorem reverseLoop_reversed {now : Time} {payment : Option PaymentId} {order : Option OrderId}
    {refundId : Option String} :
    ∀ (credits : List AccountLedgerEntry) (l l' : Ledger) (total total' : ℤ),
      (∀ c ∈ credits, c ∈ l.entries) →
      reverseLoop now payment order refundId credits l total = .ok (total', l') →
      ∃ new, Reversed payment order refundId l l' new ∧
        ∀ e ∈ new, ∃ c ∈ credits, e.metadata.originalCreditId = some c.id ∧ e.userId = c.userId
  | [], l, l', total, total', _, h => by
    obtain ⟨-, rfl⟩ := by simpa [reverseLoop] using h
    exact ⟨[], .refl, by simp⟩
  | credit :: rest, l, l', total, total', hsub, h => by
    have hrest : ∀ c ∈ rest, c ∈ l.entries := fun c hc => hsub c (by simp [hc])
    have hskip : ∀ t, reverseLoop now payment order refundId rest l t = .ok (total', l') →
        ∃ new, Reversed payment order refundId l l' new ∧ ∀ e ∈ new, ∃ c ∈ credit :: rest,
          e.metadata.originalCreditId = some c.id ∧ e.userId = c.userId := fun t ht => by
      obtain ⟨new, hnew, hc⟩ := reverseLoop_reversed rest l l' t total' hrest ht
      refine ⟨new, hnew, fun e he => ?_⟩
      obtain ⟨c, hcr, h⟩ := hc e he
      exact ⟨c, by simp [hcr], h⟩
    unfold reverseLoop at h
    simp only at h
    split at h
    · exact hskip _ h
    split_ifs at h with hleft
    · exact hskip _ h
    obtain ⟨l₁, h₁, h₂⟩ := Lib.bind_ok h
    obtain ⟨rfl, hadm⟩ := insert_ok h₁
    obtain ⟨new, hnew, hc⟩ := reverseLoop_reversed rest _ l' _ total'
      (fun c hc => by simp [hrest c hc]) h₂
    refine ⟨_, hnew.cons (hsub credit (by simp)) hadm fun e he => ?_, fun e he => ?_⟩
    · obtain ⟨c, hcr, h⟩ := hc e he
      exact ⟨c, hrest c hcr, h⟩
    · rcases List.mem_cons.mp he with rfl | he
      · exact ⟨credit, by simp, rfl, rfl⟩
      · obtain ⟨c, hcr, h⟩ := hc e he
        exact ⟨c, by simp [hcr], h⟩

/-- The ledger with two of its entries taken out. -/
def without (l : Ledger) (g r : AccountLedgerEntry) : Ledger :=
  { l with entries := (l.entries.filter fun e => e.id ≠ g.id).filter fun e => e.id ≠ r.id }

end Ledger

variable (owner : OrderId → UserId)

/-- A committed reversal appends its entries, or none. -/
theorem ledgerStep_reversed (db : Db) (now : Time) (payment : Option PaymentId)
    (order : Option OrderId) (refundId : Option String) :
    ∃ new, Ledger.Reversed payment order refundId db.ledger
      (ledgerStep owner db (.reverseBonus now payment order refundId)).ledger new := by
  rw [ledgerStep]
  cases h : LedgerOp.exec owner db (.reverseBonus now payment order refundId) with
  | error e => exact ⟨[], .refl⟩
  | ok p =>
    obtain ⟨r, hr⟩ := exec_ok h
    unfold Db.reverseReferralBonusForTopup at hr
    split_ifs at hr
    · obtain ⟨-, hdb⟩ := by simpa using hr
      rw [Lib.commit, ← hdb]
      exact ⟨[], .refl⟩
    · obtain ⟨⟨total, l'⟩, hloop, hr⟩ := Lib.bind_ok hr
      obtain ⟨-, hdb⟩ := by simpa [pure, Except.pure] using hr
      obtain ⟨new, hnew, -⟩ := Ledger.reverseLoop_reversed _ _ _ _ _
        (fun c hc => (List.mem_filter.mp hc).1) hloop
      rw [Lib.commit, ← hdb]
      exact ⟨new, hnew⟩

/-- Rows stay. -/
theorem mem_entries_ledgerRun {db : Db} {e : AccountLedgerEntry} (ops : List LedgerOp)
    (he : e ∈ db.ledger.entries) : e ∈ (ledgerRun owner db ops).ledger.entries := by
  refine ledgerRun_inv owner (I := fun l => e ∈ l.entries) (fun l l' h hl => ?_) ops db he
  have hpost : ∀ now v, e ∈ (l.post now v).entries := fun now v => by simp [hl]
  have halloc : ∀ {now v r l'},
      (l.post now v).allocateFifo v.userId (l.newEntry now v) (-v.amount) =
          .ok (r, l') → e ∈ l'.entries := fun h => by
    obtain ⟨-, -, -, rfl⟩ := Ledger.allocateFifo_ok h
    exact hpost _ _
  rcases h with h | ⟨v, h⟩ | ⟨v, h⟩
  · cases h with
    | credit | refund | bonus => exact hpost _ _
    | debit _ _ _ _ _ _ _ h => exact halloc h
  · obtain ⟨now, r, h⟩ := h.allocated
    exact halloc h
  · obtain ⟨now, rfl⟩ := h.posted
    exact hpost _ _

/-! ### The round trip -/

/-- A run that grants the bonus `g`, never draws on it, and reverses it in full by `r`. -/
structure BonusRoundTrip (db₁ db₂ db₃ db₄ : Db) (g r : AccountLedgerEntry) : Prop where
  reached : ∃ (db₀ : Db) (ops : List LedgerOp),
    db₁ = ledgerRun owner { db₀ with ledger := {} } ops
  granted : ∃ now purchaser payment order amount,
    db₂ = ledgerStep owner db₁ (.grantBonus now purchaser payment order amount)
  credit : db₂.ledger.entries = db₁.ledger.entries ++ [g]
  between : ∃ ops, db₃ = ledgerRun owner db₂ ops
  unspent : ∀ a ∈ db₃.ledger.allocations, a.creditEntryId ≠ g.id
  reversed : ∃ now payment order refundId,
    db₄ = ledgerStep owner db₃ (.reverseBonus now payment order refundId)
  debit : r ∈ db₄.ledger.entries ∧ r ∉ db₃.ledger.entries
  linked : r.metadata.originalCreditId = some g.id
  full : r.amount = -g.amount

/-- Both balance classes of the user of `g` are those of the ledger without `g` and `r`. -/
def Neutral (l : Ledger) (g r : AccountLedgerEntry) : Prop :=
  (l.getAccountBalance g.userId).realAvailable =
      ((l.without g r).getAccountBalance g.userId).realAvailable ∧
    (l.getAccountBalance g.userId).bonusAvailable =
      ((l.without g r).getAccountBalance g.userId).bonusAvailable

instance (l : Ledger) (g r : AccountLedgerEntry) : Decidable (Neutral l g r) := by
  unfold Neutral; infer_instance

/-- A grant that books an entry books a bonus. -/
theorem grantBonus_isBonus {db : Db} {g : AccountLedgerEntry} {now : Time} {purchaser : UserId}
    {payment : Option PaymentId} {order : Option OrderId} {amount : ℚ}
    (hg : (ledgerStep owner db (.grantBonus now purchaser payment order amount)).ledger.entries =
      db.ledger.entries ++ [g]) : Ledger.IsBonus g.userId g := by
  have hself : db.ledger.entries ≠ db.ledger.entries ++ [g] := fun h => by
    simpa using congrArg List.length h
  unfold ledgerStep at hg
  cases h : LedgerOp.exec owner db (.grantBonus now purchaser payment order amount) with
  | error e => rw [h] at hg; exact absurd hg hself
  | ok p =>
    rw [h] at hg
    obtain ⟨res, hr⟩ := exec_ok h
    simp only [Lib.commit] at hg
    unfold Db.grantReferralBonusForTopup at hr
    split at hr
    · obtain ⟨-, hdb⟩ := by simpa using hr
      rw [← hdb] at hg; exact absurd hg hself
    split at hr
    · obtain ⟨-, hdb⟩ := by simpa using hr
      rw [← hdb] at hg; exact absurd hg hself
    simp only at hr
    split_ifs at hr with hbonus
    · obtain ⟨-, hdb⟩ := by simpa using hr
      rw [← hdb] at hg; exact absurd hg hself
    split at hr
    · obtain ⟨-, hdb⟩ := by simpa using hr
      rw [← hdb] at hg; exact absurd hg hself
    obtain ⟨l', hins, hr⟩ := Lib.bind_ok hr
    obtain ⟨-, hdb⟩ := by simpa [pure, Except.pure] using hr
    obtain ⟨rfl, -⟩ := Ledger.insert_ok hins
    rw [← hdb, Ledger.post_entries] at hg
    have hgeq := List.singleton_injective (List.append_cancel_left hg)
    rw [← hgeq]
    exact ⟨rfl, rfl, not_le.mp hbonus⟩

section RoundTrip
variable {owner} {db₁ db₂ db₃ db₄ : Db} {g r : AccountLedgerEntry}

theorem BonusRoundTrip.conserved (h : BonusRoundTrip owner db₁ db₂ db₃ db₄ g r) :
    db₃.ledger.Conserved owner ∧ db₄.ledger.Conserved owner := by
  have hrun : ∀ {db : Db} (ops : List LedgerOp), db.ledger.Conserved owner →
      (ledgerRun owner db ops).ledger.Conserved owner := fun ops =>
    ledgerRun_inv owner (fun _ _ h cs => Ledger.Conserved.posting owner h cs) ops _
  obtain ⟨db₀, ops, rfl⟩ := h.reached
  obtain ⟨now, purchaser, payment, order, amount, h₂⟩ := h.granted
  obtain ⟨ops', h₃⟩ := h.between
  obtain ⟨now', payment', order', refundId, h₄⟩ := h.reversed
  have c₂ : db₂.ledger.Conserved owner :=
    h₂ ▸ hrun [_] (ledgerRun_conserved owner db₀ ops)
  have c₃ : db₃.ledger.Conserved owner := h₃ ▸ hrun ops' c₂
  exact ⟨c₃, h₄ ▸ hrun [_] c₃⟩

theorem BonusRoundTrip.isBonus (h : BonusRoundTrip owner db₁ db₂ db₃ db₄ g r) :
    Ledger.IsBonus g.userId g ∧ g ∈ db₃.ledger.entries := by
  obtain ⟨now, purchaser, payment, order, amount, h₂⟩ := h.granted
  obtain ⟨ops, h₃⟩ := h.between
  refine ⟨grantBonus_isBonus owner (h₂ ▸ h.credit), ?_⟩
  rw [h₃]
  exact mem_entries_ledgerRun owner ops (by rw [h.credit]; simp)

/-- What the reversal leaves: the position falls by the bonus, bonus credited and spent stay. -/
theorem BonusRoundTrip.after (h : BonusRoundTrip owner db₁ db₂ db₃ db₄ g r) :
    r.userId = g.userId ∧ g ∈ db₄.ledger.entries ∧
      db₄.ledger.allocations = db₃.ledger.allocations ∧
      db₄.ledger.position g.userId = db₃.ledger.position g.userId - g.amount ∧
      db₄.ledger.bonusCredited g.userId = db₃.ledger.bonusCredited g.userId ∧
      db₄.ledger.bonusSpent g.userId = db₃.ledger.bonusSpent g.userId := by
  obtain ⟨c₃, c₄⟩ := h.conserved
  obtain ⟨hbonus, hg₃⟩ := h.isBonus
  obtain ⟨now, payment, order, refundId, h₄⟩ := h.reversed
  obtain ⟨new, hnew⟩ := ledgerStep_reversed owner db₃ now payment order refundId
  rw [← h₄] at hnew
  have hr : r ∈ new := by
    have := h.debit.1
    rw [hnew.entries_eq] at this
    exact (List.mem_append.mp this).resolve_left h.debit.2
  have huser : r.userId = g.userId := by
    obtain ⟨c, hc, hlink, hu⟩ := hnew.credited r hr
    have hid : c.id = g.id := Option.some.inj (hlink.symm.trans h.linked)
    rw [hu, c₃.toWellFormed.eq_of_id hc hg₃ hid]
  refine ⟨huser, by rw [hnew.entries_eq]; simp [hg₃], hnew.allocations_eq, ?_,
    hnew.bonusCredited_eq g.userId, hnew.bonusSpent_eq c₄ g.userId⟩
  rw [Ledger.position, hnew.entries_eq, Lib.sumWhere_append, ← huser, hnew.sum_user hr, h.full]
  rfl

/-- A sum over the ledger without the two entries. -/
theorem Ledger.sumWhere_without {l : Ledger} (hids : (l.entries.map (·.id)).Nodup)
    (hg : g ∈ l.entries) (hr : r ∈ l.entries) (hne : r.id ≠ g.id) (p : AccountLedgerEntry → Prop)
    [DecidablePred p] :
    sumWhere p (·.amount) l.entries =
      (if p g then g.amount else 0) + ((if p r then r.amount else 0) +
        sumWhere p (·.amount) (l.without g r).entries) := by
  rw [Lib.sumWhere_remove hids hg, Lib.sumWhere_remove (hids.sublist (List.filter_sublist.map _))
    (List.mem_filter.mpr ⟨hr, by simpa using hne⟩)]
  rfl

/-- What the ledger without the two entries has: the same position and bonus spent, and the bonus
    credited less the granted amount. -/
theorem BonusRoundTrip.without (h : BonusRoundTrip owner db₁ db₂ db₃ db₄ g r) :
    (db₄.ledger.without g r).position g.userId = db₄.ledger.position g.userId ∧
      (db₄.ledger.without g r).bonusCredited g.userId =
        db₄.ledger.bonusCredited g.userId - g.amount ∧
      (db₄.ledger.without g r).bonusSpent g.userId = db₄.ledger.bonusSpent g.userId := by
  obtain ⟨hu, hg₄, halloc, -⟩ := h.after
  have c₄ := h.conserved.2
  have hbonus := h.isBonus.1
  have hpos : 0 < g.amount := hbonus.2.2
  have hneg : r.amount < 0 := by have := h.full; omega
  have hne : r.id ≠ g.id := fun hid => by
    have := c₄.toWellFormed.eq_of_id h.debit.1 hg₄ hid
    rw [this] at hneg; omega
  have hsum := Ledger.sumWhere_without c₄.ids_nodup hg₄ h.debit.1 hne
  refine ⟨?_, ?_, ?_⟩
  · have := hsum fun e => e.userId = g.userId
    rw [if_pos rfl, if_pos hu, h.full] at this
    rw [Ledger.position, Ledger.position]
    omega
  · have := hsum (Ledger.IsBonus g.userId)
    rw [if_pos hbonus, if_neg fun hb => by have := hb.2.2; omega] at this
    change sumWhere (Ledger.IsBonus g.userId) _ _ = sumWhere (Ledger.IsBonus g.userId) _ _ - _
    omega
  · refine Lib.sumWhere_congr fun a ha => ⟨and_congr_right fun _ => ⟨?_, ?_⟩, fun _ => rfl⟩
    · rintro ⟨e, he, hx⟩
      exact ⟨e, (List.mem_filter.mp (List.mem_filter.mp he).1).1, hx⟩
    · -- the entry drawn from is neither `g`, which is unspent, nor `r`, which is no lot
      rintro ⟨e, he, hid, ht⟩
      refine ⟨e, List.mem_filter.mpr ⟨List.mem_filter.mpr ⟨he, ?_⟩, ?_⟩, hid, ht⟩
      · have := h.unspent a (halloc ▸ ha)
        simpa [hid] using this
      · have hlot : e.id ≠ r.id := fun heq => by
          obtain ⟨c, hc, hcid, hlot⟩ := c₄.alloc_lot a ha
          have hcr := c₄.toWellFormed.eq_of_id hc h.debit.1 (hcid.trans (hid.symm.trans heq))
          have := hlot.2.1
          rw [hcr] at this
          omega
        simpa using hlot

end RoundTrip

/-- A granted and fully reversed bonus is neutral in both classes exactly when, before the reversal,
    the unspent bonus credit covered the whole position of its user. -/
theorem reversal_neutral_iff {db₁ db₂ db₃ db₄ : Db} {g r : AccountLedgerEntry}
    (h : BonusRoundTrip owner db₁ db₂ db₃ db₄ g r) :
    Neutral db₄.ledger g r ↔
      db₃.ledger.position g.userId ≤
        db₃.ledger.bonusCredited g.userId - db₃.ledger.bonusSpent g.userId := by
  obtain ⟨-, hg₄, halloc, hpos, hcred, hspent⟩ := h.after
  obtain ⟨hpos', hcred', hspent'⟩ := h.without
  have c₄ := h.conserved.2
  have hbonus := h.isBonus.1
  have hgpos : 0 < g.amount := hbonus.2.2
  have h0 := c₄.toWellFormed.bonusSpent_nonneg g.userId
  have hle := c₄.bonusSpent_le_without hg₄ hbonus (halloc ▸ h.unspent)
  obtain ⟨hb, hr⟩ := Ledger.getAccountBalance_classes h0 (by omega)
  obtain ⟨hb', hr'⟩ := Ledger.getAccountBalance_classes (l := db₄.ledger.without g r)
    (u := g.userId) (by omega) (by omega)
  rw [Neutral, hb, hr, hb', hr', hpos', hcred', hspent', ← hcred, ← hspent]
  constructor
  · rintro ⟨-, heq⟩; omega
  · intro hcond; constructor <;> omega

/-! ### Two round trips -/

section Instances

def tripGrant : LedgerOp := .grantBonus 1 1 none (some 1) 100

def tripReversal : LedgerOp := .reverseBonus 2 none (some 1) (some "refund")

/-- The bonus of the trip, booked as entry `id`. -/
def tripBonus (id : EntryId) : AccountLedgerEntry where
  userId := 2
  entryType := .adminAdjustment
  amount := 15
  idempotencyKey := .referralBonus (.order 1) 2
  metadata := { sourceType := some "referral_bonus", topupOrderId := some 1 }
  shape := by decide
  id := id
  createdAt := 1

def tripReversed (id bonus : EntryId) : AccountLedgerEntry where
  userId := 2
  entryType := .adminAdjustment
  amount := -15
  idempotencyKey := .referralReversal (.order 1) 2 (some "refund")
  metadata := { sourceType := some "referral_bonus", topupOrderId := some 1
                originalCreditId := some bonus }
  shape := by decide
  id := id
  createdAt := 2

/-- The ledger after `before`, the grant and the reversal, `n` steps of them. -/
def tripDb (before : List LedgerOp) (n : ℕ) : Db :=
  ledgerRun (fun o => o) { users := referralUsers } (before ++ [tripGrant, tripReversal].take n)

theorem trip (before : List LedgerOp) (id : EntryId)
    (hc : (tripDb before 1).ledger.entries = (tripDb before 0).ledger.entries ++ [tripBonus id])
    (hu : ∀ a ∈ (tripDb before 1).ledger.allocations, a.creditEntryId ≠ id)
    (hd : tripReversed (id + 1) id ∈ (tripDb before 2).ledger.entries ∧
      tripReversed (id + 1) id ∉ (tripDb before 1).ledger.entries) :
    BonusRoundTrip (fun o => o) (tripDb before 0) (tripDb before 1) (tripDb before 1)
      (tripDb before 2) (tripBonus id) (tripReversed (id + 1) id) where
  reached := ⟨{ users := referralUsers }, before, by simp [tripDb]⟩
  granted := ⟨1, 1, none, some 1, 100, by simp [tripDb, Lib.run_append, tripGrant]⟩
  credit := hc
  between := ⟨[], rfl⟩
  unspent := hu
  reversed := ⟨2, none, some 1, some "refund", by
    simp [tripDb, Lib.run_append, tripReversal]⟩
  debit := hd
  linked := rfl
  full := rfl

/-- A referrer without money of their own ends where they began. -/
theorem reversal_neutral_iff_no_money :
    Neutral (tripDb [] 2).ledger (tripBonus 1) (tripReversed 2 1) :=
  (reversal_neutral_iff _ (trip [] 1 (by decide +kernel) (by decide +kernel)
    (by decide +kernel))).mpr (by decide +kernel)

/-- A referrer with 100 rubles of their own ends with 85 real and 15 bonus rubles. -/
theorem reversal_not_neutral_with_money :
    ¬ ∀ (owner : OrderId → UserId) (db₁ db₂ db₃ db₄ : Db) (g r : AccountLedgerEntry),
      BonusRoundTrip owner db₁ db₂ db₃ db₄ g r → Neutral db₄.ledger g r :=
  fun h => absurd (h _ _ _ _ _ _ _ (trip [.orderCredit 0 (.decimal 100) 2 {}] 2
    (by decide +kernel) (by decide +kernel) (by decide +kernel))) (by decide +kernel)

end Instances

end Just1kBot
