import Just1kBot.Billing.BonusFirst

/-! Referral bonuses and what was booked back of them.

    A bonus is keyed by its top-up and its referrer, so a top-up has at most one for each referrer;
    a reversal is keyed by the top-up, the referrer and the refund, and books back all that is left
    of the bonus. Whether a repeated reversal stops at its key or at the nothing that is left, the
    bonus has been booked back once and in full, and no other bonus has been touched. -/

namespace Just1kBot
open Lib (sumWhere)
open Lib.Python (Number)

/-! ### The books of the referral bonuses -/

/-- The metadata of a bonus for an operation. -/
def bonusMeta : OpId → EntryMeta
  | .order o => { sourceType := referralBonusSource, topupOrderId := some o }
  | .payment p => { sourceType := referralBonusSource, topupPaymentId := some p }
  | .unknown => { sourceType := referralBonusSource }

/-- What the referral entries of a reachable ledger look like: a bonus and its reversals carry keys
    of one operation and one referrer, and once one reversal is booked nothing is left. -/
structure Ledger.ReferralBooks (l : Ledger) : Prop where
  ids_lt : ∀ e ∈ l.entries, e.id < l.nextId
  ids_nodup : (l.entries.map (·.id)).Nodup
  keys_nodup : (l.entries.map (·.idempotencyKey)).Nodup
  bonus : ∀ e ∈ l.entries, ∀ op u, e.idempotencyKey = .referralBonus op u →
    Ledger.IsBonus u e ∧ e.metadata = bonusMeta op
  keyed : ∀ e ∈ l.entries, e.entryType = .adminAdjustment → 0 < e.amount →
    e.metadata.sourceType = some referralBonusSource →
    ∃ op, e.idempotencyKey = .referralBonus op e.userId
  reversal : ∀ e ∈ l.entries, ∀ op u r, e.idempotencyKey = .referralReversal op u r →
    e.userId = u ∧ e.entryType = .adminAdjustment ∧ e.amount < 0 ∧
      ∃ g ∈ l.entries, g.idempotencyKey = .referralBonus op u
  linked : ∀ e ∈ l.entries, e.entryType = .adminAdjustment → ∀ i,
    e.metadata.originalCreditId = some i → ∃ op u r, e.idempotencyKey = .referralReversal op u r ∧
      ∃ g ∈ l.entries, g.id = i ∧ g.idempotencyKey = .referralBonus op u
  settled : ∀ g ∈ l.entries, ∀ op u, g.idempotencyKey = .referralBonus op u →
    (∃ e ∈ l.entries, ∃ r, e.idempotencyKey = .referralReversal op u r) →
    l.alreadyReversed g = g.amount

namespace Ledger

theorem alreadyReversed_post (l : Ledger) (now : Time) (v : EntryValues) (g : AccountLedgerEntry) :
    (l.post now v).alreadyReversed g = l.alreadyReversed g +
      if v.userId = g.userId ∧ v.entryType = .adminAdjustment ∧ v.amount < 0 ∧
        v.metadata.originalCreditId = some g.id then |v.amount| else 0 := by
  rw [alreadyReversed, post_entries, Lib.sumWhere_append, Lib.sumWhere_singleton]
  rfl

namespace ReferralBooks
variable {l : Ledger} {now : Time} {v : EntryValues}

theorem eq_of_id (h : l.ReferralBooks) {a b : AccountLedgerEntry} (ha : a ∈ l.entries)
    (hb : b ∈ l.entries) (heq : a.id = b.id) : a = b :=
  List.inj_on_of_nodup_map h.ids_nodup ha hb heq

theorem eq_of_key (h : l.ReferralBooks) {a b : AccountLedgerEntry} (ha : a ∈ l.entries)
    (hb : b ∈ l.entries) (heq : a.idempotencyKey = b.idempotencyKey) : a = b :=
  List.inj_on_of_nodup_map h.keys_nodup ha hb heq

/-- A bonus none of whose reversals is booked has nothing booked back. -/
theorem alreadyReversed_eq_zero (h : l.ReferralBooks) {g : AccountLedgerEntry}
    (hg : g ∈ l.entries) {op : OpId} {u : UserId} (hkey : g.idempotencyKey = .referralBonus op u)
    (hnone : ∀ e ∈ l.entries, ∀ r, e.idempotencyKey ≠ .referralReversal op u r) :
    l.alreadyReversed g = 0 := by
  refine Lib.sumWhere_eq_zero fun e he => ?_
  rintro ⟨-, ht, -, hlink⟩
  obtain ⟨op', u', r, hr, g', hg', hid, hkey'⟩ := h.linked e he ht _ hlink
  have hgg := h.eq_of_id hg' hg hid
  subst hgg
  rw [hkey] at hkey'
  cases hkey'
  exact hnone e he r hr

/-- Nothing or everything of a bonus is booked back. -/
theorem alreadyReversed_cases (h : l.ReferralBooks) {g : AccountLedgerEntry} (hg : g ∈ l.entries)
    {op : OpId} {u : UserId} (hkey : g.idempotencyKey = .referralBonus op u) :
    ((∃ e ∈ l.entries, ∃ r, e.idempotencyKey = .referralReversal op u r) ∧
      l.alreadyReversed g = g.amount) ∨ l.alreadyReversed g = 0 := by
  by_cases hex : ∃ e ∈ l.entries, ∃ r, e.idempotencyKey = .referralReversal op u r
  · exact .inl ⟨hex, h.settled g hg op u hkey hex⟩
  · refine .inr (h.alreadyReversed_eq_zero hg hkey fun e he r hr => hex ⟨e, he, r, hr⟩)

/-- What an entry must look like to be booked: a bonus, a reversal of all that is left of a bonus, or
    an entry that looks like neither. -/
structure Fits (l : Ledger) (v : EntryValues) : Prop where
  bonus : ∀ op u, v.idempotencyKey = .referralBonus op u →
    (v.userId = u ∧ v.entryType = .adminAdjustment ∧ 0 < v.amount) ∧ v.metadata = bonusMeta op
  keyed : v.entryType = .adminAdjustment → 0 < v.amount →
    v.metadata.sourceType = some referralBonusSource →
    ∃ op, v.idempotencyKey = .referralBonus op v.userId
  reversal : ∀ op u r, v.idempotencyKey = .referralReversal op u r →
    v.userId = u ∧ v.entryType = .adminAdjustment ∧ v.amount < 0 ∧
      ∃ g ∈ l.entries, g.idempotencyKey = .referralBonus op u ∧
        v.amount = -(g.amount - l.alreadyReversed g) ∧ v.metadata.originalCreditId = some g.id
  linked : v.entryType = .adminAdjustment → v.metadata.originalCreditId.isSome →
    ∃ op u r, v.idempotencyKey = .referralReversal op u r

/-- A reversal takes what is left of its bonus, and no other entry takes anything. -/
theorem alreadyReversed_post_fits (h : l.ReferralBooks) (hv : Fits l v) {g : AccountLedgerEntry}
    (hg : g ∈ l.entries) {op : OpId} {u : UserId} (hkey : g.idempotencyKey = .referralBonus op u) :
    ((∃ r, v.idempotencyKey = .referralReversal op u r) ∧
        (l.post now v).alreadyReversed g = g.amount) ∨
      ((∀ r, v.idempotencyKey ≠ .referralReversal op u r) ∧
        (l.post now v).alreadyReversed g = l.alreadyReversed g) := by
  rw [alreadyReversed_post]
  by_cases hrev : ∃ r, v.idempotencyKey = .referralReversal op u r
  · obtain ⟨r, hr⟩ := hrev
    obtain ⟨hu, ht, hneg, g', hg', hkey', hamount, hid⟩ := hv.reversal op u r hr
    have hgg := h.eq_of_key hg' hg (hkey'.trans hkey.symm)
    subst hgg
    refine .inl ⟨⟨r, hr⟩, ?_⟩
    rw [if_pos ⟨hu.trans (h.bonus g' hg op u hkey).1.1.symm, ht, hneg, hid⟩, abs_of_neg hneg]
    omega
  · refine .inr ⟨fun r hr => hrev ⟨r, hr⟩, ?_⟩
    rw [if_neg, add_zero]
    rintro ⟨-, ht, -, hlink⟩
    obtain ⟨op', u', r, hr⟩ := hv.linked ht (Option.isSome_of_eq_some hlink)
    obtain ⟨-, -, -, g', hg', hkey', -, hid⟩ := hv.reversal op' u' r hr
    have hgg := h.eq_of_id hg' hg (Option.some.inj (hid.symm.trans hlink))
    subst hgg
    rw [hkey] at hkey'
    cases hkey'
    exact hrev ⟨r, hr⟩

/-- An entry that fits keeps the books. -/
theorem post (h : l.ReferralBooks) (hadm : l.Admits v) (hv : Fits l v) :
    (l.post now v).ReferralBooks := by
  have hmem : ∀ e, e ∈ (l.post now v).entries → e ∈ l.entries ∨ e = l.newEntry now v :=
    fun e he => by simpa using he
  have hold : ∀ {e}, e ∈ l.entries → e ∈ (l.post now v).entries := fun he =>
    List.mem_append_left _ he
  have hfree : ∀ e ∈ l.entries, e.idempotencyKey ≠ v.idempotencyKey := fun e he heq =>
    hadm e he (.inl heq)
  refine ⟨?_, ?_, ?_, ?_, ?_, ?_, ?_, ?_⟩
  · intro e he
    rcases hmem e he with he | rfl
    · exact Nat.lt_succ_of_lt (h.ids_lt e he)
    · exact Nat.lt_succ_self _
  · rw [post_entries, List.map_append, List.nodup_append]
    refine ⟨h.ids_nodup, by simp, ?_⟩
    rintro i hi j hj rfl
    obtain ⟨e, he, rfl⟩ := List.mem_map.mp hi
    have hj : e.id = l.nextId := by simpa [newEntry] using hj
    exact (h.ids_lt e he).ne hj
  · rw [post_entries, List.map_append, List.nodup_append]
    refine ⟨h.keys_nodup, by simp, ?_⟩
    rintro k hk j hj rfl
    obtain ⟨e, he, rfl⟩ := List.mem_map.mp hk
    exact hfree e he (by simpa [newEntry] using hj)
  · intro e he op u hkey
    rcases hmem e he with he | rfl
    · exact h.bonus e he op u hkey
    · exact hv.bonus op u hkey
  · intro e he ht hpos hsource
    rcases hmem e he with he | rfl
    · exact h.keyed e he ht hpos hsource
    · exact hv.keyed ht hpos hsource
  · intro e he op u r hkey
    rcases hmem e he with he | rfl
    · obtain ⟨hu, ht, hneg, g, hg, hgkey⟩ := h.reversal e he op u r hkey
      exact ⟨hu, ht, hneg, g, hold hg, hgkey⟩
    · obtain ⟨hu, ht, hneg, g, hg, hgkey, -⟩ := hv.reversal op u r hkey
      exact ⟨hu, ht, hneg, g, hold hg, hgkey⟩
  · intro e he ht i hlink
    rcases hmem e he with he | rfl
    · obtain ⟨op, u, r, hr, g, hg, hid, hgkey⟩ := h.linked e he ht i hlink
      exact ⟨op, u, r, hr, g, hold hg, hid, hgkey⟩
    · obtain ⟨op, u, r, hr⟩ := hv.linked ht (Option.isSome_of_eq_some hlink)
      obtain ⟨-, -, -, g, hg, hgkey, -, hid⟩ := hv.reversal op u r hr
      exact ⟨op, u, r, hr, g, hold hg, Option.some.inj (hid.symm.trans hlink), hgkey⟩
  · rintro g hg op u hgkey ⟨e, he, r, hr⟩
    rcases hmem g hg with hg | rfl
    · rcases h.alreadyReversed_post_fits hv hg hgkey with ⟨-, hfull⟩ | ⟨hno, hsame⟩
      · exact hfull
      · rw [hsame]
        rcases hmem e he with he | rfl
        · exact h.settled g hg op u hgkey ⟨e, he, r, hr⟩
        · exact absurd hr (hno r)
    · -- a bonus whose reversal is booked would be booked already
      rcases hmem e he with he | rfl
      · obtain ⟨-, -, -, g', hg', hgkey'⟩ := h.reversal e he op u r hr
        exact absurd (hgkey'.trans hgkey.symm) (hfree g' hg')
      · rw [hgkey] at hr
        cases hr

/-- Allocations are no part of the books. -/
theorem allocations (h : l.ReferralBooks) (as : List AccountLedgerAllocation) :
    ({ l with allocations := as } : Ledger).ReferralBooks :=
  ⟨h.ids_lt, h.ids_nodup, h.keys_nodup, h.bonus, h.keyed, h.reversal, h.linked, h.settled⟩

/-- Nothing but its key stands in the way of an adjustment. -/
theorem admits_adjustment (ht : v.entryType = .adminAdjustment)
    (hfree : ∀ e ∈ l.entries, e.idempotencyKey ≠ v.idempotencyKey) : l.Admits v := by
  rintro e he (hkey | ⟨-, ⟨hv, -⟩ | ⟨hv, -⟩ | ⟨hv, -⟩⟩)
  · exact hfree e he hkey
  · rw [ht] at hv; cases hv
  · rw [ht] at hv; cases hv
  · rw [ht] at hv; cases hv

/-- An entry that is neither a bonus nor a reversal fits. -/
theorem fits_plain (hb : ∀ op u, v.idempotencyKey ≠ .referralBonus op u)
    (hr : ∀ op u r, v.idempotencyKey ≠ .referralReversal op u r)
    (ht : v.entryType = .adminAdjustment → v.metadata.sourceType ≠ some referralBonusSource ∧
      v.metadata.originalCreditId = none) : Fits l v where
  bonus op u hkey := absurd hkey (hb op u)
  keyed hadmin _ hsource := absurd hsource (ht hadmin).1
  reversal op u r hkey := absurd hkey (hr op u r)
  linked hadmin hsome := by rw [(ht hadmin).2] at hsome; cases hsome

/-- An idempotent insert of an entry that fits keeps the books. -/
theorem insertOrGetEntry (h : l.ReferralBooks) {lk : AccountLedgerEntry → Bool} {l' : Ledger}
    {r : AccountLedgerEntry × Bool} (hins : l.insertOrGetEntry now v lk = .ok (r, l'))
    (hv : Fits l v) : l'.ReferralBooks := by
  rcases insertOrGetEntry_ok hins with ⟨-, -, rfl, hadm⟩ | ⟨-, rfl⟩
  · exact h.post hadm hv
  · exact h

theorem allocateFifo (h : l.ReferralBooks) {u : UserId} {d : AccountLedgerEntry} {a : ℤ}
    {l' : Ledger} {r : List AccountLedgerAllocation} (halloc : l.allocateFifo u d a = .ok (r, l')) :
    l'.ReferralBooks := by
  obtain ⟨-, -, -, rfl⟩ := allocateFifo_ok halloc
  exact h.allocations _

/-! ### The reversal of a top-up -/

section Reverse
variable {payment : Option PaymentId} {order : Option OrderId} {refundId : Option String}

/-- The credits a reversal looks for are the bonuses of its operation. -/
theorem mem_bonusCredits (h : l.ReferralBooks) (hsome : payment.isSome ∨ order.isSome)
    {c : AccountLedgerEntry} : c ∈ l.bonusCredits payment order ↔
      c ∈ l.entries ∧ c.idempotencyKey = .referralBonus (grantOpId order payment) c.userId := by
  rw [bonusCredits, List.mem_filter, decide_eq_true_eq]
  refine and_congr_right fun hc => ⟨?_, fun hkey => ?_⟩
  · rintro ⟨ht, hpos, hsource, hmatch⟩
    obtain ⟨op, hkey⟩ := h.keyed c hc ht hpos hsource
    rw [(h.bonus c hc op c.userId hkey).2] at hmatch
    rw [hkey]
    cases order with
    | some o =>
      rw [if_pos Option.isSome_some] at hmatch
      cases op <;> simp [bonusMeta, grantOpId] at hmatch ⊢
      exact hmatch
    | none =>
      rw [if_neg (by simp)] at hmatch
      obtain ⟨p, rfl⟩ := Option.isSome_iff_exists.mp (hsome.resolve_right (by simp))
      cases op <;> simp [bonusMeta, grantOpId] at hmatch ⊢
      exact hmatch
  · obtain ⟨⟨-, ht, hpos⟩, hmeta⟩ := h.bonus c hc _ _ hkey
    refine ⟨ht, hpos, ?_⟩
    rw [hmeta]
    cases order with
    | some o => exact ⟨rfl, rfl⟩
    | none =>
      obtain ⟨p, rfl⟩ := Option.isSome_iff_exists.mp (hsome.resolve_right (by simp))
      exact ⟨rfl, rfl⟩

/-- The entry that books back what is left of a bonus fits. -/
theorem fits_reversalEntry {c : AccountLedgerEntry} (hc : c ∈ l.entries)
    (hkey : c.idempotencyKey = .referralBonus (grantOpId order payment) c.userId)
    (hleft : ¬ l.maxCanReverse c ≤ 0) : Fits l (l.reversalEntry payment order refundId c hleft) where
  bonus op u hk := by cases hk
  keyed _ hpos := by
    have hpos : 0 < -l.maxCanReverse c := hpos
    omega
  reversal op u r hk := by
    cases hk
    refine ⟨rfl, rfl, ?_, c, hc, hkey, ?_, rfl⟩
    · simp only [reversalEntry]
      omega
    · simp only [reversalEntry, maxCanReverse] at hleft ⊢
      omega
  linked _ _ := ⟨_, _, _, rfl⟩

/-- What reversing these bonuses of an operation leaves: reversals of the operation are appended, and
    each of the bonuses has one. -/
structure BookedBack (op : OpId) (credits : List AccountLedgerEntry) (l l' : Ledger)
    (new : List AccountLedgerEntry) : Prop where
  books : l'.ReferralBooks
  entries_eq : l'.entries = l.entries ++ new
  keys : ∀ e ∈ new, ∃ u r, e.idempotencyKey = .referralReversal op u r
  done : ∀ c ∈ credits, ∃ e ∈ l'.entries, ∃ r,
    e.idempotencyKey = .referralReversal op c.userId r

namespace BookedBack
variable {op : OpId} {c : AccountLedgerEntry} {rest new : List AccountLedgerEntry} {l l' : Ledger}

/-- A bonus that is passed over has its reversal already. -/
theorem skip (h : BookedBack op rest l l' new)
    (hex : ∃ e ∈ l.entries, ∃ r, e.idempotencyKey = .referralReversal op c.userId r) :
    BookedBack op (c :: rest) l l' new := by
  refine ⟨h.books, h.entries_eq, h.keys, fun c' hc' => ?_⟩
  rcases List.mem_cons.mp hc' with rfl | hc'
  · obtain ⟨e, he, hr⟩ := hex
    exact ⟨e, by rw [h.entries_eq]; exact List.mem_append_left _ he, hr⟩
  · exact h.done c' hc'

/-- A bonus that is not has its reversal booked first. -/
theorem book {now : Time} {v : EntryValues} {r : Option String}
    (h : BookedBack op rest (l.post now v) l' new)
    (hkey : v.idempotencyKey = .referralReversal op c.userId r) :
    BookedBack op (c :: rest) l l' (l.newEntry now v :: new) := by
  have hentries : l'.entries = l.entries ++ l.newEntry now v :: new := by
    rw [h.entries_eq, post_entries, List.append_assoc]
    rfl
  refine ⟨h.books, hentries, fun e he => ?_, fun c' hc' => ?_⟩
  · rcases List.mem_cons.mp he with rfl | he
    · exact ⟨_, _, hkey⟩
    · exact h.keys e he
  · rcases List.mem_cons.mp hc' with rfl | hc'
    · refine ⟨l.newEntry now v, ?_, r, hkey⟩
      rw [hentries]
      simp
    · exact h.done c' hc'

end BookedBack

/-- Reversing bonuses of a top-up always succeeds. -/
theorem reverseLoop_ok (now : Time) (refundId : Option String) :
    ∀ (credits : List AccountLedgerEntry) (l : Ledger) (total : ℤ),
    l.ReferralBooks → (∀ c ∈ credits, c ∈ l.entries ∧
      c.idempotencyKey = .referralBonus (grantOpId order payment) c.userId) →
    ∃ total' l' new, reverseLoop now payment order refundId credits l total = .ok (total', l') ∧
      BookedBack (grantOpId order payment) credits l l' new
  | [], l, total, h, _ => ⟨total, l, [], rfl, h, by simp, by simp, by simp⟩
  | c :: rest, l, total, h, hcredits => by
    obtain ⟨hc, hkey⟩ := hcredits c (by simp)
    have hrest : ∀ c ∈ rest, c ∈ l.entries ∧
        c.idempotencyKey = .referralBonus (grantOpId order payment) c.userId :=
      fun c' hc' => hcredits c' (by simp [hc'])
    unfold reverseLoop
    simp only
    split
    · rename_i existing hfound
      have hrow := List.find?_some hfound
      simp only [decide_eq_true_eq] at hrow
      obtain ⟨total', l', new, hok, hb⟩ :=
        reverseLoop_ok now refundId rest l (total + |existing.amount|) h hrest
      exact ⟨total', l', new, hok,
        hb.skip ⟨existing, List.mem_of_find?_eq_some hfound, _, hrow.2.2.2⟩⟩
    · rename_i hfree
      split_ifs with hleft
      · obtain ⟨total', l', new, hok, hb⟩ := reverseLoop_ok now refundId rest l total h hrest
        refine ⟨total', l', new, hok, hb.skip ?_⟩
        have hpos := (h.bonus c hc _ _ hkey).1.2.2
        rcases h.alreadyReversed_cases hc hkey with ⟨hex, -⟩ | hzero
        · exact hex
        · rw [maxCanReverse, hzero] at hleft
          omega
      · have hadm : l.Admits (l.reversalEntry payment order refundId c hleft) := by
          refine admits_adjustment rfl fun e he hek => ?_
          obtain ⟨hu, ht, hneg, -⟩ := h.reversal e he _ _ _ hek
          have := List.find?_eq_none.mp hfree e he
          simp only [decide_eq_true_eq] at this
          exact this ⟨hu, ht, hneg, hek⟩
        have hpost : (l.post now (l.reversalEntry payment order refundId c hleft)).ReferralBooks :=
          h.post hadm (fits_reversalEntry hc hkey hleft)
        obtain ⟨total', l', new, hok, hb⟩ := reverseLoop_ok now refundId rest _
          (total + l.maxCanReverse c) hpost
          fun c' hc' => ⟨List.mem_append_left _ (hrest c' hc').1, (hrest c' hc').2⟩
        rw [insert, if_pos hadm]
        exact ⟨total', l', _, hok, hb.book rfl⟩

end Reverse

end ReferralBooks
end Ledger

/-! ### Histories -/

/-- How the operations are called: a bonus names its top-up by its order or by its payment, and an
    adjustment does not carry the metadata of a referral entry. -/
def LedgerOp.Called : LedgerOp → Prop
  | .grantBonus _ _ payment order _ => payment = none ∨ order = none
  | .adminAdjustment _ _ _ _ m =>
    m.sourceType ≠ some referralBonusSource ∧ m.originalCreditId = none
  | _ => True

variable (owner : OrderId → UserId)

/-- The metadata of a bonus is that of its operation. -/
theorem bonusMeta_grantOpId {payment : Option PaymentId} {order : Option OrderId}
    (h : payment = none ∨ order = none) :
    ({ sourceType := referralBonusSource, topupPaymentId := payment, topupOrderId := order } :
      EntryMeta) = bonusMeta (grantOpId order payment) := by
  rcases h with rfl | rfl
  · cases order <;> rfl
  · cases payment <;> rfl

/-- A reversal of a top-up books back every bonus of it that is not booked back yet. -/
theorem Db.reverseReferralBonusForTopup_bookedBack {db : Db} (h : db.ledger.ReferralBooks)
    (now : Time) {payment : Option PaymentId} {order : Option OrderId}
    (hsome : payment.isSome ∨ order.isSome) (refundId : Option String) :
    ∃ total l' new, db.reverseReferralBonusForTopup now payment order refundId =
        .ok (total, { db with ledger := l' }) ∧
      Ledger.ReferralBooks.BookedBack (grantOpId order payment)
        (db.ledger.bonusCredits payment order) db.ledger l' new := by
  obtain ⟨total, l', new, hok, hb⟩ := Ledger.ReferralBooks.reverseLoop_ok now refundId
    (db.ledger.bonusCredits payment order) db.ledger 0 h
    fun c hc => (h.mem_bonusCredits hsome).mp hc
  refine ⟨total, l', new, ?_, hb⟩
  have hnone : ¬ (payment.isNone ∧ order.isNone) := fun hn => by
    rcases hsome with hs | hs
    · rw [Option.isNone_iff_eq_none.mp hn.1] at hs
      cases hs
    · rw [Option.isNone_iff_eq_none.mp hn.2] at hs
      cases hs
  rw [reverseReferralBonusForTopup, if_neg hnone, hok]
  rfl

/-- Every operation, called as it is, keeps the books. -/
theorem LedgerOp.exec_referralBooks {db db' : Db} {op : LedgerOp} (hcalled : op.Called)
    (hop : op.exec owner db = .ok ((), db')) (h : db.ledger.ReferralBooks) :
    db'.ledger.ReferralBooks := by
  cases op with
  | orderCredit =>
    obtain ⟨_, hop⟩ := exec_ok hop
    obtain ⟨_, -, hop⟩ := Lib.bind_ok hop
    obtain ⟨_, hins, hop⟩ := Lib.bind_ok hop
    cases hop
    exact h.insertOrGetEntry hins (Ledger.ReferralBooks.fits_plain
      (by rintro _ _ ⟨⟩) (by rintro _ _ _ ⟨⟩) (by rintro ⟨⟩))
  | orderDebit =>
    obtain ⟨_, hop⟩ := exec_ok hop
    rcases Db.createOrderDebit_ok hop with hdb | ⟨v, p, hadm, ht, -, hk, halloc⟩
    · obtain rfl : db' = db := hdb
      exact h
    · refine (h.post hadm (Ledger.ReferralBooks.fits_plain ?_ ?_ ?_)).allocateFifo halloc
      · rw [hk]
        rintro _ _ ⟨⟩
      · rw [hk]
        rintro _ _ _ ⟨⟩
      · rw [ht]
        rintro ⟨⟩
  | orderRefundDebit =>
    obtain ⟨_, hop⟩ := exec_ok hop
    obtain ⟨_, _, l', hins, rfl⟩ := Db.createOrderRefundDebit_ok hop
    exact h.insertOrGetEntry hins (Ledger.ReferralBooks.fits_plain
      (by rintro _ _ ⟨⟩) (by rintro _ _ _ ⟨⟩) (by rintro ⟨⟩))
  | adminAdjustment =>
    obtain ⟨_, hop⟩ := exec_ok hop
    obtain ⟨_, -, hop⟩ := Lib.bind_ok hop
    obtain ⟨_, -, hop⟩ := Lib.bind_ok hop
    obtain ⟨⟨⟨entry, created⟩, l₁⟩, hins, hop⟩ := Lib.bind_ok hop
    have h₁ := h.insertOrGetEntry hins
      (Ledger.ReferralBooks.fits_plain
      (by rintro _ _ ⟨⟩) (by rintro _ _ _ ⟨⟩) fun _ => hcalled)
    simp only at hop
    split at hop
    · obtain ⟨_, halloc, hop⟩ := Lib.bind_ok hop
      cases hop
      exact h₁.allocateFifo halloc
    · cases hop
      exact h₁
  | grantBonus =>
    obtain ⟨_, hop⟩ := exec_ok hop
    rcases Db.grantReferralBonusForTopup_ok hop with hdb | ⟨_, _, hpos, -, -, hadm, hdb⟩
    · obtain rfl : db' = db := hdb
      exact h
    · obtain rfl : db' = _ := hdb
      refine h.post hadm ⟨?_, ?_, by rintro _ _ _ ⟨⟩, by rintro _ ⟨⟩⟩
      · intro op u hkey
        cases hkey
        exact ⟨⟨rfl, rfl, not_le.mp hpos⟩, bonusMeta_grantOpId hcalled⟩
      · intro _ _ _
        exact ⟨_, rfl⟩
  | reverseBonus now payment order refundId =>
    obtain ⟨_, hop⟩ := exec_ok hop
    by_cases hsome : payment.isSome ∨ order.isSome
    · obtain ⟨total, l', new, hok, hb⟩ :=
        Db.reverseReferralBonusForTopup_bookedBack h now hsome refundId
      rw [hok] at hop
      cases hop
      exact hb.books
    · obtain ⟨rfl, rfl⟩ : payment = none ∧ order = none := by
        simpa [not_or] using hsome
      cases hop
      exact h
  | other =>
    cases hop
    exact h

theorem ledgerStep_referralBooks {db : Db} {op : LedgerOp} (h : db.ledger.ReferralBooks)
    (hcalled : op.Called) : (ledgerStep owner db op).ledger.ReferralBooks :=
  Lib.commit_inv (I := fun db : Db => db.ledger.ReferralBooks) h fun _ _ hop =>
    LedgerOp.exec_referralBooks owner hcalled hop h

theorem referralBooks_empty : ({} : Ledger).ReferralBooks := by
  constructor <;> simp

/-! ### One top-up -/

section Topup
variable (payment : Option PaymentId) (order : Option OrderId)

/-- A reversal of this top-up, or a bonus for another one. -/
def LedgerOp.OnTopup : LedgerOp → Prop
  | .reverseBonus _ p o _ => p = payment ∧ o = order
  | .grantBonus _ _ p o _ => (p = none ∨ o = none) ∧ grantOpId o p ≠ grantOpId order payment
  | _ => False

def LedgerOp.IsReversal : LedgerOp → Prop
  | .reverseBonus .. => True
  | _ => False

variable {payment order}

theorem LedgerOp.OnTopup.called {op : LedgerOp} (h : op.OnTopup payment order) : op.Called := by
  cases op <;> simp_all [OnTopup, Called]

/-- A reversal of the top-up leaves every bonus of it with a reversal. -/
theorem ledgerStep_reversal {db : Db} {op : LedgerOp} (h : db.ledger.ReferralBooks)
    (hsome : payment.isSome ∨ order.isSome) (hop : op.OnTopup payment order)
    (hrev : op.IsReversal) : ∃ new, Ledger.ReferralBooks.BookedBack (grantOpId order payment)
      (db.ledger.bonusCredits payment order) db.ledger (ledgerStep owner db op).ledger new := by
  cases op with
  | reverseBonus now p o refundId =>
    obtain ⟨rfl, rfl⟩ := hop
    obtain ⟨total, l', new, hok, hb⟩ :=
      Db.reverseReferralBonusForTopup_bookedBack h now hsome refundId
    rw [ledgerStep, LedgerOp.exec, hok]
    exact ⟨new, hb⟩
  | _ => exact hrev.elim

/-- A bonus for another top-up appends an entry keyed by that one, or none. -/
theorem ledgerStep_otherBonus {db : Db} {op : LedgerOp} (hop : op.OnTopup payment order)
    (hrev : ¬ op.IsReversal) : ∃ new,
      (ledgerStep owner db op).ledger.entries = db.ledger.entries ++ new ∧ ∀ e ∈ new,
        ∃ op' u, op' ≠ grantOpId order payment ∧ e.idempotencyKey = .referralBonus op' u := by
  cases op with
  | grantBonus now purchaser p o amount =>
    have hnone : ∃ new, db.ledger.entries = db.ledger.entries ++ new ∧ ∀ e ∈ new,
        ∃ op' u, op' ≠ grantOpId order payment ∧ e.idempotencyKey = .referralBonus op' u :=
      ⟨[], by simp, by simp⟩
    rw [ledgerStep]
    cases h : LedgerOp.exec owner db (.grantBonus now purchaser p o amount) with
    | error e => exact hnone
    | ok r =>
      obtain ⟨_, h⟩ := exec_ok h
      rcases Db.grantReferralBonusForTopup_ok h with hdb | ⟨_, _, hpos, -, -, -, hdb⟩
      · rw [Lib.commit, hdb]
        exact hnone
      · refine ⟨[_], by rw [Lib.commit, hdb]; rfl, fun e he => ?_⟩
        rw [List.mem_singleton.mp he]
        exact ⟨_, _, hop.2, rfl⟩
  | reverseBonus => exact (hrev trivial).elim
  | _ => exact hop.elim

/-- A reversal of the operation, or a bonus of another one. -/
def EntryOnTopup (op : OpId) (e : AccountLedgerEntry) : Prop :=
  (∃ u r, e.idempotencyKey = .referralReversal op u r) ∨
    ∃ op' u, op' ≠ op ∧ e.idempotencyKey = .referralBonus op' u

/-- What a run about the top-up adds: reversals of it and bonuses of other top-ups. -/
theorem ledgerRun_onTopup {db : Db} (h : db.ledger.ReferralBooks)
    (hsome : payment.isSome ∨ order.isSome) (ops : List LedgerOp)
    (hops : ∀ op ∈ ops, op.OnTopup payment order) :
    (ledgerRun owner db ops).ledger.ReferralBooks ∧
      ∀ e ∈ (ledgerRun owner db ops).ledger.entries,
        e ∈ db.ledger.entries ∨ EntryOnTopup (grantOpId order payment) e := by
  refine Lib.run_inv_of_forall (I := fun s : Db => s.ledger.ReferralBooks ∧
    ∀ e ∈ s.ledger.entries, e ∈ db.ledger.entries ∨ EntryOnTopup (grantOpId order payment) e)
    (ledgerStep owner) (fun s op hs hop =>
      ⟨ledgerStep_referralBooks owner hs.1 hop.called, fun e he => ?_⟩) ops db
    ⟨h, fun e he => .inl he⟩ hops
  by_cases hrev : op.IsReversal
  · obtain ⟨new, hb⟩ := ledgerStep_reversal owner hs.1 hsome hop hrev
    rw [hb.entries_eq] at he
    rcases List.mem_append.mp he with he | he
    · exact hs.2 e he
    · exact .inr (.inl (hb.keys e he))
  · obtain ⟨new, hnew, hkeys⟩ := ledgerStep_otherBonus owner hop hrev
    rw [hnew] at he
    rcases List.mem_append.mp he with he | he
    · exact hs.2 e he
    · exact .inr (.inr (hkeys e he))

/-- After a run with a reversal in it every bonus of the top-up has a reversal. -/
theorem ledgerRun_reversed {db : Db} (h : db.ledger.ReferralBooks)
    (hsome : payment.isSome ∨ order.isSome) (ops : List LedgerOp)
    (hops : ∀ op ∈ ops, op.OnTopup payment order) (hrev : ∃ op ∈ ops, op.IsReversal) :
    ∀ g ∈ (ledgerRun owner db ops).ledger.bonusCredits payment order,
      ∃ e ∈ (ledgerRun owner db ops).ledger.entries, ∃ r,
        e.idempotencyKey = .referralReversal (grantOpId order payment) g.userId r := by
  obtain ⟨op, hmem, hop⟩ := hrev
  obtain ⟨before, after, rfl⟩ := List.append_of_mem hmem
  obtain ⟨h₁, -⟩ := ledgerRun_onTopup owner h hsome before fun op' hop' => hops op' (by simp [hop'])
  obtain ⟨new, hb⟩ := ledgerStep_reversal owner h₁ hsome (hops op hmem) hop
  obtain ⟨h₂, hnew⟩ := ledgerRun_onTopup owner hb.books hsome after
    fun op' hop' => hops op' (by simp [hop'])
  rw [ledgerRun, Lib.run_append, Lib.run_cons]
  intro g hg
  obtain ⟨hgl, hkey⟩ := (h₂.mem_bonusCredits hsome).mp hg
  -- a bonus of the top-up was there before its first reversal
  have hg₁ : g ∈ (ledgerRun owner db before).ledger.entries := by
    have hno : ¬ EntryOnTopup (grantOpId order payment) g := by
      rintro (⟨u, r, hk⟩ | ⟨op', u, hne, hk⟩)
      · rw [hkey] at hk; cases hk
      · rw [hkey] at hk
        cases hk
        exact hne rfl
    have hg₂ := (hnew g hgl).resolve_right hno
    rw [hb.entries_eq] at hg₂
    exact (List.mem_append.mp hg₂).resolve_right fun hmem => hno (.inl (hb.keys g hmem))
  obtain ⟨e, he, hr⟩ := hb.done g ((h₁.mem_bonusCredits hsome).mpr ⟨hg₁, hkey⟩)
  exact ⟨e, mem_entries_ledgerRun owner after he, hr⟩

/-- Exact reversal: after any history and any reversals of one top-up, with any refund ids and with
    bonuses for other top-ups in between, no more than each bonus of the top-up is booked back, all
    of it once there was one reversal, and nothing is booked back of any other bonus. -/
theorem referral_reversal_exact (db₀ : Db) (ops₀ : List LedgerOp) (h₀ : ∀ op ∈ ops₀, op.Called)
    (payment : Option PaymentId) (order : Option OrderId) (hsome : payment.isSome ∨ order.isSome)
    (ops : List LedgerOp) (hops : ∀ op ∈ ops, op.OnTopup payment order) :
    let db := ledgerRun owner { db₀ with ledger := {} } ops₀
    let db' := ledgerRun owner db ops
    (∀ g ∈ db'.ledger.bonusCredits payment order, db'.ledger.alreadyReversed g ≤ g.amount ∧
      ((∃ op ∈ ops, op.IsReversal) → db'.ledger.alreadyReversed g = g.amount)) ∧
    ∀ g ∈ db'.ledger.entries, Ledger.IsBonus g.userId g →
      g.metadata.sourceType = some referralBonusSource →
      g ∉ db'.ledger.bonusCredits payment order →
      ∀ r ∈ db'.ledger.entries, r ∉ db.ledger.entries →
        r.metadata.originalCreditId ≠ some g.id := by
  intro db db'
  have h : db.ledger.ReferralBooks :=
    Lib.run_inv_of_forall (I := fun db : Db => db.ledger.ReferralBooks) (ledgerStep owner)
      (fun _ _ h hop => ledgerStep_referralBooks owner h hop) ops₀ _ referralBooks_empty h₀
  obtain ⟨h', hnew⟩ := ledgerRun_onTopup owner h hsome ops hops
  refine ⟨fun g hg => ?_, fun g hg hb hsource hother r hr hr₀ hlink => ?_⟩
  · obtain ⟨hgl, hkey⟩ := (h'.mem_bonusCredits hsome).mp hg
    have hpos := (h'.bonus g hgl _ _ hkey).1.2.2
    constructor
    · rcases h'.alreadyReversed_cases hgl hkey with ⟨-, hfull⟩ | hzero
      · exact hfull.le
      · exact hzero.le.trans hpos.le
    · intro hrev
      exact h'.settled g hgl _ _ hkey (ledgerRun_reversed owner h hsome ops hops hrev g hg)
  · rcases (hnew r hr).resolve_left hr₀ with ⟨u, x, hk⟩ | ⟨op', u, -, hk⟩
    · obtain ⟨-, ht, -⟩ := h'.reversal r hr _ _ _ hk
      obtain ⟨op'', u', x', hk', g', hg', hid, hkey⟩ := h'.linked r hr ht _ hlink
      have hgg := h'.eq_of_id hg' hg hid
      subst hgg
      rw [hk] at hk'
      cases hk'
      refine hother ((h'.mem_bonusCredits hsome).mpr ⟨hg, ?_⟩)
      rw [hkey, (h'.bonus g' hg _ _ hkey).1.1]
    · rw [(h'.bonus r hr _ _ hk).2] at hlink
      cases op' <;> cases hlink

end Topup

/-- Two reversals of a top-up with a bonus of another one in between. -/
def reversedTwice : List LedgerOp :=
  [.reverseBonus 1 none (some 1) (some "first"), .grantBonus 2 1 none (some 2) 200,
    .reverseBonus 3 none (some 1) none]

/-- The bonus of 15 rubles is booked back once. -/
theorem referral_reversal_exact_twice :
    let db' := ledgerRun (fun o => o)
      (ledgerRun (fun o => o) { users := referralUsers } topupAndBonus) reversedTwice
    (db'.ledger.bonusCredits none (some 1)).length = 1 ∧
      ∀ g ∈ db'.ledger.bonusCredits none (some 1), db'.ledger.alreadyReversed g = g.amount := by
  have hops : ∀ op ∈ reversedTwice, op.OnTopup none (some 1) := by
    simp [reversedTwice, LedgerOp.OnTopup, grantOpId]
  have h := referral_reversal_exact (fun o => o) { users := referralUsers } topupAndBonus
    (by simp [topupAndBonus, LedgerOp.Called]) none (some 1) (.inr rfl) reversedTwice hops
  refine ⟨by decide +kernel, fun g hg => (h.1 g hg).2 ⟨_, List.mem_cons_self, trivial⟩⟩

end Just1kBot
