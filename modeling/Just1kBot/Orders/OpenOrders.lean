import Just1kBot.Orders.PaymentBacked

/-! No two open orders on the same terms within a quarter of an hour.

    A second click finds the order of the first one, or waits for the lock until it is committed.
    The order that is inserted is younger than the search, and whatever was open when it searched is
    older by the whole window. -/

namespace Just1kBot

/-- The window of the search. -/
def dedupWindow : Time := seconds (15 * 60)

/-- Of two open orders on the same terms the later one is younger by more than the window. -/
def Order.Distant (a b : Order) : Prop :=
  a.Offers → b.Offers → a.SameTerms b → a.createdAt + dedupWindow < b.createdAt

instance (a b : Order) : Decidable (a.Distant b) := by unfold Order.Distant; infer_instance

/-- All open orders have their links, and are distant from each other. -/
structure Db.Spaced (db : Db) : Prop where
  links : ∀ o ∈ db.orders, o.Offers → o.paymentUrl ≠ some ""
  distant : db.orders.Pairwise Order.Distant

namespace Order.SameTerms
variable {a b c : Order}

theorem symm (h : a.SameTerms b) : b.SameTerms a := by
  obtain ⟨h₁, h₂, h₃, h₄, h₅, h₆, h₇, h₈⟩ := h
  exact ⟨h₁.symm, h₂.symm, h₃.symm, h₄.symm, h₅.symm, h₆.symm, h₇.symm, h₈.symm⟩

theorem trans (h : a.SameTerms b) (h' : b.SameTerms c) : a.SameTerms c := by
  obtain ⟨h₁, h₂, h₃, h₄, h₅, h₆, h₇, h₈⟩ := h
  obtain ⟨h₁', h₂', h₃', h₄', h₅', h₆', h₇', h₈'⟩ := h'
  exact ⟨h₁.trans h₁', h₂.trans h₂', h₃.trans h₃', h₄.trans h₄', h₅.trans h₅', h₆.trans h₆',
    h₇.trans h₇', h₈.trans h₈'⟩

end Order.SameTerms

theorem WithAnswer.sameTerms {o o' : Order} (h : WithAnswer o o') :
    o'.SameTerms o ∧ o'.createdAt = o.createdAt := by
  obtain ⟨_, _, _, rfl⟩ := h
  exact ⟨⟨rfl, rfl, rfl, rfl, rfl, rfl, rfl, rfl⟩, rfl⟩

/-! ### The search -/

/-- The search finds an open order on the same terms wherever one is within the window. -/
theorem Db.exists_duplicate {db : Db} {now : Time} {o order : Order} (ho : o ∈ db.orders)
    (hoffers : o.Offers) (hterms : o.SameTerms order) (hrecent : now - dedupWindow ≤ o.createdAt) :
    ∃ d ∈ db.orders, d.Offers ∧ db.duplicateOrder now order = some d := by
  obtain ⟨h₁, h₂, h₃, h₄, h₅, h₆, h₇, h₈⟩ := hterms
  have hmem : o ∈ db.orders.filter fun o => o.userId = order.userId ∧
      o.serviceType = order.serviceType ∧ o.tariffId = order.tariffId ∧
      o.durationDays = order.durationDays ∧ o.trafficBytes = order.trafficBytes ∧
      o.deviceLimit = order.deviceLimit ∧ o.paymentMethod = order.paymentMethod ∧
      o.amountRub = order.amountRub ∧ o.status = .pending ∧
      now - seconds (15 * 60) ≤ o.createdAt ∧ o.paymentUrl.isSome := by
    rw [List.mem_filter, decide_eq_true_eq]
    exact ⟨ho, h₁, h₂, h₃, h₄, h₅, h₆, h₇, h₈, hoffers.1, hrecent, hoffers.2⟩
  cases hd : db.duplicateOrder now order with
  | none =>
    have hsome : (db.duplicateOrder now order).isSome :=
      List.isSome_maxOn?_iff.mpr (List.ne_nil_of_mem hmem)
    rw [hd] at hsome
    cases hsome
  | some d =>
    have hdup := List.maxOn?_mem hd
    rw [List.mem_filter, decide_eq_true_eq] at hdup
    obtain ⟨hdmem, -, -, -, -, -, -, -, -, hpending, -, hurl⟩ := hdup
    exact ⟨d, hdmem, ⟨hpending, hurl⟩, rfl⟩

namespace CreationState

variable {tariffs : List Tariff} {s s' : CreationState} {thrown : Option Order}

/-- The order of a transaction is younger than every open order on the same terms by more than the
    window. -/
structure Ahead (s : CreationState) (order : Order) : Prop where
  past : order.createdAt ≤ s.now
  distant : ∀ o ∈ s.db.orders, o.Offers → o.SameTerms order →
    o.createdAt + dedupWindow < order.createdAt

/-- The committed orders are distant from each other and from those that the transactions have. -/
structure Windowed (s : CreationState) : Prop where
  spaced : s.db.Spaced
  ahead : ∀ a ∈ s.attempts, s.Ahead a.order

/-- A search that found nothing. -/
theorem ahead_of_clear {order : Order} (h : s.Windowed) (hclear : s.Clear order) :
    s.Ahead { order with createdAt := s.now } where
  past := le_rfl
  distant o ho hoffers hterms := by
    by_contra hclose
    have hrecent : s.now - dedupWindow ≤ o.createdAt := sub_le_iff_le_add.mpr (not_lt.mp hclose)
    obtain ⟨d, hd, hdoffers, hfound⟩ := Db.exists_duplicate ho hoffers hterms hrecent
    exact h.spaced.links d hd hdoffers (hclear d hfound)

theorem pairwise_of_forall₂ {α β : Type} {C : α → β → Prop} {R : α → α → Prop} {S : β → β → Prop}
    (hRS : ∀ a a' b b', C a a' → C b b' → R a b → S a' b') {l : List α} {l' : List β}
    (h : List.Forall₂ C l l') (hl : l.Pairwise R) : l'.Pairwise S := by
  induction h with
  | nil => exact .nil
  | cons hc hrest ih =>
    obtain ⟨hhead, htail⟩ := List.pairwise_cons.mp hl
    refine List.pairwise_cons.mpr ⟨fun b' hb' => ?_, ih htail⟩
    obtain ⟨b, hb, hcb⟩ := (exists_of_forall₂ hrest).2 b' hb'
    exact hRS _ _ _ _ hc hcb (hhead b hb)

/-- An order that offers its link after a change offered it before, on the same terms. -/
theorem distant_of_continues {a a' b b' : Order} (ha : a.Continues a') (hb : b.Continues b')
    (h : a.Distant b) : a'.Distant b' := by
  intro hoffers hoffers' hterms
  obtain ⟨hao, hat, hac, -⟩ := ha.2 hoffers
  obtain ⟨hbo, hbt, hbc, -⟩ := hb.2 hoffers'
  rw [hac, hbc]
  exact h hao hbo ((hat.trans hterms).trans hbt.symm)

theorem spaced_others {db : Db} (h : s.db.Spaced) (hdb : s.Allows db) : db.Spaced where
  links o' ho' hoffers := by
    rcases hdb.origin ho' with ⟨o, ho, hcontinues⟩ | ⟨hforeign, -⟩
    · obtain ⟨hbefore, -, -, hurl⟩ := hcontinues.2 hoffers
      exact hurl ▸ h.links o ho hbefore
    · exact absurd hoffers hforeign
  distant := by
    obtain ⟨hrows, hforeign⟩ := hdb
    rw [← List.take_append_drop s.db.orders.length db.orders]
    refine List.pairwise_append.mpr ⟨?_, ?_, fun a _ b hb _ hoffers => ?_⟩
    · exact pairwise_of_forall₂ (C := Order.Continues) (R := Order.Distant)
        (fun _ _ _ _ => distant_of_continues) hrows h.distant
    · refine List.pairwise_of_forall_mem_list fun a ha b _ => ?_
      intro hoffers
      exact absurd hoffers (hforeign a ha).1
    · exact absurd hoffers (hforeign b hb).1

theorem windowed_others {db : Db} (h : s.Windowed) (hdb : s.Allows db) :
    Windowed { s with db := db } where
  spaced := spaced_others h.spaced hdb
  ahead a ha :=
    { past := (h.ahead a ha).past
      distant := fun o' ho' hoffers hterms => by
        rcases hdb.origin ho' with ⟨o, ho, hcontinues⟩ | ⟨hforeign, -⟩
        · obtain ⟨hbefore, hsame, hcreated, -⟩ := hcontinues.2 hoffers
          rw [hcreated]
          exact (h.ahead a ha).distant o ho hbefore (hsame.trans hterms)
        · exact absurd hoffers hforeign }

/-- A transaction commits its order. -/
theorem windowed_committed {a : PaymentAttempt} {order : Order} (h : s.Windowed)
    (hmem : a ∈ s.attempts) (hwith : WithAnswer a.order order) (hurl : order.paymentUrl ≠ some "") :
    Windowed { s.close a.order.userId with
      db := { s.db with orders := s.db.orders ++ [order] } } where
  spaced :=
    { links := fun o ho hoffers => by
        rcases List.mem_append.mp ho with ho | ho
        · exact h.spaced.links o ho hoffers
        · rw [List.mem_singleton.mp ho]
          exact hurl
      distant := by
        refine List.pairwise_append.mpr ⟨h.spaced.distant, List.pairwise_singleton _ _, ?_⟩
        intro o ho b hb hoffers _ hterms
        rw [List.mem_singleton.mp hb] at hterms ⊢
        obtain ⟨hsame, hcreated⟩ := hwith.sameTerms
        rw [hcreated]
        exact (h.ahead a hmem).distant o ho hoffers (hterms.trans hsame) }
  ahead b hb :=
    { past := (h.ahead b (mem_close.mp hb).1).past
      distant := fun o ho hoffers hterms => by
        obtain ⟨hb, hbu⟩ := mem_close.mp hb
        rcases List.mem_append.mp ho with ho | ho
        · exact (h.ahead b hb).distant o ho hoffers hterms
        · -- the user of another transaction is another one
          rw [List.mem_singleton.mp ho] at hterms
          exact absurd (hterms.symm.trans hwith.sameTerms.1).1 hbu }

theorem Windowed.move (h : s.Windowed) (hm : s.Move thrown s') : s'.Windowed := by
  cases hm with
  | idle now requests payments hnow hasked =>
    exact ⟨h.spaced, fun a ha => ⟨(h.ahead a ha).past.trans hnow, (h.ahead a ha).distant⟩⟩
  | locked order hfree hnew hclear =>
    refine ⟨h.spaced, fun a ha => ?_⟩
    rcases List.mem_append.mp ha with ha | ha
    · exact ⟨(h.ahead a ha).past, (h.ahead a ha).distant⟩
    · rw [List.mem_singleton.mp ha]
      exact ⟨(ahead_of_clear h hclear).past, (ahead_of_clear h hclear).distant⟩
  | inserted order id hmem hdrawn hid =>
    refine ⟨h.spaced, fun a ha => ?_⟩
    rcases mem_advance.mp ha with ⟨ha, -⟩ | rfl
    · exact ⟨(h.ahead a ha).past, (h.ahead a ha).distant⟩
    · have hahead := h.ahead _ hmem
      exact ⟨le_rfl, fun o ho hoffers hterms =>
        (hahead.distant o ho hoffers hterms).trans_le hahead.past⟩
  | invoiced order externalId paymentUrl hmem hurl =>
    refine ⟨h.spaced, fun a ha => ?_⟩
    rcases mem_advance.mp ha with ⟨ha, -⟩ | rfl
    · exact ⟨(h.ahead a ha).past, (h.ahead a ha).distant⟩
    · exact ⟨(h.ahead _ hmem).past, (h.ahead _ hmem).distant⟩
  | committed a order hmem hstage hwith hurl => exact windowed_committed h hmem hwith hurl
  | released a hmem hfree =>
    refine ⟨h.spaced, fun b hb => ?_⟩
    exact ⟨(h.ahead b (mem_close.mp hb).1).past, (h.ahead b (mem_close.mp hb).1).distant⟩
  | lost a hmem hstage =>
    refine ⟨h.spaced, fun b hb => ?_⟩
    exact ⟨(h.ahead b (mem_close.mp hb).1).past, (h.ahead b (mem_close.mp hb).1).distant⟩
  | others db hdb => exact windowed_others h hdb

/-- However the transactions of all users, the gateway and the other changes interleave, two open
    orders of one user on the same terms never stand within the window of each other. -/
theorem orders_spaced_of_run (tariffs : List Tariff) (db : Db) (now : Time) (es : List CreationEvent)
    (h : db.Spaced) : (Lib.run (step tariffs) { db, now } es).db.Spaced := by
  have hrun : Sound (Lib.run (step tariffs) { db, now } es) ∧
      Windowed (Lib.run (step tariffs) { db, now } es) := by
    refine Lib.run_inv (step tariffs) (I := fun s => s.Sound ∧ s.Windowed)
      (fun s e hs => ⟨hs.1.step s e, hs.2.move (move_step hs.1 e)⟩) es _ ⟨?_, h, by simp⟩
    constructor <;> simp
  exact hrun.2.spaced

/-- A top-up of a user who has an open one already. -/
def topup : Order := { id := 0, userId := 7, serviceType := .topup, amountRub := 300 }

def paidPage : HttpOutcome :=
  .response 200 (.ok (.object [("id", .str "p2"),
    ("confirmation", .object [("confirmation_url", .str "https://pay/2")])]))

/-- The user clicks twice when the first order is twenty minutes old. -/
theorem orders_spaced_of_run_clicks :
    (Lib.run (step [])
      { db :=
          { users := [{ id := 7, telegramId := 70 }]
            orders := [{ topup with
              id := 1, externalId := some "p1", paymentUrl := some "https://pay/1" }] }
        now := seconds 1200 }
      [.lock topup, .insert 7 2, .lock topup, .create (topup.stamped 2 0).payload,
        .respond 7 paidPage, .finish 7, .lock topup, .insert 7 3]).db.Spaced :=
  orders_spaced_of_run [] _ _ _ ⟨by decide, by decide⟩

end CreationState
end Just1kBot
