import Just1kBot.Orders.PaymentCreation

/-! Every payment has its order.

    A payment may exist as soon as it is requested, and only its order tells whose it is: a webhook
    about a payment without an order settles nothing. So no transaction may throw its order away
    while the gateway has the request. -/

namespace Just1kBot
namespace CreationState

variable {tariffs : List Tariff} {s s' : CreationState} {a b : PaymentAttempt} {u : UserId}
  {order : Order} {thrown : Option Order}

/-- Every user has one transaction, and the order it inserted is new to the tables and to the other
    transactions. It has no link yet, and the one it may get is not empty. -/
structure Sound (s : CreationState) : Prop where
  alone : ∀ a ∈ s.attempts, ∀ b ∈ s.attempts, a.order.userId = b.order.userId → a = b
  fresh : ∀ a ∈ s.attempts, a.stage ≠ .cleared →
    a.order.id ∈ s.drawn ∧ s.db.order a.order.id = none
  unplaced : ∀ a ∈ s.attempts, a.order.paymentUrl = none
  links : ∀ a ∈ s.attempts, ∀ externalId url, a.stage = .invoiced externalId url → url ≠ ""
  apart : ∀ a ∈ s.attempts, ∀ b ∈ s.attempts, a.stage ≠ .cleared → b.stage ≠ .cleared →
    a.order.id = b.order.id → a = b

/-! ### Every step is a move -/

theorem move_lock (s : CreationState) (order : Order) : Move s none (s.lock order) := by
  rw [lock]
  split_ifs with hbusy
  · exact .still s
  · obtain ⟨hnew, hfree⟩ := not_or.mp hbusy
    split
    · exact .still s
    · rename_i hclear
      refine .locked order (by simpa using hfree) (not_not.mp hnew) fun o ho => ?_
      by_contra hurl
      have hfound : (s.db.duplicateOrder s.now order).filter (fun o => o.paymentUrl ≠ some "") =
          some o := by
        rw [Option.mem_def.mp ho, Option.filter_some, if_pos (decide_eq_true hurl)]
      rw [hclear] at hfound
      cases hfound

theorem move_insert (s : CreationState) (u : UserId) (id : OrderId) :
    Move s none (s.insert tariffs u id) := by
  rw [insert]
  split
  · rename_i order ha
    obtain ⟨hmem, rfl⟩ := mem_of_attempt ha
    split_ifs with hdrawn
    · exact .still s
    · split
      · exact .released _ hmem (.inl rfl)
      · rename_i db hadd
        exact .inserted order id hmem hdrawn (Db.addOrder_ok hadd).1
  · exact .still s

theorem move_respond (h : s.Sound) (u : UserId) (outcome : HttpOutcome) :
    Move s (s.discards (.respond u outcome)) (s.respond u outcome) := by
  rw [respond, discards]
  split
  · rename_i order ha
    obtain ⟨hmem, rfl⟩ := mem_of_attempt ha
    have hid := (h.fresh _ hmem (by simp)).2
    split_ifs with hmisread hrefused hrefused
    · exact absurd hmisread (not_misread_of_refused hrefused.1)
    · -- the answer fails, and the order with it
      have hfails : ∃ err, createPaymentUrl order.id outcome = .failed err :=
        createPaymentUrl_failed_iff.mpr (.inr hmisread)
      obtain ⟨err, herr⟩ := hfails
      rw [herr]
      exact .lost _ hmem (by simp)
    · exact .still s
    · cases hanswer : createPaymentUrl order.id outcome with
      | invoice externalId paymentUrl =>
        exact .invoiced order externalId paymentUrl hmem (createPaymentUrl_url hanswer)
      | ambiguous =>
        dsimp only
        rw [commit_ambiguous hid]
        refine .committed _ _ hmem (by simp) ⟨_, _, true, rfl⟩ ?_
        rw [h.unplaced _ hmem]
        simp
      | failed err =>
        have hfailed := (createPaymentUrl_failed_iff.mp ⟨err, hanswer⟩).resolve_right hmisread
        exact .released _ hmem (.inr fun hasked => hrefused ⟨hfailed, hasked⟩)
  · exact .still s

theorem move_step (h : s.Sound) (e : CreationEvent) :
    Move s (s.discards e) (step tariffs s e) := by
  cases e with
  | tick d => exact .idle _ _ _ (by simp) fun _ => id
  | lock order => exact move_lock s order
  | insert u id => exact move_insert s u id
  | respond u outcome => exact move_respond h u outcome
  | finish u =>
    rw [step, discards]
    split
    · rename_i order externalId paymentUrl ha
      obtain ⟨hmem, rfl⟩ := mem_of_attempt ha
      rw [commit_invoice (h.fresh _ hmem (by simp)).2]
      split_ifs with htaken
      · exact .lost _ hmem (by simp)
      · refine .committed _ _ hmem (by simp) ⟨_, _, order.metadata.paymentCreationAmbiguous, rfl⟩ ?_
        exact fun hurl => h.links _ hmem _ _ rfl (Option.some.inj hurl)
    · exact .still s
  | die u =>
    rw [step, discards]
    cases ha : s.attempt u with
    | none =>
      rw [close_of_none ha]
      exact .still s
    | some a =>
      obtain ⟨hmem, rfl⟩ := mem_of_attempt ha
      rw [Option.bind_some]
      split_ifs with hstage
      · exact .released a hmem (.inl hstage)
      · exact .lost a hmem hstage
  | create p =>
    rw [step]
    split_ifs with hp
    · refine .idle s.now _ _ le_rfl fun q hq => ?_
      simp only [List.mem_append, List.mem_singleton] at hq
      rcases hq with hq | hq | rfl
      · exact List.mem_append_left _ (List.mem_of_mem_erase hq)
      · exact List.mem_append_right _ hq
      · exact List.mem_append_left _ hp
    · exact .still s
  | refuse p =>
    refine .idle s.now _ _ le_rfl fun q hq => ?_
    rcases List.mem_append.mp hq with hq | hq
    · exact List.mem_append_left _ (List.mem_of_mem_erase hq)
    · exact List.mem_append_right _ hq
  | others db =>
    rw [step]
    split_ifs with hdb
    · exact .others db hdb
    · exact .still s

/-! ### The transactions stay apart -/

theorem Sound.of_sub (h : s.Sound) (hsub : ∀ a ∈ s'.attempts, a ∈ s.attempts)
    (hfresh : ∀ a ∈ s'.attempts, a.stage ≠ .cleared →
      a.order.id ∈ s'.drawn ∧ s'.db.order a.order.id = none) : s'.Sound where
  alone a ha b hb := h.alone a (hsub a ha) b (hsub b hb)
  fresh := hfresh
  unplaced a ha := h.unplaced a (hsub a ha)
  links a ha := h.links a (hsub a ha)
  apart a ha b hb := h.apart a (hsub a ha) b (hsub b hb)

/-- A transaction begins or goes on, with an order that no other one has. -/
theorem Sound.add (h : s.Sound) (c : PaymentAttempt)
    (hmem : ∀ a ∈ s'.attempts, a ∈ s.attempts ∧ a.order.userId ≠ c.order.userId ∨ a = c)
    (hdb : s'.db = s.db) (hdrawn : ∀ id ∈ s.drawn, id ∈ s'.drawn)
    (hunplaced : c.order.paymentUrl = none)
    (hlinks : ∀ externalId url, c.stage = .invoiced externalId url → url ≠ "")
    (hfresh : c.stage ≠ .cleared → c.order.id ∈ s'.drawn ∧ s.db.order c.order.id = none)
    (hapart : c.stage ≠ .cleared → ∀ a ∈ s.attempts, a.order.userId ≠ c.order.userId →
      a.stage ≠ .cleared → a.order.id ≠ c.order.id) : s'.Sound where
  alone a ha b hb huser := by
    rcases hmem a ha with ⟨ha, hau⟩ | rfl
    · rcases hmem b hb with ⟨hb, -⟩ | rfl
      · exact h.alone a ha b hb huser
      · exact absurd huser hau
    · rcases hmem b hb with ⟨-, hbu⟩ | rfl
      · exact absurd huser.symm hbu
      · rfl
  fresh a ha hstage := by
    rw [hdb]
    rcases hmem a ha with ⟨ha, -⟩ | rfl
    · exact ⟨hdrawn _ (h.fresh a ha hstage).1, (h.fresh a ha hstage).2⟩
    · exact hfresh hstage
  unplaced a ha := by
    rcases hmem a ha with ⟨ha, -⟩ | rfl
    · exact h.unplaced a ha
    · exact hunplaced
  links a ha := by
    rcases hmem a ha with ⟨ha, -⟩ | rfl
    · exact h.links a ha
    · exact hlinks
  apart a ha b hb hsa hsb hid := by
    rcases hmem a ha with ⟨ha, hau⟩ | rfl
    · rcases hmem b hb with ⟨hb, -⟩ | rfl
      · exact h.apart a ha b hb hsa hsb hid
      · exact absurd hid (hapart hsb a ha hau hsa)
    · rcases hmem b hb with ⟨hb, hbu⟩ | rfl
      · exact absurd hid.symm (hapart hsa b hb hbu hsb)
      · rfl

theorem order_eq_none_iff {db : Db} {id : OrderId} :
    db.order id = none ↔ ∀ o ∈ db.orders, o.id ≠ id := by
  rw [Db.order, Lib.Table.lookup, List.find?_eq_none]
  simp

theorem Sound.move (h : s.Sound) (hm : s.Move thrown s') : s'.Sound := by
  cases hm with
  | idle now requests payments hnow hasked => exact h.of_sub (fun _ => id) h.fresh
  | locked order hfree hnew hclear =>
    refine h.add ⟨{ order with createdAt := s.now }, .cleared⟩ (fun a ha => ?_) rfl (fun _ => id)
      hnew.2.2.2 (by simp) (absurd rfl) (absurd rfl)
    rcases List.mem_append.mp ha with ha | ha
    · exact .inl ⟨ha, user_ne_of_attempt hfree ha⟩
    · exact .inr (List.mem_singleton.mp ha)
  | inserted order id hmem hdrawn hid =>
    refine h.add ⟨order.stamped id s.now, .calling⟩ (fun a => mem_advance.mp) rfl
      (fun _ => List.mem_append_left _) (h.unplaced ⟨order, .cleared⟩ hmem) (by simp)
      (fun _ => ⟨List.mem_append_right _ (List.mem_singleton.mpr rfl), hid⟩)
      fun _ a ha _ hstage heq => hdrawn ?_
    rw [← show a.order.id = id from heq]
    exact (h.fresh a ha hstage).1
  | invoiced order externalId paymentUrl hmem hurl =>
    refine h.add ⟨order, .invoiced externalId paymentUrl⟩ (fun a => mem_advance.mp) rfl
      (fun _ => id) (h.unplaced ⟨order, .calling⟩ hmem) (fun _ _ heq => ?_)
      (fun _ => h.fresh ⟨order, .calling⟩ hmem (by simp))
      fun _ a ha hau hstage heq => ?_
    · cases heq
      exact hurl
    · rw [h.apart a ha _ hmem hstage (by simp) heq] at hau
      exact hau rfl
  | committed a order hmem hstage hwith hurl =>
    refine h.of_sub (fun b hb => (mem_close.mp hb).1) fun b hb hbs => ?_
    obtain ⟨hb, hbu⟩ := mem_close.mp hb
    obtain ⟨hdrawn, hnone⟩ := h.fresh b hb hbs
    refine ⟨hdrawn, order_eq_none_iff.mpr fun o ho => ?_⟩
    rcases List.mem_append.mp ho with ho | ho
    · exact order_eq_none_iff.mp hnone o ho
    · intro hid
      have heq : order.id = a.order.id := congrArg PaymentPayload.orderId hwith.payload_eq
      rw [List.mem_singleton.mp ho, heq] at hid
      rw [h.apart b hb a hmem hbs hstage hid.symm] at hbu
      exact hbu rfl
  | released a hmem hfree =>
    exact h.of_sub (fun b hb => (mem_close.mp hb).1) fun b hb => h.fresh b (mem_close.mp hb).1
  | lost a hmem hstage =>
    exact h.of_sub (fun b hb => (mem_close.mp hb).1) fun b hb => h.fresh b (mem_close.mp hb).1
  | others db hdb =>
    refine h.of_sub (fun _ => id) fun a ha hstage => ?_
    obtain ⟨hdrawn, hnone⟩ := h.fresh a ha hstage
    refine ⟨hdrawn, order_eq_none_iff.mpr fun o' ho' hid => ?_⟩
    rcases hdb.origin ho' with ⟨o, ho, hcontinues⟩ | ⟨-, hforeign⟩
    · refine order_eq_none_iff.mp hnone o ho ?_
      rw [← hid]
      exact (congrArg PaymentPayload.orderId hcontinues.1).symm
    · exact hforeign (hid ▸ hdrawn)

theorem Sound.step (s : CreationState) (e : CreationEvent) (h : s.Sound) :
    (step tariffs s e).Sound := h.move (move_step h e)

/-! ### Backing -/

/-- An order that is thrown away was the only one of its payment. -/
theorem payload_of_backed_close (h : s.Sound) (hmem : a ∈ s.attempts) (hstage : a.stage ≠ .cleared)
    (hbacked : (s.close a.order.userId).Backed) : a.order.payload ∉ s.asked := by
  intro hasked
  rcases hbacked _ hasked with ⟨o, ho, heq⟩ | ⟨b, hb, hbs, heq⟩
  · have hid : o.id = a.order.id := congrArg PaymentPayload.orderId heq
    exact order_eq_none_iff.mp (h.fresh a hmem hstage).2 o ho hid
  · obtain ⟨hb, hbu⟩ := mem_close.mp hb
    have hid : b.order.id = a.order.id := congrArg PaymentPayload.orderId heq
    rw [h.apart b hb a hmem hbs hstage hid] at hbu
    exact hbu rfl

/-- A transaction may end without its order where the gateway has nothing of it. -/
theorem backed_close (h : s.Sound) (hbacked : s.Backed) (hmem : a ∈ s.attempts)
    (hfree : a.stage = .cleared ∨ a.order.payload ∉ s.asked) :
    (s.close a.order.userId).Backed := by
  intro p hp
  rcases hbacked p hp with hrow | ⟨b, hb, hbs, rfl⟩
  · exact .inl hrow
  · refine .inr ⟨b, mem_close.mpr ⟨hb, fun huser => ?_⟩, hbs, rfl⟩
    rw [h.alone b hb a hmem huser] at hbs hp
    exact hfree.elim hbs fun hasked => hasked hp

/-- A transaction that goes on still has its order. -/
theorem backed_advance (h : s.Sound) (hbacked : s.Backed) (hmem : a ∈ s.attempts)
    (huser : b.order.userId = a.order.userId) (hstage : b.stage ≠ .cleared)
    (hpayload : a.stage ≠ .cleared → b.order.payload = a.order.payload) :
    (s.advance b).Backed := by
  intro p hp
  rcases hbacked p hp with hrow | ⟨c, hc, hcs, rfl⟩
  · exact .inl hrow
  · by_cases hcu : c.order.userId = b.order.userId
    · have hca : c = a := h.alone c hc a hmem (hcu.trans huser)
      exact .inr ⟨b, mem_advance.mpr (.inr rfl), hstage, hca ▸ hpayload (hca ▸ hcs)⟩
    · exact .inr ⟨c, mem_advance.mpr (.inl ⟨hc, hcu⟩), hcs, rfl⟩

/-- A move keeps every payment backed exactly where it throws no order of a payment away. -/
theorem backed_move_iff (h : s.Sound) (hbacked : s.Backed) (hm : s.Move thrown s') :
    s'.Backed ↔ ∀ o ∈ thrown, o.payload ∉ s.asked := by
  have hnone : ∀ o ∈ (none : Option Order), o.payload ∉ s.asked := by simp
  cases hm with
  | lost a hmem hstage =>
    constructor
    · rintro hs' _ ⟨⟩
      exact payload_of_backed_close h hmem hstage hs'
    · exact fun hkeeps => backed_close h hbacked hmem (.inr (hkeeps _ rfl))
  | idle now requests payments hnow hasked =>
    exact iff_of_true (fun p hp => hbacked p (hasked p hp)) hnone
  | locked order hfree hnew hclear =>
    refine iff_of_true (fun p hp => ?_) hnone
    rcases hbacked p hp with hrow | ⟨b, hb, hholds⟩
    · exact .inl hrow
    · exact .inr ⟨b, List.mem_append_left _ hb, hholds⟩
  | inserted order id hmem hdrawn hid =>
    refine iff_of_true (fun p hp => ?_) hnone
    have hnext : (s.advance ⟨order.stamped id s.now, .calling⟩).Backed :=
      backed_advance h hbacked hmem rfl (by simp) (absurd rfl)
    simp only [asked, List.mem_append, List.mem_singleton] at hp
    rcases hp with (hp | rfl) | hp
    · exact hnext p (List.mem_append_left _ hp)
    · exact .inr ⟨_, mem_advance.mpr (.inr rfl), (by simp), rfl⟩
    · exact hnext p (List.mem_append_right _ hp)
  | invoiced order externalId paymentUrl hmem hurl =>
    exact iff_of_true (backed_advance h hbacked hmem rfl (by simp) fun _ => rfl) hnone
  | committed a order hmem hstage hwith hurl =>
    refine iff_of_true (fun p hp => ?_) hnone
    rcases hbacked p hp with ⟨o, ho, heq⟩ | ⟨b, hb, hbs, rfl⟩
    · exact .inl ⟨o, List.mem_append_left _ ho, heq⟩
    · by_cases huser : b.order.userId = a.order.userId
      · rw [h.alone b hb a hmem huser]
        exact .inl ⟨order, List.mem_append_right _ (List.mem_singleton.mpr rfl), hwith.payload_eq⟩
      · exact .inr ⟨b, mem_close.mpr ⟨hb, huser⟩, hbs, rfl⟩
  | released a hmem hfree => exact iff_of_true (backed_close h hbacked hmem hfree) hnone
  | others db hdb =>
    refine iff_of_true (fun p hp => ?_) hnone
    rcases hbacked p hp with ⟨o, ho, rfl⟩ | hheld
    · obtain ⟨o', ho', hcontinues⟩ := hdb.continues ho
      exact .inl ⟨o', ho', hcontinues.1⟩
    · exact .inr hheld

/-- In a run that begins with any tables and no transactions, every payment that exists or may still
    come to exist has its order at every point exactly where no transaction throws away an order
    whose payment the gateway has or may still create. -/
theorem backed_iff_keeps (db : Db) (now : Time) (es : List CreationEvent) :
    Lib.Throughout (step tariffs) Backed { db, now } es ↔
      Lib.Always (step tariffs) Keeps { db, now } es := by
  refine Lib.throughout_iff (step tariffs) (J := Sound) Sound.step (fun s e h hbacked => ?_) es _
    (by constructor <;> simp) (by simp [Backed, asked])
  exact backed_move_iff h hbacked (move_step h e)

end CreationState
end Just1kBot
