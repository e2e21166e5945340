import Just1kBot.Orders.Checkout
import Just1kBot.Orders.PaymentGateway

/-! Many transactions of `create_order` with the gateway between them.

    A transaction holds the lock of its user from the search for an open order on the same terms to
    its end. It inserts its order, asks for the payment, and commits after the answer; the payment
    exists as soon as the request reaches the gateway. Meanwhile the orders of other users are
    placed and everything else happens to the committed ones. -/

namespace Just1kBot

/-! ### The rows -/

/-- A row as it goes into `create_order`: a gateway order that is not placed yet. -/
def Order.Unplaced (o : Order) : Prop :=
  o.paymentMethod ≠ .wallet ∧ o.status = .pending ∧ o.externalId = none ∧ o.paymentUrl = none

/-- The order is open, with a link to pay it. -/
def Order.Offers (o : Order) : Prop := o.status = .pending ∧ o.paymentUrl.isSome

/-- What the search for an open order compares. -/
def Order.SameTerms (a b : Order) : Prop :=
  a.userId = b.userId ∧ a.serviceType = b.serviceType ∧ a.tariffId = b.tariffId ∧
    a.durationDays = b.durationDays ∧ a.trafficBytes = b.trafficBytes ∧
    a.deviceLimit = b.deviceLimit ∧ a.paymentMethod = b.paymentMethod ∧ a.amountRub = b.amountRub

/-- What others make of a committed row: nothing changes what its payment was made for, and an order
    that offers its link has offered it from the start, on these terms. -/
def Order.Continues (o o' : Order) : Prop :=
  o'.payload = o.payload ∧ (o'.Offers → o.Offers ∧ o.SameTerms o' ∧ o'.createdAt = o.createdAt ∧
    o'.paymentUrl = o.paymentUrl)

/-- The row with the id and the time it is inserted with. -/
def Order.stamped (o : Order) (id : OrderId) (now : Time) : Order :=
  { o with id := id, createdAt := now }

instance (o : Order) : Decidable o.Unplaced := by unfold Order.Unplaced; infer_instance
instance (o : Order) : Decidable o.Offers := by unfold Order.Offers; infer_instance
instance (a b : Order) : Decidable (a.SameTerms b) := by unfold Order.SameTerms; infer_instance
instance (a b : Order) : Decidable (a.Continues b) := by unfold Order.Continues; infer_instance

/-- The answer of the gateway changes nothing of that. -/
theorem WithAnswer.payload_eq {o o' : Order} (h : WithAnswer o o') : o'.payload = o.payload := by
  obtain ⟨_, _, _, rfl⟩ := h
  rfl

/-! ### The transactions -/

/-- A transaction has found no open order; it waits for the gateway; it has its invoice. -/
inductive CreationStage
  | cleared | calling | invoiced (externalId paymentUrl : String)
  deriving DecidableEq

/-- A transaction of `create_order` that holds the lock of its user, with its row. -/
structure PaymentAttempt where
  order : Order
  stage : CreationStage
  deriving DecidableEq

/-- The committed tables, the open transactions, and the requests and payments at the gateway.
    `drawn` are the ids that were drawn so far. -/
structure CreationState where
  db : Db
  now : Time := 0
  drawn : List OrderId := []
  attempts : List PaymentAttempt := []
  requests : List PaymentPayload := []
  payments : List PaymentPayload := []

/-- Time passes; a transaction gets the lock of its user and searches; it inserts its order and asks
    for the payment; it sees what comes of that; it commits; it dies, at any point. The gateway
    creates a payment, or refuses it. Others change the tables. -/
inductive CreationEvent
  | tick (d : ℕ)
  | lock (order : Order)
  | insert (userId : UserId) (id : OrderId)
  | respond (userId : UserId) (outcome : HttpOutcome)
  | finish (userId : UserId)
  | die (userId : UserId)
  | create (p : PaymentPayload)
  | refuse (p : PaymentPayload)
  | others (db : Db)

namespace CreationState

/-- The transaction that holds the lock of a user. -/
def attempt (s : CreationState) (u : UserId) : Option PaymentAttempt :=
  s.attempts.find? fun a => a.order.userId = u

/-- The transaction of a user ends. -/
def close (s : CreationState) (u : UserId) : CreationState :=
  { s with attempts := s.attempts.filter fun a => a.order.userId ≠ u }

/-- It goes on with another stage. -/
def advance (s : CreationState) (a : PaymentAttempt) : CreationState :=
  { s with attempts := (s.close a.order.userId).attempts ++ [a] }

/-- It commits its order with the answer of the gateway, or rolls everything back. -/
def commit (s : CreationState) (order : Order) (answer : InvoiceAnswer) : CreationState :=
  { s.close order.userId with
    db := Lib.commit s.db
      (requestPayment { s.db with orders := s.db.orders ++ [order] } order answer) }

def lock (s : CreationState) (order : Order) : CreationState :=
  if ¬ order.Unplaced ∨ (s.attempt order.userId).isSome then s
  else
    match (s.db.duplicateOrder s.now order).filter fun o => o.paymentUrl ≠ some "" with
    | some _ => s
    | none =>
      { s with attempts := s.attempts ++ [⟨{ order with createdAt := s.now }, .cleared⟩] }

/-- What the gateway has of a request: it is on its way, or there is the payment. -/
def asked (s : CreationState) : List PaymentPayload := s.requests ++ s.payments

/-- The request comes to an end for the client; one that is not refused has no refusal for it. -/
def respond (s : CreationState) (u : UserId) (outcome : HttpOutcome) : CreationState :=
  match s.attempt u with
  | some ⟨order, .calling⟩ =>
    if outcome.Refused ∧ order.payload ∈ s.asked then s
    else
      match createPaymentUrl order.id outcome with
      | .invoice externalId paymentUrl => s.advance ⟨order, .invoiced externalId paymentUrl⟩
      | answer => s.commit order answer
  | _ => s

/-- What others may commit: they keep every row, and the rows they insert are no gateway orders and
    have new ids. -/
def Allows (s : CreationState) (db : Db) : Prop :=
  List.Forall₂ Order.Continues s.db.orders (db.orders.take s.db.orders.length) ∧
    ∀ o ∈ db.orders.drop s.db.orders.length, ¬ o.Offers ∧ o.id ∉ s.drawn

instance (s : CreationState) (db : Db) : Decidable (s.Allows db) := by
  unfold Allows
  infer_instance

variable (tariffs : List Tariff)

/-- The order gets an id that was never drawn. -/
def insert (s : CreationState) (u : UserId) (id : OrderId) : CreationState :=
  match s.attempt u with
  | some ⟨order, .cleared⟩ =>
    if id ∈ s.drawn then s
    else
      match s.db.addOrder tariffs (order.stamped id s.now) with
      | .error _ => s.close u
      | .ok _ =>
        { s.advance ⟨order.stamped id s.now, .calling⟩ with
          drawn := s.drawn ++ [id]
          requests := s.requests ++ [(order.stamped id s.now).payload] }
  | _ => s

def step (s : CreationState) : CreationEvent → CreationState
  | .tick d => { s with now := s.now + d }
  | .lock order => s.lock order
  | .insert u id => s.insert tariffs u id
  | .respond u outcome => s.respond u outcome
  | .finish u =>
    match s.attempt u with
    | some ⟨order, .invoiced externalId paymentUrl⟩ =>
      s.commit order (.invoice externalId paymentUrl)
    | _ => s
  | .die u => s.close u
  | .create p =>
    if p ∈ s.requests then { s with requests := s.requests.erase p, payments := s.payments ++ [p] }
    else s
  | .refuse p => { s with requests := s.requests.erase p }
  | .others db => if s.Allows db then { s with db := db } else s

/-! ### What a payment needs -/

/-- A transaction has the order of the payment, inserted but not committed. -/
def Holds (a : PaymentAttempt) (p : PaymentPayload) : Prop :=
  a.stage ≠ .cleared ∧ a.order.payload = p

/-- Every payment that there is, and every one there may yet be, has its order, in the tables or in
    an open transaction, with the id and the amount the payment has. -/
def Backed (s : CreationState) : Prop :=
  ∀ p ∈ s.asked, (∃ o ∈ s.db.orders, o.payload = p) ∨ ∃ a ∈ s.attempts, Holds a p

/-- The order that an event throws away: a transaction dies after it inserted its order, misreads
    the answer of the gateway, or finds another order with the id of its payment. -/
def discards (s : CreationState) : CreationEvent → Option Order
  | .respond u outcome =>
    match s.attempt u with
    | some ⟨order, .calling⟩ => if outcome.Misread then some order else none
    | _ => none
  | .finish u =>
    match s.attempt u with
    | some ⟨order, .invoiced externalId _⟩ =>
      if ∃ o ∈ s.db.orders, o.id ≠ order.id ∧ o.externalId = some externalId then some order
      else none
    | _ => none
  | .die u => (s.attempt u).bind fun a => if a.stage = .cleared then none else some a.order
  | _ => none

/-- The order that is thrown away has no payment, and will have none. -/
def Keeps (s : CreationState) (e : CreationEvent) : Prop :=
  ∀ o ∈ s.discards e, o.payload ∉ s.asked

/-! ### What a step can do -/

/-- The search found no open order on the same terms. -/
def Clear (s : CreationState) (order : Order) : Prop :=
  ∀ o ∈ s.db.duplicateOrder s.now order, o.paymentUrl = some ""

/-- The moves of the system, with the order that is thrown away. -/
inductive Move (s : CreationState) : Option Order → CreationState → Prop
  | idle (now : Time) (requests payments : List PaymentPayload) (hnow : s.now ≤ now)
      (hasked : ∀ p ∈ requests ++ payments, p ∈ s.asked) :
      Move s none { s with now, requests, payments }
  | locked (order : Order) (hfree : s.attempt order.userId = none) (hnew : order.Unplaced)
      (hclear : s.Clear order) :
      Move s none
        { s with attempts := s.attempts ++ [⟨{ order with createdAt := s.now }, .cleared⟩] }
  | inserted (order : Order) (id : OrderId) (h : ⟨order, .cleared⟩ ∈ s.attempts)
      (hdrawn : id ∉ s.drawn) (hid : s.db.order id = none) :
      Move s none
        { s.advance ⟨order.stamped id s.now, .calling⟩ with
          drawn := s.drawn ++ [id]
          requests := s.requests ++ [(order.stamped id s.now).payload] }
  | invoiced (order : Order) (externalId paymentUrl : String) (h : ⟨order, .calling⟩ ∈ s.attempts)
      (hurl : paymentUrl ≠ "") : Move s none (s.advance ⟨order, .invoiced externalId paymentUrl⟩)
  | committed (a : PaymentAttempt) (order : Order) (h : a ∈ s.attempts)
      (hstage : a.stage ≠ .cleared) (hwith : WithAnswer a.order order)
      (hurl : order.paymentUrl ≠ some "") :
      Move s none { s.close a.order.userId with
        db := { s.db with orders := s.db.orders ++ [order] } }
  | released (a : PaymentAttempt) (h : a ∈ s.attempts)
      (hfree : a.stage = .cleared ∨ a.order.payload ∉ s.asked) :
      Move s none (s.close a.order.userId)
  | lost (a : PaymentAttempt) (h : a ∈ s.attempts) (hstage : a.stage ≠ .cleared) :
      Move s (some a.order) (s.close a.order.userId)
  | others (db : Db) (h : s.Allows db) : Move s none { s with db := db }

variable {s : CreationState} {a : PaymentAttempt} {u : UserId} {order : Order}

theorem mem_of_attempt (h : s.attempt u = some a) : a ∈ s.attempts ∧ a.order.userId = u :=
  ⟨List.mem_of_find?_eq_some h, by simpa using List.find?_some h⟩

theorem user_ne_of_attempt (h : s.attempt u = none) {b : PaymentAttempt} (hb : b ∈ s.attempts) :
    b.order.userId ≠ u := by
  simpa using List.find?_eq_none.mp h b hb

theorem mem_close {b : PaymentAttempt} :
    b ∈ (s.close u).attempts ↔ b ∈ s.attempts ∧ b.order.userId ≠ u := by
  rw [close, List.mem_filter, decide_eq_true_eq]

theorem mem_advance {b : PaymentAttempt} : b ∈ (s.advance a).attempts ↔
    (b ∈ s.attempts ∧ b.order.userId ≠ a.order.userId) ∨ b = a := by
  rw [advance, List.mem_append, mem_close, List.mem_singleton]

theorem close_of_none (h : s.attempt u = none) : s.close u = s := by
  have hall : s.attempts.filter (fun a => a.order.userId ≠ u) = s.attempts := by
    refine List.filter_eq_self.mpr fun a ha => ?_
    exact decide_eq_true (user_ne_of_attempt h ha)
  rw [close, hall]

/-- Nothing happens. -/
theorem Move.still (s : CreationState) : Move s none s :=
  .idle s.now s.requests s.payments le_rfl fun _ => id

theorem not_misread_of_refused {outcome : HttpOutcome} (h : outcome.Refused) :
    ¬ outcome.Misread := by
  cases outcome with
  | response code body =>
    simp only [HttpOutcome.Refused] at h
    cases body with
    | error failure => exact id
    | ok data => cases data <;> simp only [HttpOutcome.Misread] <;> omega
  | _ => cases h

/-- Writing the row that was just inserted. -/
theorem putOrder_append {db : Db} {o o' : Order} (hnew : db.order o.id = none) (hid : o'.id = o.id) :
    { db with orders := db.orders ++ [o] }.putOrder o' =
      { db with orders := db.orders ++ [o'] } := by
  rw [Db.putOrder, Lib.Table.put_append_of_lookup_none Order.id hnew hid]

/-- An order is committed with its invoice unless another order has the id of the payment. -/
theorem commit_invoice {externalId paymentUrl : String} (hid : s.db.order order.id = none) :
    s.commit order (.invoice externalId paymentUrl) =
      if ∃ o ∈ s.db.orders, o.id ≠ order.id ∧ o.externalId = some externalId then
        s.close order.userId
      else
        { s.close order.userId with
          db := { s.db with orders := s.db.orders ++
            [{ order with externalId := some externalId, paymentUrl := some paymentUrl }] } } := by
  rw [commit, requestPayment, Db.flushOrder]
  by_cases htaken : ∃ o ∈ s.db.orders, o.id ≠ order.id ∧ o.externalId = some externalId
  · rw [if_pos htaken]
    obtain ⟨o, ho, hne, hext⟩ := htaken
    rw [if_pos ⟨rfl, o, List.mem_append_left _ ho, hne, hext⟩]
    rfl
  · rw [if_neg htaken, if_neg]
    · rw [Except.map, Lib.commit_ok, putOrder_append hid]
      rfl
    · rintro ⟨-, o, ho, hne, hext⟩
      rcases List.mem_append.mp ho with ho | ho
      · exact htaken ⟨o, ho, hne, hext⟩
      · exact hne (by rw [List.mem_singleton.mp ho])

theorem commit_ambiguous (hid : s.db.order order.id = none) :
    s.commit order .ambiguous = { s.close order.userId with
      db := { s.db with orders := s.db.orders ++ [{ order with
        metadata := { order.metadata with paymentCreationAmbiguous := true } }] } } := by
  rw [commit, requestPayment, Lib.commit_ok, putOrder_append hid]
  rfl

/-! ### A transaction alone -/

theorem attempt_append {a : PaymentAttempt} (hfree : s.attempt a.order.userId = none) :
    ({ s with attempts := s.attempts ++ [a] }).attempt a.order.userId = some a := by
  rw [attempt] at hfree ⊢
  rw [List.find?_append, hfree, Option.none_or, List.find?_singleton, decide_eq_true rfl]
  rfl

theorem attempt_close (s : CreationState) (u : UserId) : (s.close u).attempt u = none := by
  rw [attempt, List.find?_eq_none]
  intro a ha
  simpa using (mem_close.mp ha).2

theorem attempt_advance (s : CreationState) (a : PaymentAttempt) :
    (s.advance a).attempt a.order.userId = some a :=
  attempt_append (s := s.close a.order.userId) (attempt_close s _)

/-- Without a transaction of the user there is nothing to answer or to commit. -/
theorem db_of_free {tariffs : List Tariff} (hfree : s.attempt u = none) (p : PaymentPayload)
    (outcome : HttpOutcome) :
    (Lib.run (step tariffs) s [.refuse p, .respond u outcome, .finish u]).db = s.db := by
  have hrefused : attempt { s with requests := s.requests.erase p } u = none := hfree
  simp only [Lib.run_cons, Lib.run_nil, step, respond, hrefused]

/-- The answer of the gateway is committed by the transaction that waits for it. -/
theorem db_of_calling {tariffs : List Tariff} {outcome : HttpOutcome}
    (hcalling : s.attempt order.userId = some ⟨order, .calling⟩)
    (hsettled : ¬ (outcome.Refused ∧ order.payload ∈ s.asked)) :
    (Lib.run (step tariffs) s [.respond order.userId outcome, .finish order.userId]).db =
      Lib.commit s.db (requestPayment { s.db with orders := s.db.orders ++ [order] } order
        (createPaymentUrl order.id outcome)) := by
  simp only [Lib.run_cons, Lib.run_nil, step, respond, hcalling, if_neg hsettled]
  cases createPaymentUrl order.id outcome with
  | invoice externalId paymentUrl =>
    dsimp only
    rw [attempt_advance s ⟨order, .invoiced externalId paymentUrl⟩]
    rfl
  | ambiguous =>
    dsimp only
    rw [show (s.commit order .ambiguous).attempt order.userId = none from attempt_close s _]
    rfl
  | failed err =>
    dsimp only
    rw [show (s.commit order (.failed err)).attempt order.userId = none from attempt_close s _]
    rfl

/-- A transaction that nothing comes between does what `createOrder` does. -/
theorem db_alone (tariffs : List Tariff) (s : CreationState) (req : OrderRequest) (id : OrderId)
    (outcome : HttpOutcome) (hmethod : req.paymentMethod ≠ .wallet)
    (hfree : s.attempt req.userId = none) (hdrawn : id ∉ s.drawn)
    (hasked : ∀ p ∈ s.asked, p.orderId ≠ id) :
    let order := quotedOrder tariffs s.db s.now id req
    (Lib.run (step tariffs) s [.lock order, .insert req.userId id, .refuse order.payload,
        .respond req.userId outcome, .finish req.userId]).db =
      Lib.commit s.db
        (createOrder tariffs s.db s.now id (createPaymentUrl id outcome) req) := by
  intro order
  have hnew : order.Unplaced := ⟨hmethod, rfl, rfl, rfl⟩
  have hlock : s.lock order =
      match (s.db.duplicateOrder s.now order).filter fun o => o.paymentUrl ≠ some "" with
      | some _ => s
      | none => { s with attempts := s.attempts ++ [⟨order, .cleared⟩] } := by
    rw [lock, if_neg]
    · rfl
    · rw [show s.attempt order.userId = none from hfree]
      simpa using hnew
  have hcreate : createOrder tariffs s.db s.now id (createPaymentUrl id outcome) req =
      match (s.db.duplicateOrder s.now order).filter fun o => o.paymentUrl ≠ some "" with
      | some existing => .ok (some existing, s.db)
      | none => s.db.addOrder tariffs order >>= fun db =>
        requestPayment db order (createPaymentUrl id outcome) := if_neg hmethod
  rw [Lib.run_cons, step, hlock, hcreate]
  cases (s.db.duplicateOrder s.now order).filter fun o => o.paymentUrl ≠ some "" with
  | some existing =>
    dsimp only
    rw [Lib.run_cons, step, insert, hfree]
    exact db_of_free hfree _ _
  | none =>
    dsimp only
    have hcleared : attempt { s with attempts := s.attempts ++ [⟨order, .cleared⟩] } req.userId =
        some ⟨order, .cleared⟩ := attempt_append (a := ⟨order, .cleared⟩) hfree
    rw [Lib.run_cons, step, insert, hcleared]
    dsimp only
    rw [if_neg hdrawn, show order.stamped id s.now = order from rfl]
    cases hadd : s.db.addOrder tariffs order with
    | error err => exact db_of_free (attempt_close _ _) _ _
    | ok db =>
      obtain ⟨-, rfl⟩ := Db.addOrder_ok hadd
      dsimp only
      rw [Lib.run_cons]
      refine @db_of_calling _ order tariffs outcome
        (attempt_advance { s with attempts := s.attempts ++ [⟨order, .cleared⟩] }
          ⟨order, .calling⟩) fun h => ?_
      have hnone : order.payload ∉ s.asked := fun hmem => hasked _ hmem rfl
      have hrequests : (s.requests ++ [order.payload]).erase order.payload = s.requests := by
        rw [List.erase_append_right _ fun hmem => hnone (List.mem_append_left _ hmem)]
        simp
      refine hnone ?_
      rw [asked, ← hrequests]
      exact h.2

/-! ### What others change -/

theorem exists_of_forall₂ {α β : Type} {R : α → β → Prop} {l : List α} {l' : List β}
    (h : List.Forall₂ R l l') : (∀ x ∈ l, ∃ y ∈ l', R x y) ∧ ∀ y ∈ l', ∃ x ∈ l, R x y := by
  induction h with
  | nil => simp
  | @cons x y l l' hr _ ih =>
    constructor
    · refine List.forall_mem_cons.mpr ⟨⟨y, List.mem_cons_self, hr⟩, fun x' hx' => ?_⟩
      obtain ⟨y', hy', hr'⟩ := ih.1 x' hx'
      exact ⟨y', List.mem_cons_of_mem _ hy', hr'⟩
    · refine List.forall_mem_cons.mpr ⟨⟨x, List.mem_cons_self, hr⟩, fun y' hy' => ?_⟩
      obtain ⟨x', hx', hr'⟩ := ih.2 y' hy'
      exact ⟨x', List.mem_cons_of_mem _ hx', hr'⟩

/-- Every row is still there. -/
theorem Allows.continues {db : Db} (h : s.Allows db) {o : Order} (ho : o ∈ s.db.orders) :
    ∃ o' ∈ db.orders, o.Continues o' := by
  obtain ⟨o', ho', hr⟩ := (exists_of_forall₂ h.1).1 o ho
  exact ⟨o', List.mem_of_mem_take ho', hr⟩

/-- A row was there before, or is none of a gateway order. -/
theorem Allows.origin {db : Db} (h : s.Allows db) {o' : Order} (ho' : o' ∈ db.orders) :
    (∃ o ∈ s.db.orders, o.Continues o') ∨ ¬ o'.Offers ∧ o'.id ∉ s.drawn := by
  rw [← List.take_append_drop s.db.orders.length db.orders] at ho'
  rcases List.mem_append.mp ho' with ho' | ho'
  · exact .inl ((exists_of_forall₂ h.1).2 o' ho')
  · exact .inr (h.2 o' ho')

end CreationState

end Just1kBot
