import Just1kBot.Orders.OrderHistory

/-! The inbox of gateway events: `yookassa_webhook_handler` in `bot/handlers/webhook.py`.

    A delivery reads the inbox row of its event, processes the event unless the row is settled, and
    writes the row in the same transaction. Deliveries overlap: another one may commit between the
    read and the rest. The gateway delivers an event again until it is answered with 200, so a
    settled row must mean that there is nothing left for the event to do. -/

namespace Just1kBot

/-! ### The handler -/

/-- The statuses of an inbox row; the handler writes three of them. -/
inductive WebhookInboxStatus
  | pending | processing | retry | succeeded | dead
  deriving DecidableEq, Repr

/-- The hash of the canonical payload. -/
abbrev EventKey := String

structure WebhookResponse where
  status : ℕ
  text : String
  deriving DecidableEq, Repr

def officialYookassaEvents : List String :=
  ["payment.waiting_for_capture", "payment.succeeded", "payment.canceled", "refund.succeeded"]

def refundEvents : List String := ["refund.succeeded"]

/-- The payment an event is about: `payment_external_id` in `_validate_webhook_object`. -/
def WebhookPayload.payment (p : WebhookPayload) : Option String :=
  if p.event ∈ refundEvents then p.paymentId else some p.objectId

/-- `_validate_webhook_payload`, for a notification whose object is a JSON object. -/
def validateWebhookPayload (p : WebhookPayload) : Except Err (String × String) :=
  if p.event ∉ officialYookassaEvents then .error (.valueError "unsupported_event")
  else
    match p.payment.filter fun id => p.objectId ≠ "" ∧ id ≠ "" with
    | none => .error (.valueError "identity")
    | some paymentId => .ok (p.objectId, paymentId)

/-- The status a delivery writes: an event without an order waits, unless its row was there. -/
def inboxStatus (event : String) (existing : Option WebhookInboxStatus) (order : Option Order) :
    WebhookInboxStatus :=
  if order.isSome then .succeeded
  else if event = "refund.succeeded" then .pending
  else if existing.isSome then .dead
  else .pending

/-- The rows of `webhook_inbox`, by the key of their event. -/
abbrev Inbox := EventKey → Option WebhookInboxStatus

/-- The row of a delivery is written: `ON CONFLICT DO NOTHING` where it read none, and an update of
    a status that changes where it read one. -/
def Inbox.write (inbox : Inbox) (key : EventKey) (existing : Option WebhookInboxStatus)
    (status : WebhookInboxStatus) : Inbox :=
  if existing = some status ∨ (inbox key).isSome ≠ existing.isSome then inbox
  else Function.update inbox key (some status)

/-- `yookassa_webhook_handler` after it read the row of the event. An order that is newly paid was
    marked for its notification when it was settled. -/
def yookassaWebhookHandler (wi : WhiteInternetApi) (db : Db) (inbox : Inbox) (now : Time)
    (key : EventKey) (payload : WebhookPayload) (existing : Option WebhookInboxStatus) :
    WebhookResponse × Db × Inbox :=
  match validateWebhookPayload payload with
  | .error _ => (⟨400, "Invalid webhook"⟩, db, inbox)
  | .ok _ =>
    if existing.isSome ∧ existing ≠ some .pending then (⟨200, "OK"⟩, db, inbox)
    else
      match processWebhookEvent wi db now payload with
      | .error _ => (⟨500, "Database unavailable"⟩, db, inbox)
      | .ok (order, db) =>
        let status := inboxStatus payload.event existing order
        (if status = .pending then ⟨503, "order_pending_retry"⟩ else ⟨200, "OK"⟩,
          db, inbox.write key existing status)

/-! ### The gateway -/

/-- The events of the gateway, and the order that each payment was made for. The `metadata` of a
    payment holds the id of that order, and the id of a refund is not one of a payment. -/
structure PaymentGateway where
  events : EventKey → WebhookPayload
  orderOf : String → Option OrderId
  named : ∀ key id, (events key).orderId = some (.uuid id) →
    ∀ p ∈ (events key).payment, orderOf p = some id
  refundIds : ∀ key, (events key).event ∈ refundEvents → orderOf (events key).objectId = none

/-- The deliveries under way, with the row each of them read, and the events that had an effect. -/
structure WebhookState where
  db : Db
  inbox : Inbox := fun _ => none
  inFlight : List (EventKey × Option WebhookInboxStatus) := []
  applied : List EventKey := []

/-- A delivery arrives and reads its row; one of those under way is handled; the retention deletes
    a settled row; something else happens about orders. -/
inductive InboxEvent
  | receive (key : EventKey)
  | handle (i : ℕ) (now : Time)
  | forget (key : EventKey)
  | order (e : OrderEvent)

/-- A change of the database changed the status of the order that the payload is about. -/
def ChangesStatus (db db' : Db) (payload : WebhookPayload) : Prop :=
  ∃ a ∈ db.webhookOrder (parseWebhook payload), (db'.order a.id).map Order.status ≠ some a.status

instance (db db' : Db) (payload : WebhookPayload) : Decidable (ChangesStatus db db' payload) := by
  unfold ChangesStatus
  infer_instance

/-- Processing the event has an effect: it changes the status of its order. -/
def Applies (wi : WhiteInternetApi) (db : Db) (now : Time) (payload : WebhookPayload) : Prop :=
  ChangesStatus db (Lib.commit db (processWebhookEvent wi db now payload)) payload

instance (wi : WhiteInternetApi) (db : Db) (now : Time) (payload : WebhookPayload) :
    Decidable (Applies wi db now payload) := by
  unfold Applies
  infer_instance

namespace PaymentGateway
variable (g : PaymentGateway) (wi : WhiteInternetApi)

/-- A delivery that is under way, handled on the present state. -/
def answer (s : WebhookState) (now : Time) (d : EventKey × Option WebhookInboxStatus) :
    WebhookResponse × Db × Inbox :=
  yookassaWebhookHandler wi s.db s.inbox now d.1 (g.events d.1) d.2

def step (s : WebhookState) : InboxEvent → WebhookState
  | .receive key => { s with inFlight := s.inFlight ++ [(key, s.inbox key)] }
  | .handle i now =>
    match s.inFlight[i]? with
    | none => s
    | some d =>
      let r := g.answer wi s now d
      { db := r.2.1
        inbox := r.2.2
        inFlight := s.inFlight.eraseIdx i
        applied := if ChangesStatus s.db r.2.1 (g.events d.1) then s.applied ++ [d.1]
          else s.applied }
  | .forget key =>
    if s.inbox key = some .succeeded ∨ s.inbox key = some .dead then
      { s with inbox := Function.update s.inbox key none }
    else s
  | .order e => { s with db := orderStep wi s.db e }

end PaymentGateway

/-! ### What an event can still do -/

/-- The report can still change the status of the order, now or later. -/
def StillOpen (w : WebhookResult) (a : Order) : Prop :=
  ¬ IdentityMismatch a w ∧
    if w.isPaid then Counts w.amountRub a
    else if w.isCanceled then a.status = .pending
    else w.isRefunded = true ∧ a.status ≠ .refunded ∧ w.amountRub = some (a.amountRub : ℚ)

theorem stillOpen_paid {w : WebhookResult} (hpaid : w.isPaid = true) {a : Order} :
    StillOpen w a ↔ ¬ IdentityMismatch a w ∧ Counts w.amountRub a := by
  rw [StillOpen, if_pos hpaid]

theorem stillOpen_canceled {w : WebhookResult} (hpaid : w.isPaid = false)
    (hcanceled : w.isCanceled = true) {a : Order} :
    StillOpen w a ↔ ¬ IdentityMismatch a w ∧ a.status = .pending := by
  rw [StillOpen, hpaid, if_neg Bool.false_ne_true, if_pos hcanceled]

theorem stillOpen_refunded {w : WebhookResult} (hpaid : w.isPaid = false)
    (hcanceled : w.isCanceled = false) {a : Order} :
    StillOpen w a ↔ ¬ IdentityMismatch a w ∧ w.isRefunded = true ∧ a.status ≠ .refunded ∧
      w.amountRub = some (a.amountRub : ℚ) := by
  rw [StillOpen, hpaid, hcanceled, if_neg Bool.false_ne_true, if_neg Bool.false_ne_true]

theorem identityMismatch_of_kept {w : WebhookResult} {a b : Order} (hk : OrderKept a b)
    (h : IdentityMismatch a w) : IdentityMismatch b w := by
  rw [IdentityMismatch] at h ⊢
  split at h
  · exact h.elim
  · rename_i ext hext
    obtain ⟨hstored, hne⟩ := Option.filter_eq_some_iff.mp hext
    rw [hk.external ext hstored (of_decide_eq_true hne), Option.filter_some, if_pos hne]
    exact h

/-- What is open later was open before. -/
theorem StillOpen.of_kept {w : WebhookResult} {a b : Order} (hk : OrderKept a b)
    (h : StillOpen w b) : StillOpen w a := by
  obtain ⟨hmatch, h⟩ := h
  refine ⟨fun hm => hmatch (identityMismatch_of_kept hk hm), ?_⟩
  split_ifs at h ⊢ with hpaid hcanceled
  · exact h.of_kept hk
  · exact hk.pending_of h
  · exact ⟨h.1, fun ha => h.2.1 (hk.refunded ha), by rw [h.2.2, hk.amount]⟩

/-- What processing makes of the order it is about: nothing is left for the report to do, and an
    order that was not open to it keeps its status. -/
structure Processed (orderOf : String → Option OrderId) (w : WebhookResult) (db db' : Db)
    (a b : Order) : Prop where
  step : RowStep a b db db'
  known : Knows orderOf b
  closed : ¬ StillOpen w b
  status : ¬ StillOpen w a → b.status = a.status

section Processing
variable {orderOf : String → Option OrderId} {wi : WhiteInternetApi} {db db' : Db} {now : Time}
  {a : Order} {w : WebhookResult} {r : Option Order}

/-- The order stays open to nothing, and nothing was done. -/
theorem Processed.stay (ha : db.order a.id = some a) (hknown : Knows orderOf a)
    (h : ¬ StillOpen w a) : Processed orderOf w db db a a :=
  ⟨.refl ha, hknown, h, fun _ => rfl⟩

theorem ownPayment_of_match (hpaid : w.isPaid = true) (h : ¬ IdentityMismatch a w) :
    OwnPayment a (some w.externalId) := by
  rintro e he hne x ⟨⟩ hx
  by_contra hother
  refine h ?_
  rw [IdentityMismatch, show a.externalId = some e from he, Option.filter_some,
    if_pos (decide_eq_true hne)]
  exact .inl ⟨hpaid, hx, Ne.symm hother⟩

theorem processPaid_processed (ha : db.order a.id = some a) (hknown : Knows orderOf a)
    (hpaid : w.isPaid = true) (hmatch : ¬ IdentityMismatch a w)
    (hext : w.externalId ≠ "" → orderOf w.externalId = some a.id)
    (h : processPaid wi db now w a = .ok (r, db')) :
    r.isSome ∧ ∃ b, Processed orderOf w db db' a b := by
  obtain ⟨⟨paid, db₁⟩, hpay, hrest⟩ := Lib.bind_ok h
  have hsome : ∀ x ∈ some w.externalId, x ≠ "" → orderOf x = some a.id := by
    rintro x ⟨⟩
    exact hext
  rcases markOrderPaid_row ha hknown (ownPayment_of_match hpaid hmatch) hsome hpay with
    ⟨hr, hdb, hrefuses⟩ | ⟨b, hr, hstep, hb, hstatus⟩
  · subst hr hdb
    simp only [if_pos hrefuses.2] at hrest
    cases hrest
    have hsame : SamePayment a (lateAttemptRow w a) := ⟨rfl, rfl, rfl⟩
    refine ⟨rfl, lateAttemptRow w a, .of_put ha rfl (.of_same rfl hsame), hknown.of_same rfl hsame,
      fun ho => ?_, fun _ => rfl⟩
    exact ((stillOpen_paid hpaid).mp ho).2.accepted hrefuses
  · subst hr
    cases hrest
    refine ⟨rfl, b, hstep, hb, fun ho => ?_, fun hclosed => ?_⟩
    · have hcounts := ((stillOpen_paid hpaid).mp ho).2
      rcases hstatus with ⟨-, hbpaid⟩ | ⟨hnot, -⟩
      · exact absurd hcounts.unpaid (by rw [hbpaid]; exact lt_irrefl _)
      · exact hnot (hcounts.of_kept hstep.kept)
    · rcases hstatus with ⟨hcounts, -⟩ | ⟨-, hsame⟩
      · exact absurd ((stillOpen_paid hpaid).mpr ⟨hmatch, hcounts⟩) hclosed
      · exact hsame

theorem processCanceled_processed (ha : db.order a.id = some a) (hknown : Knows orderOf a)
    (hpaid : w.isPaid = false) (hcanceled : w.isCanceled = true)
    (hmatch : ¬ IdentityMismatch a w)
    (h : processCanceled db a = .ok (r, db')) : r.isSome ∧ ∃ b, Processed orderOf w db db' a b := by
  have hopen := @stillOpen_canceled w hpaid hcanceled
  rw [processCanceled] at h
  split_ifs at h with hpending
  · cases h
    obtain ⟨hid, hext⟩ := markOrderCanceled_same a "gateway_canceled"
    have hstatus : (markOrderCanceled a "gateway_canceled").status = .canceled := by
      rw [markOrderCanceled_pending hpending]
    refine ⟨rfl, _, .of_put ha hid (.canceled a _),
      hknown.of_external hid fun _ he _ => .inl (hext ▸ he), fun ho => ?_, fun hclosed => ?_⟩
    · exact absurd (hopen.mp ho).2 (by rw [hstatus]; decide)
    · exact absurd (hopen.mpr ⟨hmatch, hpending⟩) hclosed
  · cases h
    exact ⟨rfl, a, .stay ha hknown fun ho => hpending (hopen.mp ho).2⟩

theorem processRefund_processed (ha : db.order a.id = some a) (hknown : Knows orderOf a)
    (hpaid : w.isPaid = false) (hcanceled : w.isCanceled = false) (hrefunded : w.isRefunded = true)
    (hmatch : ¬ IdentityMismatch a w) (h : processRefund db now w a = .ok (r, db')) :
    (r = none ∧ db' = db) ∨ r.isSome ∧ ∃ b, Processed orderOf w db db' a b := by
  have hopen := @stillOpen_refunded w hpaid hcanceled
  rw [processRefund] at h
  split_ifs at h with hdone hstatus hamount
  · cases h
    exact .inr ⟨rfl, a, .stay ha hknown fun ho => (hopen.mp ho).2.2.1 hdone⟩
  · cases h
    exact .inl ⟨rfl, rfl⟩
  · cases h
    have hsame : SamePayment a (refundMismatchRow w a) := ⟨rfl, rfl, rfl⟩
    exact .inr ⟨rfl, refundMismatchRow w a, .of_put ha rfl (.of_same rfl hsame),
      hknown.of_same rfl hsame, fun ho => hamount (hopen.mp ho).2.2.2, fun _ => rfl⟩
  · obtain ⟨db₁, hback, hr⟩ := Lib.map_ok h
    cases hr
    have hrank : a.status.rank ≤ OrderStatus.rank .refunded := by
      cases a.status <;> decide
    have hstep : RowStep a (refundedRow now w a) db (db.putOrder (refundedRow now w a)) :=
      .of_put ha rfl ⟨rfl, hrank, fun _ he _ => he, fun hr =>
        absurd hr.1 (by rw [not_not.mp hstatus]; decide)⟩
    refine .inr ⟨rfl, refundedRow now w a, hstep.of_orders (takeBack_effects hback).1,
      hknown.of_same rfl ⟨rfl, rfl, rfl⟩, fun ho => (hopen.mp ho).2.2.1 rfl, fun hclosed => ?_⟩
    exact absurd (hopen.mpr ⟨hmatch, hrefunded, hdone, not_not.mp hamount⟩) hclosed

end Processing

theorem not_refund_of_paid {p : WebhookPayload} (h : (parseWebhook p).isPaid = true) :
    p.event ∉ refundEvents := by
  obtain ⟨hevent, -⟩ := (Bool.and_eq_true ..).mp h
  rw [of_decide_eq_true hevent]
  decide

namespace PaymentGateway
variable {g : PaymentGateway} {wi : WhiteInternetApi} {db db' : Db} {now : Time} {key : EventKey}

/-- The order the event is about, by the payment. -/
def about (g : PaymentGateway) (key : EventKey) : Option OrderId :=
  (g.events key).payment.bind g.orderOf

/-- The handler takes the event. -/
def Accepted (g : PaymentGateway) (key : EventKey) : Prop :=
  ∃ r, validateWebhookPayload (g.events key) = .ok r

/-- The event names its object and its payment. -/
def Valid (g : PaymentGateway) (key : EventKey) : Prop :=
  (g.events key).objectId ≠ "" ∧ ∃ p, (g.events key).payment = some p

theorem Accepted.valid (h : g.Accepted key) : g.Valid key := by
  obtain ⟨r, h⟩ := h
  rw [validateWebhookPayload] at h
  split_ifs at h
  split at h
  · cases h
  · rename_i p hp
    obtain ⟨hmem, hne⟩ := Option.filter_eq_some_iff.mp hp
    exact ⟨(of_decide_eq_true hne).1, p, hmem⟩

theorem about_eq_of_payment {p : String} {id : OrderId} (hp : (g.events key).payment = some p)
    (h : g.orderOf p = some id) : g.about key = some id := by
  rw [about, hp, Option.bind_some, h]

/-- The order that is found is the one that the payment was made for. -/
theorem about_of_found (hdb : Known g.orderOf db) (hvalid : g.Valid key) {a : Order}
    (h : db.webhookOrder (parseWebhook (g.events key)) = some a) : g.about key = some a.id := by
  have hext : ∀ ext, ext ≠ "" → db.orderByExternalId ext = some a → g.orderOf ext = some a.id :=
    fun ext hne he => by
      rw [Db.orderByExternalId] at he
      have hstored : a.externalId = some ext := by simpa using List.find?_some he
      exact hdb.external a (List.mem_of_find?_eq_some he) ext hstored hne
  rw [Db.webhookOrder, Option.or_eq_some_iff, Option.or_eq_some_iff] at h
  rcases h with (h | ⟨-, h⟩) | ⟨-, h⟩
  · split at h
    · rename_i id hid
      obtain ⟨p, hp⟩ := hvalid.2
      rw [about_eq_of_payment hp (g.named key id hid p hp), Lib.Table.key_of_lookup Order.id h]
    · cases h
  · obtain ⟨ext, hrelated, h⟩ := Option.bind_eq_some_iff.mp h
    obtain ⟨hmem, hne⟩ := Option.filter_eq_some_iff.mp hrelated
    have hevent : (g.events key).event = "refund.succeeded" := by
      by_contra hne
      simp [parseWebhook, hne] at hmem
    refine about_eq_of_payment (p := ext) ?_ (hext ext (of_decide_eq_true hne) h)
    simpa [WebhookPayload.payment, refundEvents, parseWebhook, hevent] using hmem
  · split_ifs at h with hne
    have horder := hext _ hne h
    by_cases hrefund : (g.events key).event ∈ refundEvents
    · exact absurd horder (by rw [show (parseWebhook (g.events key)).externalId =
        (g.events key).objectId from rfl, g.refundIds key hrefund]; simp)
    · exact about_eq_of_payment (if_neg hrefund) horder

/-- The gateway knows an order that it found. -/
theorem orderOf_externalId (hdb : Known g.orderOf db) (hvalid : g.Valid key) {a : Order}
    (h : db.webhookOrder (parseWebhook (g.events key)) = some a)
    (hrefund : (g.events key).event ∉ refundEvents) :
    g.orderOf (parseWebhook (g.events key)).externalId = some a.id := by
  have habout := about_of_found hdb hvalid h
  rwa [about, show (g.events key).payment = some (g.events key).objectId from if_neg hrefund,
    Option.bind_some] at habout

/-- What processing a valid event comes to, where it goes through: without an order, or with one
    that is refused or not paid yet, nothing is done; else the event is through with its order. -/
theorem process_cases (hdb : Known g.orderOf db) (hvalid : g.Valid key) {r : Option Order}
    (h : processWebhookEvent wi db now (g.events key) = .ok (r, db')) :
    (r = none ∧ db' = db ∧ ∀ a, db.webhookOrder (parseWebhook (g.events key)) = some a →
        IdentityMismatch a (parseWebhook (g.events key)) ∨
          (g.events key).event = "refund.succeeded") ∨
      r.isSome ∧ ∃ a b, db.webhookOrder (parseWebhook (g.events key)) = some a ∧
        Processed g.orderOf (parseWebhook (g.events key)) db db' a b := by
  set w := parseWebhook (g.events key) with hw
  simp only [processWebhookEvent] at h
  rw [← hw, if_neg fun hnone => hvalid.1 hnone.2] at h
  split at h
  · rename_i hnone
    cases h
    exact .inl ⟨rfl, rfl, fun a ha => absurd (hnone.symm.trans ha) (by simp)⟩
  · rename_i a hfound
    have ha := order_of_webhookOrder hdb.unique hfound
    have hknown := hdb.of_row ha
    split_ifs at h with hmatch hpaid hcanceled hrefunded
    · cases h
      refine .inl ⟨rfl, rfl, fun a' ha' => .inl ?_⟩
      obtain rfl := Option.some.inj (hfound.symm.trans ha')
      exact hmatch
    · have hevent : (g.events key).event ∉ refundEvents := not_refund_of_paid hpaid
      obtain ⟨hsome, b, hb⟩ := processPaid_processed ha hknown hpaid hmatch
        (fun _ => orderOf_externalId hdb hvalid hfound hevent) h
      exact .inr ⟨hsome, a, b, hfound, hb⟩
    · obtain ⟨hsome, b, hb⟩ := processCanceled_processed ha hknown
        (Bool.eq_false_of_not_eq_true hpaid) hcanceled hmatch h
      exact .inr ⟨hsome, a, b, hfound, hb⟩
    · rcases processRefund_processed ha hknown (Bool.eq_false_of_not_eq_true hpaid)
        (Bool.eq_false_of_not_eq_true hcanceled) hrefunded hmatch h with ⟨hr, hdb'⟩ | ⟨hsome, b, hb⟩
      · exact .inl ⟨hr, hdb', fun _ _ => .inr (of_decide_eq_true hrefunded)⟩
      · exact .inr ⟨hsome, a, b, hfound, hb⟩
    · cases h
      refine .inr ⟨rfl, a, a, hfound, .stay ha hknown fun ho => ?_⟩
      have hopen := (stillOpen_refunded (Bool.eq_false_of_not_eq_true hpaid)
        (Bool.eq_false_of_not_eq_true hcanceled)).mp ho
      exact hrefunded hopen.2.1

/-- The event has nothing left to do, whatever happens. -/
def Spent (g : PaymentGateway) (db : Db) (key : EventKey) : Prop :=
  ∀ db', Known g.orderOf db' → Later db db' → ∀ a,
    db'.webhookOrder (parseWebhook (g.events key)) = some a →
      ¬ StillOpen (parseWebhook (g.events key)) a

theorem Spent.later (h : g.Spent db key) (hlater : Later db db') : g.Spent db' key :=
  fun db'' hknown hl => h db'' hknown (hlater.trans hl)

/-- An event that is through with the order it is about is spent. -/
theorem Spent.of_row (hvalid : g.Valid key) {a : Order} (ha : db.order a.id = some a)
    (habout : g.about key = some a.id)
    (hclosed : ¬ StillOpen (parseWebhook (g.events key)) a) : g.Spent db key := by
  intro db' hknown hlater b hfound hopen
  have hid : b.id = a.id :=
    Option.some.inj ((about_of_found hknown hvalid hfound).symm.trans habout)
  obtain ⟨b', hb', hkept⟩ := hlater a.id a ha
  have hb := order_of_webhookOrder hknown.unique hfound
  rw [hid, hb'] at hb
  obtain rfl := Option.some.inj hb
  exact hclosed (hopen.of_kept hkept)

/-- An event that neither is a refund nor moves an order has nothing to do. -/
theorem Spent.of_inert (hpaid : (parseWebhook (g.events key)).isPaid = false)
    (hcanceled : (parseWebhook (g.events key)).isCanceled = false)
    (hrefund : (g.events key).event ≠ "refund.succeeded") : g.Spent db key := by
  intro db' _ _ a _ hopen
  obtain ⟨-, hrefunded, -⟩ := (stillOpen_refunded hpaid hcanceled).mp hopen
  exact hrefund (of_decide_eq_true hrefunded)

/-- A spent event changes the status of no order. -/
theorem Spent.not_changes (h : g.Spent db key) (hdb : Known g.orderOf db) (hvalid : g.Valid key) :
    ¬ Applies wi db now (g.events key) := by
  rintro ⟨a, hfound, hne⟩
  have ha := order_of_webhookOrder hdb.unique hfound
  cases hr : processWebhookEvent wi db now (g.events key) with
  | error e =>
    rw [hr, Lib.commit_error, ha] at hne
    exact hne rfl
  | ok p =>
    obtain ⟨r, db'⟩ := p
    rw [hr, Lib.commit_ok] at hne
    rcases process_cases hdb hvalid hr with ⟨-, rfl, -⟩ | ⟨-, a', b, hfound', hb⟩
    · exact hne (by rw [ha]; rfl)
    · obtain rfl := Option.some.inj (hfound.symm.trans hfound')
      rw [hb.step.row, Option.map_some, hb.status (h db hdb (.refl db) a hfound)] at hne
      exact hne rfl

/-! ### Deliveries -/

/-- A row that was settled belongs to an event that is spent. -/
def SettledSpent (g : PaymentGateway) (db : Db) (d : EventKey × Option WebhookInboxStatus) : Prop :=
  d.2.isSome → d.2 ≠ some .pending → g.Spent db d.1

theorem SettledSpent.later {d : EventKey × Option WebhookInboxStatus} (h : g.SettledSpent db d)
    (hlater : Later db db') : g.SettledSpent db' d := fun hsome hne => (h hsome hne).later hlater

/-- An event that reports a payment made for an order, or its cancellation, is handled again, after
    its row was there, only when the order is found. -/
def Visible (g : PaymentGateway) (db : Db) (d : EventKey × Option WebhookInboxStatus) : Prop :=
  let w := parseWebhook (g.events d.1)
  d.2 = some .pending → w.isPaid = true ∨ w.isCanceled = true → (g.about d.1).isSome →
    (db.webhookOrder w).isSome

instance (g : PaymentGateway) (db : Db) (d : EventKey × Option WebhookInboxStatus) :
    Decidable (g.Visible db d) := by
  unfold Visible
  infer_instance

theorem not_changesStatus (hdb : Known g.orderOf db) (payload : WebhookPayload) :
    ¬ ChangesStatus db db payload := by
  rintro ⟨a, hfound, hne⟩
  rw [order_of_webhookOrder hdb.unique hfound] at hne
  exact hne rfl

/-- The response is 200 where the row is settled. -/
theorem response_ok_iff {status : WebhookInboxStatus} :
    (if status = .pending then (⟨503, "order_pending_retry"⟩ : WebhookResponse)
      else ⟨200, "OK"⟩).status = 200 ↔ status ≠ .pending := by
  split_ifs with h <;> simp [h]

theorem write_cases (inbox : Inbox) (key : EventKey) (existing : Option WebhookInboxStatus)
    (status : WebhookInboxStatus) (key' : EventKey) :
    inbox.write key existing status key' = inbox key' ∨
      key' = key ∧ inbox.write key existing status key' = some status := by
  rw [Inbox.write]
  split_ifs
  · exact .inl rfl
  · rw [Function.update_apply]
    split_ifs with hkey
    · exact .inr ⟨hkey, rfl⟩
    · exact .inl rfl

/-- An event that was processed with a status to acknowledge is spent. -/
theorem spent_of_processed {s : WebhookState} {d : EventKey × Option WebhookInboxStatus}
    (hdb : Known g.orderOf s.db) (hvalid : g.Valid d.1) (hvisible : g.Visible s.db d)
    (hpending : d.2.isSome → d.2 = some .pending) {r : Option Order}
    (h : processWebhookEvent wi s.db now (g.events d.1) = .ok (r, db'))
    (hstatus : inboxStatus (g.events d.1).event d.2 r ≠ .pending) : g.Spent db' d.1 := by
  rcases process_cases hdb hvalid h with ⟨rfl, rfl, hfound⟩ | ⟨-, a, b, hfound, hb⟩
  · rw [inboxStatus, if_neg (by simp)] at hstatus
    split_ifs at hstatus with hevent hsome
    · exact absurd rfl hstatus
    · by_cases hmoves : (parseWebhook (g.events d.1)).isPaid = true ∨
          (parseWebhook (g.events d.1)).isCanceled = true
      · by_cases habout : (g.about d.1).isSome
        · obtain ⟨a, ha⟩ := Option.isSome_iff_exists.mp (hvisible (hpending hsome) hmoves habout)
          have hmatch := (hfound a ha).resolve_right hevent
          exact .of_row hvalid (order_of_webhookOrder hdb.unique ha) (about_of_found hdb hvalid ha)
            fun hopen => hopen.1 hmatch
        · exact fun db' hknown _ a ha _ => habout (by rw [about_of_found hknown hvalid ha]; rfl)
      · rw [not_or, Bool.not_eq_true, Bool.not_eq_true] at hmoves
        exact .of_inert hmoves.1 hmoves.2 hevent
    · exact absurd rfl hstatus
  · have hrow := hb.step.row
    rw [← hb.step.id_eq] at hrow
    exact .of_row hvalid hrow (hb.step.id_eq ▸ about_of_found hdb hvalid hfound) hb.closed

/-- A delivery leaves every payment known, and every order goes on. -/
theorem answer_sound (wi : WhiteInternetApi) {s : WebhookState} (hdb : Known g.orderOf s.db)
    (now : Time) (d : EventKey × Option WebhookInboxStatus) :
    Known g.orderOf (g.answer wi s now d).2.1 ∧ Later s.db (g.answer wi s now d).2.1 := by
  have hstay : Known g.orderOf s.db ∧ Later s.db s.db := ⟨hdb, .refl _⟩
  rw [answer, yookassaWebhookHandler]
  split
  · exact hstay
  · rename_i v hv
    split_ifs
    · exact hstay
    · split
      · exact hstay
      · rename_i r db' hr
        rcases process_cases hdb (Accepted.valid ⟨v, hv⟩) hr with
          ⟨-, rfl, -⟩ | ⟨-, a, b, hfound, hb⟩
        · exact hstay
        · exact hb.step.sound hdb (order_of_webhookOrder hdb.unique hfound) hb.known

/-- What a delivery comes to when its order is visible. -/
structure Handled (g : PaymentGateway) (wi : WhiteInternetApi) (s : WebhookState) (now : Time)
    (d : EventKey × Option WebhookInboxStatus) (r : WebhookResponse × Db × Inbox) : Prop where
  acknowledged : r.1.status = 200 → g.Accepted d.1 ∧ g.Spent r.2.1 d.1
  inbox : ∀ key, r.2.2 key = s.inbox key ∨
    key = d.1 ∧ (r.2.2 key = some .pending ∨ r.1.status = 200)
  changes : ChangesStatus s.db r.2.1 (g.events d.1) →
    g.Accepted d.1 ∧ g.Spent r.2.1 d.1 ∧ Applies wi s.db now (g.events d.1)
  applies : g.Accepted d.1 → ¬ g.Spent s.db d.1 → Applies wi s.db now (g.events d.1) →
    ChangesStatus s.db r.2.1 (g.events d.1)

theorem answer_handled {s : WebhookState} {d : EventKey × Option WebhookInboxStatus}
    (wi : WhiteInternetApi) (now : Time) (hdb : Known g.orderOf s.db)
    (hseen : g.SettledSpent s.db d) (hvisible : g.Visible s.db d) :
    g.Handled wi s now d (g.answer wi s now d) := by
  have hstay : ∀ p, ¬ ChangesStatus s.db s.db p := not_changesStatus hdb
  rw [answer, yookassaWebhookHandler]
  split
  · rename_i e he
    refine ⟨by simp, fun _ => .inl rfl, fun h => absurd h (hstay _), ?_⟩
    rintro ⟨v, hv⟩
    rw [he] at hv
    cases hv
  · rename_i v hv
    have haccepted : g.Accepted d.1 := ⟨v, hv⟩
    have hvalid := haccepted.valid
    split_ifs with hsettled
    · have hspent := hseen hsettled.1 hsettled.2
      exact ⟨fun _ => ⟨haccepted, hspent⟩, fun _ => .inl rfl, fun h => absurd h (hstay _),
        fun _ hnot => absurd hspent hnot⟩
    · have hpending : d.2.isSome → d.2 = some .pending := fun h => by
        by_contra hne
        exact hsettled ⟨h, hne⟩
      cases hr : processWebhookEvent wi s.db now (g.events d.1) with
      | error e =>
        refine ⟨by simp, fun _ => .inl rfl, fun h => absurd h (hstay _), fun _ _ h => ?_⟩
        rwa [Applies, hr] at h
      | ok p =>
        obtain ⟨r, db'⟩ := p
        have hspent := spent_of_processed hdb hvalid hvisible hpending hr
        have happlies : Applies wi s.db now (g.events d.1) ↔
            ChangesStatus s.db db' (g.events d.1) := by rw [Applies, hr, Lib.commit_ok]
        refine ⟨fun h => ⟨haccepted, hspent (response_ok_iff.mp h)⟩, fun key => ?_, fun h => ?_,
          fun _ _ => happlies.mp⟩
        · rcases write_cases s.inbox d.1 d.2 (inboxStatus (g.events d.1).event d.2 r) key with
            h | ⟨hkey, h⟩
          · exact .inl h
          · by_cases hst : inboxStatus (g.events d.1).event d.2 r = .pending
            · exact .inr ⟨hkey, .inl (by rw [← hst]; exact h)⟩
            · exact .inr ⟨hkey, .inr (response_ok_iff.mpr hst)⟩
        · refine ⟨haccepted, hspent fun hst => ?_, happlies.mpr h⟩
          rcases process_cases hdb hvalid hr with ⟨-, rfl, -⟩ | ⟨hsome, -⟩
          · exact hstay _ h
          · rw [inboxStatus, if_pos hsome] at hst
            cases hst

end PaymentGateway

/-! ### Runs -/

/-- Orders are placed with the payments that were made for them. -/
def InboxEvent.Honest (g : PaymentGateway) : InboxEvent → Prop
  | .order e => e.Honest g.orderOf
  | _ => True

/-- The delivery that is handled finds its order, if its row was there before. -/
def InboxEvent.OrderVisible (g : PaymentGateway) (s : WebhookState) : InboxEvent → Prop
  | .handle i _ => ∀ d ∈ s.inFlight[i]?, g.Visible s.db d
  | _ => True

/-- No event has its effect twice, an event is acknowledged only when it had its effect or can have
    none in any later state, and an event that can have its effect gets it. -/
structure SafeDelivery (g : PaymentGateway) (wi : WhiteInternetApi) (s : WebhookState)
    (e : InboxEvent) : Prop where
  once : (g.step wi s e).applied.Nodup
  acknowledged : ∀ i now d, e = .handle i now → s.inFlight[i]? = some d →
    (g.answer wi s now d).1.status = 200 → d.1 ∈ (g.step wi s e).applied ∨
      ∀ es : List InboxEvent, (∀ e ∈ es, e.Honest g) → ∀ now',
        ¬ Applies wi (Lib.run (g.step wi) (g.step wi s e) es).db now' (g.events d.1)
  redelivered : ∀ i now d, e = .handle i now → s.inFlight[i]? = some d → g.Accepted d.1 →
    Applies wi s.db now (g.events d.1) → d.1 ∈ (g.step wi s e).applied

/-- The invariant: what was applied or settled is spent. -/
structure InboxSound (g : PaymentGateway) (s : WebhookState) : Prop where
  known : Known g.orderOf s.db
  nodup : s.applied.Nodup
  applied : ∀ key ∈ s.applied, g.Accepted key ∧ g.Spent s.db key
  settled : ∀ key, g.SettledSpent s.db (key, s.inbox key)
  seen : ∀ d ∈ s.inFlight, g.SettledSpent s.db d

section Runs
variable {g : PaymentGateway} {wi : WhiteInternetApi} {s : WebhookState} {e : InboxEvent}

theorem step_sound (wi : WhiteInternetApi) (hdb : Known g.orderOf s.db) (he : e.Honest g) :
    Known g.orderOf (g.step wi s e).db ∧ Later s.db (g.step wi s e).db := by
  have hstay : Known g.orderOf s.db ∧ Later s.db s.db := ⟨hdb, .refl _⟩
  cases e with
  | receive => exact hstay
  | handle i now =>
    rw [PaymentGateway.step]
    split
    · exact hstay
    · exact PaymentGateway.answer_sound wi hdb now _
  | forget =>
    rw [PaymentGateway.step]
    split_ifs
    · exact hstay
    · exact hstay
  | order e => exact orderStep_sound wi hdb he

theorem run_sound (wi : WhiteInternetApi) (es : List InboxEvent) (hes : ∀ e ∈ es, e.Honest g)
    (hdb : Known g.orderOf s.db) :
    Known g.orderOf (Lib.run (g.step wi) s es).db ∧ Later s.db (Lib.run (g.step wi) s es).db := by
  refine Lib.run_inv_of_forall (I := fun t => Known g.orderOf t.db ∧ Later s.db t.db) (g.step wi)
    (fun t e ht he => ?_) es s ⟨hdb, .refl _⟩ hes
  obtain ⟨hknown, hlater⟩ := step_sound wi ht.1 he
  exact ⟨hknown, ht.2.trans hlater⟩

/-- Time goes on: what was spent stays so. -/
theorem InboxSound.later (h : InboxSound g s) {db : Db} (hdb : Known g.orderOf db)
    (hlater : Later s.db db) : InboxSound g { s with db := db } where
  known := hdb
  nodup := h.nodup
  applied key hkey := ⟨(h.applied key hkey).1, (h.applied key hkey).2.later hlater⟩
  settled key := (h.settled key).later hlater
  seen d hd := (h.seen d hd).later hlater

/-- An event that was applied has no effect any more. -/
theorem InboxSound.not_mem_applied (h : InboxSound g s) {key : EventKey} {now : Time}
    (happlies : Applies wi s.db now (g.events key)) : key ∉ s.applied := fun hmem =>
  (h.applied key hmem).2.not_changes h.known (h.applied key hmem).1.valid happlies

theorem InboxSound.handle (h : InboxSound g s) {i : ℕ} {now : Time}
    {d : EventKey × Option WebhookInboxStatus} (hd : s.inFlight[i]? = some d)
    (hvisible : g.Visible s.db d) : InboxSound g (g.step wi s (.handle i now)) := by
  have hseen := h.seen d (List.mem_of_getElem? hd)
  obtain ⟨hknown, hlater⟩ := PaymentGateway.answer_sound wi h.known now d
  have hhandled := PaymentGateway.answer_handled wi now h.known hseen hvisible
  have hsound := h.later hknown hlater
  simp only [PaymentGateway.step, hd]
  refine ⟨hknown, ?_, fun key hkey => ?_, fun key => ?_, fun d' hd' => ?_⟩
  · split_ifs with hchanges
    · have hnew := h.not_mem_applied (hhandled.changes hchanges).2.2
      exact List.nodup_append.mpr ⟨h.nodup, List.nodup_singleton _, fun x hx y hy => by
        rw [List.mem_singleton.mp hy]
        exact fun heq => hnew (heq ▸ hx)⟩
    · exact h.nodup
  · split_ifs at hkey with hchanges
    · rcases List.mem_append.mp hkey with hkey | hkey
      · exact hsound.applied key hkey
      · rw [List.mem_singleton.mp hkey]
        exact ⟨(hhandled.changes hchanges).1, (hhandled.changes hchanges).2.1⟩
    · exact hsound.applied key hkey
  · show g.SettledSpent (g.answer wi s now d).2.1 (key, (g.answer wi s now d).2.2 key)
    rcases hhandled.inbox key with hrow | ⟨rfl, hrow | hok⟩
    · rw [hrow]
      exact hsound.settled key
    · exact fun _ hne => absurd hrow hne
    · exact fun _ _ => (hhandled.acknowledged hok).2
  · exact hsound.seen d' (List.mem_of_mem_eraseIdx hd')

/-- The step lemma: a step whose order is visible keeps the invariant. -/
theorem InboxSound.step (h : InboxSound g s) (he : e.Honest g) (hv : e.OrderVisible g s) :
    InboxSound g (g.step wi s e) := by
  cases e with
  | receive key =>
    refine ⟨h.known, h.nodup, h.applied, h.settled, fun d hd => ?_⟩
    rcases List.mem_append.mp hd with hd | hd
    · exact h.seen d hd
    · rw [List.mem_singleton.mp hd]
      exact h.settled key
  | handle i now =>
    cases hd : s.inFlight[i]? with
    | none =>
      simp only [PaymentGateway.step, hd]
      exact h
    | some d => exact h.handle hd (hv d hd)
  | forget key =>
    rw [PaymentGateway.step]
    split_ifs
    · refine ⟨h.known, h.nodup, h.applied, fun key' => ?_, h.seen⟩
      simp only [Function.update_apply]
      split_ifs
      · exact fun hsome => absurd hsome (by simp)
      · exact h.settled key'
    · exact h
  | order e =>
    obtain ⟨hknown, hlater⟩ := orderStep_sound wi h.known he
    exact h.later hknown hlater

theorem InboxSound.safe (h : InboxSound g s) (he : e.Honest g) (hv : e.OrderVisible g s) :
    SafeDelivery g wi s e := by
  have hnext : InboxSound g (g.step wi s e) := h.step he hv
  refine ⟨hnext.nodup, ?_, ?_⟩
  · rintro i now d rfl hd hok
    have hhandled := PaymentGateway.answer_handled wi now h.known
      (h.seen d (List.mem_of_getElem? hd)) (hv d hd)
    obtain ⟨haccepted, hspent⟩ := hhandled.acknowledged hok
    refine .inr fun es hes now' => ?_
    obtain ⟨hknown, hlater⟩ := run_sound wi es hes hnext.known
    have hspent' : g.Spent (g.step wi s (.handle i now)).db d.1 := by
      simpa only [PaymentGateway.step, hd] using hspent
    exact (hspent'.later hlater).not_changes hknown haccepted.valid
  · rintro i now d rfl hd haccepted happlies
    have hhandled := PaymentGateway.answer_handled wi now h.known
      (h.seen d (List.mem_of_getElem? hd)) (hv d hd)
    have hnot : ¬ g.Spent s.db d.1 := fun hspent =>
      hspent.not_changes h.known haccepted.valid happlies
    simp only [PaymentGateway.step, hd]
    rw [if_pos (hhandled.applies haccepted hnot happlies)]
    simp

/-- Deliveries in any number and order, interleaved with the creation of the orders and with all
    that happens to them: where a delivery after the first one finds its order, no event has its
    effect twice, and none is acknowledged before it had its effect or can have none any more. -/
theorem inbox_safe (g : PaymentGateway) (wi : WhiteInternetApi) (db : Db) (es : List InboxEvent)
    (hdb : Known g.orderOf db) (hes : ∀ e ∈ es, e.Honest g)
    (h : Lib.Always (g.step wi) (fun s e => e.OrderVisible g s) { db := db } es) :
    Lib.Always (g.step wi) (SafeDelivery g wi) { db := db } es := by
  have hstart : InboxSound g { db := db } :=
    ⟨hdb, List.nodup_nil, by simp, fun _ hsome => by simp at hsome, by simp⟩
  have hguard := Lib.always_and (g.step wi) es _ (Lib.always_of_forall (g.step wi) es _ hes) h
  exact Lib.always_of_inv_of_always (g.step wi) (fun s e hs hG => hs.step hG.1 hG.2)
    (fun s e hs hG => hs.safe hG.1 hG.2) es _ hstart hguard

end Runs

instance (g : PaymentGateway) (s : WebhookState) : DecidablePred (InboxEvent.OrderVisible g s) := by
  intro e
  cases e <;> unfold InboxEvent.OrderVisible <;> infer_instance

/-- The payment of a top-up is the one event of the gateway. -/
def topupGateway : PaymentGateway where
  events _ := topupPayment
  orderOf ext := if ext = "pay" then some 1 else none
  named := by
    rintro - id ⟨⟩ p hp
    rw [show p = "pay" by simpa [WebhookPayload.payment, topupPayment, refundEvents] using hp.symm,
      if_pos rfl]
  refundIds := by
    rintro - h
    exact absurd h (by decide)

/-- The users of the top-up, before it is ordered. -/
def topupUnordered : Db := { topupOrdered with orders := [] }

theorem topupUnordered_known : Known topupGateway.orderOf topupUnordered :=
  ⟨List.nodup_nil, by simp [topupUnordered]⟩

/-- The event is delivered before the order is visible, and again, twice at once, after it. -/
def earlyDelivery : List InboxEvent :=
  [.receive "key", .handle 0 0, .order (.place topupOrder), .receive "key", .receive "key",
    .handle 1 1, .handle 0 2]

theorem earlyDelivery_honest : ∀ e ∈ earlyDelivery, e.Honest topupGateway := by
  simp [earlyDelivery, InboxEvent.Honest, OrderEvent.Honest, Knows, topupOrder, topupGateway]

theorem inbox_safe_early : Lib.Always (topupGateway.step closedService)
    (SafeDelivery topupGateway closedService) { db := topupUnordered } earlyDelivery :=
  inbox_safe topupGateway closedService topupUnordered earlyDelivery topupUnordered_known
    earlyDelivery_honest (by decide +kernel)

/-- Delivered twice before the order is visible, the payment is given up: the answer is 200, and the
    order that is placed then would be paid by it. -/
theorem payment_given_up : ¬ ∀ (g : PaymentGateway) (wi : WhiteInternetApi) (db : Db)
    (es : List InboxEvent), Known g.orderOf db → (∀ e ∈ es, e.Honest g) →
      Lib.Always (g.step wi) (SafeDelivery g wi) { db := db } es := by
  intro h
  obtain ⟨-, -, -, hsafe, -⟩ := h topupGateway closedService topupUnordered
    [.receive "key", .handle 0 0, .receive "key", .handle 0 1] topupUnordered_known
    (by simp [InboxEvent.Honest])
  rcases hsafe.acknowledged 0 1 ("key", some .pending) rfl (by decide +kernel) (by decide +kernel)
    with hmem | hnever
  · exact absurd hmem (by decide +kernel)
  · exact hnever [.order (.place topupOrder)]
      (by simp [InboxEvent.Honest, OrderEvent.Honest, Knows, topupOrder, topupGateway]) 2
      (by decide +kernel)

end Just1kBot
