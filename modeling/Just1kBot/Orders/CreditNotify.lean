import Just1kBot.Lib.Debt
import Just1kBot.Lib.Transition
import Just1kBot.Orders.GatewayCancel

/-! The pushes that announce a credited order: `services/workers/credit_notifications.py`, the
    markers of `services/order_notifications.py` and the immediate delivery of
    `bot/handlers/webhook.py`.

    The state is one order row with the deliveries that are under way. A statement under the row
    lock is one event; between two events of a delivery anything else may run. The webhook keeps
    the row it loaded, without a lock, until its push is sent. -/

namespace Just1kBot.CreditNotify
open Lib (Debt)

def maxNotifyAttempts : ℕ := 10

def creditNotifyRetentionDays : ℤ := 30

/-- The order row, with the referrer's attempt counter of its metadata and whether the ledger has
    a `payment_credit` entry for it. -/
structure Row where
  order : Order
  referrerNotifyAttempts : Option ℕ := none
  hasCredit : Bool := false
  deriving DecidableEq, Repr

/-- What became of a push. -/
inductive NotifyResult
  | accepted | failed | forbidden
  deriving DecidableEq, Repr

/-- The recipient's row in `users`. -/
inductive Recipient
  | gone | blocked | reachable
  deriving DecidableEq, Repr

/-- What a step of the worker finds outside the order row. -/
structure Env where
  now : Time := 0
  user : Recipient := .reachable
  referrer : Recipient := .reachable
  result : NotifyResult := .accepted
  deriving DecidableEq, Repr

/-! ### The marks -/

namespace Row

/-- `mark_notified`. -/
def markNotified (r : Row) : Row := { r with order := Just1kBot.markNotified r.order }

/-- `mark_referrer_notified`. -/
def markReferrerNotified (r : Row) : Row :=
  { r with
    order := { r.order with metadata := { r.order.metadata with referrerNotifyPending := none } }
    referrerNotifyAttempts := none }

/-- `_note_failed_owner_attempt`. -/
def noteFailedOwnerAttempt (r : Row) : Row :=
  let attempts := r.order.metadata.lateNotifyAttempts.getD 0 + 1
  if maxNotifyAttempts ≤ attempts then r.markNotified
  else { r with order := { r.order with
    metadata := { r.order.metadata with lateNotifyAttempts := some attempts } } }

/-- `_note_failed_referrer_attempt`. -/
def noteFailedReferrerAttempt (r : Row) : Row :=
  let attempts := r.referrerNotifyAttempts.getD 0 + 1
  if maxNotifyAttempts ≤ attempts then r.markReferrerNotified
  else { r with referrerNotifyAttempts := some attempts }

end Row

/-! ### The worker -/

/-- The owner's part of a snapshot. -/
inductive OwnerPush
  | anomaly
  | drop
  | send (serviceType : OrderServiceType)
  deriving DecidableEq, Repr

/-- The referrer's part of a snapshot. -/
inductive ReferrerPush
  | drop
  | send (bonus : ℤ)
  deriving DecidableEq, Repr

/-- The order is past the time its pushes are kept for. -/
def retentionExpired (now : Time) (o : Order) : Bool :=
  decide (days creditNotifyRetentionDays < now - o.paidAt.getD o.createdAt)

/-- The owner's part of `_snapshot`: the row was read before, the ledger and the user now. -/
def ownerPush (env : Env) (copy : Row) (hasCredit : Bool) : Option OwnerPush :=
  if copy.order.metadata.lateNotifyPending = false then none
  else if copy.order.status ≠ .paid then some .drop
  else if copy.order.serviceType = .topup ∧ hasCredit = false then some .anomaly
  else
    match env.user with
    | .gone => some .drop
    | .blocked => if retentionExpired env.now copy.order then some .drop else none
    | .reachable => some (.send copy.order.serviceType)

/-- The referrer's part of `_snapshot`. -/
def referrerPush (env : Env) (copy : Row) : Option ReferrerPush :=
  match copy.order.metadata.referrerNotifyPending with
  | none => none
  | some debt =>
    if copy.order.status ≠ .paid ∨ env.referrer = .gone ∨ debt.bonus ≤ 0 ∨
        (env.referrer = .blocked ∧ retentionExpired env.now copy.order = true) then some .drop
    else if env.referrer = .blocked then none
    else some (.send debt.bonus)

/-- `_finalize_attempt`. -/
def finalizeAttempt (r : Row) : Row :=
  if r.order.metadata.lateNotifyPending then r.noteFailedOwnerAttempt else r

/-- The owner's part of `_finalize_delivery`. -/
def finalizeOwner (ownerOk : Option NotifyResult) (r : Row) : Row :=
  match ownerOk with
  | none => r
  | some ok =>
    if r.order.metadata.lateNotifyPending then
      match ok with
      | .accepted => r.markNotified
      | .forbidden => r
      | .failed => r.noteFailedOwnerAttempt
    else r

/-- The referrer's part of `_finalize_delivery`. -/
def finalizeReferrer (refOk : Option NotifyResult) (r : Row) : Row :=
  match refOk with
  | none => r
  | some ok =>
    if r.order.metadata.referrerNotifyPending.isSome then
      match ok with
      | .accepted => r.markReferrerNotified
      | .forbidden => r
      | .failed => r.noteFailedReferrerAttempt
    else r

/-- `_finalize_delivery`. -/
def finalizeDelivery (ownerOk refOk : Option NotifyResult) (r : Row) : Row :=
  if r.order.status ≠ .paid then r.markNotified.markReferrerNotified
  else finalizeReferrer refOk (finalizeOwner ownerOk r)

/-- Where `_deliver_one` stands: what it does next. -/
inductive Delivery
  | loaded (copy : Row)
  | anomaly
  | dropOwner (ref : Option ReferrerPush)
  | dropReferrer (owner : Option OwnerPush)
  | sendOwner (serviceType : OrderServiceType) (ref : Option ReferrerPush)
  | sendReferrer (ownerOk : Option NotifyResult) (bonus : ℤ)
  | finalize (ownerOk refOk : Option NotifyResult)
  | done
  deriving DecidableEq, Repr

/-- `_deliver_one` from its snapshot on, and again after a dead debt is dropped. -/
def dispatch : Option OwnerPush → Option ReferrerPush → Delivery
  | none, none => .done
  | some .anomaly, _ => .anomaly
  | some .drop, ref => .dropOwner ref
  | some (.send t), some .drop => .dropReferrer (some (.send t))
  | none, some .drop => .dropReferrer none
  | some (.send t), ref => .sendOwner t ref
  | none, some (.send b) => .sendReferrer none b

/-- After the owner's push. -/
def afterOwner (ownerOk : NotifyResult) : Option ReferrerPush → Delivery
  | some (.send b) => .sendReferrer (some ownerOk) b
  | _ => .finalize (some ownerOk) none

/-- One step of `_deliver_one`. -/
def deliverOne (env : Env) (row : Row) : Delivery → Row × Delivery
  | .loaded copy => (row, dispatch (ownerPush env copy row.hasCredit) (referrerPush env copy))
  | .anomaly => (finalizeAttempt row, .done)
  | .dropOwner ref => (row.markNotified, dispatch none ref)
  | .dropReferrer owner => (row.markReferrerNotified, dispatch owner none)
  | .sendOwner _ ref => (row, afterOwner env.result ref)
  | .sendReferrer ownerOk _ => (row, .finalize ownerOk (some env.result))
  | .finalize ownerOk refOk => (finalizeDelivery ownerOk refOk row, .done)
  | .done => (row, .done)

/-! ### The system -/

/-- The row, the worker's deliveries and the rows the immediate deliveries loaded. -/
structure State where
  row : Row
  deliveries : List Delivery := []
  loaded : List (Option Row) := []
  deriving DecidableEq, Repr

/-- `settle` carries the debt towards the referrer, if the settlement granted a bonus; `write` is
    any other transaction on the locked row, which keeps both debts; `immediate` is the end of an
    immediate delivery, after its push was delivered or failed. -/
inductive Event
  | settle (referrer : Option ReferrerNotify)
  | refund
  | write (order : Order)
  | snapshot
  | work (k : ℕ) (env : Env)
  | abandon (k : ℕ)
  | load
  | immediate (k : ℕ) (delivered : Bool)
  deriving DecidableEq, Repr

namespace Row

/-- The settlement of the order: `mark_order_paid` ending in `_settle_benefits`. -/
def settle (referrer : Option ReferrerNotify) (r : Row) : Row :=
  if r.order.status = .refunded then r
  else
    let order := markNotifyPending { r.order with status := .paid }
    { r with
      order := { order with metadata := { order.metadata with
        referrerNotifyPending := referrer.or order.metadata.referrerNotifyPending } }
      hasCredit := r.hasCredit || decide (r.order.serviceType = .topup) }

def refund (r : Row) : Row :=
  if r.order.status = .paid then { r with order := { r.order with status := .refunded } } else r

/-- A transaction that leaves the notification keys of the metadata as they were. -/
def write (order : Order) (r : Row) : Row :=
  { r with order := { order with metadata := { order.metadata with
      lateNotifyPending := r.order.metadata.lateNotifyPending
      lateNotifyAttempts := r.order.metadata.lateNotifyAttempts
      referrerNotifyPending := r.order.metadata.referrerNotifyPending } } }

/-- The flush after `mark_notified` on the loaded row: the whole metadata column is written, and
    nothing when the marks were not there to take away. -/
def flushNotified (copy r : Row) : Row :=
  if copy.markNotified = copy then r
  else
    { r with
      order := { r.order with metadata := copy.markNotified.order.metadata }
      referrerNotifyAttempts := copy.referrerNotifyAttempts }

end Row

def step (s : State) : Event → State
  | .settle referrer => { s with row := s.row.settle referrer }
  | .refund => { s with row := s.row.refund }
  | .write order => { s with row := s.row.write order }
  | .snapshot => { s with deliveries := s.deliveries ++ [.loaded s.row] }
  | .work k env =>
    match s.deliveries[k]? with
    | none => s
    | some d =>
      { s with
        row := (deliverOne env s.row d).1
        deliveries := s.deliveries.set k (deliverOne env s.row d).2 }
  | .abandon k => { s with deliveries := s.deliveries.set k .done }
  | .load => { s with loaded := s.loaded ++ [some s.row] }
  | .immediate k delivered =>
    match s.loaded[k]? with
    | some (some copy) =>
      { s with
        row := if delivered then copy.flushNotified s.row else s.row
        loaded := s.loaded.set k none }
    | _ => s

end Just1kBot.CreditNotify
