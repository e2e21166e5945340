import Just1kBot.Lib.Keyset
import Just1kBot.Lib.TtlCache
import Just1kBot.Orders.OrderHistory
import Mathlib.Data.Finset.Card

/-! The passes of `_reconcile_stale_pending_orders` in `services/workers/cleanup.py` over the orders
    whose webhooks are overdue.

    A pass picks the oldest of them that are not in the backoff cache, asks the gateway about each
    with no transaction open, settles or cancels what was paid or canceled, and cancels what is too
    old. The answer and the transaction it leads to are two events, so that everything else may
    happen between them. A pass whose query fails picks nothing, and counts as time that passes. -/

namespace Just1kBot
open Lib (TtlCache.keys TtlCache.put TtlCache.erase)

/-! ### What the queries select -/

/-- `RECONCILE_LOOP_INTERVAL`. -/
def reconcileLoopInterval : ℤ := seconds 60

/-- The size and the lifetime of `_pending_order_backoff_cache`. -/
def backoffCacheMaxsize : ℕ := 2000
def backoffCacheTtl : ℤ := seconds 300

def staleCandidateLimit : ℕ := 20
def expiredOrderLimit : ℕ := 50

/-- The payment of the order is overdue. -/
def Order.Stale (wall : Time) (o : Order) : Prop :=
  o.status = .pending ∧ o.externalId.isSome ∧
    wall - hours 24 ≤ o.createdAt ∧ o.createdAt ≤ wall - seconds 180

/-- No payment is waited for any more. -/
def Order.TooOld (wall : Time) (o : Order) : Prop :=
  o.status = .pending ∧ (o.createdAt < wall - hours 24 ∨
    (o.externalId = none ∨ o.externalId = some "") ∧ o.createdAt < wall - seconds 1800)

instance (wall : Time) (o : Order) : Decidable (o.Stale wall) := by
  unfold Order.Stale; infer_instance

instance (wall : Time) (o : Order) : Decidable (o.TooOld wall) := by
  unfold Order.TooOld; infer_instance

/-- The candidates of a pass. The cache gets no new keys while the rows are read, so looking at it a
    second time drops none of them. -/
def Db.staleOrders (db : Db) (wall : Time) (cached : List OrderId) : List Order :=
  Lib.Keyset.first Order.createdAt staleCandidateLimit
    (db.orders.filter fun o => decide (o.Stale wall) && !cached.contains o.id)

def expireReason (o : Order) : String :=
  if o.externalId.isNone then "ambiguous_creation_timeout" else "order_expired_24h"

/-- The last transaction of a pass, `SKIP LOCKED`. -/
def Db.expireOrders (db : Db) (wall : Time) (locked : List OrderId) : Db :=
  (Lib.Keyset.first Order.createdAt expiredOrderLimit
    (db.orders.filter fun o => decide (o.TooOld wall) && !locked.contains o.id)).foldl
      (fun db o => db.putOrder (markOrderCanceled o (expireReason o))) db

/-! ### The worker -/

/-- A row of the query. -/
structure StaleCandidate where
  orderId : OrderId
  externalId : String
  deriving DecidableEq, Repr

/-- The tables, the clock of the process, the backoff cache, and the pass that is under way: the
    candidates it has still to ask about, and the answer it has still to act on. `asked` are the
    orders it asked about, in all `passes`. -/
structure StaleState where
  db : Db
  now : Time := 0
  backoff : List (OrderId × Time) := []
  underWay : Bool := false
  wakeAt : Time := 0
  candidates : List StaleCandidate := []
  answered : Option (StaleCandidate × PaymentStatusResult) := none
  asked : List OrderId := []
  passes : ℕ := 0

/-- Time passes; a pass begins; it asks about its next candidate, where `none` is an exception; it
    acts on the answer; it ends, with the clean-up that may fail. Others change the tables. -/
inductive StaleEvent
  | tick (d : ℕ)
  | select (wall : Time)
  | ask (answer : Option GatewayAnswer)
  | settle (wall : Time) (fails : Bool)
  | finish (wall : Time) (locked : List OrderId) (fails : Bool)
  | others (db : Db)

namespace StaleState
variable (wi : WhiteInternetApi)

/-- The orders that are not asked about for now. -/
def cached (s : StaleState) : List OrderId := TtlCache.keys backoffCacheTtl s.now s.backoff

def defer (s : StaleState) (id : OrderId) : StaleState :=
  { s with backoff := TtlCache.put backoffCacheMaxsize backoffCacheTtl s.now id s.backoff }

def forget (s : StaleState) (id : OrderId) : StaleState :=
  { s with backoff := TtlCache.erase id s.backoff }

/-- The worker has slept since the last pass. -/
def Ready (s : StaleState) : Prop := s.underWay = false ∧ s.wakeAt ≤ s.now

/-- The pass has no candidate left. -/
def Idle (s : StaleState) : Prop := s.candidates = [] ∧ s.answered = none

instance (s : StaleState) : Decidable s.Ready := by unfold Ready; infer_instance
instance (s : StaleState) : Decidable s.Idle := by unfold Idle; infer_instance

def select (s : StaleState) (wall : Time) : StaleState :=
  if s.Ready ∧ s.Idle then
    { s with
      underWay := true
      wakeAt := s.now + reconcileLoopInterval
      candidates := (s.db.staleOrders wall s.cached).map fun o =>
        ⟨o.id, o.externalId.getD ""⟩
      passes := s.passes + 1 }
  else s

def ask (s : StaleState) (answer : Option GatewayAnswer) : StaleState :=
  match s.candidates, s.answered with
  | c :: rest, none =>
    let s := { s with candidates := rest, asked := s.asked ++ [c.orderId] }
    match answer with
    | none => s.defer c.orderId
    | some a =>
      let st := checkPaymentStatus a
      if st.isPaid ∨ st.isCanceled then { s with answered := some (c, st) }
      else s.defer c.orderId
  | _, _ => s

/-- The transaction of one order. A payment that `mark_order_paid` returns an order for is taken out
    of the cache, and one that it returns nothing for is put there. -/
def settle (s : StaleState) (wall : Time) (fails : Bool) : StaleState :=
  match s.answered with
  | none => s
  | some (c, st) =>
    let s := { s with answered := none }
    if fails then s.defer c.orderId
    else
      match reconcileStalePendingOrder wi s.db wall c.orderId c.externalId st with
      | .error _ => s.defer c.orderId
      | .ok (paid, db) =>
        if (s.db.order c.orderId).all fun o => o.status ≠ .pending then s
        else if st.isPaid ∧ paid.isNone then { s.defer c.orderId with db := db }
        else { s.forget c.orderId with db := db }

def finish (s : StaleState) (wall : Time) (locked : List OrderId) (fails : Bool) : StaleState :=
  if s.underWay = true ∧ s.Idle then
    { s with
      underWay := false
      wakeAt := s.now + reconcileLoopInterval
      db := if fails then s.db else s.db.expireOrders wall locked }
  else s

def step (s : StaleState) : StaleEvent → StaleState
  | .tick d => { s with now := s.now + d }
  | .select wall => s.select wall
  | .ask answer => s.ask answer
  | .settle wall fails => s.settle wi wall fails
  | .finish wall locked fails => s.finish wall locked fails
  | .others db => { s with db := db }

/-! ### What is said about a run -/

/-- The worker before its first pass; it has no order of this id in its cache. -/
structure Starts (s : StaleState) (x : OrderId) : Prop where
  unique : UniqueOrders s.db
  idle : s.Idle
  asked : s.asked = []
  passes : s.passes = 0
  cached : x ∉ s.cached

/-- The gateway has a payment for the order that is smaller than its price. -/
def Short (db : Db) (c : StaleCandidate) (st : PaymentStatusResult) : Prop :=
  st.isPaid = true ∧ ∃ o ∈ db.order c.orderId, o.status = .pending ∧
    ∃ q ∈ st.amountRub, q < o.amountRub

/-- The order is overdue, and those that are too and are not younger are among `older`. -/
def Waits (s : StaleState) (x : OrderId) (older : Finset OrderId) (wall : Time) : Prop :=
  ∃ r ∈ s.db.order x, r.Stale wall ∧
    ∀ o ∈ s.db.orders, o.Stale wall → o.createdAt ≤ r.createdAt → o.id ≠ x → o.id ∈ older

/-- Whenever a pass begins the order waits; payments are short for orders in `short` only; others
    keep the rows, and no order becomes pending again. -/
def Attends (x : OrderId) (older short : Finset OrderId) (s : StaleState) : StaleEvent → Prop
  | .select wall => s.Ready → s.Waits x older wall
  | .settle _ _ => ∀ a ∈ s.answered, Short s.db a.1 a.2 → a.1.orderId ∈ short
  | .others db => UniqueOrders db ∧ Later s.db db
  | _ => True

end StaleState

end Just1kBot
