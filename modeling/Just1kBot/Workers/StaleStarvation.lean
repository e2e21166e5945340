import Just1kBot.Workers.StaleQueue
import Mathlib.Data.Finset.Range
import Mathlib.Data.Finset.Image

/-! Overdue orders that `_reconcile_stale_pending_orders` never comes to.

    `mark_order_paid` leaves an order with a short payment pending and returns it, so the pass takes
    it out of the backoff cache as if it were settled. Where such orders fill a pass and are the
    oldest, every pass picks them again. -/

namespace Just1kBot

variable {wi : WhiteInternetApi} {db db' : Db} {wall : Time} {c : StaleCandidate}
  {st : PaymentStatusResult}

/-- `mark_order_paid` returns the order of a payment that is too small. -/
theorem reconcile_short {r : Option Order} (hs : StaleState.Short db c st)
    (h : reconcileStalePendingOrder wi db wall c.orderId c.externalId st = .ok (r, db')) :
    r.isSome := by
  obtain ⟨hpaid, o, hrow, hpending, q, hq, hlt⟩ := hs
  have hid : o.id = c.orderId := Lib.Table.key_of_lookup Order.id hrow
  rw [reconcileStalePendingOrder, if_neg (not_not.mpr (.inl hpaid)), hrow] at h
  dsimp only at h
  rw [if_neg (not_not.mpr hpending), if_pos hpaid, markOrderPaid, hid, hrow] at h
  simp only [hpending] at h
  rw [payOrder, if_neg (by simp [hpending])] at h
  have hshort : st.amountRub.filter (· < (o.amountRub : ℚ)) = some q :=
    Option.filter_eq_some_iff.mpr ⟨hq, decide_eq_true hlt⟩
  simp only [hshort] at h
  obtain ⟨db₁, -, h⟩ := Lib.bind_ok h
  cases h
  rfl

namespace StaleState

variable {s : StaleState} {x : OrderId} {short : Finset OrderId}

variable (wi) in
/-- Whenever a pass begins, the orders in `short` are overdue and older than `x`; the gateway has a
    payment for each of them, too small, and the transaction about it goes through. -/
def Starves (x : OrderId) (short : Finset OrderId) (s : StaleState) : StaleEvent → Prop
  | .select wall => UniqueOrders s.db ∧ (s.Ready → ∀ r ∈ s.db.order x, ∀ i ∈ short,
      ∃ o ∈ s.db.order i, o.Stale wall ∧ o.createdAt < r.createdAt)
  | .ask answer => ∀ c ∈ s.candidates.head?, c.orderId ∈ short →
      ∃ a ∈ answer, (checkPaymentStatus a).isPaid = true
  | .settle wall fails => ∀ a ∈ s.answered, a.1.orderId ∈ short → fails = false ∧
      Short s.db a.1 a.2 ∧
        ∃ r, reconcileStalePendingOrder wi s.db wall a.1.orderId a.1.externalId a.2 = .ok r
  | _ => True

/-- No pass has picked `x`, and the orders with the short payments are not in the cache. -/
structure Starved (x : OrderId) (short : Finset OrderId) (s : StaleState) : Prop where
  seen : x ∉ s.seen
  cached : ∀ i ∈ short, i ∉ s.cached

/-! ### What comes into the cache -/

theorem mem_cached_of_put {i j : OrderId}
    (h : i ∈ Lib.TtlCache.keys backoffCacheTtl s.now
      (Lib.TtlCache.put backoffCacheMaxsize backoffCacheTtl s.now j s.backoff)) :
    i ∈ s.cached ∨ i = j :=
  (Lib.TtlCache.mem_keys_of_put h).symm

/-- Asking puts the candidate into the cache, unless there is something to settle. -/
theorem mem_cached_ask {answer : Option GatewayAnswer} {i : OrderId}
    (hi : i ∈ (s.ask answer).cached) :
    i ∈ s.cached ∨ ∃ c ∈ s.candidates.head?, c.orderId = i ∧
      ∀ a ∈ answer, (checkPaymentStatus a).isPaid = false := by
  rw [StaleState.ask] at hi
  simp only [defer] at hi
  split at hi
  · rename_i c rest hcands hnone
    cases answer with
    | none =>
      simp only [cached] at hi
      rcases mem_cached_of_put hi with hi | hi
      · exact .inl hi
      · exact .inr ⟨c, by simp [hcands], hi.symm, by simp⟩
    | some a =>
      dsimp only at hi
      split_ifs at hi with hverdict
      · exact .inl hi
      · simp only [cached] at hi
        rcases mem_cached_of_put hi with hi | hi
        · exact .inl hi
        · refine .inr ⟨c, by simp [hcands], hi.symm, ?_⟩
          rintro _ ⟨⟩
          simpa using fun h => hverdict (.inl h)
  · exact .inl hi

/-- A transaction puts its candidate into the cache when it fails, or when a payment comes to
    nothing. -/
theorem mem_cached_settle {fails : Bool} {i : OrderId}
    (hi : i ∈ (s.settle wi wall fails).cached) :
    i ∈ s.cached ∨ ∃ a ∈ s.answered, a.1.orderId = i ∧ (fails = true ∨
      ∀ r db, reconcileStalePendingOrder wi s.db wall a.1.orderId a.1.externalId a.2 =
        .ok (r, db) → r = none) := by
  rw [StaleState.settle] at hi
  simp only [defer, forget] at hi
  split at hi
  · exact .inl hi
  · rename_i c st hanswered
    cases fails with
    | true =>
      rw [if_pos rfl] at hi
      simp only [cached] at hi
      rcases mem_cached_of_put hi with hi | hi
      · exact .inl hi
      · exact .inr ⟨_, hanswered, hi.symm, .inl rfl⟩
    | false =>
      rw [if_neg Bool.false_ne_true] at hi
      split at hi
      · rename_i err herr
        simp only [cached] at hi
        rcases mem_cached_of_put hi with hi | hi
        · exact .inl hi
        · exact .inr ⟨_, hanswered, hi.symm, .inr fun r db hok => by simp [herr] at hok⟩
      · rename_i paid db hok
        split_ifs at hi with hclosed hnothing
        · exact .inl hi
        · simp only [cached] at hi
          rcases mem_cached_of_put hi with hi | hi
          · exact .inl hi
          · refine .inr ⟨_, hanswered, hi.symm, .inr fun r db' hok' => ?_⟩
            cases hok.symm.trans hok'
            exact Option.isNone_iff_eq_none.mp hnothing.2
        · exact .inl (Lib.TtlCache.mem_keys_of_erase hi)

/-! ### A run -/

/-- The rows that a pass may pick have enough older ones among them. -/
theorem not_mem_staleOrders {cached : List OrderId} {r : Order}
    (hmany : staleCandidateLimit ≤ short.card)
    (hshort : ∀ i ∈ short,
      i ∉ cached ∧ ∃ o ∈ db.order i, o.Stale wall ∧ o.createdAt < r.createdAt) :
    r ∉ db.staleOrders wall cached := by
  refine Lib.Keyset.not_mem_first (hmany.trans ?_)
  rw [List.countP_eq_length_filter, ← List.length_map Order.id]
  refine le_trans (Finset.card_le_card fun i hi => ?_) (List.toFinset_card_le _)
  obtain ⟨hcached, o, ho, hstale, hlt⟩ := hshort i hi
  obtain rfl : o.id = i := Lib.Table.key_of_lookup Order.id ho
  have hmem := Lib.Table.mem_of_lookup Order.id ho
  simp only [List.mem_toFinset, List.mem_map, List.mem_filter, Bool.and_eq_true, decide_eq_true_eq]
  exact ⟨o, ⟨⟨hmem, hstale, by simpa using hcached⟩, hlt⟩, rfl⟩

theorem Starved.seen_select (h : s.Starved x short) (hmany : staleCandidateLimit ≤ short.card)
    (hu : UniqueOrders s.db) (hold : s.Ready → ∀ r ∈ s.db.order x, ∀ i ∈ short,
      ∃ o ∈ s.db.order i, o.Stale wall ∧ o.createdAt < r.createdAt) :
    x ∉ (s.select wall).seen := by
  by_cases hgo : s.Ready ∧ s.Idle
  · rw [StaleState.seen_select hgo wall, List.mem_append, not_or]
    refine ⟨h.seen, fun hpick => ?_⟩
    obtain ⟨r, hr, rfl⟩ := List.mem_map.mp hpick
    have hrow := hu.order_of_mem (mem_staleOrders hr).1
    exact not_mem_staleOrders hmany (fun i hi => ⟨h.cached i hi, hold hgo.1 r hrow i hi⟩) hr
  · rw [StaleState.select, if_neg hgo]
    exact h.seen

theorem Starved.step (hmany : staleCandidateLimit ≤ short.card) (s : StaleState) (e : StaleEvent)
    (h : s.Starved x short) (hstarves : Starves wi x short s e) :
    (StaleState.step wi s e).Starved x short := by
  cases e with
  | tick d =>
    refine ⟨h.seen, fun i hi hmem => h.cached i hi ?_⟩
    exact Lib.TtlCache.mem_keys_of_later (le_add_of_nonneg_right (Int.natCast_nonneg d)) hmem
  | select wall =>
    refine ⟨h.seen_select hmany hstarves.1 hstarves.2, ?_⟩
    rw [StaleState.step, StaleState.select]
    split_ifs
    · exact h.cached
    · exact h.cached
  | ask answer =>
    refine ⟨?_, fun i hi hmem => ?_⟩
    · obtain ⟨_, _, _, _, hseen, heq⟩ := ask_frame s answer
      have hnot := h.seen
      rw [hseen] at hnot
      rw [StaleState.step, heq]
      exact hnot
    · rcases mem_cached_ask hmem with hmem | ⟨c, hc, rfl, hnot⟩
      · exact h.cached i hi hmem
      · obtain ⟨a, ha, hpaid⟩ := hstarves c hc hi
        rw [hnot a ha] at hpaid
        cases hpaid
  | settle wall fails =>
    refine ⟨?_, fun i hi hmem => ?_⟩
    · obtain ⟨_, _, _, heq⟩ := settle_frame wi s wall fails
      rw [StaleState.step, heq]
      exact h.seen
    · rcases mem_cached_settle hmem with hmem | ⟨a, ha, rfl, hcause⟩
      · exact h.cached i hi hmem
      · obtain ⟨hfails, hshort, ⟨r, db⟩, hok⟩ := hstarves a ha hi
        rcases hcause with hfail | hnone
        · rw [hfails] at hfail
          cases hfail
        · have hsome := reconcile_short hshort hok
          rw [hnone r db hok] at hsome
          cases hsome
  | finish wall locked fails =>
    rw [StaleState.step, StaleState.finish]
    by_cases hend : s.underWay = true ∧ s.Idle
    · rw [if_pos hend]
      exact ⟨h.seen, h.cached⟩
    · rwa [if_neg hend]
  | others db => exact ⟨h.seen, h.cached⟩

/-- Twenty-one overdue orders. -/
def manyOverdue : StaleState :=
  { db := { orders := (List.range 21).map fun i => overdueOrder (i + 1) s!"p{i}" } }

end StaleState

end Just1kBot
