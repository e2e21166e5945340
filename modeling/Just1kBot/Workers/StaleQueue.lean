import Just1kBot.Workers.StaleOrders

/-! How long an overdue order waits for `_reconcile_stale_pending_orders`.

    A pass that leaves the order out asks about others that are not younger. Each of them is
    settled, canceled or put into the backoff cache, unless its payment is short: such an order is
    taken out of the cache and is picked again. So the order is asked about after so many passes as
    the others fill, and never where the short payments fill every pass. -/

namespace Just1kBot

variable {wi : WhiteInternetApi} {db db' : Db} {wall : Time} {c : StaleCandidate}
  {st : PaymentStatusResult}

/-! ### What the transactions do to the rows -/

/-- The order is not pending any more. -/
def Db.Settled (db : Db) (i : OrderId) : Prop := ∃ o ∈ db.order i, o.status ≠ .pending

/-- The candidate is a row, with the payment it was selected with. -/
def Db.Tracks (db : Db) (c : StaleCandidate) : Prop :=
  ∃ o ∈ db.order c.orderId, c.externalId ≠ "" → o.externalId = some c.externalId

theorem Later.settled (h : Later db db') {i : OrderId} (hi : db.Settled i) : db'.Settled i := by
  obtain ⟨o, ho, hstatus⟩ := hi
  obtain ⟨o', ho', hkept⟩ := h i o ho
  exact ⟨o', ho', fun hp => hstatus (hkept.pending_of hp)⟩

theorem Later.tracks (h : Later db db') (hc : db.Tracks c) : db'.Tracks c := by
  obtain ⟨o, ho, hext⟩ := hc
  obtain ⟨o', ho', hkept⟩ := h c.orderId o ho
  exact ⟨o', ho', fun hne => hkept.external _ (hext hne) hne⟩

/-- The transaction of a pending candidate keeps every row, and settles or cancels its own, or the
    payment was short. -/
theorem reconcile_candidate {o : Order} {r : Option Order} (hu : UniqueOrders db)
    (hrow : db.order c.orderId = some o) (hpending : o.status = .pending)
    (hext : c.externalId ≠ "" → o.externalId = some c.externalId)
    (hst : st.isPaid = true ∨ st.isCanceled = true)
    (h : reconcileStalePendingOrder wi db wall c.orderId c.externalId st = .ok (r, db')) :
    UniqueOrders db' ∧ Later db db' ∧ (StaleState.Short db c st ∨ db'.Settled c.orderId) := by
  have hid : o.id = c.orderId := Lib.Table.key_of_lookup Order.id hrow
  have hrow' : db.order o.id = some o := hid ▸ hrow
  rw [reconcileStalePendingOrder, if_neg (not_not.mpr hst), hrow] at h
  dsimp only at h
  rw [if_neg (not_not.mpr hpending)] at h
  by_cases hpaid : st.isPaid = true
  · rw [if_pos hpaid] at h
    have hown : OwnPayment o (some c.externalId) := by
      intro e he hne x hx hxne
      cases hx
      exact Option.some.inj ((hext hxne).symm.trans he)
    have hknown : Knows (fun _ => some o.id) o := fun _ _ _ => rfl
    rcases markOrderPaid_row hrow' hknown hown (fun _ _ _ => rfl) h with
      ⟨-, -, hrefuses⟩ | ⟨b, -, hstep, -, hstatus⟩
    · rw [hrefuses.1] at hpending
      cases hpending
    · refine ⟨hstep.frame.unique hu, hstep.later hrow', ?_⟩
      rcases hstatus with ⟨-, hb⟩ | ⟨hnot, -⟩
      · exact .inr ⟨b, hid ▸ hstep.row, by simp [hb]⟩
      · refine .inl ⟨hpaid, o, hrow, hpending, ?_⟩
        by_contra hfull
        push Not at hfull
        refine hnot ⟨by simp [hpending, OrderStatus.rank], fun hr => ?_, hfull⟩
        rw [hr.1] at hpending
        cases hpending
  · rw [if_neg hpaid] at h
    cases h
    have hstep : RowStep o (markOrderCanceled o st.cancelReason) db
        (db.putOrder (markOrderCanceled o st.cancelReason)) :=
      .of_put hrow' (by rw [markOrderCanceled_pending hpending]) (.canceled o _)
    refine ⟨hstep.frame.unique hu, hstep.later hrow', .inr ⟨_, hid ▸ hstep.row, ?_⟩⟩
    simp [markOrderCanceled_pending hpending]

/-- Canceling some of the pending rows keeps all rows. -/
theorem later_of_cancel (reason : Order → String) :
    ∀ (l : List Order) (db : Db), (l.map Order.id).Nodup → UniqueOrders db →
      (∀ o ∈ l, o.status = .pending ∧ db.order o.id = some o) →
        UniqueOrders (l.foldl (fun db o => db.putOrder (markOrderCanceled o (reason o))) db) ∧
          Later db (l.foldl (fun db o => db.putOrder (markOrderCanceled o (reason o))) db)
  | [], db, _, hu, _ => ⟨hu, .refl db⟩
  | o :: l, db, hnodup, hu, hrows => by
    rw [List.map_cons, List.nodup_cons] at hnodup
    obtain ⟨hpending, hrow⟩ := hrows o List.mem_cons_self
    have hstep : RowStep o (markOrderCanceled o (reason o)) db
        (db.putOrder (markOrderCanceled o (reason o))) :=
      .of_put hrow (by rw [markOrderCanceled_pending hpending]) (.canceled o _)
    obtain ⟨hu', hlater⟩ := later_of_cancel reason l _ hnodup.2 (hstep.frame.unique hu)
      fun a ha => by
        obtain ⟨hap, harow⟩ := hrows a (List.mem_cons_of_mem _ ha)
        refine ⟨hap, (hstep.frame.others a.id fun hid => hnodup.1 ?_).trans harow⟩
        exact hid ▸ List.mem_map_of_mem ha
    exact ⟨hu', (hstep.later hrow).trans hlater⟩

theorem expireOrders_later (hu : UniqueOrders db) (locked : List OrderId) :
    UniqueOrders (db.expireOrders wall locked) ∧ Later db (db.expireOrders wall locked) := by
  refine later_of_cancel expireReason _ db (Lib.Keyset.nodup_map_first ?_) hu fun o ho => ?_
  · exact hu.sublist (List.filter_sublist.map _)
  · obtain ⟨hmem, hold⟩ := List.mem_filter.mp (Lib.Keyset.mem_of_mem_first ho)
    simp only [Bool.and_eq_true, decide_eq_true_eq] at hold
    exact ⟨hold.1.1, hu.order_of_mem hmem⟩

/-! ### A pass -/

namespace StaleState

variable {s : StaleState} {x : OrderId} {older short : Finset OrderId} {start : Time}

/-- The orders that the passes picked so far. -/
def seen (s : StaleState) : List OrderId := s.asked ++ s.candidates.map StaleCandidate.orderId

/-- The candidates and the answer of the pass have their rows. -/
structure Rows (s : StaleState) : Prop where
  unique : UniqueOrders s.db
  candidates : ∀ c ∈ s.candidates, s.db.Tracks c
  answered : ∀ a ∈ s.answered, s.db.Tracks a.1 ∧ a.1.orderId ∈ s.asked ∧
    (a.2.isPaid = true ∨ a.2.isCanceled = true)

/-- The passes since `start` are a loop interval apart, and picked few orders. -/
structure Paced (start : Time) (s : StaleState) : Prop where
  since : start ≤ s.now
  passes : s.passes = 0 ∨ start + reconcileLoopInterval * s.passes ≤ s.wakeAt ∧
    s.wakeAt ≤ s.now + reconcileLoopInterval
  seen : s.seen.length ≤ staleCandidateLimit * s.passes

/-- Each pass picked as many orders that are not younger as there is room for, none of them twice,
    unless its payment is short. -/
structure Filled (older short : Finset OrderId) (s : StaleState) : Prop where
  older : ∀ i ∈ s.seen, i ∈ older
  apart : (s.seen.filter (· ∉ short)).Nodup
  many : s.passes * (staleCandidateLimit - short.card) ≤ (s.seen.filter (· ∉ short)).length

/-- An order that was asked about waits for its transaction, is settled, or is in the cache, unless
    its payment is short. -/
def Deferred (start : Time) (short : Finset OrderId) (s : StaleState) : Prop :=
  ∃ n K, n + s.answered.toList.length ≤ s.asked.length ∧
    Lib.TtlCache.Since start n K s.backoff ∧
    ∀ i ∈ s.asked, i ∉ short → (∃ a ∈ s.answered, a.1.orderId = i) ∨ s.db.Settled i ∨ i ∈ K

/-- What holds while the order is left out. -/
structure LeftOut (x : OrderId) (older short : Finset OrderId) (start : Time) (s : StaleState) :
    Prop where
  rows : s.Rows
  paced : s.Paced start
  filled : s.Filled older short
  deferred : s.Deferred start short
  cached : x ∉ s.cached

theorem Starts.leftOut (h : s.Starts x) : s.LeftOut x older short s.now := by
  obtain ⟨hu, ⟨hc, ha⟩, hasked, hpasses, hcached⟩ := h
  refine ⟨⟨hu, by simp [hc], by simp [ha]⟩, ⟨le_rfl, .inl hpasses, by simp [seen, hc, hasked]⟩,
    ⟨by simp [seen, hc, hasked], by simp [seen, hc, hasked], by simp [hpasses]⟩,
    ⟨0, ∅, by simp [ha], .start _ _, by simp [hasked]⟩, hcached⟩

/-- The orders that were asked about are fewer than the cache has room for. -/
theorem Paced.room (h : s.Paced start) (hlive : s.now < start + backoffCacheTtl) :
    s.seen.length < backoffCacheMaxsize := by
  obtain ⟨-, hpasses, hseen⟩ := h
  refine hseen.trans_lt ?_
  rcases hpasses with hzero | ⟨hstart, hwake⟩
  · rw [hzero]
    decide
  · have hfew : (s.passes : ℤ) < 6 := by
      simp only [reconcileLoopInterval, backoffCacheTtl, seconds] at hstart hwake hlive
      linarith
    show 20 * s.passes < 2000
    omega

theorem Rows.later (h : s.Rows) {db : Db} (hu : UniqueOrders db) (hlater : Later s.db db) :
    ({ s with db := db } : StaleState).Rows where
  unique := hu
  candidates c hc := hlater.tracks (h.candidates c hc)
  answered a ha := ⟨hlater.tracks (h.answered a ha).1, (h.answered a ha).2⟩

theorem Deferred.later (h : s.Deferred start short) {db : Db} (hlater : Later s.db db) :
    ({ s with db := db } : StaleState).Deferred start short := by
  obtain ⟨n, K, hn, hsince, hasked⟩ := h
  refine ⟨n, K, hn, hsince, fun i hi hshort => ?_⟩
  rcases hasked i hi hshort with hanswered | hsettled | hK
  · exact .inl hanswered
  · exact .inr (.inl (hlater.settled hsettled))
  · exact .inr (.inr hK)

theorem LeftOut.later (h : s.LeftOut x older short start) {db : Db} (hu : UniqueOrders db)
    (hlater : Later s.db db) : ({ s with db := db } : StaleState).LeftOut x older short start where
  rows := h.rows.later hu hlater
  paced := ⟨h.paced.since, h.paced.passes, h.paced.seen⟩
  filled := ⟨h.filled.older, h.filled.apart, h.filled.many⟩
  deferred := h.deferred.later hlater
  cached := h.cached

theorem LeftOut.tick (h : s.LeftOut x older short start) (d : ℕ) :
    ({ s with now := s.now + d } : StaleState).LeftOut x older short start where
  rows := ⟨h.rows.unique, h.rows.candidates, h.rows.answered⟩
  paced := by
    refine ⟨le_add_of_le_of_nonneg h.paced.since (Int.natCast_nonneg d), ?_, h.paced.seen⟩
    refine h.paced.passes.imp_right fun hp => ⟨hp.1, ?_⟩
    exact hp.2.trans (add_le_add_left (le_add_of_nonneg_right (Int.natCast_nonneg d)) _)
  filled := ⟨h.filled.older, h.filled.apart, h.filled.many⟩
  deferred := h.deferred
  cached hx := h.cached (Lib.TtlCache.mem_keys_of_later (by simp) hx)

theorem LeftOut.finish (h : s.LeftOut x older short start) (wall : Time) (locked : List OrderId)
    (fails : Bool) : (s.finish wall locked fails).LeftOut x older short start := by
  rw [StaleState.finish]
  by_cases hend : s.underWay = true ∧ s.Idle
  · rw [if_pos hend]
    obtain ⟨hu, hlater⟩ : UniqueOrders (if fails then s.db else s.db.expireOrders wall locked) ∧
        Later s.db (if fails then s.db else s.db.expireOrders wall locked) := by
      cases fails with
      | true => exact ⟨h.rows.unique, .refl s.db⟩
      | false => exact expireOrders_later h.rows.unique locked
    have hrows := h.rows.later hu hlater
    refine ⟨⟨hu, hrows.candidates, hrows.answered⟩, ⟨h.paced.since, ?_, h.paced.seen⟩,
      ⟨h.filled.older, h.filled.apart, h.filled.many⟩, h.deferred.later hlater, h.cached⟩
    exact h.paced.passes.imp_right fun hp => ⟨hp.1.trans hp.2, le_rfl⟩
  · rwa [if_neg hend]

/-- The next candidate goes over to the orders that were asked about. -/
theorem LeftOut.ask (h : s.LeftOut x older short start) (hlive : s.now < start + backoffCacheTtl)
    (hx : x ∉ s.seen) (answer : Option GatewayAnswer) :
    (s.ask answer).LeftOut x older short start := by
  rw [StaleState.ask]
  split
  · rename_i c rest hcands hnone
    have hseen : s.seen = (s.asked ++ [c.orderId]) ++ rest.map StaleCandidate.orderId := by
      rw [seen, hcands, List.map_cons, List.append_assoc, List.singleton_append]
    have hroom := h.paced.room hlive
    have hxc : x ≠ c.orderId := by
      rintro rfl
      exact hx (by simp [hseen])
    have hpaced : s.seen.length ≤ staleCandidateLimit * s.passes := h.paced.seen
    obtain ⟨holder, hapart, hmany⟩ := h.filled
    obtain ⟨n, K, hn, hsince, hasked⟩ := h.deferred
    rw [hnone] at hasked hn
    rw [hseen] at hroom hpaced holder hapart hmany
    have hrest : ∀ d ∈ rest, s.db.Tracks d := fun d hd =>
      h.rows.candidates d (hcands ▸ List.mem_cons_of_mem _ hd)
    -- the order is put into the cache
    have hdefer : ({ s with candidates := rest, asked := s.asked ++ [c.orderId] } : StaleState).defer
        c.orderId |>.LeftOut x older short start := by
      have hfew : n < backoffCacheMaxsize := by
        refine lt_of_le_of_lt ?_ hroom
        simp only [Option.toList_none, List.length_nil, add_zero] at hn
        simp only [List.length_append]
        omega
      simp only [defer]
      refine ⟨⟨h.rows.unique, hrest, ?_⟩, ⟨h.paced.since, h.paced.passes, hpaced⟩,
        ⟨holder, hapart, hmany⟩, ⟨n + 1, insert c.orderId K, ?_, ?_, ?_⟩, ?_⟩
      · simp [hnone]
      · simpa [hnone] using hn
      · dsimp only
        exact hsince.put h.paced.since hlive hfew
      · intro i hi hshort
        rcases List.mem_append.mp hi with hi | hi
        · rcases hasked i hi hshort with ⟨a, ha, -⟩ | hsettled | hK
          · cases ha
          · exact .inr (.inl hsettled)
          · exact .inr (.inr (.inr hK))
        · exact .inr (.inr (.inl (List.mem_singleton.mp hi)))
      · intro hmem
        simp only [StaleState.cached] at hmem
        exact (Lib.TtlCache.mem_keys_of_put hmem).elim hxc h.cached
    cases answer with
    | none => exact hdefer
    | some a =>
      dsimp only
      split_ifs with hverdict
      · refine ⟨⟨h.rows.unique, hrest, ?_⟩, ⟨h.paced.since, h.paced.passes, hpaced⟩,
          ⟨holder, hapart, hmany⟩, ⟨n, K, ?_, hsince, ?_⟩, h.cached⟩
        · rintro _ ⟨⟩
          exact ⟨h.rows.candidates c (hcands ▸ List.mem_cons_self), by simp, hverdict⟩
        · simpa using hn
        · intro i hi hshort
          rcases List.mem_append.mp hi with hi | hi
          · rcases hasked i hi hshort with ⟨a, ha, -⟩ | hsettled | hK
            · cases ha
            · exact .inr (.inl hsettled)
            · exact .inr (.inr hK)
          · exact .inl ⟨_, rfl, (List.mem_singleton.mp hi).symm⟩
      · exact hdefer
  · exact h

/-- The answer is acted on: the order is settled, or put into the cache, or its payment is short. -/
theorem LeftOut.settle (h : s.LeftOut x older short start) (hlive : s.now < start + backoffCacheTtl)
    (hx : x ∉ s.seen) (wall : Time) (fails : Bool)
    (hshort : ∀ a ∈ s.answered, Short s.db a.1 a.2 → a.1.orderId ∈ short) :
    (s.settle wi wall fails).LeftOut x older short start := by
  cases hanswered : s.answered with
  | none =>
    rw [StaleState.settle, hanswered]
    exact h
  | some a =>
    obtain ⟨c, st⟩ := a
    obtain ⟨⟨o, hrow, hext⟩, hmem, hverdict⟩ := h.rows.answered (c, st) hanswered
    obtain ⟨n, K, hn, hsince, hasked⟩ := h.deferred
    rw [hanswered] at hasked hn
    simp only [Option.toList_some, List.length_singleton] at hn
    have hfew : n < backoffCacheMaxsize := by
      refine lt_of_le_of_lt ?_ (h.paced.room hlive)
      rw [seen, List.length_append]
      omega
    have hxc : x ≠ c.orderId := by
      rintro rfl
      exact hx (List.mem_append_left _ hmem)
    -- what is left to say of each outcome: the row, or the cache, has the order
    have hact {db : Db} {backoff : List (OrderId × Time)} {m : ℕ} {L : Set OrderId}
        (hu : UniqueOrders db) (hlater : Later s.db db) (hm : m ≤ s.asked.length)
        (hsince : Lib.TtlCache.Since start m L backoff)
        (hL : ∀ i ∈ K, i ≠ c.orderId → i ∈ L)
        (hdone : c.orderId ∉ short → db.Settled c.orderId ∨ c.orderId ∈ L)
        (hcached : x ∉ Lib.TtlCache.keys backoffCacheTtl s.now backoff) :
        ({ s with db := db, backoff := backoff, answered := none } : StaleState).LeftOut
          x older short start := by
      have hrows := h.rows.later hu hlater
      refine ⟨⟨hu, hrows.candidates, by simp⟩, ⟨h.paced.since, h.paced.passes, h.paced.seen⟩,
        ⟨h.filled.older, h.filled.apart, h.filled.many⟩, ⟨m, L, hm, hsince, fun i hi hnot => ?_⟩,
        hcached⟩
      by_cases hic : i = c.orderId
      · exact .inr (hic ▸ hdone (hic ▸ hnot))
      · rcases hasked i hi hnot with ⟨a, ha, hai⟩ | hsettled | hK
        · obtain rfl := Option.some.inj ha
          exact absurd hai.symm hic
        · exact .inr (.inl (hlater.settled hsettled))
        · exact .inr (.inr (hL i hK hic))
    have hdefer {db : Db} (hu : UniqueOrders db) (hlater : Later s.db db) :
        ({ s with
          db := db
          backoff := Lib.TtlCache.put backoffCacheMaxsize backoffCacheTtl s.now c.orderId s.backoff
          answered := none } : StaleState).LeftOut x older short start := by
      refine hact hu hlater hn (hsince.put h.paced.since hlive hfew) (fun i hi _ => .inr hi)
        (fun _ => .inr (.inl rfl)) fun hmem => ?_
      exact (Lib.TtlCache.mem_keys_of_put hmem).elim hxc h.cached
    rw [StaleState.settle, hanswered]
    simp only [defer]
    cases fails with
    | true =>
      rw [if_pos rfl]
      exact hdefer h.rows.unique (.refl s.db)
    | false =>
      rw [if_neg Bool.false_ne_true]
      split
      · exact hdefer h.rows.unique (.refl s.db)
      · rename_i paid db hok
        by_cases hpending : o.status = .pending
        · obtain ⟨hu, hlater, hdone⟩ :=
            reconcile_candidate h.rows.unique hrow hpending hext hverdict hok
          rw [hrow, Option.all_some, if_neg (by simp [hpending])]
          split_ifs
          · exact hdefer hu hlater
          · simp only [forget]
            refine hact hu hlater (by omega) hsince.erase (fun i hi hne => ⟨hi, hne⟩)
              (fun hnot => .inl (hdone.resolve_left fun hs => hnot (hshort _ hanswered hs)))
              fun hmem => h.cached (Lib.TtlCache.mem_keys_of_erase hmem)
        · rw [hrow, Option.all_some, if_pos (by simp [hpending])]
          exact hact h.rows.unique (.refl s.db) (by omega) hsince (fun i hi _ => hi)
            (fun _ => .inl ⟨o, hrow, hpending⟩) h.cached

/-! ### The choice of a pass -/

/-- All but so many of some distinct values lie outside a set. -/
theorem le_length_filter_not_mem {l : List OrderId} (hnodup : l.Nodup) (short : Finset OrderId) :
    l.length - short.card ≤ (l.filter (· ∉ short)).length := by
  have hin : (l.filter (· ∈ short)).length ≤ short.card := by
    rw [← List.toFinset_card_of_nodup (hnodup.filter _)]
    refine Finset.card_le_card fun i hi => ?_
    rw [List.mem_toFinset] at hi
    exact of_decide_eq_true (List.mem_filter.mp hi).2
  have hsplit := List.length_eq_length_filter_add (l := l) fun i => decide (i ∈ short)
  simp only [decide_not]
  omega

theorem mem_staleOrders {cached : List OrderId} {o : Order}
    (ho : o ∈ db.staleOrders wall cached) : o ∈ db.orders ∧ o.Stale wall ∧ o.id ∉ cached := by
  obtain ⟨hmem, hpick⟩ := List.mem_filter.mp (Lib.Keyset.mem_of_mem_first ho)
  simpa [hmem] using hpick

/-- A pass that leaves a waiting order out picks as many others as it may, none of them younger. -/
theorem staleOrders_full {cached : List OrderId} {r : Order} (hr : r ∈ db.orders)
    (hstale : r.Stale wall) (hcached : r.id ∉ cached) (hnot : r ∉ db.staleOrders wall cached) :
    (db.staleOrders wall cached).length = staleCandidateLimit ∧
      ∀ o ∈ db.staleOrders wall cached, o.createdAt ≤ r.createdAt :=
  Lib.Keyset.ahead_of_not_mem_first (List.mem_filter.mpr ⟨hr, by simp [hstale, hcached]⟩) hnot

theorem seen_select (hgo : s.Ready ∧ s.Idle) (wall : Time) :
    (s.select wall).seen = s.seen ++ (s.db.staleOrders wall s.cached).map Order.id := by
  rw [StaleState.select, if_pos hgo, seen, seen, hgo.2.1, List.map_nil, List.append_nil,
    List.map_map]
  rfl

/-- No order is picked that was asked about, unless its payment is short. -/
theorem LeftOut.disjoint (h : s.LeftOut x older short start)
    (hlive : s.now < start + backoffCacheTtl) (hidle : s.Idle) {o : Order}
    (ho : o ∈ s.db.staleOrders wall s.cached) (hshort : o.id ∉ short) : o.id ∉ s.seen := by
  intro hmem
  rw [seen, hidle.1, List.map_nil, List.append_nil] at hmem
  obtain ⟨horder, hstale, hcached⟩ := mem_staleOrders ho
  obtain ⟨n, K, -, hsince, hasked⟩ := h.deferred
  rcases hasked o.id hmem hshort with ⟨a, ha, -⟩ | ⟨o', ho', hstatus⟩ | hK
  · rw [hidle.2] at ha
    cases ha
  · rw [h.rows.unique.order_of_mem horder] at ho'
    obtain rfl := Option.some.inj ho'
    exact hstatus hstale.1
  · exact hcached (hsince.mem_keys hlive hK)

theorem LeftOut.select (h : s.LeftOut x older short start) (hlive : s.now < start + backoffCacheTtl)
    (wall : Time) (hwaits : s.Ready → s.Waits x older wall) (hx : x ∉ (s.select wall).seen) :
    (s.select wall).LeftOut x older short start := by
  by_cases hgo : s.Ready ∧ s.Idle
  · obtain ⟨r, hr, hstale, holder⟩ := hwaits hgo.1
    obtain rfl : r.id = x := Lib.Table.key_of_lookup Order.id hr
    have hseen := seen_select hgo wall
    rw [hseen, List.mem_append, not_or] at hx
    have hothers : ∀ o ∈ s.db.staleOrders wall s.cached, o.id ≠ r.id := fun o ho hid =>
      hx.2 (hid ▸ List.mem_map_of_mem ho)
    obtain ⟨hfull, hahead⟩ := staleOrders_full (Lib.Table.mem_of_lookup Order.id hr) hstale h.cached
      fun hmem => hothers r hmem rfl
    have hnodup : ((s.db.staleOrders wall s.cached).map Order.id).Nodup :=
      Lib.Keyset.nodup_map_first (h.rows.unique.sublist (List.filter_sublist.map _))
    have hnew := le_length_filter_not_mem hnodup short
    rw [List.length_map, hfull] at hnew
    have hpasses : (s.select wall).passes = s.passes + 1 := by
      rw [StaleState.select, if_pos hgo]
    have hfilled : (s.select wall).Filled older short := by
      refine ⟨?_, ?_, ?_⟩
      · intro i hi
        rw [hseen] at hi
        rcases List.mem_append.mp hi with hi | hi
        · exact h.filled.older i hi
        · obtain ⟨o, ho, rfl⟩ := List.mem_map.mp hi
          obtain ⟨horder, hostale, -⟩ := mem_staleOrders ho
          exact holder o horder hostale (hahead o ho) (hothers o ho)
      · rw [hseen, List.filter_append]
        refine List.nodup_append.mpr ⟨h.filled.apart, hnodup.filter _, fun i hi j hj hij => ?_⟩
        obtain ⟨hj, hnot⟩ := List.mem_filter.mp hj
        obtain ⟨o, ho, rfl⟩ := List.mem_map.mp hj
        refine h.disjoint hlive hgo.2 ho (of_decide_eq_true hnot) ?_
        exact hij ▸ List.mem_of_mem_filter hi
      · rw [hseen, hpasses, List.filter_append, List.length_append, Nat.succ_mul]
        exact Nat.add_le_add h.filled.many hnew
    have hlen : (s.select wall).seen.length ≤ staleCandidateLimit * (s.select wall).passes := by
      rw [hseen, hpasses, List.length_append, List.length_map, hfull, Nat.mul_succ]
      exact Nat.add_le_add_right h.paced.seen _
    rw [StaleState.select, if_pos hgo] at hfilled hlen ⊢
    refine ⟨⟨h.rows.unique, ?_, h.rows.answered⟩, ⟨h.paced.since, .inr ⟨?_, le_rfl⟩, hlen⟩, hfilled,
      h.deferred, h.cached⟩
    · intro c hc
      obtain ⟨o, ho, rfl⟩ := List.mem_map.mp hc
      refine ⟨o, h.rows.unique.order_of_mem (mem_staleOrders ho).1, fun hne => ?_⟩
      cases hext : o.externalId with
      | none => exact absurd (by rw [hext]; rfl) hne
      | some e => rfl
    · -- the worker has slept since the pass before
      have hslept : start + reconcileLoopInterval * s.passes ≤ s.now := by
        rcases h.paced.passes with hzero | hp
        · simpa [hzero] using h.paced.since
        · exact hp.1.trans hgo.1.2
      push_cast
      linarith
  · rw [StaleState.select, if_neg hgo]
    exact h

/-! ### A run -/

/-- What an answer leads to is seen in the tables and the cache. -/
theorem settle_frame (wi : WhiteInternetApi) (s : StaleState) (wall : Time) (fails : Bool) :
    ∃ db backoff answered, s.settle wi wall fails =
      { s with db := db, backoff := backoff, answered := answered } := by
  rw [StaleState.settle]
  simp only [defer, forget]
  split
  · exact ⟨_, _, _, rfl⟩
  · cases fails with
    | true => exact ⟨_, _, _, if_pos rfl⟩
    | false =>
      rw [if_neg Bool.false_ne_true]
      split
      · exact ⟨_, _, _, rfl⟩
      · split_ifs
        · exact ⟨_, _, _, rfl⟩
        · exact ⟨_, _, _, rfl⟩
        · exact ⟨_, _, _, rfl⟩

/-- A candidate that is asked about goes over to the orders that were. -/
theorem ask_frame (s : StaleState) (answer : Option GatewayAnswer) :
    ∃ candidates asked backoff answered, s.seen = asked ++ candidates.map StaleCandidate.orderId ∧
      s.ask answer = { s with
        candidates := candidates, asked := asked, backoff := backoff, answered := answered } := by
  rw [StaleState.ask]
  simp only [defer]
  split
  · rename_i c rest hcands _
    have hseen : s.seen = (s.asked ++ [c.orderId]) ++ rest.map StaleCandidate.orderId := by
      rw [seen, hcands, List.map_cons, List.append_assoc, List.singleton_append]
    cases answer with
    | none => exact ⟨_, _, _, _, hseen, rfl⟩
    | some a =>
      dsimp only
      split_ifs
      · exact ⟨_, _, _, _, hseen, rfl⟩
      · exact ⟨_, _, _, _, hseen, rfl⟩
  · exact ⟨_, _, _, _, rfl, rfl⟩

/-- What was picked stays picked, and time goes on. -/
theorem step_mono (s : StaleState) (e : StaleEvent) :
    s.seen <+: (step wi s e).seen ∧ s.now ≤ (step wi s e).now := by
  cases e with
  | tick d => exact ⟨List.prefix_rfl, le_add_of_nonneg_right (Int.natCast_nonneg d)⟩
  | select wall =>
    rw [step]
    by_cases hgo : s.Ready ∧ s.Idle
    · refine ⟨(seen_select hgo wall).symm ▸ List.prefix_append .., ?_⟩
      rw [StaleState.select, if_pos hgo]
    · rw [StaleState.select, if_neg hgo]
      exact ⟨List.prefix_rfl, le_rfl⟩
  | ask answer =>
    obtain ⟨_, _, _, _, hseen, heq⟩ := ask_frame s answer
    rw [step, heq]
    exact ⟨hseen ▸ List.prefix_rfl, le_rfl⟩
  | settle wall fails =>
    obtain ⟨_, _, _, heq⟩ := settle_frame wi s wall fails
    rw [step, heq]
    exact ⟨List.prefix_rfl, le_rfl⟩
  | finish wall locked fails =>
    rw [step, StaleState.finish]
    by_cases hend : s.underWay = true ∧ s.Idle
    · rw [if_pos hend]
      exact ⟨List.prefix_rfl, le_rfl⟩
    · rw [if_neg hend]
      exact ⟨List.prefix_rfl, le_rfl⟩
  | others db => exact ⟨List.prefix_rfl, le_rfl⟩

/-- An order that was left out so far is picked now, or is left out still. -/
theorem LeftOut.step (h : s.LeftOut x older short start) (hlive : s.now < start + backoffCacheTtl)
    (e : StaleEvent) (hattends : Attends x older short s e) (hx : x ∉ (step wi s e).seen) :
    (StaleState.step wi s e).LeftOut x older short start := by
  have hbefore : x ∉ s.seen := fun hmem => hx ((step_mono s e).1.subset hmem)
  cases e with
  | tick d => exact h.tick d
  | select wall => exact h.select hlive wall hattends hx
  | ask answer => exact h.ask hlive hbefore answer
  | settle wall fails => exact h.settle hlive hbefore wall fails hattends
  | finish wall locked fails => exact h.finish wall locked fails
  | others db => exact h.later hattends.1 hattends.2

theorem leftOut_of_run {es : List StaleEvent} (h : s.LeftOut x older short start)
    (hattends : Lib.Always (StaleState.step wi) (Attends x older short) s es)
    (hlive : (Lib.run (StaleState.step wi) s es).now < start + backoffCacheTtl)
    (hx : x ∉ (Lib.run (StaleState.step wi) s es).seen) :
    (Lib.run (StaleState.step wi) s es).LeftOut x older short start := by
  have hinv := Lib.run_inv_of_always (StaleState.step wi)
    (I := fun s => s.now < start + backoffCacheTtl → x ∉ s.seen → s.LeftOut x older short start)
    (fun s e hs he hnow hnot => by
      have hbefore : s.now < start + backoffCacheTtl := (step_mono s e).2.trans_lt hnow
      have hsame : x ∉ s.seen := fun hmem => hnot ((step_mono s e).1.subset hmem)
      exact (hs hbefore hsame).step hbefore e he hnot) es s (fun _ _ => h) hattends
  exact hinv hlive hx

/-- In a run that is shorter than an entry of the cache lives, an overdue order is asked about as
    soon as the passes have more room than the overdue orders that are not younger can fill, where
    those with short payments may take their room in every pass. -/
theorem asked_of_run (s : StaleState) (es : List StaleEvent) (x : OrderId)
    (older short : Finset OrderId) (hstart : s.Starts x)
    (hattends : Lib.Always (StaleState.step wi) (Attends x older short) s es)
    (hend : (Lib.run (StaleState.step wi) s es).Idle)
    (hlive : (Lib.run (StaleState.step wi) s es).now < s.now + backoffCacheTtl)
    (hmany : (older \ short).card <
      (Lib.run (StaleState.step wi) s es).passes * (staleCandidateLimit - short.card)) :
    x ∈ (Lib.run (StaleState.step wi) s es).asked := by
  by_contra hnot
  have hx : x ∉ (Lib.run (StaleState.step wi) s es).seen := by
    rwa [seen, hend.1, List.map_nil, List.append_nil]
  obtain ⟨holder, hapart, hfilled⟩ := (leftOut_of_run hstart.leftOut hattends hlive hx).filled
  refine absurd (hfilled.trans ?_) (not_le.mpr hmany)
  rw [← List.toFinset_card_of_nodup hapart]
  refine Finset.card_le_card fun i hi => ?_
  obtain ⟨hseen, hshort⟩ := List.mem_filter.mp (List.mem_toFinset.mp hi)
  exact Finset.mem_sdiff.mpr ⟨holder i hseen, of_decide_eq_true hshort⟩

/-- An order that waits for its payment. -/
def overdueOrder (id : OrderId) (externalId : String) : Order :=
  { id := id, userId := 7, amountRub := 100, externalId := some externalId, createdAt := id }

/-- The gateway has a payment of half the price. -/
def halfPaid : GatewayAnswer :=
  .payment { status := "succeeded", amountValue := some 50, currency := some "RUB" }

/-- Two overdue orders, the older one paid short. -/
def twoOverdue : StaleState := { db := { orders := [overdueOrder 1 "p", overdueOrder 2 "q"] } }

theorem asked_of_run_twoOverdue :
    2 ∈ (Lib.run (StaleState.step openService) twoOverdue
      [.select (seconds 600), .ask (some halfPaid), .settle (seconds 600) false,
        .ask none]).asked := by
  have hanswered : ∀ a ∈ (Lib.run (StaleState.step openService) twoOverdue
      [.select (seconds 600), .ask (some halfPaid)]).answered, a.1.orderId ∈ ({1} : Finset ℕ) := by
    decide
  refine asked_of_run _ _ 2 {1} {1}
    ⟨by rw [UniqueOrders]; decide, by decide, rfl, rfl, by decide⟩
    ⟨fun _ => ⟨_, rfl, by decide, by decide⟩, trivial, fun a ha _ => hanswered a ha, trivial,
      trivial⟩
    (by decide) (by decide) (by decide)

end StaleState

end Just1kBot
