import Just1kBot.Orders.PurchaseLog

/-! When the pages of the purchase log are the merged list.

    An entry is on its page exactly when the window of that page reaches it in the query of its
    source. The grants and the orders with a time of payment always are in reach; an order without
    one may stand too far behind in the query. -/

namespace Just1kBot

instance : IsTrans PurchaseLogEntry PurchaseLogEntry.Ahead where
  trans _ _ _ hxy hyz := le_trans hyz hxy

instance : Std.Total PurchaseLogEntry.Ahead where
  total x y := le_total y.createdAt x.createdAt

instance : IsTrans AuditLog AuditLog.Ahead where
  trans _ _ _ hxy hyz := le_trans hyz hxy

instance : Std.Total AuditLog.Ahead where
  total x y := le_total y.createdAt x.createdAt

namespace LoggedOrder

instance : IsTrans LoggedOrder Ahead where
  trans x y z hxy hyz := by
    cases hx : x.paidAt <;> cases hy : y.paidAt <;> cases hz : z.paidAt <;>
      simp only [Ahead, hx, hy, hz] at * <;> grind

instance : Std.Total Ahead where
  total x y := by
    cases hx : x.paidAt <;> cases hy : y.paidAt <;> simp only [Ahead, hx, hy] <;> grind

/-- Orders that tie in the query have the same time. -/
theorem Ahead.time_eq {x y : LoggedOrder} (hxy : Ahead x y) (hyx : Ahead y x) :
    x.time = y.time := by
  cases hx : x.paidAt <;> cases hy : y.paidAt <;>
    simp only [Ahead, time, hx, hy, Option.getD] at * <;> grind

/-- An order without a time of payment comes after all orders with one. -/
theorem not_ahead_of_none {o x : LoggedOrder} (ho : o.paidAt = none)
    (hne : x.paidAt ≠ some o.createdAt) :
    ¬ Ahead o x ↔ o.createdAt < x.time ∨ ∃ s ∈ x.paidAt, s < o.createdAt := by
  cases hx : x.paidAt with
  | none => simp [Ahead, time, ho, hx]
  | some s =>
    have hs : s ≠ o.createdAt := fun heq => hne (by rw [hx, heq])
    simp only [Ahead, time, ho, hx, not_false_iff, Option.getD_some, Option.mem_some,
      exists_eq_left', true_iff]
    exact hs.symm.lt_or_gt

theorem countP_not_ahead {o : LoggedOrder} {l : List LoggedOrder} (ho : o.paidAt = none)
    (hne : ∀ a ∈ l, a.paidAt ≠ some o.createdAt) :
    (l.countP fun a => ¬ Ahead o a) = (l.countP fun a => o.createdAt < a.time) +
      l.countP fun a => ∃ s ∈ a.paidAt, s < o.createdAt := by
  have hearlier : ∀ a : LoggedOrder, (∃ s ∈ a.paidAt, s < o.createdAt) →
      ¬ o.createdAt < a.time := by
    rintro a ⟨s, hs, hlt⟩
    rw [time, Option.mem_def.mp hs]
    exact hlt.not_gt
  rw [List.countP_eq_countP_filter_add _ _ fun a => decide (o.createdAt < a.time),
    List.countP_filter, List.countP_filter]
  congr 1
  · refine List.countP_congr fun a ha => ?_
    have hbefore := not_ahead_of_none ho (hne a ha)
    simp only [Bool.and_eq_true, decide_eq_true_eq]
    exact ⟨fun hboth => hboth.2, fun hlater => ⟨hbefore.mpr (.inl hlater), hlater⟩⟩
  · refine List.countP_congr fun a ha => ?_
    have hbefore := not_ahead_of_none ho (hne a ha)
    simp only [Bool.and_eq_true, Bool.not_eq_true', decide_eq_true_eq, decide_eq_false_iff_not]
    exact ⟨fun hboth => (hbefore.mp hboth.1).resolve_left hboth.2,
      fun hpaid => ⟨hbefore.mpr (.inr hpaid), hearlier a hpaid⟩⟩

/-- Before an order with a time of payment come later ones only. -/
theorem time_lt_of_not_ahead {o x : LoggedOrder} {s : Time} (ho : o.paidAt = some s)
    (hne : x.time ≠ o.time) (h : ¬ Ahead o x) : o.time < x.time := by
  cases hx : x.paidAt with
  | none => simp [Ahead, ho, hx] at h
  | some u =>
    simp only [Ahead, time, ho, hx, Option.getD_some] at *
    grind

end LoggedOrder

namespace PurchaseTables
variable {db : PurchaseTables} {p : ℕ}

/-- The times of the records. -/
def timestamps (db : PurchaseTables) : List Time :=
  (db.orders.filter LoggedOrder.Logged).map LoggedOrder.time ++
    (db.audits.filter AuditLog.Logged).map AuditLog.createdAt

def orderEntries (db : PurchaseTables) : List PurchaseLogEntry :=
  db.orderResults.map fun o => o.buildOrderPurchaseEntry

def auditEntries (db : PurchaseTables) : List PurchaseLogEntry :=
  db.auditResults.map (AuditLog.purchaseEntry db.users)

/-- The entries that a page sorts. -/
def window (db : PurchaseTables) (n : ℕ) : List PurchaseLogEntry :=
  db.orderEntries.take n ++ db.auditEntries.take n

theorem records_eq (db : PurchaseTables) : db.records = db.orderEntries ++ db.auditEntries := rfl

theorem page_eq (db : PurchaseTables) (k p : ℕ) :
    (db.getPurchaseLogsPaginated (k + 1) p).1 =
      Lib.Paging.page p k ((db.window ((k + 1) * p)).insertionSort PurchaseLogEntry.Ahead) := by
  simp only [getPurchaseLogsPaginated, Nat.add_sub_cancel]
  rw [entriesOf, List.map_take, List.map_take, Lib.Paging.page, window, Nat.succ_mul]
  rfl

/-! ### Lengths -/

theorem length_page (db : PurchaseTables) (k p : ℕ) :
    (db.getPurchaseLogsPaginated (k + 1) p).1.length = min p (db.records.length - k * p) := by
  rw [page_eq, Lib.Paging.length_page, List.length_insertionSort, window, records_eq,
    List.length_append, List.length_append, List.length_take, List.length_take, Nat.succ_mul]
  omega

theorem exhausted_iff (hp : 0 < p) (k : ℕ) :
    (db.getPurchaseLogsPaginated (k + 1) p).1 = [] ↔ db.pageCount p ≤ k := by
  have hcount : db.pageCount p ≤ k ↔ db.records.length ≤ k * p := by
    rw [pageCount, ← Nat.lt_succ_iff, Nat.div_lt_iff_lt_mul hp, Nat.succ_mul]
    omega
  rw [hcount, ← List.length_eq_zero_iff, length_page]
  omega

theorem length_records (db : PurchaseTables) : db.records.length =
    db.orders.countP LoggedOrder.Logged + db.audits.countP AuditLog.Logged := by
  rw [records, entriesOf, List.length_append, List.length_map, List.length_map, orderResults,
    auditResults, List.length_insertionSort, List.length_insertionSort,
    List.countP_eq_length_filter, List.countP_eq_length_filter]

/-- The total is right on every page. -/
theorem total_eq (db : PurchaseTables) (page p : ℕ) :
    (db.getPurchaseLogsPaginated page p).2 = db.records.length := by
  simp only [getPurchaseLogsPaginated]
  split_ifs with hshort
  · obtain ⟨horders, haudits⟩ := hshort
    rw [List.length_take] at horders haudits
    rw [List.length_insertionSort, records, List.take_of_length_le (by omega),
      List.take_of_length_le (by omega)]
  · exact (length_records db).symm

/-! ### Places -/

theorem perm_timestamps (db : PurchaseTables) :
    (db.records.map PurchaseLogEntry.createdAt).Perm db.timestamps := by
  rw [records, entriesOf, List.map_append, List.map_map, List.map_map]
  exact ((List.perm_insertionSort ..).map _).append ((List.perm_insertionSort ..).map _)

variable (h : db.timestamps.Nodup)

include h in
theorem nodup_times : (db.records.map PurchaseLogEntry.createdAt).Nodup :=
  db.perm_timestamps.nodup_iff.mpr h

include h in
theorem nodup_records : db.records.Nodup := (nodup_times h).of_map

include h in
theorem nodup_entries : (db.orderEntries ++ db.auditEntries).Nodup := nodup_records h

include h in
/-- Records do not tie. -/
theorem eq_of_ahead {a b : PurchaseLogEntry} (ha : a ∈ db.records) (hb : b ∈ db.records)
    (hab : a.Ahead b) (hba : b.Ahead a) : a = b :=
  List.inj_on_of_nodup_map (nodup_times h) ha hb (le_antisymm hba hab)

include h in
/-- A record stands in the merged list after the later ones. -/
theorem getElem?_merged {x : PurchaseLogEntry} (hx : x ∈ db.records) :
    db.merged[db.laterOrders x.createdAt + db.laterAudits x.createdAt]? = some x := by
  have hlater : (db.records.countP fun a => ¬ x.Ahead a) =
      db.laterOrders x.createdAt + db.laterAudits x.createdAt := by
    have hiff : (fun a : PurchaseLogEntry => decide (¬ x.Ahead a)) =
        fun a => decide (x.createdAt < a.createdAt) := by
      funext a
      simp [PurchaseLogEntry.Ahead]
    rw [hiff, records, entriesOf, List.countP_append, List.countP_map, List.countP_map,
      orderResults, auditResults, (List.perm_insertionSort ..).countP_eq,
      (List.perm_insertionSort ..).countP_eq]
    rfl
  rw [merged, ← hlater]
  exact Lib.StableSort.getElem?_insertionSort _ (nodup_records h) hx fun a ha hax hxa =>
    eq_of_ahead h ha hx hax hxa

include h in
/-- A grant stands in its query after the later ones. -/
theorem getElem?_auditEntries {log : AuditLog} (hlog : log ∈ db.audits.filter AuditLog.Logged) :
    db.auditEntries[db.laterAudits log.createdAt]? = some (log.purchaseEntry db.users) := by
  have htimes : ((db.audits.filter AuditLog.Logged).map AuditLog.createdAt).Nodup :=
    h.sublist (List.sublist_append_right ..)
  have hlater : ((db.audits.filter AuditLog.Logged).countP fun a => ¬ log.Ahead a) =
      db.laterAudits log.createdAt := by
    rw [laterAudits]
    exact List.countP_congr fun a _ => by simp [AuditLog.Ahead]
  rw [auditEntries, List.getElem?_map, auditResults, ← hlater,
    Lib.StableSort.getElem?_insertionSort _ htimes.of_map hlog fun a ha hax hxa =>
      List.inj_on_of_nodup_map htimes ha hlog (le_antisymm hxa hax)]
  rfl

/-- The place of an order in its query. -/
def queryPlace (db : PurchaseTables) (o : LoggedOrder) : ℕ :=
  (db.orders.filter LoggedOrder.Logged).countP fun a => ¬ o.Ahead a

include h in
theorem getElem?_orderEntries {o : LoggedOrder} (ho : o ∈ db.orders.filter LoggedOrder.Logged) :
    db.orderEntries[db.queryPlace o]? = some o.buildOrderPurchaseEntry := by
  have htimes : ((db.orders.filter LoggedOrder.Logged).map LoggedOrder.time).Nodup :=
    h.sublist (List.sublist_append_left ..)
  rw [orderEntries, List.getElem?_map, orderResults, queryPlace,
    Lib.StableSort.getElem?_insertionSort _ htimes.of_map ho fun a ha hax hxa =>
      List.inj_on_of_nodup_map htimes ha ho (hax.time_eq hxa)]
  rfl

include h in
/-- An order with a time of payment stands after later orders only. -/
theorem queryPlace_le {o : LoggedOrder} {s : Time} (ho : o ∈ db.orders.filter LoggedOrder.Logged)
    (hpaid : o.paidAt = some s) : db.queryPlace o ≤ db.laterOrders o.time := by
  have htimes : ((db.orders.filter LoggedOrder.Logged).map LoggedOrder.time).Nodup :=
    h.sublist (List.sublist_append_left ..)
  refine List.countP_mono_left fun a ha hahead => ?_
  have hnot : ¬ o.Ahead a := by simpa using hahead
  have hne : a.time ≠ o.time := by
    intro heq
    rw [List.inj_on_of_nodup_map htimes ha ho heq] at hnot
    exact hnot ((Std.Total.total (r := LoggedOrder.Ahead) o o).elim id id)
  simpa using LoggedOrder.time_lt_of_not_ahead hpaid hne hnot

include h in
/-- An order without one stands after the later orders and those paid before it. -/
theorem queryPlace_eq {o : LoggedOrder} (ho : o ∈ db.orders.filter LoggedOrder.Logged)
    (hnone : o.paidAt = none) :
    db.queryPlace o = db.laterOrders o.createdAt + db.paidBefore o.createdAt := by
  have htimes : ((db.orders.filter LoggedOrder.Logged).map LoggedOrder.time).Nodup :=
    h.sublist (List.sublist_append_left ..)
  refine LoggedOrder.countP_not_ahead hnone fun a ha hpaid => ?_
  have htime : a.time = o.time := by rw [LoggedOrder.time, LoggedOrder.time, hpaid, hnone]; rfl
  rw [List.inj_on_of_nodup_map htimes ha ho htime, hnone] at hpaid
  cases hpaid

/-! ### The pages -/

include h in
theorem mem_window_iff (hp : 0 < p) (k : ℕ) (x : PurchaseLogEntry) :
    x ∈ db.window ((k + 1) * p) ↔
      x ∈ db.records ∧ Lib.Paging.reach db.orderEntries db.auditEntries x / p ≤ k := by
  rw [window, Lib.Paging.mem_window_iff (nodup_entries h), ← records_eq, ← Nat.lt_succ_iff,
    Nat.div_lt_iff_lt_mul hp]

include h in
/-- The pages are the merged list exactly when every record is in reach of its page. -/
theorem pages_eq_iff (hp : 0 < p) : db.pages p = db.merged ↔
    ∀ x ∈ db.records, Lib.Paging.reach db.orderEntries db.auditEntries x / p ≤
      (db.laterOrders x.createdAt + db.laterAudits x.createdAt) / p := by
  have hcover : db.records.length ≤ db.pageCount p * p := by
    have hexhausted : (db.getPurchaseLogsPaginated (db.pageCount p + 1) p).1 = [] :=
      (exhausted_iff hp _).mpr (le_refl _)
    rw [← List.length_eq_zero_iff, length_page] at hexhausted
    omega
  have hmerged : db.merged = db.merged.take (db.pageCount p * p) := by
    rw [List.take_of_length_le]
    rwa [merged, List.length_insertionSort]
  have hsorted : db.merged.Nodup := (List.perm_insertionSort ..).nodup_iff.mpr (nodup_records h)
  rw [hmerged, pages, Lib.Paging.flatMap_eq_iff fun k => ?_]
  · simp only [page_eq]
    rw [merged, Lib.Paging.pages_eq_iff PurchaseLogEntry.Ahead hp hcover (nodup_records h)
      (fun a ha b hb => eq_of_ahead h ha hb) (fun k => ?_) (mem_window_iff h hp)]
    · constructor
      · exact fun hreach x hx => hreach _ x (getElem?_merged h hx)
      · intro hreach i x hi
        have hx : x ∈ db.records :=
          (List.mem_insertionSort _).mp (List.mem_of_getElem? hi)
        obtain ⟨hlt, -⟩ := List.getElem?_eq_some_iff.mp hi
        rw [(List.getElem?_inj hlt hsorted).mp (hi.trans (getElem?_merged h hx).symm)]
        exact hreach x hx
    · exact (nodup_records h).sublist ((List.take_sublist ..).append (List.take_sublist ..))
  · rw [length_page, Lib.Paging.length_page, merged, List.length_insertionSort]

/-- The log is lossless exactly when every order without a time of payment is in reach of its
    page. -/
theorem lossless_iff (hp : 1 ≤ p) (h : db.timestamps.Nodup) :
    db.Lossless p ↔ db.UnpaidInReach p := by
  have hlossless : db.Lossless p ↔ db.pages p = db.merged :=
    ⟨Lossless.pages_eq, fun hpages => ⟨hpages, exhausted_iff hp, fun page => total_eq db page p⟩⟩
  rw [hlossless, pages_eq_iff h hp, UnpaidInReach]
  constructor
  · intro hreach o ho hnone
    have hplace := getElem?_orderEntries h ho
    have hpage := hreach o.buildOrderPurchaseEntry
      (List.mem_append_left _ (List.mem_of_getElem? hplace))
    have htime : o.buildOrderPurchaseEntry.createdAt = o.createdAt := by
      rw [LoggedOrder.buildOrderPurchaseEntry, LoggedOrder.time, hnone]
      rfl
    rwa [Lib.Paging.reach_of_left (nodup_entries h) hplace, queryPlace_eq h ho hnone, htime]
      at hpage
  · intro hreach x hx
    rcases List.mem_append.mp hx with hx | hx
    · obtain ⟨o, ho, rfl⟩ := List.mem_map.mp hx
      have ho : o ∈ db.orders.filter LoggedOrder.Logged := (List.mem_insertionSort _).mp ho
      rw [Lib.Paging.reach_of_left (nodup_entries h) (getElem?_orderEntries h ho)]
      have htime : o.buildOrderPurchaseEntry.createdAt = o.time := rfl
      rw [htime]
      cases hpaid : o.paidAt with
      | some s =>
        exact Nat.div_le_div_right ((queryPlace_le h ho hpaid).trans (Nat.le_add_right ..))
      | none =>
        have hcreated : o.time = o.createdAt := by rw [LoggedOrder.time, hpaid]; rfl
        rw [queryPlace_eq h ho hpaid, hcreated]
        exact hreach o ho hpaid
    · obtain ⟨log, hlog, rfl⟩ := List.mem_map.mp hx
      have hlog : log ∈ db.audits.filter AuditLog.Logged := (List.mem_insertionSort _).mp hlog
      rw [Lib.Paging.reach_of_right (nodup_entries h) (getElem?_auditEntries h hlog)]
      exact Nat.div_le_div_right (Nat.le_add_left ..)

/-- An order paid at 5, one of time 10 without a time of payment, and grants at the given times. -/
def unpaidLog (grants : List Time) : PurchaseTables where
  orders := [{ id := 1, userId := 1, amountRub := 100, status := .paid, createdAt := 4,
               paidAt := some 5 },
    { id := 2, userId := 1, amountRub := 100, status := .paid, createdAt := 10 }]
  audits := (grants.zipIdx 1).map fun g => { id := g.2, action := .grant, createdAt := g.1 }

theorem lossless_iff_later_grant : (unpaidLog [20]).Lossless 1 :=
  (lossless_iff (p := 1) (by decide) (by decide +kernel)).mpr (by decide +kernel)

/-- Without a later grant the first two pages show the older order twice. -/
theorem not_lossless_unpaid :
    (unpaidLog []).timestamps.Nodup ∧
    ((unpaidLog []).pages 1).map PurchaseLogEntry.id = [.order 1, .order 1] ∧
    ((unpaidLog []).merged).map PurchaseLogEntry.id = [.order 2, .order 1] ∧
    ¬ (unpaidLog []).Lossless 1 := by
  have hpages : ((unpaidLog []).pages 1).map PurchaseLogEntry.id = [.order 1, .order 1] := by
    decide +kernel
  have hmerged : (unpaidLog []).merged.map PurchaseLogEntry.id = [.order 2, .order 1] := by
    decide +kernel
  refine ⟨by decide +kernel, hpages, hmerged, fun hlossless => ?_⟩
  rw [hlossless.pages_eq, hmerged] at hpages
  cases hpages

end PurchaseTables

end Just1kBot
