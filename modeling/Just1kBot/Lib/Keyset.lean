import Mathlib.Data.List.Sort

/-! Keyset pages: a table that is read page by page, in the order of a key, from a cursor on.

    The page after a cursor holds the rows with the next keys. A reader that moves its cursor to the
    last key of each page passes over no row, and comes to an end as long as the keys stay. -/

namespace Lib.Keyset

variable {α κ : Type*} (key : α → κ)

/-- The cursor after a page. -/
def advance (cursor : κ) (page : List α) : κ := (page.getLast?.map key).getD cursor

theorem advance_concat (cursor : κ) (l : List α) (r : α) :
    advance key cursor (l ++ [r]) = key r := by
  rw [advance, List.getLast?_concat, Option.map_some, Option.getD_some]

variable [LinearOrder κ]

/-- The order of the key. -/
def Ahead (a b : α) : Prop := key a ≤ key b

instance : DecidableRel (Ahead key) := fun a b => inferInstanceAs (Decidable (key a ≤ key b))

instance : Std.Total (Ahead key) where
  total a b := le_total (key a) (key b)

instance : IsTrans α (Ahead key) where
  trans _ _ _ := le_trans

/-- The rows beyond a cursor, in the order of the key. -/
def beyond (cursor : κ) (rows : List α) : List α :=
  (rows.filter fun r => cursor < key r).insertionSort (Ahead key)

/-- `WHERE key > cursor ORDER BY key LIMIT size`. -/
def page (size : ℕ) (cursor : κ) (rows : List α) : List α := (beyond key cursor rows).take size

/-- `ORDER BY key LIMIT size`. -/
def first (size : ℕ) (rows : List α) : List α := (rows.insertionSort (Ahead key)).take size

/-- How many rows are beyond a cursor. -/
def remaining (cursor : κ) (rows : List α) : ℕ := (rows.map key).countP fun k => cursor < k

variable {key} {size : ℕ} {cursor : κ} {rows : List α} {r : α}

theorem mem_beyond : r ∈ beyond key cursor rows ↔ r ∈ rows ∧ cursor < key r := by
  rw [beyond, List.mem_insertionSort, List.mem_filter, decide_eq_true_eq]

theorem mem_of_mem_page (hr : r ∈ page key size cursor rows) : r ∈ rows ∧ cursor < key r :=
  mem_beyond.mp (List.mem_of_mem_take hr)

theorem pairwise_page : (page key size cursor rows).Pairwise (Ahead key) :=
  (List.pairwise_insertionSort (Ahead key) _).take

/-- Where no two rows have one key, the keys of a page rise. -/
theorem pairwise_lt_page (hnodup : (rows.map key).Nodup) :
    (page key size cursor rows).Pairwise fun a b => key a < key b := by
  have hdistinct : ((page key size cursor rows).map key).Nodup := by
    refine List.Nodup.sublist ((List.take_sublist size _).map key) ?_
    refine ((List.perm_insertionSort _ _).map key).nodup_iff.mpr ?_
    exact hnodup.sublist (List.filter_sublist.map key)
  exact (pairwise_page.and (List.pairwise_map.mp hdistinct)).imp fun h => lt_of_le_of_ne h.1 h.2

/-- A page is empty when no row is left. -/
theorem page_eq_nil_iff (hsize : 0 < size) :
    page key size cursor rows = [] ↔ ∀ r ∈ rows, key r ≤ cursor := by
  rw [page, List.take_eq_nil_iff, or_iff_right hsize.ne', List.eq_nil_iff_forall_not_mem]
  refine forall_congr' fun r => ?_
  rw [mem_beyond, not_and, not_lt]

/-- The rows of a page are not beyond the cursor after it. -/
theorem key_le_advance (hr : r ∈ page key size cursor rows) :
    key r ≤ advance key cursor (page key size cursor rows) := by
  have hsorted : (page key size cursor rows).Pairwise (Ahead key) := pairwise_page
  generalize page key size cursor rows = l at hr hsorted ⊢
  rcases List.eq_nil_or_concat' l with rfl | ⟨l, x, rfl⟩
  · cases hr
  · rw [advance_concat]
    rcases List.mem_append.mp hr with hr | hr
    · exact (List.pairwise_append.mp hsorted).2.2 r hr x List.mem_cons_self
    · rw [List.mem_singleton.mp hr]

/-- A page that is not empty moves the cursor. -/
theorem lt_advance (hne : page key size cursor rows ≠ []) :
    cursor < advance key cursor (page key size cursor rows) := by
  obtain ⟨r, hr⟩ := List.exists_mem_of_ne_nil _ hne
  exact (mem_of_mem_page hr).2.trans_le (key_le_advance hr)

/-- No row is passed over: one that is beyond the old cursor but not beyond the new one has its key
    on the page. -/
theorem key_mem_page (hr : r ∈ rows) (hlt : cursor < key r)
    (hle : key r ≤ advance key cursor (page key size cursor rows)) :
    key r ∈ (page key size cursor rows).map key := by
  have hsorted := List.pairwise_insertionSort (Ahead key) (rows.filter fun r => cursor < key r)
  have hmem : r ∈ beyond key cursor rows := mem_beyond.mpr ⟨hr, hlt⟩
  rw [← beyond, ← List.take_append_drop size (beyond key cursor rows)] at hsorted
  rw [← List.take_append_drop size (beyond key cursor rows)] at hmem
  rw [page] at hle ⊢
  generalize (beyond key cursor rows).take size = l at hsorted hmem hle ⊢
  rcases List.mem_append.mp hmem with hpage | hrest
  · exact List.mem_map_of_mem hpage
  · rcases List.eq_nil_or_concat' l with rfl | ⟨l, x, rfl⟩
    · exact absurd hle (not_le.mpr hlt)
    · rw [advance_concat] at hle
      have hge := (List.pairwise_append.mp hsorted).2.2 x (by simp) r hrest
      rw [le_antisymm hle hge]
      exact List.mem_map_of_mem (by simp)

/-- With each page fewer rows are left. -/
theorem remaining_lt (hne : page key size cursor rows ≠ []) :
    remaining key (advance key cursor (page key size cursor rows)) rows <
      remaining key cursor rows := by
  obtain ⟨r, hr⟩ := List.exists_mem_of_ne_nil _ hne
  have hlt := lt_advance hne
  rw [remaining, remaining, List.countP_eq_length_filter, List.countP_eq_length_filter]
  have hsub : ((rows.map key).filter fun k => advance key cursor (page key size cursor rows) < k) =
      ((rows.map key).filter fun k => cursor < k).filter
        fun k => advance key cursor (page key size cursor rows) < k := by
    rw [List.filter_filter]
    refine List.filter_congr fun k _ => ?_
    rw [Bool.eq_iff_iff, Bool.and_eq_true, decide_eq_true_eq, decide_eq_true_eq]
    exact ⟨fun h => ⟨h, hlt.trans h⟩, fun h => h.1⟩
  rw [hsub, List.length_filter_lt_length_iff_exists]
  obtain ⟨hmem, hbeyond⟩ := mem_of_mem_page hr
  refine ⟨key r, List.mem_filter.mpr ⟨List.mem_map_of_mem hmem, decide_eq_true hbeyond⟩, ?_⟩
  simpa using key_le_advance hr

/-! ### The first rows -/

theorem mem_of_mem_first (hr : r ∈ first key size rows) : r ∈ rows :=
  (List.mem_insertionSort _).mp (List.mem_of_mem_take hr)

/-- What no two rows share, no two of the first rows share. -/
theorem nodup_map_first {β : Type*} {f : α → β} (h : (rows.map f).Nodup) :
    ((first key size rows).map f).Nodup := by
  refine List.Nodup.sublist ((List.take_sublist size _).map f) ?_
  exact ((List.perm_insertionSort _ _).map f).nodup_iff.mpr h

/-- A row is not among the first only where these are as many as there may be, and none of them is
    behind it. -/
theorem ahead_of_not_mem_first (hr : r ∈ rows) (hnot : r ∉ first key size rows) :
    (first key size rows).length = size ∧ ∀ a ∈ first key size rows, key a ≤ key r := by
  have hsorted := List.pairwise_insertionSort (Ahead key) rows
  have hmem : r ∈ rows.insertionSort (Ahead key) := (List.mem_insertionSort _).mpr hr
  rw [first] at hnot ⊢
  rw [← List.take_append_drop size (rows.insertionSort (Ahead key))] at hsorted hmem
  have hrest := (List.mem_append.mp hmem).resolve_left hnot
  refine ⟨List.length_take_of_le ?_, fun a ha => (List.pairwise_append.mp hsorted).2.2 a ha r hrest⟩
  by_contra hshort
  rw [List.drop_eq_nil_of_le (by omega)] at hrest
  cases hrest

/-- A row that enough others are ahead of is not among the first. -/
theorem not_mem_first (h : size ≤ rows.countP fun a => key a < key r) :
    r ∉ first key size rows := by
  intro hr
  have hsorted := List.pairwise_insertionSort (Ahead key) rows
  have hcount : (rows.insertionSort (Ahead key)).countP (fun a => key a < key r) =
      rows.countP fun a => key a < key r := (List.perm_insertionSort _ _).countP_eq _
  rw [← List.take_append_drop size (rows.insertionSort (Ahead key))] at hsorted hcount
  have hdrop : ((rows.insertionSort (Ahead key)).drop size).countP
      (fun a => key a < key r) = 0 := by
    refine List.countP_eq_zero.mpr fun a ha => ?_
    have hahead : key r ≤ key a := (List.pairwise_append.mp hsorted).2.2 r hr a ha
    simpa using hahead
  have htake : ((rows.insertionSort (Ahead key)).take size).countP (fun a => key a < key r) <
      ((rows.insertionSort (Ahead key)).take size).length := by
    rw [List.countP_eq_length_filter, List.length_filter_lt_length_iff_exists]
    exact ⟨r, hr, by simp⟩
  have hlen := List.length_take_le size (rows.insertionSort (Ahead key))
  rw [List.countP_append, hdrop] at hcount
  omega

end Lib.Keyset
