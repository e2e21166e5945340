import Mathlib.Data.List.Sort

/-! Pages of a list, and pages that are read through a window.

    Where a sorted list is read page by page from a part of its elements only, each page is right as
    soon as the part holds all elements up to the end of the page, and not before the part holds
    those of the page itself. -/

namespace Lib.Paging

variable {α : Type*}

/-- The page after the first `k` pages of `p` elements. -/
def page (p k : ℕ) (l : List α) : List α := (l.drop (k * p)).take p

theorem length_page (p k : ℕ) (l : List α) : (page p k l).length = min p (l.length - k * p) := by
  rw [page, List.length_take, List.length_drop]

/-- The first pages together are the beginning of the list. -/
theorem flatMap_page (p : ℕ) (l : List α) (n : ℕ) :
    ((List.range n).flatMap fun k => page p k l) = l.take (n * p) := by
  induction n with
  | zero => simp
  | succ n ih =>
    rw [List.range_succ, List.flatMap_append, ih, Nat.succ_mul, List.take_add]
    simp [page]

/-- The pages that a loop over `range(0, len(l), p)` cuts. -/
def chunks (p : ℕ) (l : List α) : List (List α) :=
  (List.range ((l.length + (p - 1)) / p)).map fun k => page p k l

theorem flatten_chunks {p : ℕ} (hp : 0 < p) (l : List α) : (chunks p l).flatten = l := by
  have hall : l.length ≤ (l.length + (p - 1)) / p * p := by
    have hdiv := Nat.div_add_mod (l.length + (p - 1)) p
    have hmod := Nat.mod_lt (l.length + (p - 1)) hp
    rw [Nat.mul_comm] at hdiv
    omega
  rw [chunks, ← List.flatMap_def, flatMap_page, List.take_of_length_le hall]

/-- Lists that are as long as the pages are together the beginning of the list exactly when each is
    its page. -/
theorem flatMap_eq_iff {p : ℕ} {l : List α} {f : ℕ → List α}
    (hlength : ∀ k, (f k).length = (page p k l).length) (n : ℕ) :
    (List.range n).flatMap f = l.take (n * p) ↔ ∀ k < n, f k = page p k l := by
  rw [← flatMap_page]
  induction n with
  | zero => simp
  | succ n ih =>
    rw [List.range_succ, List.flatMap_append, List.flatMap_append, List.flatMap_singleton,
      List.flatMap_singleton]
    constructor
    · intro h k hk
      obtain ⟨hinit, hlast⟩ := List.append_inj' h (hlength n)
      rcases Nat.lt_succ_iff_lt_or_eq.mp hk with hk | rfl
      · exact ih.mp hinit k hk
      · exact hlast
    · intro h
      rw [ih.mpr fun k hk => h k (hk.trans (Nat.lt_succ_self n)), h n (Nat.lt_succ_self n)]

/-- Among the first `n` elements are those whose place is below `n`. -/
theorem mem_take_iff {l : List α} (hl : l.Nodup) {i n : ℕ} {x : α} (h : l[i]? = some x) :
    x ∈ l.take n ↔ i < n := by
  constructor
  · intro hx
    obtain ⟨j, hj⟩ := List.mem_iff_getElem?.mp hx
    rw [List.getElem?_take] at hj
    split_ifs at hj with hjn
    obtain ⟨hlt, -⟩ := List.getElem?_eq_some_iff.mp hj
    rwa [← (List.getElem?_inj hlt hl).mp (hj.trans h.symm)]
  · intro hi
    refine List.mem_of_getElem? (i := i) ?_
    rw [List.getElem?_take, if_pos hi, h]

/-- The element at place `i` is on page `i / p`. -/
theorem mem_page {p i : ℕ} (hp : 0 < p) {l : List α} {x : α} (h : l[i]? = some x) :
    x ∈ page p (i / p) l := by
  refine List.mem_of_getElem? (i := i % p) ?_
  rw [page, List.getElem?_take, if_pos (Nat.mod_lt i hp), List.getElem?_drop, Nat.div_add_mod' i p,
    h]

theorem page_eq_drop_take (p k : ℕ) (l : List α) :
    page p k l = (l.take ((k + 1) * p)).drop (k * p) := by
  rw [List.drop_take, Nat.succ_mul, Nat.add_sub_cancel_left, page]

section Window
variable (r : α → α → Prop) [DecidableRel r] [IsTrans α r] [Std.Total r]

/-- Without ties the sorted part is what the sorted list has of it. -/
theorem insertionSort_eq_filter [DecidableEq α] {part l : List α} (hl : l.Nodup)
    (hpart : part.Nodup) (hsub : part ⊆ l)
    (hanti : ∀ a ∈ l, ∀ b ∈ l, r a b → r b a → a = b) :
    part.insertionSort r = (l.insertionSort r).filter fun a => a ∈ part := by
  refine List.Perm.eq_of_pairwise (fun a b ha hb => ?_)
    (List.pairwise_insertionSort r part) ((List.pairwise_insertionSort r l).filter _) ?_
  · refine hanti a (hsub ((List.mem_insertionSort r).mp ha)) b ?_
    exact (List.mem_insertionSort r).mp (List.mem_of_mem_filter hb)
  · have hsorted : (l.insertionSort r).Nodup :=
      (List.perm_insertionSort r l).nodup_iff.mpr hl
    refine (List.perm_insertionSort r part).trans
      ((List.perm_ext_iff_of_nodup hpart (hsorted.filter _)).mpr fun a => ?_)
    simp only [List.mem_filter, List.mem_insertionSort, decide_eq_true_eq]
    exact ⟨fun h => ⟨hsub h, h⟩, fun h => h.2⟩

/-- A part that holds the first `n` elements sorts to the same beginning. -/
theorem take_insertionSort_eq [DecidableEq α] {part l : List α} {n : ℕ} (hl : l.Nodup)
    (hpart : part.Nodup) (hsub : part ⊆ l) (hanti : ∀ a ∈ l, ∀ b ∈ l, r a b → r b a → a = b)
    (hfirst : (l.insertionSort r).take n ⊆ part) :
    (part.insertionSort r).take n = (l.insertionSort r).take n := by
  have hall : ((l.insertionSort r).take n).filter (fun a => a ∈ part) =
      (l.insertionSort r).take n :=
    List.filter_eq_self.mpr fun a ha => by simpa using hfirst ha
  rw [insertionSort_eq_filter r hl hpart hsub hanti]
  conv_lhs => rw [← List.take_append_drop n (l.insertionSort r), List.filter_append, hall]
  rcases le_or_gt n (l.insertionSort r).length with hlong | hshort
  · exact List.take_left' (List.length_take_of_le hlong)
  · rw [List.drop_eq_nil_of_le hshort.le, List.filter_nil, List.append_nil, List.take_take,
      Nat.min_self]

/-- The pages that are read through a window, which for page `k` holds the elements that are in
    reach of it, are right exactly when every element is in reach of its own page. -/
theorem pages_eq_iff [DecidableEq α] {l : List α} {p n : ℕ} (hp : 0 < p) (hn : l.length ≤ n * p)
    {part : ℕ → List α} {reach : α → ℕ} (hl : l.Nodup)
    (hanti : ∀ a ∈ l, ∀ b ∈ l, r a b → r b a → a = b) (hpart : ∀ k, (part k).Nodup)
    (hreach : ∀ k x, x ∈ part k ↔ x ∈ l ∧ reach x / p ≤ k) :
    (∀ k < n, page p k ((part k).insertionSort r) = page p k (l.insertionSort r)) ↔
      ∀ i x, (l.insertionSort r)[i]? = some x → reach x / p ≤ i / p := by
  have hsorted : (l.insertionSort r).Nodup := (List.perm_insertionSort r l).nodup_iff.mpr hl
  constructor
  · intro h i x hx
    obtain ⟨hlt, -⟩ := List.getElem?_eq_some_iff.mp hx
    rw [List.length_insertionSort] at hlt
    have hpage := mem_page hp hx
    rw [← h (i / p) ((Nat.div_lt_iff_lt_mul hp).mpr (hlt.trans_le hn))] at hpage
    have hmem := List.mem_of_mem_drop (List.mem_of_mem_take hpage)
    exact ((hreach (i / p) x).mp ((List.mem_insertionSort r).mp hmem)).2
  · intro h k _
    rw [page_eq_drop_take, page_eq_drop_take]
    refine congrArg (List.drop (k * p)) (take_insertionSort_eq r hl (hpart k) ?_ hanti ?_)
    · exact fun x hx => ((hreach k x).mp hx).1
    · intro x hx
      have hmem := (List.mem_insertionSort r).mp (List.mem_of_mem_take hx)
      obtain ⟨i, hi⟩ := List.mem_iff_getElem?.mp (List.mem_of_mem_take hx)
      have hik : i / p < k + 1 := (Nat.div_lt_iff_lt_mul hp).mpr ((mem_take_iff hsorted hi).mp hx)
      exact (hreach k x).mpr ⟨hmem, (h i x hi).trans (Nat.lt_succ_iff.mp hik)⟩

end Window

/-! ### Two sources -/

variable [DecidableEq α]

/-- The place of an element in the source that has it. -/
def reach (xs ys : List α) (x : α) : ℕ := if x ∈ xs then xs.idxOf x else ys.idxOf x

theorem reach_of_left {xs ys : List α} (hnodup : (xs ++ ys).Nodup) {i : ℕ} {x : α}
    (h : xs[i]? = some x) : reach xs ys x = i := by
  have hmem : x ∈ xs := List.mem_of_getElem? h
  have hxs : xs.Nodup := hnodup.sublist (List.sublist_append_left ..)
  obtain ⟨hlt, -⟩ := List.getElem?_eq_some_iff.mp h
  rw [reach, if_pos hmem]
  exact ((List.getElem?_inj hlt hxs).mp (h.trans (List.getElem?_idxOf hmem).symm)).symm

theorem reach_of_right {xs ys : List α} (hnodup : (xs ++ ys).Nodup) {i : ℕ} {y : α}
    (h : ys[i]? = some y) : reach xs ys y = i := by
  have hmem : y ∈ ys := List.mem_of_getElem? h
  have hnot : y ∉ xs := fun hy => (List.nodup_append.mp hnodup).2.2 y hy y hmem rfl
  have hys : ys.Nodup := hnodup.sublist (List.sublist_append_right ..)
  obtain ⟨hlt, -⟩ := List.getElem?_eq_some_iff.mp h
  rw [reach, if_neg hnot]
  exact ((List.getElem?_inj hlt hys).mp (h.trans (List.getElem?_idxOf hmem).symm)).symm

/-- A window over both sources holds what is in reach. -/
theorem mem_window_iff {xs ys : List α} (hnodup : (xs ++ ys).Nodup) {n : ℕ} {x : α} :
    x ∈ xs.take n ++ ys.take n ↔ x ∈ xs ++ ys ∧ reach xs ys x < n := by
  have hxs : xs.Nodup := hnodup.sublist (List.sublist_append_left ..)
  have hys : ys.Nodup := hnodup.sublist (List.sublist_append_right ..)
  rw [List.mem_append, List.mem_append]
  constructor
  · rintro (hx | hx)
    · have hmem := List.mem_of_mem_take hx
      obtain ⟨i, hi⟩ := List.mem_iff_getElem?.mp hmem
      exact ⟨.inl hmem, by rwa [reach_of_left hnodup hi, ← mem_take_iff hxs hi]⟩
    · have hmem := List.mem_of_mem_take hx
      obtain ⟨i, hi⟩ := List.mem_iff_getElem?.mp hmem
      exact ⟨.inr hmem, by rwa [reach_of_right hnodup hi, ← mem_take_iff hys hi]⟩
  · rintro ⟨hmem | hmem, hlt⟩
    · obtain ⟨i, hi⟩ := List.mem_iff_getElem?.mp hmem
      exact .inl ((mem_take_iff hxs hi).mpr (reach_of_left hnodup hi ▸ hlt))
    · obtain ⟨i, hi⟩ := List.mem_iff_getElem?.mp hmem
      exact .inr ((mem_take_iff hys hi).mpr (reach_of_right hnodup hi ▸ hlt))

end Lib.Paging
