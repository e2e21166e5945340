import Mathlib.Data.List.Sort

/-! Where the insertion sort puts an element.

    The sort is stable: an element comes after exactly those that go strictly before it and those
    that tie with it and stood before it. Cutting a sorted list after its first `n` elements keeps
    the first ones, and whatever is cut off goes after all that is kept. -/

namespace Lib.StableSort

variable {α : Type*} (r : α → α → Prop) [DecidableRel r]

/-- How many elements come before `x`, which stands between `pre` and `post`. -/
def rank (pre : List α) (x : α) (post : List α) : ℕ :=
  pre.countP (fun a => r a x) + post.countP (fun a => ¬ r x a)

section
variable [IsTrans α r]

theorem length_takeWhile_of_sorted {x : α} {l : List α} (h : l.Pairwise r) :
    (l.takeWhile fun a => ¬ r x a).length = l.countP fun a => ¬ r x a := by
  induction l with
  | nil => rfl
  | cons a l ih =>
    obtain ⟨hfirst, hl⟩ := List.pairwise_cons.mp h
    by_cases ha : r x a
    · have hrest : ∀ b ∈ l, r x b := fun b hb => IsTrans.trans x a b ha (hfirst b hb)
      have hnone : l.countP (fun b => ¬ r x b) = 0 := by
        rw [List.countP_eq_zero]
        intro b hb
        simp [hrest b hb]
      rw [List.takeWhile_cons_of_neg (by simp [ha]), List.countP_cons_of_neg (by simp [ha]), hnone]
      rfl
    · rw [List.takeWhile_cons_of_pos (by simp [ha]), List.countP_cons_of_pos (by simp [ha]),
        List.length_cons, ih hl]

/-- An element inserted into a sorted list goes before `x` exactly if it may stand before it. -/
theorem orderedInsert_around (a : α) {x : α} {A B : List α} (h : (A ++ x :: B).Pairwise r) :
    ∃ A' B', (A ++ x :: B).orderedInsert r a = A' ++ x :: B' ∧
      A'.length = A.length + if r a x then 1 else 0 := by
  induction A with
  | nil =>
    by_cases ha : r a x
    · exact ⟨[a], B, List.orderedInsert_cons_of_le _ _ ha, by rw [if_pos ha]; rfl⟩
    · exact ⟨[], B.orderedInsert r a, List.orderedInsert_of_not_le _ _ ha, by rw [if_neg ha]; rfl⟩
  | cons b A ih =>
    obtain ⟨hb, hrest⟩ := List.pairwise_cons.mp h
    have hbx : r b x := hb x (by simp)
    by_cases hab : r a b
    · have hax : r a x := IsTrans.trans a b x hab hbx
      refine ⟨a :: b :: A, B, List.orderedInsert_cons_of_le _ _ hab, ?_⟩
      rw [if_pos hax]
      rfl
    · obtain ⟨A', B', heq, hlength⟩ := ih hrest
      refine ⟨b :: A', B', ?_, ?_⟩
      · rw [List.cons_append, List.orderedInsert_of_not_le _ _ hab, heq]
        rfl
      · rw [List.length_cons, hlength, List.length_cons]
        omega

variable [Std.Total r]

/-- The element is put at its rank. -/
theorem insertionSort_at (pre : List α) (x : α) (post : List α) :
    ∃ A B, (pre ++ x :: post).insertionSort r = A ++ x :: B ∧
      A.length = rank r pre x post := by
  induction pre with
  | nil =>
    refine ⟨_, _, List.orderedInsert_eq_take_drop r x (post.insertionSort r), ?_⟩
    rw [length_takeWhile_of_sorted r (List.pairwise_insertionSort r post), rank,
      (List.perm_insertionSort r post).countP_eq, List.countP_nil, Nat.zero_add]
  | cons a pre ih =>
    obtain ⟨A, B, heq, hlength⟩ := ih
    have hsorted := List.pairwise_insertionSort r (pre ++ x :: post)
    rw [heq] at hsorted
    obtain ⟨A', B', heq', hlength'⟩ := orderedInsert_around r a hsorted
    refine ⟨A', B', ?_, ?_⟩
    · rw [List.cons_append, List.insertionSort_cons, heq, heq']
    · rw [hlength', hlength, rank, rank, List.countP_cons]
      simp only [decide_eq_true_eq]
      omega

/-- Without ties an element is put after those that go strictly before it. -/
theorem getElem?_insertionSort {x : α} {l : List α} (hl : l.Nodup) (hx : x ∈ l)
    (hanti : ∀ a ∈ l, r a x → r x a → a = x) :
    (l.insertionSort r)[l.countP fun a => ¬ r x a]? = some x := by
  obtain ⟨pre, post, rfl⟩ := List.mem_iff_append.mp hx
  obtain ⟨A, B, heq, hlength⟩ := insertionSort_at r pre x post
  rw [List.nodup_middle, List.nodup_cons] at hl
  have hrefl : r x x := (Std.Total.total (r := r) x x).elim id id
  have hpre : (pre.countP fun a => r a x) = pre.countP fun a => ¬ r x a := by
    refine List.countP_congr fun a ha => ?_
    have hne : a ≠ x := fun hax => hl.1 (hax ▸ List.mem_append_left _ ha)
    have htotal := Std.Total.total (r := r) a x
    have hanti := hanti a (List.mem_append_left _ ha)
    simp only [decide_eq_true_eq]
    exact ⟨fun hax hxa => hne (hanti hax hxa), fun hxa => htotal.resolve_right hxa⟩
  have hcount : ((pre ++ x :: post).countP fun a => ¬ r x a) = A.length := by
    rw [hlength, rank, hpre, List.countP_append, List.countP_cons_of_neg (by simpa using hrefl)]
  rw [heq, hcount]
  simp

/-- The first `n` of the sorted list hold every element whose rank is below `n`. -/
theorem mem_take_insertionSort {n : ℕ} {pre : List α} {x : α} {post : List α}
    (h : rank r pre x post < n) : x ∈ ((pre ++ x :: post).insertionSort r).take n := by
  obtain ⟨A, B, heq, hlength⟩ := insertionSort_at r pre x post
  rw [heq, List.take_append]
  refine List.mem_append_right _ ?_
  obtain ⟨k, hk⟩ : ∃ k, n - A.length = k + 1 := ⟨n - A.length - 1, by omega⟩
  rw [hk]
  exact List.mem_cons_self

/-- Whatever the cut removes goes after all that it keeps. -/
theorem rel_of_mem_take_of_not_mem {n : ℕ} {l : List α} {a b : α}
    (ha : a ∈ (l.insertionSort r).take n) (hb : b ∈ l)
    (hcut : b ∉ (l.insertionSort r).take n) : r a b := by
  have hsorted := List.pairwise_insertionSort r l
  rw [← List.take_append_drop n (l.insertionSort r)] at hsorted
  have hdrop : b ∈ (l.insertionSort r).drop n := by
    have hmem : b ∈ l.insertionSort r := (List.mem_insertionSort r).mpr hb
    rw [← List.take_append_drop n (l.insertionSort r)] at hmem
    exact (List.mem_append.mp hmem).resolve_left hcut
  exact (List.pairwise_append.mp hsorted).2.2 a ha b hdrop

end

end Lib.StableSort
