import Just1kBot.Lib.Sum

/-! Drawing an amount from lots in order.

    Each lot has a capacity (a lot with a negative one gives nothing); `draw` takes from every lot
    in turn as much as it holds and the amount still needs, and stops when nothing is left to take.
    The draws add up to what was taken, no lot gives more than it has or twice, and an amount the
    lots can cover is covered in full. Lots that come before all others are drawn empty first. -/

namespace Lib.Fifo

variable {α : Type*} (cap : α → ℤ)

/-- The draws taken from the lots in order, and what is still needed after the last one. -/
def draw : List α → ℤ → List (α × ℤ) × ℤ
  | [], need => ([], need)
  | a :: as, need =>
    let chunk := min (max 0 (cap a)) need
    if chunk ≤ 0 then draw as need
    else if need - chunk = 0 then ([(a, chunk)], 0)
    else ((a, chunk) :: (draw as (need - chunk)).1, (draw as (need - chunk)).2)

/-- What the lots hold together. -/
def total (as : List α) : ℤ := (as.map fun a => max 0 (cap a)).sum

theorem total_nonneg (as : List α) : 0 ≤ total cap as := by
  apply List.sum_nonneg
  simp

/-- The draws and what is still needed add up to the amount. -/
theorem draw_sum : ∀ (as : List α) (need : ℤ),
    ((draw cap as need).1.map Prod.snd).sum + (draw cap as need).2 = need
  | [], need => by simp [draw]
  | a :: as, need => by
    simp only [draw]
    split_ifs with h0 h1
    · exact draw_sum as need
    · simp; omega
    · have := draw_sum as (need - min (max 0 (cap a)) need)
      simp only [List.map_cons, List.sum_cons]; omega

/-- The lots drawn from appear in the order of the lots, each at most as often as there. -/
theorem draw_sublist : ∀ (as : List α) (need : ℤ),
    ((draw cap as need).1.map Prod.fst).Sublist as
  | [], _ => by simp [draw]
  | a :: as, need => by
    simp only [draw]
    split_ifs
    · exact (draw_sublist as need).cons a
    · simp
    · exact (draw_sublist as _).cons_cons a

/-- Every draw is positive and within its lot's capacity. -/
theorem draw_within : ∀ (as : List α) (need : ℤ),
    ∀ p ∈ (draw cap as need).1, 0 < p.2 ∧ p.2 ≤ cap p.1
  | [], _ => by simp [draw]
  | a :: as, need => by
    have hchunk : ¬ min (max 0 (cap a)) need ≤ 0 →
        0 < min (max 0 (cap a)) need ∧ min (max 0 (cap a)) need ≤ cap a := by omega
    simp only [draw]
    split_ifs with h0 h1
    · exact draw_within as need
    · simpa using hchunk h0
    · intro p hp
      rcases List.mem_cons.mp hp with rfl | hp
      · exact hchunk h0
      · exact draw_within as _ p hp

/-- What is still needed at the end is what the lots do not hold. -/
theorem draw_rest : ∀ (as : List α) (need : ℤ), 0 ≤ need →
    (draw cap as need).2 = max 0 (need - total cap as)
  | [], need, h0 => by simp [total, draw, h0]
  | a :: as, need, h0 => by
    have ht : total cap (a :: as) = max 0 (cap a) + total cap as := by simp [total]
    have h0' := total_nonneg cap as
    simp only [draw]
    split_ifs with hc h1
    · rw [draw_rest as need h0]; omega
    · rw [ht]; omega
    · rw [draw_rest as _ (by omega)]; omega

/-- An amount the lots can cover is covered in full, and no other is. -/
theorem draw_complete_iff (as : List α) {need : ℤ} (h0 : 0 ≤ need) :
    (draw cap as need).2 = 0 ↔ need ≤ total cap as := by
  rw [draw_rest cap as need h0]; omega

/-! ### Preferred lots -/

/-- Nothing needed, nothing drawn. -/
theorem draw_zero : ∀ as : List α, draw cap as 0 = ([], 0)
  | [] => rfl
  | a :: as => by
    have hchunk : min (max 0 (cap a)) 0 ≤ 0 := min_le_right _ _
    rw [draw]
    simp only [if_pos hchunk]
    exact draw_zero as

/-- The later lots give what the earlier ones left to take. -/
theorem draw_append (ys : List α) : ∀ (xs : List α) (need : ℤ),
    draw cap (xs ++ ys) need =
      ((draw cap xs need).1 ++ (draw cap ys (draw cap xs need).2).1,
        (draw cap ys (draw cap xs need).2).2)
  | [], need => rfl
  | x :: xs, need => by
    simp only [List.cons_append, draw]
    split_ifs with h0 h1
    · exact draw_append ys xs need
    · rw [draw_zero]
      rfl
    · rw [draw_append ys xs]
      rfl

/-- A list in which no `P` comes after a non-`P` is its `P`s and then the others. -/
theorem eq_filter_append_filter_not {P : α → Prop} [DecidablePred P] :
    ∀ {as : List α}, as.Pairwise (fun a b => P b → P a) →
      as = (as.filter fun a => P a) ++ as.filter fun a => ¬ P a
  | [], _ => rfl
  | a :: as, h => by
    obtain ⟨ha, has⟩ := List.pairwise_cons.mp h
    have ih := eq_filter_append_filter_not has
    by_cases hp : P a
    · rw [List.filter_cons_of_pos (by simpa using hp), List.filter_cons_of_neg (by simpa using hp),
        List.cons_append, ← ih]
    · have hnone : as.filter (fun a => P a) = [] :=
        List.filter_eq_nil_iff.mpr fun b hb => by simpa using fun hpb => hp (ha b hb hpb)
      rw [hnone, List.nil_append] at ih
      rw [List.filter_cons_of_neg (by simpa using hp), List.filter_cons_of_pos (by simpa using hp),
        hnone, List.nil_append, ← ih]

/-- Lots that come first give as much of the amount as they hold. -/
theorem draw_preferred {P : α → Prop} [DecidablePred P] {as : List α}
    (has : as.Pairwise fun a b => P b → P a) {need : ℤ} (h0 : 0 ≤ need) :
    sumWhere (fun d => P d.1) Prod.snd (draw cap as need).1 =
      min need (total cap (as.filter fun a => P a)) := by
  have hfirst : ∀ d ∈ (draw cap (as.filter fun a => P a) need).1, P d.1 := fun d hd => by
    have := (draw_sublist cap (as.filter fun a => P a) need).subset (List.mem_map_of_mem hd)
    simpa using (List.mem_filter.mp this).2
  have hrest : ∀ n, ∀ d ∈ (draw cap (as.filter fun a => ¬ P a) n).1, ¬ P d.1 := fun n d hd => by
    have := (draw_sublist cap (as.filter fun a => ¬ P a) n).subset (List.mem_map_of_mem hd)
    simpa using (List.mem_filter.mp this).2
  have hsum := draw_sum cap (as.filter fun a => P a) need
  rw [draw_rest cap _ need h0] at hsum
  conv_lhs => rw [eq_filter_append_filter_not has]
  rw [draw_append]
  simp only
  rw [sumWhere_append, sumWhere_eq_zero (hrest _), add_zero, sumWhere,
    List.filter_eq_self.mpr fun d hd => by simpa using hfirst d hd]
  omega

end Lib.Fifo
