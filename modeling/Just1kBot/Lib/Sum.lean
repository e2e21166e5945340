import Mathlib.Algebra.Order.BigOperators.Group.List
import Mathlib.Algebra.Order.Group.Int
import Mathlib.Data.List.Dedup
import Mathlib.Tactic.Linarith

/-! Sums over the rows of a table.

    `sumWhere p f rows` is `SELECT coalesce(sum(f), 0) FROM rows WHERE p`. Besides how it reacts to
    a new row, it comes with what a `GROUP BY` needs: summing over distinct keys the rows of each
    key gives the rows whose key is among them. -/

namespace Lib

section SumWhere
variable {α : Type*} (p q : α → Prop) [DecidablePred p] [DecidablePred q] (f g : α → ℤ)

/-- The sum of `f` over the rows that satisfy `p`. -/
def sumWhere (rows : List α) : ℤ := ((rows.filter fun r => p r).map f).sum

@[simp] theorem sumWhere_nil : sumWhere p f [] = 0 := rfl

theorem sumWhere_cons (r : α) (rows : List α) :
    sumWhere p f (r :: rows) = (if p r then f r else 0) + sumWhere p f rows := by
  by_cases h : p r <;> simp [sumWhere, h]

@[simp] theorem sumWhere_append (xs ys : List α) :
    sumWhere p f (xs ++ ys) = sumWhere p f xs + sumWhere p f ys := by simp [sumWhere]

@[simp] theorem sumWhere_singleton (r : α) : sumWhere p f [r] = if p r then f r else 0 := by
  rw [sumWhere_cons, sumWhere_nil, add_zero]

theorem sumWhere_filter (rows : List α) :
    sumWhere p f (rows.filter fun r => q r) = sumWhere (fun r => q r ∧ p r) f rows := by
  simp [sumWhere, List.filter_filter, and_comm]

theorem sumWhere_map {β : Type*} (h : β → α) (rows : List β) :
    sumWhere p f (rows.map h) = sumWhere (fun r => p (h r)) (fun r => f (h r)) rows := by
  simp [sumWhere, List.filter_map, Function.comp_def]

variable {p q f g}

theorem sumWhere_congr {rows : List α} (h : ∀ r ∈ rows, (p r ↔ q r) ∧ (p r → f r = g r)) :
    sumWhere p f rows = sumWhere q g rows := by
  induction rows with
  | nil => rfl
  | cons r rows ih =>
    obtain ⟨hpq, hfg⟩ := h r (by simp)
    rw [sumWhere_cons, sumWhere_cons, ih fun r hr => h r (by simp [hr])]
    by_cases hp : p r
    · rw [if_pos hp, if_pos (hpq.mp hp), hfg hp]
    · rw [if_neg hp, if_neg (fun hq => hp (hpq.mpr hq))]

theorem sumWhere_eq_zero {rows : List α} (h : ∀ r ∈ rows, ¬ p r) : sumWhere p f rows = 0 := by
  rw [sumWhere, List.filter_eq_nil_iff.mpr (by simpa using h)]; rfl

theorem sumWhere_nonneg {rows : List α} (h : ∀ r ∈ rows, p r → 0 ≤ f r) :
    0 ≤ sumWhere p f rows := by
  apply List.sum_nonneg
  simp only [List.mem_map, List.mem_filter, decide_eq_true_eq]
  rintro _ ⟨r, ⟨hr, hp⟩, rfl⟩
  exact h r hr hp

/-- Fewer rows of a non-negative summand sum to less. -/
theorem sumWhere_le_of_imp {rows : List α} (h : ∀ r ∈ rows, p r → q r)
    (hf : ∀ r ∈ rows, q r → 0 ≤ f r) : sumWhere p f rows ≤ sumWhere q f rows := by
  induction rows with
  | nil => exact le_refl 0
  | cons r rows ih =>
    have := ih (fun r hr => h r (by simp [hr])) (fun r hr => hf r (by simp [hr]))
    rw [sumWhere_cons, sumWhere_cons]
    by_cases hp : p r
    · rw [if_pos hp, if_pos (h r (by simp) hp)]; omega
    · rw [if_neg hp]
      split_ifs with hq
      · have := hf r (by simp) hq; omega
      · omega

theorem sumWhere_neg (rows : List α) : sumWhere p (fun r => -f r) rows = -sumWhere p f rows := by
  induction rows with
  | nil => rfl
  | cons r rows ih => rw [sumWhere_cons, sumWhere_cons, ih]; split_ifs <;> omega

/-- Taking out the one row of a unique key takes its summand out of the sum. -/
theorem sumWhere_remove {κ : Type*} [DecidableEq κ] {key : α → κ} {rows : List α}
    (hnd : (rows.map key).Nodup) {x : α} (hx : x ∈ rows) :
    sumWhere p f rows =
      (if p x then f x else 0) + sumWhere p f (rows.filter fun r => key r ≠ key x) := by
  induction rows with
  | nil => cases hx
  | cons r rows ih =>
    obtain ⟨hr, hnd⟩ := List.nodup_cons.mp hnd
    rw [sumWhere_cons]
    rcases List.mem_cons.mp hx with rfl | hx
    · have hall : rows.filter (fun r => key r ≠ key x) = rows := by
        refine List.filter_eq_self.mpr fun r' hr' => ?_
        have : key r' ≠ key x := fun h => hr (h ▸ List.mem_map_of_mem hr')
        simpa using this
      rw [List.filter_cons_of_neg (by simp), hall]
    · have hne : key r ≠ key x := fun h => hr (h ▸ List.mem_map_of_mem hx)
      rw [List.filter_cons_of_pos (by simpa using hne), sumWhere_cons, ih hnd hx]
      omega

/-- A row that satisfies `p` contributes at most the whole sum. -/
theorem le_sumWhere {rows : List α} {r : α} (hr : r ∈ rows) (hp : p r)
    (hf : ∀ r ∈ rows, p r → 0 ≤ f r) : f r ≤ sumWhere p f rows := by
  apply List.single_le_sum
  · simp only [List.mem_map, List.mem_filter, decide_eq_true_eq]
    rintro _ ⟨r, ⟨hr, hp⟩, rfl⟩
    exact hf r hr hp
  · exact List.mem_map_of_mem (List.mem_filter.mpr ⟨hr, by simpa using hp⟩)

end SumWhere

theorem sum_map_sub {α : Type*} (f g : α → ℤ) (rows : List α) :
    (rows.map fun r => f r - g r).sum = (rows.map f).sum - (rows.map g).sum := by
  induction rows with
  | nil => rfl
  | cons r rows ih => simp only [List.map_cons, List.sum_cons, ih]; omega

section Groups
variable {α κ : Type*} [DecidableEq κ] (key : α → κ) (f : α → ℤ)

theorem sum_indicator {keys : List κ} (hnd : keys.Nodup) (k : κ) (c : ℤ) :
    (keys.map fun k' => if k = k' then c else 0).sum = if k ∈ keys then c else 0 := by
  induction keys with
  | nil => rfl
  | cons k' keys ih =>
    obtain ⟨hk', hnd⟩ := List.nodup_cons.mp hnd
    rw [List.map_cons, List.sum_cons, ih hnd]
    by_cases h : k = k'
    · subst h; simp [hk']
    · simp [h]

/-- Summing each key's rows over distinct keys sums the rows with one of the keys. -/
theorem sum_groups {keys : List κ} [DecidablePred fun r => key r ∈ keys] (hnd : keys.Nodup)
    (rows : List α) :
    (keys.map fun k => sumWhere (fun r => key r = k) f rows).sum =
      sumWhere (fun r => key r ∈ keys) f rows := by
  induction rows with
  | nil => simp
  | cons r rows ih =>
    simp only [sumWhere_cons, List.sum_map_add, ih]
    rw [sum_indicator hnd]
    congr

/-- Under a unique key a sum over one key is that row's summand, or there is no such row. -/
theorem sumWhere_unique_key {rows : List α} (hnd : (rows.map key).Nodup) (k : κ) :
    (∃ r ∈ rows, key r = k ∧ sumWhere (fun r => key r = k) f rows = f r) ∨
      sumWhere (fun r => key r = k) f rows = 0 := by
  induction rows with
  | nil => exact .inr rfl
  | cons r rows ih =>
    obtain ⟨hr, hnd⟩ := List.nodup_cons.mp hnd
    rw [sumWhere_cons]
    by_cases h : key r = k
    · have hrest : sumWhere (fun r => key r = k) f rows = 0 := by
        refine sumWhere_eq_zero fun r' hr' heq => hr ?_
        rw [h, ← heq]; exact List.mem_map_of_mem hr'
      exact .inl ⟨r, by simp, h, by rw [if_pos h, hrest, add_zero]⟩
    · rw [if_neg h, zero_add]
      rcases ih hnd with ⟨r', hr', hk, hsum⟩ | hsum
      · exact .inl ⟨r', by simp [hr'], hk, hsum⟩
      · exact .inr hsum

omit [DecidableEq κ] in
/-- A sum over the rows that have a key is a sum over the keys. -/
theorem sum_elim_key (key : α → Option κ) (f : κ → ℤ) (rows : List α) :
    (rows.map fun r => (key r).elim 0 f).sum = ((rows.filterMap key).map f).sum := by
  induction rows with
  | nil => rfl
  | cons r rows ih =>
    rw [List.map_cons, List.sum_cons, ih]
    cases h : key r with
    | none => rw [List.filterMap_cons_none h]; simp
    | some k => rw [List.filterMap_cons_some h]; simp

/-- The keys of a `GROUP BY`, each once. -/
def groupKeys (rows : List α) : List κ := (rows.map key).dedup

theorem nodup_groupKeys (rows : List α) : (groupKeys key rows).Nodup := List.nodup_dedup _

theorem key_mem_groupKeys {rows : List α} {r : α} (hr : r ∈ rows) :
    key r ∈ groupKeys key rows := List.mem_dedup.mpr (List.mem_map_of_mem hr)

end Groups

end Lib
