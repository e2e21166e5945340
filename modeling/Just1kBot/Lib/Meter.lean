import Mathlib.Algebra.BigOperators.Group.Finset.Piecewise

/-! Metering cumulative counters.

    A meter charges each sample against the state the samples before it left. A keyed meter holds
    one state for each source of samples; what it charges for an interleaved stream is the sum, over
    the sources, of what each source's own samples are charged alone. The meter of one cumulative
    counter charges its increase, or all of it when the counter fell. -/

namespace Lib.Meter

section Keyed
variable {κ σ α M : Type*} [DecidableEq κ] [AddCommMonoid M] (charge : σ → α → M) (next : σ → α → σ)

/-- What a sequence of samples is charged. -/
def total : σ → List α → M
  | _, [] => 0
  | s, x :: xs => charge s x + total (next s x) xs

/-- What an interleaved stream is charged, each source against its own state. -/
def keyedTotal : (κ → σ) → List (κ × α) → M
  | _, [] => 0
  | st, (k, x) :: xs =>
    charge (st k) x + keyedTotal (Function.update st k (next (st k) x)) xs

/-- The samples of one source, in their order. -/
def own (k : κ) (xs : List (κ × α)) : List α :=
  xs.filterMap fun p => if p.1 = k then some p.2 else none

theorem own_cons (k j : κ) (x : α) (xs : List (κ × α)) :
    own j ((k, x) :: xs) = if k = j then x :: own j xs else own j xs := by
  simp only [own]
  rw [List.filterMap_cons]
  by_cases h : k = j
  · simp [h]
  · simp [h]

/-- One sample is charged to its source, and leaves the others as they were. -/
theorem total_own_cons (st : κ → σ) (k j : κ) (x : α) (xs : List (κ × α)) :
    total charge next (st j) (own j ((k, x) :: xs)) =
      (if j = k then charge (st k) x else 0) +
        total charge next (Function.update st k (next (st k) x) j) (own j xs) := by
  rw [own_cons]
  by_cases h : j = k
  · subst h
    rw [if_pos rfl, if_pos rfl, Function.update_self]
    rfl
  · rw [if_neg (Ne.symm h), if_neg h, Function.update_of_ne h, zero_add]

/-- The charge of a stream is the sum of its sources' own charges. -/
theorem keyedTotal_eq (keys : Finset κ) :
    ∀ (xs : List (κ × α)) (st : κ → σ), (∀ p ∈ xs, p.1 ∈ keys) →
      keyedTotal charge next st xs = ∑ k ∈ keys, total charge next (st k) (own k xs)
  | [], st, _ => by
    rw [keyedTotal]
    exact (Finset.sum_eq_zero fun k _ => rfl).symm
  | (k, x) :: xs, st, h => by
    have hk : k ∈ keys := h (k, x) List.mem_cons_self
    rw [keyedTotal, keyedTotal_eq keys xs _ fun p hp => h p (List.mem_cons_of_mem _ hp)]
    simp only [total_own_cons, Finset.sum_add_distrib, Finset.sum_ite_eq', if_pos hk]

/-- Two streams with the same samples from each source are charged the same, however they are
    interleaved. -/
theorem keyedTotal_congr (st : κ → σ) {xs ys : List (κ × α)} (h : ∀ k, own k xs = own k ys) :
    keyedTotal charge next st xs = keyedTotal charge next st ys := by
  rw [keyedTotal_eq charge next ((xs ++ ys).map Prod.fst).toFinset xs st fun p hp => ?_,
    keyedTotal_eq charge next ((xs ++ ys).map Prod.fst).toFinset ys st fun p hp => ?_]
  · exact Finset.sum_congr rfl fun k _ => by rw [h k]
  · rw [List.mem_toFinset]
    exact List.mem_map_of_mem (List.mem_append_right _ hp)
  · rw [List.mem_toFinset]
    exact List.mem_map_of_mem (List.mem_append_left _ hp)

end Keyed

/-- Raising one entry by at most `d` raises every finite sum of entries by at most `d`. -/
theorem sum_update_le {κ : Type*} [DecidableEq κ] {f : κ → ℕ} {k : κ} {v d : ℕ} (h : v ≤ f k + d)
    (keys : Finset κ) : ∑ j ∈ keys, Function.update f k v j ≤ (∑ j ∈ keys, f j) + d := by
  by_cases hk : k ∈ keys
  · have hsum := Finset.add_sum_erase keys f hk
    rw [Finset.sum_update_of_mem hk, Finset.sdiff_singleton_eq_erase]
    omega
  · refine (Finset.sum_congr rfl fun j hj => ?_).trans_le (Nat.le_add_right _ d)
    exact Function.update_of_ne (ne_of_mem_of_not_mem hj hk) v f

/-! ### One cumulative counter -/

/-- What a counter counted between two readings: its increase, or all of it after a reset. -/
def increase (prev cur : ℕ) : ℕ := if cur < prev then cur else cur - prev

/-- The increases along a sequence of readings. -/
abbrev reference (prev : ℕ) (readings : List ℕ) : ℕ :=
  total increase (fun _ cur => cur) prev readings

theorem increase_le (prev cur : ℕ) : increase prev cur ≤ cur := by
  rw [increase]
  split_ifs <;> omega

theorem increase_zero_left (cur : ℕ) : increase 0 cur = cur := by
  simp [increase]

theorem add_increase {prev cur : ℕ} (h : prev ≤ cur) : prev + increase prev cur = cur := by
  rw [increase, if_neg (by omega)]
  omega

theorem increase_eq_zero_iff {prev cur : ℕ} : increase prev cur = 0 ↔ cur = prev ∨ cur = 0 := by
  rw [increase]
  split_ifs <;> omega

end Lib.Meter
