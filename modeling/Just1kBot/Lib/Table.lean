import Mathlib.Data.List.Basic

/-! Tables: lists of rows read through a key.

    A row is looked up by its key and rewritten in place; rewriting keeps the keys. `lookup` and
    `modify` are what a `SELECT … WHERE id = k` and the write-back of a loaded row do to a table. -/

namespace Lib.Table

variable {α κ : Type*} [DecidableEq κ] (key : α → κ)

/-- The row with key `k`. -/
def lookup (k : κ) (rows : List α) : Option α := rows.find? fun r => key r = k

/-- Rewrite the row with key `k`. -/
def modify (k : κ) (f : α → α) (rows : List α) : List α :=
  rows.map fun r => if key r = k then f r else r

/-- Write a row back under its key. -/
def put (r : α) (rows : List α) : List α := modify key (key r) (fun _ => r) rows

theorem key_of_lookup {k : κ} {rows : List α} {r : α} (h : lookup key k rows = some r) :
    key r = k := by
  simpa using List.find?_some h

theorem mem_of_lookup {k : κ} {rows : List α} {r : α} (h : lookup key k rows = some r) :
    r ∈ rows := List.mem_of_find?_eq_some h

/-- Rewriting rows through a key-preserving map commutes with looking one up. -/
theorem lookup_map {f : α → α} (hf : ∀ r, key (f r) = key r) (k : κ) (rows : List α) :
    lookup key k (rows.map f) = (lookup key k rows).map f := by
  induction rows with
  | nil => rfl
  | cons r rows ih =>
    simp only [lookup, List.map_cons, List.find?_cons, hf] at ih ⊢
    by_cases h : key r = k <;> simp [h, ih]

/-- Rewriting a row through a key-preserving map is seen under its own key only. -/
theorem lookup_modify {f : α → α} (hf : ∀ r, key (f r) = key r) (k k' : κ) (rows : List α) :
    lookup key k' (modify key k f rows) =
      if k' = k then (lookup key k rows).map f else lookup key k' rows := by
  rw [modify, lookup_map key fun r => by split_ifs <;> simp [hf]]
  cases hrow : lookup key k' rows with
  | none =>
    split_ifs with hk
    · rw [← hk, hrow]
      rfl
    · rfl
  | some r =>
    have hkey := key_of_lookup key hrow
    split_ifs with hk
    · subst hk
      rw [hrow, Option.map_some, Option.map_some, if_pos hkey]
    · rw [Option.map_some, if_neg fun h => hk (hkey.symm.trans h)]

theorem lookup_put (r : α) (k : κ) (rows : List α) :
    lookup key k (put key r rows) =
      if k = key r then (lookup key (key r) rows).map (fun _ => r) else lookup key k rows := by
  induction rows with
  | nil => simp [put, modify, lookup]
  | cons x rows ih =>
    simp only [put, modify, lookup, List.map_cons, List.find?_cons] at ih ⊢
    by_cases hx : key x = key r
    · by_cases hk : k = key r
      · subst hk; simp [hx]
      · have hk' : ¬ key r = k := fun h => hk h.symm
        have hx' : ¬ key x = k := fun h => hk (h.symm.trans hx)
        simpa [hx, hk, hk'] using ih
    · by_cases hk : key x = k
      · have : ¬ k = key r := fun h => hx (hk.trans h)
        simp [hk, this]
      · by_cases hkr : k = key r
        · subst hkr; simpa [hx] using ih
        · simpa [hx, hk, hkr] using ih

/-- Writing back a row that was looked up, under the key it was looked up with. -/
theorem lookup_put_self {r r' : α} {k : κ} {rows : List α} (h : lookup key k rows = some r)
    (hr : key r' = k) : lookup key k (put key r' rows) = some r' := by
  subst hr; rw [lookup_put]; simp [h]

theorem lookup_put_ne {r : α} {k : κ} (rows : List α) (h : k ≠ key r) :
    lookup key k (put key r rows) = lookup key k rows := by
  rw [lookup_put, if_neg h]

/-- A row of the table after a rewrite is the new one, or was there before. -/
theorem mem_put {r x : α} {rows : List α} (h : x ∈ put key r rows) : x = r ∨ x ∈ rows := by
  obtain ⟨y, hy, rfl⟩ := List.mem_map.mp h
  by_cases hk : key y = key r
  · rw [if_pos hk]
    exact .inl rfl
  · rw [if_neg hk]
    exact .inr hy

/-- What held of all rows holds after a rewrite exactly when it holds of the new row. -/
theorem forall_put_iff {P : α → Prop} {r : α} {rows : List α} (hold : ∃ x ∈ rows, key x = key r)
    (hall : ∀ x ∈ rows, P x) : (∀ x ∈ put key r rows, P x) ↔ P r := by
  refine ⟨fun h => ?_, fun h x hx => ?_⟩
  · obtain ⟨x, hx, hkey⟩ := hold
    exact h r (List.mem_map.mpr ⟨x, hx, if_pos hkey⟩)
  · rcases mem_put key hx with rfl | hx
    · exact h
    · exact hall x hx

/-- Rewriting a row keeps the keys of the table. -/
theorem map_key_put (r : α) (rows : List α) : (put key r rows).map key = rows.map key := by
  rw [put, modify, List.map_map]
  refine List.map_congr_left fun x _ => ?_
  by_cases h : key x = key r
  · simp [h]
  · simp [h]

theorem lookup_isSome (k : κ) (rows : List α) :
    (lookup key k rows).isSome = decide (k ∈ rows.map key) := by
  rw [Bool.eq_iff_iff, lookup, List.find?_isSome]
  simp

/-- In a table whose keys are unique a row is found under its key. -/
theorem lookup_of_mem {rows : List α} (hnd : (rows.map key).Nodup) {r : α} (hr : r ∈ rows) :
    lookup key (key r) rows = some r := by
  induction rows with
  | nil => cases hr
  | cons x rows ih =>
    rw [List.map_cons, List.nodup_cons] at hnd
    rw [lookup, List.find?_cons]
    rcases List.mem_cons.mp hr with rfl | hr
    · simp
    · have hne : key x ≠ key r := fun h => hnd.1 (h ▸ List.mem_map_of_mem hr)
      simpa [hne, lookup] using ih hnd.2 hr

/-- A rewrite counts the new row in place of the old one. -/
theorem countP_put {p : α → Bool} {old r : α} {rows : List α} (hnd : (rows.map key).Nodup)
    (hold : old ∈ rows) (hkey : key r = key old) :
    (put key r rows).countP p + (if p old then 1 else 0) =
      rows.countP p + (if p r then 1 else 0) := by
  induction rows with
  | nil => cases hold
  | cons x rows ih =>
    rw [List.map_cons, List.nodup_cons] at hnd
    rw [put, modify, List.map_cons, List.countP_cons, List.countP_cons]
    rcases List.mem_cons.mp hold with rfl | hold
    · have hrest : (rows.map fun y => if key y = key r then r else y) = rows := by
        refine (List.map_congr_left fun y hy => ?_).trans (List.map_id rows)
        refine if_neg fun h => hnd.1 ?_
        rw [← hkey, ← h]
        exact List.mem_map_of_mem hy
      rw [hrest, if_pos hkey.symm]
      omega
    · have hne : key x ≠ key r := by
        intro h
        rw [h, hkey] at hnd
        exact hnd.1 (List.mem_map_of_mem hold)
      have ih := ih hnd.2 hold
      rw [put, modify] at ih
      rw [if_neg hne]
      omega

/-- The rows that count after a change are those that count before, in one way or the other. -/
theorem countP_map_add {p q q' : α → Bool} {f : α → α} {rows : List α}
    (h : ∀ x ∈ rows,
      (if p (f x) then 1 else 0) = (if q x then 1 else 0) + (if q' x then 1 else 0)) :
    (rows.map f).countP p = rows.countP q + rows.countP q' := by
  induction rows with
  | nil => rfl
  | cons x rows ih =>
    have hx := h x (List.mem_cons_self ..)
    have ih := ih fun y hy => h y (List.mem_cons_of_mem _ hy)
    rw [List.map_cons, List.countP_cons, List.countP_cons, List.countP_cons]
    omega

omit [DecidableEq κ] in
/-- What counts one row more counts one more. -/
theorem countP_eq_add_one {p q : α → Bool} {x : α} {rows : List α} (hnd : (rows.map key).Nodup)
    (hx : x ∈ rows) (hp : p x = true) (hq : q x = false)
    (hsame : ∀ y ∈ rows, key y ≠ key x → p y = q y) : rows.countP p = rows.countP q + 1 := by
  induction rows with
  | nil => cases hx
  | cons r rows ih =>
    rw [List.map_cons, List.nodup_cons] at hnd
    rw [List.countP_cons, List.countP_cons]
    rcases List.mem_cons.mp hx with rfl | hx
    · have hrest : rows.countP p = rows.countP q := List.countP_congr fun y hy => by
        have hne : key y ≠ key x := fun h => hnd.1 (h ▸ List.mem_map_of_mem hy)
        rw [hsame y (List.mem_cons_of_mem _ hy) hne]
      rw [hrest, hp, hq]
      simp
    · have hne : key r ≠ key x := fun h => hnd.1 (h ▸ List.mem_map_of_mem hx)
      rw [ih hnd.2 hx fun y hy => hsame y (List.mem_cons_of_mem _ hy),
        hsame r List.mem_cons_self hne]
      omega

/-- A rewrite of one row leaves the others. -/
theorem filter_ne_put (r : α) (rows : List α) :
    (put key r rows).filter (fun x => key x ≠ key r) = rows.filter fun x => key x ≠ key r := by
  induction rows with
  | nil => rfl
  | cons x rows ih =>
    rw [put, modify, List.map_cons]
    by_cases hx : key x = key r
    · rw [if_pos hx, List.filter_cons_of_neg (by simp), List.filter_cons_of_neg (by simp [hx])]
      exact ih
    · rw [if_neg hx, List.filter_cons_of_pos (by simpa using hx),
        List.filter_cons_of_pos (by simpa using hx)]
      exact congrArg _ ih

theorem lookup_append (k : κ) (rows : List α) (r : α) :
    lookup key k (rows ++ [r]) = (lookup key k rows).or (if key r = k then some r else none) := by
  simp only [lookup, List.find?_append, List.find?_cons, List.find?_nil]
  by_cases h : key r = k <;> simp [h]

/-- Rewriting the row that was appended under a new key. -/
theorem put_append_of_lookup_none {r r' : α} {rows : List α}
    (hnew : lookup key (key r) rows = none) (hkey : key r' = key r) :
    put key r' (rows ++ [r]) = rows ++ [r'] := by
  have hrows : rows.map (fun x => if key x = key r' then r' else x) = rows := by
    refine (List.map_congr_left fun x hx => if_neg fun h => ?_).trans (List.map_id rows)
    have hnone := List.find?_eq_none.mp hnew x hx
    simp [h, hkey] at hnone
  rw [put, modify, List.map_append, hrows, List.map_singleton, if_pos hkey.symm]

/-- A row that is found after others were deleted was found before. -/
theorem lookup_of_lookup_filter_ne {k k' : κ} {rows : List α} {r : α}
    (h : lookup key k (rows.filter fun x => key x ≠ k') = some r) :
    lookup key k rows = some r := by
  have hne : k ≠ k' := by
    have hmem := mem_of_lookup key h
    rw [← key_of_lookup key h]
    simpa using (List.mem_filter.mp hmem).2
  rw [← h, lookup, lookup, List.find?_filter]
  congr 1
  funext x
  by_cases hx : key x = k
  · simp [hx, hne]
  · simp [hx]

end Lib.Table
