import Mathlib.Data.List.Basic

/-! Dictionaries in the order of insertion, as lists of pairs.

    Setting a key that is there replaces its value in place; a new key goes to the end. -/

namespace Lib.Dict

variable {κ α : Type*} [DecidableEq κ]

def get (k : κ) (d : List (κ × α)) : Option α := (d.find? fun p => p.1 = k).map Prod.snd

def set (k : κ) (v : α) (d : List (κ × α)) : List (κ × α) :=
  if k ∈ d.map Prod.fst then d.map fun p => if p.1 = k then (k, v) else p else d ++ [(k, v)]

variable {k : κ} {v : α} {d : List (κ × α)}

theorem get_cons (p : κ × α) : get k (p :: d) = if p.1 = k then some p.2 else get k d := by
  by_cases hp : p.1 = k
  · simp [get, hp]
  · simp [get, hp]

theorem get_eq_none_iff : get k d = none ↔ k ∉ d.map Prod.fst := by
  rw [get, Option.map_eq_none_iff, List.find?_eq_none, List.mem_map, not_exists]
  refine forall_congr' fun p => ?_
  simp

theorem set_of_not_mem (h : k ∉ d.map Prod.fst) : set k v d = d ++ [(k, v)] := if_neg h

/-- Replacing a value keeps the keys. -/
theorem map_fst_set_of_mem (h : k ∈ d.map Prod.fst) :
    (set k v d).map Prod.fst = d.map Prod.fst := by
  rw [set, if_pos h, List.map_map]
  refine List.map_congr_left fun p _ => ?_
  by_cases hp : p.1 = k
  · simp [hp]
  · simp [hp]

theorem mem_map_fst_set : k ∈ (set k v d).map Prod.fst := by
  by_cases h : k ∈ d.map Prod.fst
  · rw [map_fst_set_of_mem h]
    exact h
  · rw [set_of_not_mem h]
    simp

/-- What was set is found. -/
@[simp] theorem get_set : get k (set k v d) = some v := by
  by_cases h : k ∈ d.map Prod.fst
  · rw [set, if_pos h]
    induction d with
    | nil => cases h
    | cons p d ih =>
      by_cases hp : p.1 = k
      · simp [get, hp]
      · have hd : k ∈ d.map Prod.fst := by
          rcases List.mem_cons.mp h with hk | hk
          · exact absurd hk.symm hp
          · exact hk
        simpa [get, hp] using ih hd
  · have hnone : d.find? (fun p => p.1 = k) = none := by
      rw [List.find?_eq_none]
      intro p hp
      have : p.1 ≠ k := fun hk => h (hk ▸ List.mem_map_of_mem hp)
      simp [this]
    rw [set_of_not_mem h, get, List.find?_append, hnone]
    simp

theorem mem_of_mem_set {p : κ × α} (h : p ∈ set k v d) : p = (k, v) ∨ p ∈ d := by
  rw [set] at h
  split_ifs at h
  · obtain ⟨q, hq, rfl⟩ := List.mem_map.mp h
    split_ifs
    · exact .inl rfl
    · exact .inr hq
  · rcases List.mem_append.mp h with h | h
    · exact .inr h
    · exact .inl (List.mem_singleton.mp h)

theorem length_set_of_mem (h : k ∈ d.map Prod.fst) : (set k v d).length = d.length := by
  rw [set, if_pos h, List.length_map]

/-- What was moved to the end is found there. -/
theorem get_filter_append_self : get k ((d.filter fun p => p.1 ≠ k) ++ [(k, v)]) = some v := by
  induction d with
  | nil => simp [get]
  | cons p d ih =>
    by_cases hp : p.1 = k
    · rw [List.filter_cons_of_neg (by simp [hp])]
      exact ih
    · rw [List.filter_cons_of_pos (by simp [hp]), List.cons_append, get_cons, if_neg hp]
      exact ih

theorem get_filter_append_of_ne {j : κ} (h : j ≠ k) :
    get j ((d.filter fun p => p.1 ≠ k) ++ [(k, v)]) = get j d := by
  induction d with
  | nil => simp [get, h.symm]
  | cons p d ih =>
    by_cases hp : p.1 = k
    · have hj : p.1 ≠ j := fun hj => h (hj.symm.trans hp)
      rw [List.filter_cons_of_neg (by simp [hp]), get_cons, if_neg hj]
      exact ih
    · rw [List.filter_cons_of_pos (by simp [hp]), List.cons_append, get_cons, get_cons, ih]

/-- Where every key is there once, dropping values drops what is found of them. -/
theorem get_filter {q : α → Bool} (hd : (d.map Prod.fst).Nodup) :
    get k (d.filter fun p => q p.2) = (get k d).filter q := by
  induction d with
  | nil => rfl
  | cons p d ih =>
    obtain ⟨hnot, hd⟩ := List.nodup_cons.mp hd
    have hfilter : (p :: d).filter (fun p => q p.2) =
        if q p.2 then p :: d.filter (fun p => q p.2) else d.filter (fun p => q p.2) :=
      List.filter_cons
    rw [hfilter]
    by_cases hp : p.1 = k
    · have hrest : get k d = none := get_eq_none_iff.mpr (hp ▸ hnot)
      by_cases hq : q p.2
      · rw [if_pos hq, get_cons, get_cons, if_pos hp, if_pos hp]
        simp [Option.filter, hq]
      · rw [if_neg hq, get_cons, if_pos hp, ih hd, hrest]
        simp [Option.filter, hq]
    · by_cases hq : q p.2
      · rw [if_pos hq, get_cons, get_cons, if_neg hp, if_neg hp, ih hd]
      · rw [if_neg hq, get_cons, if_neg hp, ih hd]

theorem get_tail (h : d.head?.map Prod.fst ≠ some k) : get k d.tail = get k d := by
  cases d with
  | nil => rfl
  | cons p d =>
    have hp : p.1 ≠ k := fun hp => h (congrArg some hp)
    rw [get_cons, if_neg hp]
    rfl

theorem mem_of_get (h : get k d = some v) : (k, v) ∈ d := by
  rw [get, Option.map_eq_some_iff] at h
  obtain ⟨p, hp, rfl⟩ := h
  have hk : p.1 = k := by simpa using List.find?_some hp
  rw [← hk]
  exact List.mem_of_find?_eq_some hp

theorem get_of_mem (hd : (d.map Prod.fst).Nodup) (h : (k, v) ∈ d) : get k d = some v := by
  induction d with
  | nil => cases h
  | cons p d ih =>
    obtain ⟨hnot, hd⟩ := List.nodup_cons.mp hd
    rcases List.mem_cons.mp h with rfl | h
    · rw [get_cons, if_pos rfl]
    · have hp : p.1 ≠ k := fun hp => hnot (hp ▸ List.mem_map_of_mem h)
      rw [get_cons, if_neg hp]
      exact ih hd h

/-- What is found in a part of a dictionary is found in the whole. -/
theorem get_of_sublist {d' : List (κ × α)} (hsub : d'.Sublist d) (hd : (d.map Prod.fst).Nodup)
    (h : get k d' = some v) : get k d = some v :=
  get_of_mem hd (hsub.subset (mem_of_get h))

theorem get_append (d' : List (κ × α)) : get k (d' ++ d) = (get k d').or (get k d) := by
  rw [get, get, get, List.find?_append]
  cases d'.find? fun p => p.1 = k <;> rfl

end Lib.Dict
