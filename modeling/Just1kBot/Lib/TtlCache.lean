import Mathlib.Data.List.Infix
import Mathlib.Data.Set.Insert
import Mathlib.Order.Defs.LinearOrder

/-! Caches that forget: an entry lives for a while after it was set, and when too many keys are set
    the ones that were set first have to go.

    What such a cache still holds is told by the last settings: as long as there were no more of
    them than the cache has room for and none is older than an entry lives, every key they set is
    there. -/

namespace Lib.TtlCache

variable {κ : Type*} [DecidableEq κ] (maxsize : ℕ) (ttl : ℤ)

/-- The entries that have not expired. -/
def live (now : ℤ) (c : List (κ × ℤ)) : List (κ × ℤ) := c.filter fun e => now < e.2 + ttl

/-- The keys that are in the cache. -/
def keys (now : ℤ) (c : List (κ × ℤ)) : List κ := (live ttl now c).map Prod.fst

/-- `cache[k] = …`: the expired entries go first, and then the oldest ones that are too many. -/
def put (now : ℤ) (k : κ) (c : List (κ × ℤ)) : List (κ × ℤ) :=
  let c := (live ttl now c).filter (fun e => e.1 ≠ k) ++ [(k, now)]
  c.drop (c.length - maxsize)

/-- `cache.pop(k, None)`. -/
def erase (k : κ) (c : List (κ × ℤ)) : List (κ × ℤ) := c.filter fun e => e.1 ≠ k

variable {maxsize ttl} {now now' since : ℤ} {n : ℕ} {k k' : κ} {K : Set κ} {c : List (κ × ℤ)}

omit [DecidableEq κ] in
theorem mem_keys : k ∈ keys ttl now c ↔ ∃ t, (k, t) ∈ c ∧ now < t + ttl := by
  simp [keys, live]

/-- A key that is set is the only one that comes into the cache. -/
theorem mem_keys_of_put (h : k' ∈ keys ttl now' (put maxsize ttl now k c)) :
    k' = k ∨ k' ∈ keys ttl now c := by
  obtain ⟨t, hmem, hlive⟩ := mem_keys.mp h
  rcases List.mem_append.mp (List.mem_of_mem_drop hmem) with hmem | hmem
  · have hold := List.mem_of_mem_filter hmem
    exact .inr (List.mem_map_of_mem hold)
  · cases List.mem_singleton.mp hmem
    exact .inl rfl

theorem mem_keys_of_erase (h : k' ∈ keys ttl now (erase k c)) : k' ∈ keys ttl now c := by
  obtain ⟨t, hmem, hlive⟩ := mem_keys.mp h
  exact mem_keys.mpr ⟨t, List.mem_of_mem_filter hmem, hlive⟩

omit [DecidableEq κ] in
/-- Time only takes keys out of the cache. -/
theorem mem_keys_of_later (hle : now ≤ now') (h : k ∈ keys ttl now' c) : k ∈ keys ttl now c := by
  obtain ⟨t, hmem, hlive⟩ := mem_keys.mp h
  exact mem_keys.mpr ⟨t, hmem, hle.trans_lt hlive⟩

/-- The last `n` settings at most, all of them since a time, have the keys of `K`. -/
def Since (since : ℤ) (n : ℕ) (K : Set κ) (c : List (κ × ℤ)) : Prop :=
  ∃ recent, recent <:+ c ∧ recent.length ≤ n ∧ (∀ e ∈ recent, since ≤ e.2) ∧
    ∀ k ∈ K, k ∈ recent.map Prod.fst

namespace Since

omit [DecidableEq κ] in
/-- Before anything is set there is nothing to hold. -/
theorem start (since : ℤ) (c : List (κ × ℤ)) : Since since 0 ∅ c :=
  ⟨[], List.nil_suffix, le_rfl, by simp, by simp⟩

omit [DecidableEq κ] in
/-- The keys are in the cache for as long as an entry lives. -/
theorem mem_keys (h : Since since n K c) (hlive : now < since + ttl) (hk : k ∈ K) :
    k ∈ keys ttl now c := by
  obtain ⟨recent, hsuffix, -, hsince, hK⟩ := h
  obtain ⟨⟨j, t⟩, hmem, rfl⟩ := List.mem_map.mp (hK k hk)
  have ht : since ≤ t := hsince _ hmem
  exact TtlCache.mem_keys.mpr ⟨t, hsuffix.subset hmem, by omega⟩

/-- Another key is set, and there is room for all of them. -/
theorem put (h : Since since n K c) (hle : since ≤ now) (hlive : now < since + ttl)
    (hroom : n < maxsize) : Since since (n + 1) (insert k K) (put maxsize ttl now k c) := by
  obtain ⟨recent, ⟨old, rfl⟩, hlen, hsince, hK⟩ := h
  have hrecent : live ttl now recent = recent := by
    refine List.filter_eq_self.mpr fun e he => decide_eq_true ?_
    have := hsince e he
    omega
  have hkept : (recent.filter fun e => e.1 ≠ k).length ≤ n :=
    (List.length_filter_le ..).trans hlen
  refine ⟨recent.filter (fun e => e.1 ≠ k) ++ [(k, now)], ?_, ?_, ?_, ?_⟩
  · have hsplit : (live ttl now (old ++ recent)).filter (fun e => e.1 ≠ k) ++ [(k, now)] =
        (live ttl now old).filter (fun e => e.1 ≠ k) ++
          (recent.filter (fun e => e.1 ≠ k) ++ [(k, now)]) := by
      rw [live, List.filter_append, ← live, ← live, hrecent, List.filter_append, List.append_assoc]
    rw [TtlCache.put, hsplit, List.length_append, List.drop_append_of_le_length]
    · exact List.suffix_append ..
    · rw [List.length_append, List.length_singleton]
      omega
  · rw [List.length_append, List.length_singleton]
    omega
  · intro e he
    rcases List.mem_append.mp he with he | he
    · exact hsince e (List.mem_of_mem_filter he)
    · rw [List.mem_singleton.mp he]
      exact hle
  · intro j hj
    rw [List.map_append, List.mem_append]
    by_cases hjk : j = k
    · exact .inr (by simp [hjk])
    · obtain ⟨e, he, rfl⟩ := List.mem_map.mp (hK j (hj.resolve_left hjk))
      exact .inl (List.mem_map_of_mem (List.mem_filter.mpr ⟨he, by simpa using hjk⟩))

/-- A key is taken out. -/
theorem erase (h : Since since n K c) : Since since n (K \ {k}) (erase k c) := by
  obtain ⟨recent, hsuffix, hlen, hsince, hK⟩ := h
  refine ⟨recent.filter fun e => e.1 ≠ k, hsuffix.filter _, ?_, ?_, ?_⟩
  · exact (List.length_filter_le ..).trans hlen
  · intro e he
    exact hsince e (List.mem_of_mem_filter he)
  · rintro j ⟨hj, hjk⟩
    obtain ⟨e, he, rfl⟩ := List.mem_map.mp (hK j hj)
    exact List.mem_map_of_mem (List.mem_filter.mpr ⟨he, by simpa using hjk⟩)

end Since

/-! ### A cache against a history

    Where a key is set only while it is not in the cache, the cache answers as a history of all
    settings does, as long as those that are alive fit into it. -/

/-- The cache has the settings of the history that are alive, and nothing else. -/
structure Recalls (ttl now : ℤ) (c h : List (κ × ℤ)) : Prop where
  sub : c.Sublist h
  alive : ∀ e ∈ h, now < e.2 + ttl → e ∈ c

/-- How many settings of the history are alive. -/
def countAlive (ttl now : ℤ) (h : List (κ × ℤ)) : ℕ := h.countP fun e => now < e.2 + ttl

namespace Recalls
variable {h : List (κ × ℤ)}

omit [DecidableEq κ] in
/-- The cache has a key exactly where the history has it, alive. -/
theorem mem_keys_iff (hr : Recalls ttl now c h) :
    k ∈ keys ttl now c ↔ ∃ t, (k, t) ∈ h ∧ now < t + ttl := by
  rw [TtlCache.mem_keys]
  constructor
  · rintro ⟨t, hmem, hlive⟩
    exact ⟨t, hr.sub.subset hmem, hlive⟩
  · rintro ⟨t, hmem, hlive⟩
    exact ⟨t, hr.alive _ hmem hlive, hlive⟩

omit [DecidableEq κ] in
/-- Time only ends what is alive. -/
theorem later (hr : Recalls ttl now c h) (hle : now ≤ now') : Recalls ttl now' c h where
  sub := hr.sub
  alive e he hlive := hr.alive e he (hle.trans_lt hlive)

/-- A key that is not in the cache is set, and there is room for it. -/
theorem put (hr : Recalls ttl now c h) (hk : k ∉ keys ttl now c)
    (hroom : countAlive ttl now h < maxsize) :
    Recalls ttl now (put maxsize ttl now k c) (h ++ [(k, now)]) := by
  have hlen : (live ttl now c).length ≤ countAlive ttl now h := by
    rw [live, countAlive, ← List.countP_eq_length_filter]
    exact hr.sub.countP_le
  have hnone : (live ttl now c).filter (fun e => e.1 ≠ k) = live ttl now c := by
    refine List.filter_eq_self.mpr fun e he => decide_eq_true ?_
    rintro rfl
    exact hk (List.mem_map_of_mem he)
  have hput : TtlCache.put maxsize ttl now k c = live ttl now c ++ [(k, now)] := by
    rw [TtlCache.put, hnone, List.length_append, List.length_singleton, Nat.sub_eq_zero_of_le]
    · rfl
    · omega
  rw [hput]
  refine ⟨(List.filter_sublist.trans hr.sub).append (List.Sublist.refl _), fun e he hlive => ?_⟩
  rcases List.mem_append.mp he with he | he
  · exact List.mem_append_left _ (List.mem_filter.mpr ⟨hr.alive e he hlive, decide_eq_true hlive⟩)
  · exact List.mem_append_right _ he

end Recalls

end Lib.TtlCache
