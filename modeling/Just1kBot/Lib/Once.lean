import Just1kBot.Lib.Transition
import Mathlib.Data.Int.Notation
import Mathlib.Data.List.Nodup
import Mathlib.Data.List.Perm.Basic

/-! Operations that are done once for a key.

    An attempt inserts its key into a table in the transaction of its operation. The table takes a
    key once: an attempt waits for one that inserted the same key and is still open, and turns away
    where the key is there already. So a key is taken exactly by an attempt that commits, and until
    the keys of old are dropped nobody repeats what it did. -/

namespace Lib.Once

/-- What an operation does in its transaction: it is done, it gives up without a rollback, so that
    its key is spent for nothing, or it is rolled back. -/
inductive Outcome (σ : Type*)
  | done (store : σ)
  | spent
  | undone

/-- What the attempts are made of: the operation that an input asks for, if it is admitted, its key,
    and what it does at a time; and how long a key is kept. -/
structure Machine (ι κ ω σ : Type*) where
  receive : ι → σ → Option ω
  key : ω → κ
  perform : ℤ → ω → σ → Outcome σ
  retention : ℤ

/-- A transaction under way. -/
structure Attempt (ω : Type*) where
  op : ω
  began : ℤ
  inserted : Bool := false

/-- An operation that was committed, with the times of its transaction. -/
structure Effect (ω : Type*) where
  op : ω
  began : ℤ
  committed : ℤ

/-- The store and the keys with the times their transactions began. `effects` and `spent` are
    histories of the transactions that took a key. -/
structure State (κ ω σ : Type*) where
  store : σ
  now : ℤ := 0
  keys : List (κ × ℤ) := []
  attempts : List (Attempt ω) := []
  effects : List (Effect ω) := []
  spent : List (Effect ω) := []

/-- What can happen: time passes, an input comes in, an attempt goes on or dies, old keys are
    dropped, and others change the store. -/
inductive Event (ι σ : Type*)
  | tick (d : ℕ)
  | arrive (input : ι)
  | insert (i : ℕ)
  | perform (i : ℕ)
  | die (i : ℕ)
  | prune
  | others (store : σ)

variable {ι κ ω σ : Type*} [DecidableEq κ] (m : Machine ι κ ω σ)

namespace State

/-- The keys that open attempts have inserted. -/
def held (s : State κ ω σ) : List κ :=
  (s.attempts.filter Attempt.inserted).map fun a => m.key a.op

/-- The attempt ends. -/
def close (s : State κ ω σ) (i : ℕ) : State κ ω σ := { s with attempts := s.attempts.eraseIdx i }

/-- The attempt commits, and with it its key. -/
def take (s : State κ ω σ) (i : ℕ) (a : Attempt ω) : State κ ω σ :=
  { s.close i with keys := s.keys ++ [(m.key a.op, a.began)] }

/-- The attempt inserts its key, unless it has to wait or the key is taken. -/
def insert (s : State κ ω σ) (i : ℕ) : State κ ω σ :=
  match s.attempts[i]? with
  | none => s
  | some a =>
    if a.inserted ∨ m.key a.op ∈ s.held m then s
    else if m.key a.op ∈ s.keys.map Prod.fst then s.close i
    else { s with attempts := s.attempts.set i { a with inserted := true } }

/-- The attempt does its operation and ends. -/
def perform (s : State κ ω σ) (i : ℕ) : State κ ω σ :=
  match s.attempts[i]? with
  | none => s
  | some a =>
    if a.inserted then
      match m.perform s.now a.op s.store with
      | .done store => { s.take m i a with
          store := store
          effects := s.effects ++ [⟨a.op, a.began, s.now⟩] }
      | .spent => { s.take m i a with spent := s.spent ++ [⟨a.op, a.began, s.now⟩] }
      | .undone => s.close i
    else s

def step (s : State κ ω σ) : Event ι σ → State κ ω σ
  | .tick d => { s with now := s.now + d }
  | .arrive input => { s with
      attempts := s.attempts ++ ((m.receive input s.store).map fun op => ⟨op, s.now, false⟩).toList }
  | .insert i => s.insert m i
  | .perform i => s.perform m i
  | .die i => s.close i
  | .prune => { s with keys := s.keys.filter fun e => s.now ≤ e.2 + m.retention }
  | .others store => { s with store := store }

/-- The attempt finds its key taken. -/
def TurnsAway (s : State κ ω σ) (e : Event ι σ) (a : Attempt ω) : Prop :=
  ∃ i, e = .insert i ∧ s.attempts[i]? = some a ∧ a.inserted = false ∧
    m.key a.op ∉ s.held m ∧ m.key a.op ∈ s.keys.map Prod.fst

/-- What every step keeps: a key is held by one attempt or in the table; who took effect not long
    ago is in the table; who is in the table took effect, or gave up; and effects of one key are
    far apart. -/
structure Valid (s : State κ ω σ) : Prop where
  nodup : (s.held m ++ s.keys.map Prod.fst).Nodup
  kept : ∀ e ∈ s.effects, (m.key e.op, e.began) ∈ s.keys ∨ e.began + m.retention < s.now
  source : ∀ k ∈ s.keys, ∃ e ∈ s.effects ++ s.spent, m.key e.op = k.1
  spaced : s.effects.Pairwise fun e f =>
    m.key e.op = m.key f.op → e.began + m.retention < f.committed

variable {m} {s : State κ ω σ} {i : ℕ} {a : Attempt ω}

omit [DecidableEq κ] in
/-- The keys that are held, with the one of an attempt taken out. -/
theorem held_perm (h : s.attempts[i]? = some a) :
    List.Perm (s.held m) ((if a.inserted then [m.key a.op] else []) ++ (s.close i).held m) := by
  obtain ⟨hlt, rfl⟩ := List.getElem?_eq_some_iff.mp h
  have hperm := (List.getElem_cons_eraseIdx_perm hlt).symm
  refine ((hperm.filter Attempt.inserted).map fun a => m.key a.op).trans ?_
  rw [List.filter_cons]
  split_ifs
  · exact .refl _
  · exact .refl _

omit [DecidableEq κ] in
theorem held_close_sublist (s : State κ ω σ) (i : ℕ) :
    List.Sublist ((s.close i).held m) (s.held m) :=
  ((List.eraseIdx_sublist s.attempts i).filter _).map _

omit [DecidableEq κ] in
theorem Valid.close (h : s.Valid m) (i : ℕ) : (s.close i).Valid m :=
  ⟨h.nodup.sublist ((held_close_sublist s i).append_right _), h.kept, h.source, h.spaced⟩

theorem Valid.insert (h : s.Valid m) (i : ℕ) : (s.insert m i).Valid m := by
  rw [State.insert]
  split
  · exact h
  · rename_i a ha
    split_ifs with hwaits htaken
    · exact h
    · exact h.close i
    · obtain ⟨hnew, hfree⟩ := not_or.mp hwaits
      refine ⟨?_, h.kept, h.source, h.spaced⟩
      have hlt := (List.getElem?_eq_some_iff.mp ha).1
      have hset := List.set_perm_cons_eraseIdx hlt { a with inserted := true }
      have hheld : List.Perm
          (held m { s with attempts := s.attempts.set i { a with inserted := true } })
          (m.key a.op :: s.held m) := by
        refine ((hset.filter Attempt.inserted).map fun a => m.key a.op).trans ?_
        have hold := held_perm (m := m) ha
        rw [if_neg hnew, List.nil_append] at hold
        rw [List.filter_cons_of_pos rfl, List.map_cons]
        exact hold.symm.cons _
      refine ((hheld.append_right _).nodup_iff).mpr ?_
      exact List.nodup_cons.mpr ⟨by simp [hfree, htaken], h.nodup⟩

omit [DecidableEq κ] in
/-- A key that an attempt holds goes into the table with it. -/
theorem Valid.take (h : s.Valid m) (ha : s.attempts[i]? = some a) (hinserted : a.inserted = true) :
    ((s.take m i a).held m ++ (s.take m i a).keys.map Prod.fst).Nodup ∧
      m.key a.op ∉ s.keys.map Prod.fst := by
  have hperm := held_perm (m := m) ha
  rw [if_pos hinserted] at hperm
  have hnodup := ((hperm.append_right (s.keys.map Prod.fst)).nodup_iff).mp h.nodup
  refine ⟨?_, fun hmem => ?_⟩
  · rw [State.take, List.map_append, ← List.append_assoc]
    exact ((List.perm_append_singleton _ _).nodup_iff).mpr hnodup
  · rw [List.append_assoc, List.singleton_append, List.nodup_cons] at hnodup
    exact hnodup.1 (List.mem_append_right _ hmem)

omit [DecidableEq κ] in
theorem Valid.perform (h : s.Valid m) (i : ℕ) : (s.perform m i).Valid m := by
  rw [State.perform]
  split
  · exact h
  · rename_i a ha
    by_cases hinserted : a.inserted = true
    · obtain ⟨hnodup, hfree⟩ := h.take ha hinserted
      rw [if_pos hinserted]
      split
      · refine ⟨hnodup, fun e he => ?_, fun k hk => ?_, ?_⟩
        · rcases List.mem_append.mp he with he | he
          · exact (h.kept e he).imp_left (List.mem_append_left _)
          · rw [List.mem_singleton.mp he]
            exact .inl (List.mem_append_right _ (List.mem_singleton_self _))
        · rcases List.mem_append.mp hk with hk | hk
          · obtain ⟨e, he, hkey⟩ := h.source k hk
            refine ⟨e, ?_, hkey⟩
            rcases List.mem_append.mp he with he | he
            · exact List.mem_append_left _ (List.mem_append_left _ he)
            · exact List.mem_append_right _ he
          · rw [List.mem_singleton.mp hk]
            exact ⟨⟨a.op, a.began, s.now⟩, by simp, rfl⟩
        · -- an effect of the same key is not in the table any more
          refine List.pairwise_append.mpr ⟨h.spaced, List.pairwise_singleton _ _, ?_⟩
          rintro e he f hf hkey
          cases List.mem_singleton.mp hf
          refine (h.kept e he).resolve_left fun hmem => hfree ?_
          rw [← hkey]
          exact List.mem_map_of_mem hmem
      · refine ⟨hnodup, fun e he => ?_, fun k hk => ?_, h.spaced⟩
        · exact (h.kept e he).imp_left (List.mem_append_left _)
        · rcases List.mem_append.mp hk with hk | hk
          · obtain ⟨e, he, hkey⟩ := h.source k hk
            refine ⟨e, ?_, hkey⟩
            rw [← List.append_assoc]
            exact List.mem_append_left _ he
          · rw [List.mem_singleton.mp hk]
            exact ⟨⟨a.op, a.began, s.now⟩, by simp, rfl⟩
      · exact h.close i
    · rw [if_neg hinserted]
      exact h

theorem Valid.step (h : s.Valid m) (e : Event ι σ) : (s.step m e).Valid m := by
  cases e with
  | tick d =>
    refine ⟨h.nodup, fun e he => ?_, h.source, h.spaced⟩
    refine (h.kept e he).imp_right fun hold => ?_
    simp only [State.step]
    omega
  | arrive input =>
    refine ⟨?_, h.kept, h.source, h.spaced⟩
    have hheld : (s.step m (.arrive input)).held m = s.held m := by
      simp only [State.step, held, List.filter_append]
      cases m.receive input s.store with
      | none => simp
      | some op => simp
    rw [hheld]
    exact h.nodup
  | insert i => exact h.insert i
  | perform i => exact h.perform i
  | die i => exact h.close i
  | prune =>
    refine ⟨h.nodup.sublist ((List.filter_sublist.map _).append_left _), fun e he => ?_,
      fun k hk => h.source k (List.mem_of_mem_filter hk), h.spaced⟩
    rcases h.kept e he with hmem | hold
    · by_cases hfresh : s.now ≤ e.began + m.retention
      · exact .inl (List.mem_filter.mpr ⟨hmem, decide_eq_true hfresh⟩)
      · exact .inr (Int.not_le.mp hfresh)
    · exact .inr hold
  | others store => exact ⟨h.nodup, h.kept, h.source, h.spaced⟩

omit [DecidableEq κ] in
/-- An attempt is turned away only where another one took its key. -/
theorem Valid.turnsAway {e : Event ι σ} (h : s.Valid m) (haway : s.TurnsAway m e a) :
    ∃ f ∈ s.effects ++ s.spent, m.key f.op = m.key a.op := by
  obtain ⟨i, -, -, -, -, htaken⟩ := haway
  obtain ⟨k, hk, hkey⟩ := List.mem_map.mp htaken
  obtain ⟨f, hf, heq⟩ := h.source k hk
  exact ⟨f, hf, heq.trans hkey⟩

variable (m)

omit [DecidableEq κ] in
theorem valid_start (store : σ) : Valid m ({ store := store } : State κ ω σ) where
  nodup := List.nodup_nil
  kept _ h := absurd h List.not_mem_nil
  source _ h := absurd h List.not_mem_nil
  spaced := List.Pairwise.nil

/-- Effects of one key are further apart than the time for which a key is kept, in every run. -/
theorem spaced_of_run (store : σ) (es : List (Event ι σ)) :
    (Lib.run (State.step m) { store := store } es).effects.Pairwise fun e f =>
      m.key e.op = m.key f.op → e.began + m.retention < f.committed :=
  (Lib.run_inv (State.step m) (I := Valid m) (fun _ e h => h.step e) es _
    (valid_start m store)).spaced

end State

end Lib.Once
