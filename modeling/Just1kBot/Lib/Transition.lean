import Mathlib.Data.List.Basic

/-! Runs of a deterministic machine and all-or-nothing transactions.

    A machine is a function `step : σ → ε → σ`; a run folds it over a list of events. `Always` says
    that a relation between the state before and the event holds at every step of a run, so it
    serves both as a conclusion (a step is safe wherever it is taken) and as a hypothesis (a run
    whose steps all meet a guard). `Throughout` says that a predicate holds in every state. A
    transaction returns a value together with the next store, or fails; `commit` keeps the old store
    when it fails. -/

namespace Lib

section Runs
variable {σ ε : Type*} (step : σ → ε → σ)

/-- The state after a list of events. -/
def run (s : σ) (es : List ε) : σ := es.foldl step s

/-- `P` holds between the state before and the event at every step of the run. -/
def Always (P : σ → ε → Prop) : σ → List ε → Prop
  | _, [] => True
  | s, e :: es => P s e ∧ Always P (step s e) es

instance decidableAlways (P : σ → ε → Prop) [∀ s e, Decidable (P s e)] :
    ∀ (s : σ) (es : List ε), Decidable (Always step P s es)
  | _, [] => .isTrue trivial
  | s, e :: es =>
    have := decidableAlways P (step s e) es
    inferInstanceAs (Decidable (P s e ∧ Always step P (step s e) es))

@[simp] theorem run_nil (s : σ) : run step s [] = s := rfl

@[simp] theorem run_cons (s : σ) (e : ε) (es : List ε) :
    run step s (e :: es) = run step (step s e) es := rfl

theorem run_append (s : σ) (es fs : List ε) :
    run step s (es ++ fs) = run step (run step s es) fs := List.foldl_append ..

/-- The invariant rule: what every step preserves, every run preserves. -/
theorem run_inv {I : σ → Prop} (hstep : ∀ s e, I s → I (step s e)) :
    ∀ (es : List ε) (s : σ), I s → I (run step s es)
  | [], _, h => h
  | e :: es, s, h => run_inv hstep es (step s e) (hstep s e h)

/-- The invariant rule for guarded runs: a step need only preserve the invariant under its guard. -/
theorem run_inv_of_always {I : σ → Prop} {G : σ → ε → Prop}
    (hstep : ∀ s e, I s → G s e → I (step s e)) :
    ∀ (es : List ε) (s : σ), I s → Always step G s es → I (run step s es)
  | [], _, h, _ => h
  | e :: es, s, h, hG => run_inv_of_always hstep es (step s e) (hstep s e h hG.1) hG.2

/-- The invariant rule for events of one kind. -/
theorem run_inv_of_forall {I : σ → Prop} {Q : ε → Prop}
    (hstep : ∀ s e, I s → Q e → I (step s e)) (es : List ε) (s : σ) (hs : I s)
    (hes : ∀ e ∈ es, Q e) : I (run step s es) := by
  induction es generalizing s with
  | nil => exact hs
  | cons e es ih =>
    obtain ⟨he, hes⟩ := List.forall_mem_cons.mp hes
    exact ih (step s e) (hstep s e hs he) hes

/-- A measure that the event lowers comes to zero. -/
theorem exists_run_replicate {I : σ → Prop} {μ : σ → ℕ} {e : ε}
    (hstep : ∀ s, I s → I (step s e)) (hlt : ∀ s, I s → μ s ≠ 0 → μ (step s e) < μ s) (s : σ)
    (hs : I s) : ∃ n, μ (run step s (List.replicate n e)) = 0 ∧
      I (run step s (List.replicate n e)) := by
  induction hμ : μ s using Nat.strongRecOn generalizing s with
  | ind m ih =>
    by_cases hzero : m = 0
    · exact ⟨0, hμ.trans hzero, hs⟩
    · have hless := hlt s hs (by rwa [hμ])
      obtain ⟨n, hn⟩ := ih (μ (step s e)) (hμ ▸ hless) (step s e) (hstep s hs) rfl
      exact ⟨n + 1, hn⟩

/-- What the invariant gives at one step holds at every step of a run. -/
theorem always_of_inv {I : σ → Prop} {P : σ → ε → Prop} (hstep : ∀ s e, I s → I (step s e))
    (hP : ∀ s e, I s → P s e) : ∀ (es : List ε) (s : σ), I s → Always step P s es
  | [], _, _ => trivial
  | e :: es, s, h => ⟨hP s e h, always_of_inv hstep hP es (step s e) (hstep s e h)⟩

/-- The same along a guarded run. -/
theorem always_of_inv_of_always {I : σ → Prop} {G P : σ → ε → Prop}
    (hstep : ∀ s e, I s → G s e → I (step s e)) (hP : ∀ s e, I s → G s e → P s e) :
    ∀ (es : List ε) (s : σ), I s → Always step G s es → Always step P s es
  | [], _, _, _ => trivial
  | e :: es, s, h, hG =>
    ⟨hP s e h hG.1, always_of_inv_of_always hstep hP es (step s e) (hstep s e h hG.1) hG.2⟩

/-- What every event of the run satisfies holds at every step. -/
theorem always_of_forall {Q : ε → Prop} (es : List ε) (s : σ) (h : ∀ e ∈ es, Q e) :
    Always step (fun _ e => Q e) s es := by
  induction es generalizing s with
  | nil => trivial
  | cons e es ih =>
    obtain ⟨he, hes⟩ := List.forall_mem_cons.mp h
    exact ⟨he, ih (step s e) hes⟩

theorem always_and {P Q : σ → ε → Prop} (es : List ε) (s : σ) (hP : Always step P s es)
    (hQ : Always step Q s es) : Always step (fun s e => P s e ∧ Q s e) s es := by
  induction es generalizing s with
  | nil => trivial
  | cons e es ih => exact ⟨⟨hP.1, hQ.1⟩, ih (step s e) hP.2 hQ.2⟩

theorem always_append (P : σ → ε → Prop) (s : σ) (es fs : List ε) :
    Always step P s (es ++ fs) ↔ Always step P s es ∧ Always step P (run step s es) fs := by
  induction es generalizing s with
  | nil => exact (iff_of_eq (true_and _)).symm
  | cons e es ih => exact (and_congr_right fun _ => ih (step s e)).trans and_assoc.symm

/-- Two guards that agree wherever the invariant holds agree along every run. -/
theorem always_congr_of_inv {I : σ → Prop} {P Q : σ → ε → Prop}
    (hstep : ∀ s e, I s → I (step s e)) (hPQ : ∀ s e, I s → (P s e ↔ Q s e)) :
    ∀ (es : List ε) (s : σ), I s → (Always step P s es ↔ Always step Q s es)
  | [], _, _ => Iff.rfl
  | e :: es, s, h =>
    and_congr (hPQ s e h) (always_congr_of_inv hstep hPQ es (step s e) (hstep s e h))

/-- Where a safe step meets the guard, and a guarded step is safe and keeps `I`, the steps of a run
    are all safe exactly when they all meet the guard. `J` is what every step preserves anyway. -/
theorem always_iff {I J : σ → Prop} {P G : σ → ε → Prop} (hJ : ∀ s e, J s → J (step s e))
    (hPG : ∀ s e, J s → P s e → G s e)
    (hGP : ∀ s e, J s → I s → G s e → P s e ∧ I (step s e)) (es : List ε) (s : σ) (hj : J s)
    (hi : I s) : Always step P s es ↔ Always step G s es := by
  constructor
  · intro h
    induction es generalizing s with
    | nil => trivial
    | cons e es ih =>
      obtain ⟨hP, hrest⟩ := h
      have hG := hPG s e hj hP
      exact ⟨hG, ih (step s e) (hJ s e hj) (hGP s e hj hi hG).2 hrest⟩
  · refine always_of_inv_of_always step (I := fun s => J s ∧ I s) ?_ ?_ es s ⟨hj, hi⟩
    · exact fun s e h hG => ⟨hJ s e h.1, (hGP s e h.1 h.2 hG).2⟩
    · exact fun s e h hG => (hGP s e h.1 h.2 hG).1

/-- `I` holds in every state of the run, the first one included. -/
def Throughout (I : σ → Prop) : σ → List ε → Prop
  | s, [] => I s
  | s, e :: es => I s ∧ Throughout I (step s e) es

instance decidableThroughout (I : σ → Prop) [DecidablePred I] :
    ∀ (s : σ) (es : List ε), Decidable (Throughout step I s es)
  | s, [] => inferInstanceAs (Decidable (I s))
  | s, e :: es =>
    have := decidableThroughout I (step s e) es
    inferInstanceAs (Decidable (I s ∧ Throughout step I (step s e) es))

/-- What holds in every state of the run holds in the last one. -/
theorem run_of_throughout {I : σ → Prop} (es : List ε) (s : σ) (h : Throughout step I s es) :
    I (run step s es) := by
  induction es generalizing s with
  | nil => exact h
  | cons e es ih => exact ih (step s e) h.2

/-- A run whose steps all meet the guard stays in what the invariant gives. -/
theorem throughout_of_always {I P : σ → Prop} {G : σ → ε → Prop}
    (hstep : ∀ s e, I s → G s e → I (step s e)) (hP : ∀ s, I s → P s) :
    ∀ (es : List ε) (s : σ), I s → Always step G s es → Throughout step P s es
  | [], s, h, _ => hP s h
  | e :: es, s, h, hG =>
    ⟨hP s h, throughout_of_always hstep hP es (step s e) (hstep s e h hG.1) hG.2⟩

/-- Where the guard says exactly which steps keep `I`, a run stays in `I` exactly when all of its
    steps meet the guard. `J` is what every step preserves anyway. -/
theorem throughout_iff {I J : σ → Prop} {G : σ → ε → Prop} (hJ : ∀ s e, J s → J (step s e))
    (hI : ∀ s e, J s → I s → (I (step s e) ↔ G s e)) :
    ∀ (es : List ε) (s : σ), J s → I s → (Throughout step I s es ↔ Always step G s es)
  | [], _, _, hs => iff_of_true hs trivial
  | e :: es, s, hj, hs => by
    refine ⟨fun h => ?_, fun h => ⟨hs, ?_⟩⟩
    · have hnext : I (step s e) := by
        cases es with
        | nil => exact h.2
        | cons e' es => exact h.2.1
      exact ⟨(hI s e hj hs).mp hnext,
        (throughout_iff hJ hI es (step s e) (hJ s e hj) hnext).mp h.2⟩
    · exact (throughout_iff hJ hI es (step s e) (hJ s e hj) ((hI s e hj hs).mpr h.1)).mpr h.2

end Runs

section Transactions
universe u
variable {ε σ : Type*} {α β : Type u}

/-- The store after a transaction: a failed one leaves it as it was. -/
def commit (s : σ) : Except ε (α × σ) → σ
  | .ok (_, s') => s'
  | .error _ => s

@[simp] theorem commit_ok (s s' : σ) (a : α) : commit (ε := ε) s (.ok (a, s')) = s' := rfl

@[simp] theorem commit_error (s : σ) (e : ε) : commit (α := α) s (.error e) = s := rfl

/-- A property of the old store that every successful outcome keeps holds after the transaction. -/
theorem commit_inv {I : σ → Prop} {s : σ} {r : Except ε (α × σ)} (hs : I s)
    (hr : ∀ a s', r = .ok (a, s') → I s') : I (commit s r) := by
  cases r with
  | error e => exact hs
  | ok p => exact hr p.1 p.2 rfl

/-- A computation that succeeds succeeded at its first part. -/
theorem bind_ok {x : Except ε α} {f : α → Except ε β} {b : β} (h : x >>= f = .ok b) :
    ∃ a, x = .ok a ∧ f a = .ok b := by
  cases x with
  | error e => cases h
  | ok a => exact ⟨a, rfl, h⟩

/-- A computation succeeds when its parts do. -/
theorem bind_isOk_iff {x : Except ε α} {f : α → Except ε β} :
    (∃ b, x >>= f = .ok b) ↔ ∃ a, x = .ok a ∧ ∃ b, f a = .ok b := by
  constructor
  · rintro ⟨b, h⟩
    obtain ⟨a, ha, hb⟩ := bind_ok h
    exact ⟨a, ha, b, hb⟩
  · rintro ⟨a, rfl, b, hb⟩
    exact ⟨b, hb⟩

/-- A computation whose value is mapped succeeded with the value. -/
theorem map_ok {x : Except ε α} {f : α → β} {b : β} (h : x.map f = .ok b) :
    ∃ a, x = .ok a ∧ f a = b := by
  cases x with
  | error e => cases h
  | ok a => exact ⟨a, rfl, by cases h; rfl⟩

/-- Only a success gives a value. -/
theorem toOption_eq_some {x : Except ε α} {a : α} (h : x.toOption = some a) : x = .ok a := by
  cases x with
  | error e => cases h
  | ok b => exact congrArg Except.ok (Option.some.inj h)

/-- What holds of the value of a computation that succeeds under `A` only, with `b`. -/
theorem forall_mem_toOption_iff {x : Except ε α} {A : Prop} {b : α} {P : α → Prop}
    (hx : ∀ a, x = .ok a ↔ A ∧ b = a) : (∀ a ∈ x.toOption, P a) ↔ (A → P b) := by
  constructor
  · intro h hA
    refine h b ?_
    rw [(hx b).mpr ⟨hA, rfl⟩]
    rfl
  · intro h a ha
    obtain ⟨hA, rfl⟩ := (hx a).mp (toOption_eq_some ha)
    exact h hA

/-- A computation that fails failed at its first part or after it. -/
theorem bind_error {x : Except ε α} {f : α → Except ε β} {e : ε} (h : x >>= f = .error e) :
    x = .error e ∨ ∃ a, x = .ok a ∧ f a = .error e := by
  cases x with
  | error e' => cases h; exact .inl rfl
  | ok a => exact .inr ⟨a, rfl, h⟩

end Transactions

end Lib
