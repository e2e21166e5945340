import Mathlib.Logic.Basic

/-! Programs over a tracked object.

    Such a program reads and changes an object, and returns a value or raises an exception; what it
    has changed by then stays changed, since the object is kept by whoever catches the exception. A
    program restores its object under some exceptions if it raises none of them after a change. -/

namespace Lib.Tracked

universe u
variable {ε σ α β : Type u}

/-- Raises the exception where the condition holds. -/
def refuseIf (c : Prop) [Decidable c] (e : ε) : EStateM ε σ PUnit :=
  if c then throw e else pure ⟨⟩

/-- Where the program raises an exception of `D`, the object is as it was. -/
def Restores (D : ε → Prop) (p : EStateM ε σ α) : Prop :=
  ∀ s e s', p s = .error e s' → D e → s' = s

/-- The program raises no exception of `D`. -/
def Avoids (D : ε → Prop) (p : EStateM ε σ α) : Prop := ∀ s e s', p s = .error e s' → ¬ D e

/-- The object after the program, where an exception outside `D` rolls the transaction back. -/
def after (D : ε → Prop) [DecidablePred D] (p : EStateM ε σ α) (s : σ) : σ :=
  match p s with
  | .ok _ s' => s'
  | .error e s' => if D e then s' else s

variable {D : ε → Prop}

theorem bind_apply (p : EStateM ε σ α) (f : α → EStateM ε σ β) (s : σ) :
    (p >>= f) s = match p s with
      | .ok a s' => f a s'
      | .error e s' => .error e s' := rfl

theorem get_bind_apply (f : σ → EStateM ε σ β) (s : σ) : (get >>= f) s = f s s := rfl

theorem modify_bind_apply (g : σ → σ) (f : PUnit → EStateM ε σ β) (s : σ) :
    (modify g >>= f) s = f ⟨⟩ (g s) := rfl

theorem pure_apply (a : α) (s : σ) : (pure a : EStateM ε σ α) s = .ok a s := rfl

section RefuseIf
variable {c : Prop} [Decidable c] {e : ε} {f : PUnit → EStateM ε σ β} {s : σ}

theorem refuseIf_bind_of_pos (h : c) : (refuseIf c e >>= f) s = .error e s := by
  rw [bind_apply, refuseIf, if_pos h]
  rfl

theorem refuseIf_bind_of_neg (h : ¬ c) : (refuseIf c e >>= f) s = f ⟨⟩ s := by
  rw [bind_apply, refuseIf, if_neg h]
  rfl

/-- A checked program succeeds exactly where the check passes and the rest succeeds. -/
theorem refuseIf_bind_ok {b : β} {s' : σ} :
    (refuseIf c e >>= f) s = .ok b s' ↔ ¬ c ∧ f ⟨⟩ s = .ok b s' := by
  by_cases h : c
  · rw [refuseIf_bind_of_pos h]
    exact iff_of_false (by simp) fun hn => hn.1 h
  · rw [refuseIf_bind_of_neg h]
    exact (and_iff_right h).symm

end RefuseIf

/-! ### Rules -/

theorem Restores.get_bind {f : σ → EStateM ε σ β} (h : ∀ a, Restores D (f a)) :
    Restores D (get >>= f) := fun s => h s s

theorem Restores.refuseIf_bind {c : Prop} [Decidable c] {e : ε} {f : PUnit → EStateM ε σ β}
    (h : Restores D (f ⟨⟩)) : Restores D (refuseIf c e >>= f) := by
  intro s e' s' hs hD
  by_cases hc : c
  · rw [refuseIf_bind_of_pos hc] at hs
    cases hs
    rfl
  · rw [refuseIf_bind_of_neg hc] at hs
    exact h s e' s' hs hD

/-- After a program that restores its object, the object is as before or as a success left it. -/
theorem Restores.after_cases [DecidablePred D] {p : EStateM ε σ α} (h : Restores D p) (s : σ) :
    after D p s = s ∨ ∃ a, p s = .ok a (after D p s) := by
  rw [after]
  cases hps : p s with
  | ok a s' => exact .inr ⟨a, rfl⟩
  | error e s' =>
    refine .inl ?_
    change (if D e then s' else s) = s
    by_cases hD : D e
    · rw [if_pos hD]
      exact h s e s' hps hD
    · exact if_neg hD

/-- A program that raises none of the exceptions restores its object under them. -/
theorem Avoids.restores {p : EStateM ε σ α} (h : Avoids D p) : Restores D p :=
  fun s e s' hs hD => absurd hD (h s e s' hs)

theorem avoids_pure (a : α) : Avoids D (pure a : EStateM ε σ α) := by
  intro s e s' hs
  rw [pure_apply] at hs
  cases hs

theorem Avoids.get_bind {f : σ → EStateM ε σ β} (h : ∀ a, Avoids D (f a)) :
    Avoids D (get >>= f) := fun s => h s s

theorem Avoids.modify_bind {g : σ → σ} {f : PUnit → EStateM ε σ β} (h : Avoids D (f ⟨⟩)) :
    Avoids D (modify g >>= f) := fun s => h (g s)

end Lib.Tracked
