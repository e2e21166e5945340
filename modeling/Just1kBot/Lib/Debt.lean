import Mathlib.Data.Nat.Basic

/-! Debts with a bounded number of failed attempts.

    A debt is what is owed, if anything, with the attempts that failed. It is written in four ways:
    armed with something to deliver, cleared, counted as one more failure, or left alone. The
    failure that reaches the bound clears the debt. -/

namespace Lib

/-- What is owed and how often delivering it has failed. -/
structure Debt (α : Type*) where
  pending : Option α := none
  attempts : Option ℕ := none
  deriving DecidableEq, Repr

namespace Debt
variable {α : Type*} (bound : ℕ)

/-- One write on a debt. Arming it `fresh` forgets the failures. -/
inductive Write (α : Type*)
  | keep
  | arm (a : α) (fresh : Bool)
  | clear
  | count
  deriving DecidableEq, Repr

/-- One more failed attempt. -/
def failed (d : Debt α) : Debt α :=
  if bound ≤ d.attempts.getD 0 + 1 then {} else { d with attempts := some (d.attempts.getD 0 + 1) }

def Write.apply : Write α → Debt α → Debt α
  | .keep, d => d
  | .arm a fresh, d => ⟨some a, if fresh then none else d.attempts⟩
  | .clear, _ => {}
  | .count, d => d.failed bound

/-- The recorded failures stay below the bound. -/
def Bounded (d : Debt α) : Prop := ∀ n ∈ d.attempts, n < bound

instance (d : Debt α) : Decidable (d.Bounded bound) := by unfold Bounded; infer_instance

@[simp] theorem bounded_empty : ({} : Debt α).Bounded bound := fun n hn => by cases hn

theorem pending_failed {d : Debt α} (h : d.pending = none) : (d.failed bound).pending = none := by
  rw [failed]
  split
  · rfl
  · exact h

theorem bounded_failed (d : Debt α) : (d.failed bound).Bounded bound := by
  rw [failed]
  split
  · exact bounded_empty bound
  · intro n hn
    cases hn
    omega

/-- Only arming a debt makes it one that is owed. -/
theorem pending_apply {w : Write α} (hw : ∀ a fresh, w ≠ .arm a fresh) {d : Debt α}
    (h : d.pending = none) : (w.apply bound d).pending = none := by
  cases w with
  | keep => exact h
  | arm a fresh => exact absurd rfl (hw a fresh)
  | clear => rfl
  | count => exact pending_failed bound h

/-- No write takes the failures to the bound. -/
theorem bounded_apply (w : Write α) {d : Debt α} (h : d.Bounded bound) :
    (w.apply bound d).Bounded bound := by
  cases w with
  | keep => exact h
  | arm a fresh =>
    intro n hn
    cases fresh with
    | true => cases hn
    | false => exact h n hn
  | clear => exact bounded_empty bound
  | count => exact bounded_failed bound d

end Debt
end Lib
