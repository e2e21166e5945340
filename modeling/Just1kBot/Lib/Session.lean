import Mathlib.Logic.Basic

/-! The unit of work of an object-relational session.

    An object keeps the values it was loaded with next to its current ones. A flush writes the
    attributes whose current value differs from the loaded one, and leaves the stored value of
    every other attribute alone: what another transaction stored there since stays. -/

namespace Lib

variable {α : Type*} [DecidableEq α]

/-- The stored value of an attribute after a flush. -/
def written (loaded current stored : α) : α := if current = loaded then stored else current

/-- An attribute the object did not change keeps what is stored. -/
@[simp] theorem written_loaded (loaded stored : α) : written loaded loaded stored = stored :=
  if_pos rfl

/-- An attribute the object changed takes its value, whatever is stored. -/
theorem written_of_ne {loaded current : α} (h : current ≠ loaded) (stored : α) :
    written loaded current stored = current := if_neg h

/-- An attribute loaded as it is stored takes its current value. -/
theorem written_stored (loaded current : α) : written loaded current loaded = current := by
  by_cases h : current = loaded
  · rw [h, written_loaded]
  · exact written_of_ne h loaded

/-- A flush brings in a value only by writing it, over something else. -/
theorem written_new_iff {loaded current stored : α} :
    stored ≠ current ∧ written loaded current stored = current ↔
      stored ≠ current ∧ loaded ≠ current := by
  refine and_congr_right fun hne => ?_
  constructor
  · intro h rfl
    rw [written_loaded] at h
    exact hne h
  · intro h
    exact written_of_ne h.symm stored

end Lib
