import Mathlib.Order.Lattice

/-! Registers that keep the newest version they were told.

    Whoever holds the register is told a value under a version. A version that is not above the one
    it keeps is answered with the value it keeps; otherwise the new value is taken over. A value
    that is held from some version on stays held while whatever else is told is not newer than that
    version, or says the same. -/

namespace Lib.Versioned

variable {α ν : Type*} [LinearOrder ν]

/-- The register after it was told `x` under the version `v`. -/
def tell (v : ν) (x : α) : Option (ν × α) → Option (ν × α)
  | none => some (v, x)
  | some (w, y) => if v ≤ w then some (w, y) else some (v, x)

/-- The answer to being told the version `v`: the value kept, where it is not older. -/
def answer (v : ν) : Option (ν × α) → Option α
  | none => none
  | some (w, y) => if v ≤ w then some y else none

/-- The register keeps `x` under `v` or a later version. -/
def Holds (v : ν) (x : α) (r : Option (ν × α)) : Prop := ∃ w, r = some (w, x) ∧ v ≤ w

variable {v w : ν} {x y : α} {r : Option (ν × α)}

/-- What is held stays held unless something newer says otherwise. -/
theorem Holds.tell (h : Holds v x r) (hw : w ≤ v ∨ y = x) : Holds v x (tell w y r) := by
  obtain ⟨k, rfl, hk⟩ := h
  by_cases hle : w ≤ k
  · exact ⟨k, if_pos hle, hk⟩
  · rcases hw with hw | rfl
    · exact absurd (hw.trans hk) hle
    · exact ⟨w, if_neg hle, hk.trans (le_of_not_ge hle)⟩

/-- A register that took the value over, or answered with the same one, holds it. -/
theorem holds_tell (h : ∀ y ∈ answer v r, y = x) : Holds v x (Versioned.tell v x r) := by
  cases r with
  | none => exact ⟨v, rfl, le_rfl⟩
  | some p =>
    obtain ⟨w, y⟩ := p
    by_cases hle : v ≤ w
    · have hy : y = x := h y (if_pos hle)
      exact ⟨w, by rw [← hy]; exact if_pos hle, hle⟩
    · exact ⟨v, if_neg hle, le_rfl⟩

theorem Holds.value (h : Holds v x r) : r.map Prod.snd = some x := by
  obtain ⟨w, rfl, -⟩ := h
  rfl

end Lib.Versioned
