import Just1kBot.Lib.Transition

/-! Progress by a rank: a run in which enough steps of one kind are taken reaches its goal.

    A rank bounds how many such steps the system still needs. No step raises it, and a step of the
    kind either lowers it or reaches the goal, which no step leaves again. -/

namespace Lib

variable {σ ε : Type*} (step : σ → ε → σ)

/-- At how many steps of the run `P` holds between the state before and the event. -/
def countSteps (P : σ → ε → Prop) [∀ s e, Decidable (P s e)] : σ → List ε → ℕ
  | _, [] => 0
  | s, e :: es => (if P s e then 1 else 0) + countSteps P (step s e) es

/-- The progress rule. `A n` is what holds on the way, where at most `n` steps of the kind do not
    reach the goal. -/
theorem run_of_lt_countSteps {G P : σ → ε → Prop} [∀ s e, Decidable (P s e)] {A : ℕ → σ → Prop}
    {B : σ → Prop}
    (hstep : ∀ n s e, A n s → G s e →
      B (step s e) ∨ A n (step s e) ∧ ¬ P s e ∨ ∃ m < n, A m (step s e))
    (hgoal : ∀ s e, B s → G s e → B (step s e)) (es : List ε) (n : ℕ) (s : σ) (hs : A n s)
    (hG : Always step G s es) (hlt : n < countSteps step P s es) : B (run step s es) := by
  induction es generalizing n s with
  | nil => exact absurd hlt (Nat.not_lt_zero n)
  | cons e es ih =>
    obtain ⟨he, hrest⟩ := hG
    rw [countSteps] at hlt
    rcases hstep n s e hs he with hB | ⟨hA, hnot⟩ | ⟨m, hm, hA⟩
    · exact run_inv_of_always step hgoal es (step s e) hB hrest
    · refine ih n (step s e) hA hrest ?_
      rwa [if_neg hnot, Nat.zero_add] at hlt
    · refine ih m (step s e) hA hrest ?_
      split_ifs at hlt
      · omega
      · omega

end Lib
