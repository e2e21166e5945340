import Mathlib.Data.Nat.Notation
import Mathlib.Logic.Relation
import Mathlib.Logic.Function.Basic

/-! Chains: graphs in which every node has at most one next node.

    Such a graph is acyclic when no chain returns to its first node. Giving a node a new next node
    keeps it acyclic exactly when the chain from there does not lead back, whether the node had a
    next one before or not. -/

namespace Lib.Chain
open Relation (ReflTransGen TransGen)

variable {κ : Type*} {next : κ → Option κ} {a b c : κ}

/-- The node `n` links further on. -/
def follow (next : κ → Option κ) : ℕ → κ → Option κ
  | 0, a => some a
  | n + 1, a => (next a).bind (follow next n)

/-- The chain from `a` comes to `b`. -/
def Leads (next : κ → Option κ) (a b : κ) : Prop := ∃ n, follow next n a = some b

/-- No chain returns to its first node. -/
def Acyclic (next : κ → Option κ) : Prop := ∀ a n, follow next (n + 1) a ≠ some a

def Edge (next : κ → Option κ) (a b : κ) : Prop := next a = some b

theorem leads_refl (next : κ → Option κ) (a : κ) : Leads next a a := ⟨0, rfl⟩

theorem leads_of_edge (h : next a = some b) (hb : Leads next b c) : Leads next a c := by
  obtain ⟨n, hn⟩ := hb
  exact ⟨n + 1, by rw [follow, h, Option.bind_some, hn]⟩

/-- Where a chain leads is where it is, or where its next node leads. -/
theorem leads_iff_of_edge (h : next a = some b) : Leads next a c ↔ a = c ∨ Leads next b c := by
  constructor
  · rintro ⟨n, hn⟩
    cases n with
    | zero => exact .inl (Option.some.inj hn)
    | succ n => exact .inr ⟨n, by rwa [follow, h, Option.bind_some] at hn⟩
  · rintro (rfl | hb)
    · exact leads_refl next a
    · exact leads_of_edge h hb

/-- A chain that ends leads nowhere else. -/
theorem leads_iff_of_none (h : next a = none) : Leads next a c ↔ a = c := by
  constructor
  · rintro ⟨n, hn⟩
    cases n with
    | zero => exact Option.some.inj hn
    | succ n => rw [follow, h] at hn; cases hn
  · rintro rfl
    exact leads_refl next a

/-- Where nothing links on, there is no cycle. -/
theorem acyclic_of_none (h : ∀ a, next a = none) : Acyclic next := by
  intro a n hn
  rw [follow, h] at hn
  cases hn

theorem leads_iff_reflTransGen : Leads next a b ↔ ReflTransGen (Edge next) a b := by
  constructor
  · rintro ⟨n, hn⟩
    induction n generalizing a with
    | zero => rw [Option.some.inj hn]
    | succ n ih =>
      obtain ⟨x, hx, hrest⟩ := Option.bind_eq_some_iff.mp hn
      exact .head hx (ih hrest)
  · intro h
    induction h using ReflTransGen.head_induction_on with
    | refl => exact leads_refl next b
    | head hx _ ih => exact leads_of_edge hx ih

theorem acyclic_iff_transGen : Acyclic next ↔ ∀ a, ¬ TransGen (Edge next) a a := by
  have hcycle : ∀ a, (∃ n, follow next (n + 1) a = some a) ↔ TransGen (Edge next) a a := fun a => by
    rw [Relation.TransGen.head'_iff]
    constructor
    · rintro ⟨n, hn⟩
      obtain ⟨x, hx, hrest⟩ := Option.bind_eq_some_iff.mp hn
      exact ⟨x, hx, leads_iff_reflTransGen.mp ⟨n, hrest⟩⟩
    · rintro ⟨x, hx, hrest⟩
      obtain ⟨n, hn⟩ := leads_iff_reflTransGen.mpr hrest
      exact ⟨n, Option.bind_eq_some_iff.mpr ⟨x, hx, hn⟩⟩
  simp only [Acyclic, ← hcycle, not_exists, ne_eq]

/-! ### A new link -/

section Update
variable [DecidableEq κ] {u r : κ}

/-- A chain that leads to `u` does not need the link of `u`. -/
theorem reflTransGen_update (h : ReflTransGen (Edge next) r u) (x : Option κ) :
    ReflTransGen (Edge (Function.update next u x)) r u := by
  induction h using ReflTransGen.head_induction_on with
  | refl => exact .refl
  | @head a b hx _ ih =>
    by_cases ha : a = u
    · rw [ha]
    · exact .head (by rwa [Edge, Function.update_of_ne ha]) ih

/-- A chain in the new graph is one of the old, or comes to `u` and goes on from `r`. -/
theorem transGen_update (hno : ¬ ReflTransGen (Edge next) r u)
    (h : TransGen (Edge (Function.update next u (some r))) a b) :
    TransGen (Edge next) a b ∨
      ReflTransGen (Edge next) a u ∧ ReflTransGen (Edge next) r b := by
  have hedge : ∀ x y, Edge (Function.update next u (some r)) x y →
      x = u ∧ y = r ∨ Edge next x y := fun x y hxy => by
    by_cases hx : x = u
    · rw [Edge, hx, Function.update_self] at hxy
      exact .inl ⟨hx, (Option.some.inj hxy).symm⟩
    · rw [Edge, Function.update_of_ne hx] at hxy
      exact .inr hxy
  induction h with
  | single hab =>
    rcases hedge _ _ hab with ⟨rfl, rfl⟩ | hold
    · exact .inr ⟨.refl, .refl⟩
    · exact .inl (.single hold)
  | tail _ hbc ih =>
    rcases hedge _ _ hbc with ⟨rfl, rfl⟩ | hold
    · rcases ih with h | ⟨-, h⟩
      · exact .inr ⟨h.to_reflTransGen, .refl⟩
      · exact absurd h hno
    · rcases ih with h | ⟨hau, h⟩
      · exact .inl (h.tail hold)
      · exact .inr ⟨hau, h.tail hold⟩

/-- A new link closes a cycle exactly when the chain from its end leads back. -/
theorem acyclic_update_iff (h : Acyclic next) :
    Acyclic (Function.update next u (some r)) ↔ ¬ Leads next r u := by
  rw [acyclic_iff_transGen] at h ⊢
  rw [leads_iff_reflTransGen]
  constructor
  · intro hac hback
    refine hac u (Relation.TransGen.head'_iff.mpr ⟨r, ?_, reflTransGen_update hback _⟩)
    exact Function.update_self u (some r) next
  · intro hno a hcycle
    rcases transGen_update hno hcycle with hold | ⟨hau, hra⟩
    · exact h a hold
    · exact hno (hra.trans hau)

end Update

end Lib.Chain
