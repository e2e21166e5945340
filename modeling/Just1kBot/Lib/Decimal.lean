import Mathlib.Data.Int.Notation
import Mathlib.Data.List.Basic

/-! Decimal texts of integers, and texts that are joined by a separator.

    Different integers have different texts, and a separator that is neither a digit nor a sign does
    not occur in them, so joined texts can be told apart field by field. -/

namespace Lib.Decimal

theorem not_mem_nat {c : Char} (hc : c.isDigit = false) (n : ℕ) : c ∉ (toString n).toList := by
  rw [Nat.toString_eq_repr, Nat.toList_repr]
  intro hmem
  have hdigit : c.isDigit = true := Nat.isDigit_of_mem_toDigits (by decide) (by decide) hmem
  rw [hc] at hdigit
  cases hdigit

theorem nat_inj {m n : ℕ} (h : (toString m).toList = (toString n).toList) : m = n := by
  rw [Nat.toString_eq_repr, Nat.toString_eq_repr, Nat.toList_repr, Nat.toList_repr] at h
  rw [← Nat.ofDigitChars_ten_toDigits (n := m), h, Nat.ofDigitChars_ten_toDigits]

theorem toList_negSucc (n : ℕ) :
    (toString (Int.negSucc n)).toList = '-' :: (toString (n + 1)).toList := by
  change ("-" ++ Nat.repr (n + 1)).toList = _
  rw [String.toList_append]
  rfl

theorem not_mem_int {c : Char} (hc : c.isDigit = false) (hsign : c ≠ '-') (n : ℤ) :
    c ∉ (toString n).toList := by
  cases n with
  | ofNat n => exact not_mem_nat hc n
  | negSucc n =>
    rw [toList_negSucc]
    exact List.not_mem_cons_of_ne_of_not_mem hsign (not_mem_nat hc (n + 1))

theorem int_inj {m n : ℤ} (h : (toString m).toList = (toString n).toList) : m = n := by
  -- a sign is no digit
  have hsign (a b : ℕ) : (toString (Int.ofNat a)).toList ≠ (toString (Int.negSucc b)).toList := by
    intro heq
    have hmem : '-' ∈ (toString (Int.ofNat a)).toList := by
      rw [heq, toList_negSucc]
      exact List.mem_cons_self
    exact not_mem_nat (by decide) a hmem
  cases m with
  | ofNat a =>
    cases n with
    | ofNat b => rw [nat_inj h]
    | negSucc b => exact absurd h (hsign a b)
  | negSucc a =>
    cases n with
    | ofNat b => exact absurd h.symm (hsign b a)
    | negSucc b =>
      rw [toList_negSucc, toList_negSucc] at h
      have heq := nat_inj (List.cons.inj h).2
      rw [Nat.succ.inj heq]

/-- A field ends at the first separator. -/
theorem field_inj {c : Char} {a b r r' : List Char} (ha : c ∉ a) (hb : c ∉ b)
    (h : a ++ c :: r = b ++ c :: r') : a = b ∧ r = r' := by
  induction a generalizing b with
  | nil =>
    cases b with
    | nil => exact ⟨rfl, (List.cons.inj h).2⟩
    | cons x b => exact absurd ((List.cons.inj h).1 ▸ List.mem_cons_self) hb
  | cons x a ih =>
    cases b with
    | nil => exact absurd ((List.cons.inj h).1 ▸ List.mem_cons_self) ha
    | cons y b =>
      obtain ⟨rfl, hrest⟩ := List.cons.inj h
      obtain ⟨rfl, hr⟩ := ih (List.not_mem_of_not_mem_cons ha) (List.not_mem_of_not_mem_cons hb)
        hrest
      exact ⟨rfl, hr⟩

end Lib.Decimal
