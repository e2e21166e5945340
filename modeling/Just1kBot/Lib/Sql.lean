import Mathlib.Data.List.Basic
import Mathlib.Data.Option.Basic

/-! Conditions of SQL.

    A condition is true, false or unknown, and `none` stands for the last. Comparing with `NULL` is
    unknown, the connectives are those of the three-valued logic, and `WHERE` keeps the rows whose
    condition is true. `Holds` and `Fails` take a condition apart: each connective is read off by
    one lemma, without a table of nine cases. -/

namespace Lib.Sql

abbrev Cond := Option Bool

/-- The condition is true: `WHERE` keeps the row. -/
def Holds (c : Cond) : Prop := c = some true

/-- The condition is false, and not merely unknown. -/
def Fails (c : Cond) : Prop := c = some false

instance : DecidablePred Holds := fun c => by unfold Holds; infer_instance

instance : DecidablePred Fails := fun c => by unfold Fails; infer_instance

/-- A condition that is never unknown. -/
def ofProp (p : Prop) [Decidable p] : Cond := some (decide p)

def not : Cond → Cond := Option.map (!·)

def and : Cond → Cond → Cond
  | some false, _ | _, some false => some false
  | some true, some true => some true
  | _, _ => none

def or : Cond → Cond → Cond
  | some true, _ | _, some true => some true
  | some false, some false => some false
  | _, _ => none

/-- A comparison of two values that may be `NULL`. -/
def compare {α : Type*} (r : α → α → Prop) [DecidableRel r] : Option α → Option α → Cond
  | some a, some b => ofProp (r a b)
  | _, _ => none

def isNull {α : Type*} (x : Option α) : Cond := some x.isNone

@[simp] theorem holds_ofProp {p : Prop} [Decidable p] : Holds (ofProp p) ↔ p := by
  simp [Holds, ofProp]

@[simp] theorem fails_ofProp {p : Prop} [Decidable p] : Fails (ofProp p) ↔ ¬ p := by
  simp [Fails, ofProp]

@[simp] theorem holds_not {c : Cond} : Holds (not c) ↔ Fails c := by
  rcases c with _ | _ | _ <;> simp [Holds, Fails, not]

@[simp] theorem fails_not {c : Cond} : Fails (not c) ↔ Holds c := by
  rcases c with _ | _ | _ <;> simp [Holds, Fails, not]

@[simp] theorem holds_and {c d : Cond} : Holds (and c d) ↔ Holds c ∧ Holds d := by
  rcases c with _ | _ | _ <;> rcases d with _ | _ | _ <;> simp [Holds, and]

@[simp] theorem fails_and {c d : Cond} : Fails (and c d) ↔ Fails c ∨ Fails d := by
  rcases c with _ | _ | _ <;> rcases d with _ | _ | _ <;> simp [Fails, and]

@[simp] theorem holds_or {c d : Cond} : Holds (or c d) ↔ Holds c ∨ Holds d := by
  rcases c with _ | _ | _ <;> rcases d with _ | _ | _ <;> simp [Holds, or]

@[simp] theorem fails_or {c d : Cond} : Fails (or c d) ↔ Fails c ∧ Fails d := by
  rcases c with _ | _ | _ <;> rcases d with _ | _ | _ <;> simp [Fails, or]

section Comparisons
variable {α : Type*} {r : α → α → Prop} [DecidableRel r]

@[simp] theorem holds_compare {x y : Option α} :
    Holds (compare r x y) ↔ ∃ a ∈ x, ∃ b ∈ y, r a b := by
  rcases x with _ | a <;> rcases y with _ | b <;> simp [Holds, compare, ofProp]

@[simp] theorem fails_compare {x y : Option α} :
    Fails (compare r x y) ↔ ∃ a ∈ x, ∃ b ∈ y, ¬ r a b := by
  rcases x with _ | a <;> rcases y with _ | b <;> simp [Fails, compare, ofProp]

@[simp] theorem holds_isNull {x : Option α} : Holds (isNull x) ↔ x = none := by
  simp [Holds, isNull]

@[simp] theorem fails_isNull {x : Option α} : Fails (isNull x) ↔ x ≠ none := by
  simp [Fails, isNull, Option.isSome_iff_ne_none]

end Comparisons

/-- A condition is not true and false at once. -/
theorem not_holds_of_fails {c : Cond} (h : Fails c) : ¬ Holds c := by
  rw [Holds, h]
  simp

/-! ### Texts -/

/-- The pattern at the start of the text: an underscore stands for any one character. -/
def likeHere : List Char → List Char → Bool
  | [], _ => true
  | _ :: _, [] => false
  | p :: ps, c :: cs => (p == '_' || p == c) && likeHere ps cs

/-- `text LIKE '%pattern%'`, for a pattern without `%` and without escapes. -/
def likeInside (pattern : List Char) (text : List Char) : Bool :=
  text.tails.any (likeHere pattern)

/-- A character of a JSON string, as `jsonb` writes it. -/
def jsonChar (c : Char) : List Char :=
  if c = '"' then ['\\', '"']
  else if c = '\\' then ['\\', '\\']
  else if c = '\n' then ['\\', 'n']
  else if c = '\r' then ['\\', 'r']
  else if c = '\t' then ['\\', 't']
  else if c.toNat = 8 then ['\\', 'b']
  else if c.toNat = 12 then ['\\', 'f']
  else if c.toNat < 32 then
    ['\\', 'u', '0', '0'] ++ [Nat.digitChar (c.toNat / 16), Nat.digitChar (c.toNat % 16)]
  else [c]

def jsonString (s : String) : List Char := '"' :: s.toList.flatMap jsonChar ++ ['"']

/-- The text of a `jsonb` array of strings. -/
def jsonArray (xs : List String) : List Char :=
  ['['] ++ ((xs.map jsonString).intersperse [',', ' ']).flatten ++ [']']

end Lib.Sql
