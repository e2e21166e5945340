import Mathlib.Data.Rat.Floor
import Mathlib.Tactic.Linarith

/-! What the modelled code takes from its language.

    Numbers as they reach a money check, the roundings, `str.strip`, and how the arguments of a
    call are bound to the parameters of a `def`: positional arguments fill the positional
    parameters in order, parameters after `*` take keywords only, and a call that leaves a
    positional argument over or a required parameter unbound is a `TypeError`. -/

namespace Lib.Python

/-- A value handed to a money parameter: something `Decimal(str(value))` reads as a finite number,
    a float, a NaN or an infinity, or something it does not read at all. -/
inductive Number
  | decimal (value : ℚ)
  | float (value : ℚ)
  | nonFinite
  | malformed
  deriving DecidableEq, Repr

/-- `quantize(Decimal("1"), rounding=ROUND_HALF_UP)`: halves go away from zero. -/
def roundHalfUp (q : ℚ) : ℤ := if 0 ≤ q then ⌊q + 1 / 2⌋ else -⌊-q + 1 / 2⌋

/-- `quantize(Decimal(1), rounding=ROUND_DOWN)`: the fraction is cut off. -/
def roundDown (q : ℚ) : ℤ := if 0 ≤ q then ⌊q⌋ else -⌊-q⌋

/-- `round`: a half goes to the even neighbour. -/
def roundHalfEven (q : ℚ) : ℤ :=
  if q - ⌊q⌋ < 1 / 2 then ⌊q⌋
  else if 1 / 2 < q - ⌊q⌋ then ⌊q⌋ + 1
  else ⌊q⌋ + ⌊q⌋ % 2

/-- Rounding goes to `k` or below exactly when the number is closer to it than to `k + 1`, or half
    way between them and `k` is even. -/
theorem roundHalfEven_le_iff {q : ℚ} {k : ℤ} :
    roundHalfEven q ≤ k ↔ q < k + 1 / 2 ∨ q = k + 1 / 2 ∧ k % 2 = 0 := by
  have hle : (⌊q⌋ : ℚ) ≤ q := Int.floor_le q
  have hlt : q < ⌊q⌋ + 1 := Int.lt_floor_add_one q
  have hcast : ∀ {a b : ℤ}, (a : ℚ) < b + 1 → a ≤ b := fun h => by
    exact Int.lt_add_one_iff.mp (by exact_mod_cast h)
  simp only [roundHalfEven]
  split_ifs with hdown hup
  · constructor
    · intro h
      have : (⌊q⌋ : ℚ) ≤ k := by exact_mod_cast h
      exact .inl (by linarith)
    · intro h
      refine hcast ?_
      rcases h with h | ⟨h, -⟩ <;> linarith
  · constructor
    · intro h
      have : (⌊q⌋ : ℚ) + 1 ≤ k := by exact_mod_cast h
      exact .inl (by linarith)
    · intro h
      have : (⌊q⌋ : ℚ) < k := by rcases h with h | ⟨h, -⟩ <;> linarith
      have : ⌊q⌋ < k := by exact_mod_cast this
      omega
  · -- half way: the even neighbour
    have hhalf : q = ⌊q⌋ + 1 / 2 := by linarith
    constructor
    · intro h
      rcases lt_or_ge ⌊q⌋ k with hk | hk
      · have : (⌊q⌋ : ℚ) < k := by exact_mod_cast hk
        exact .inl (by linarith)
      · have hk : ⌊q⌋ = k := by omega
        exact .inr ⟨by rw [← hk]; exact hhalf, by omega⟩
    · rintro (h | ⟨h, hk⟩)
      · have : (⌊q⌋ : ℚ) < k := by linarith
        have : ⌊q⌋ < k := by exact_mod_cast this
        omega
      · have : (⌊q⌋ : ℚ) = k := by linarith
        have : ⌊q⌋ = k := by exact_mod_cast this
        omega

theorem roundHalfEven_mono {q q' : ℚ} (h : q ≤ q') : roundHalfEven q ≤ roundHalfEven q' := by
  rw [roundHalfEven_le_iff]
  rcases roundHalfEven_le_iff.mp (le_refl (roundHalfEven q')) with hlt | ⟨heq, heven⟩
  · exact .inl (h.trans_lt hlt)
  · rcases h.lt_or_eq with hlt | rfl
    · exact .inl (hlt.trans_eq heq)
    · exact .inr ⟨heq, heven⟩

/-- Rounding moves a number by half at most. -/
theorem abs_roundHalfEven_sub_le (q : ℚ) : |(roundHalfEven q : ℚ) - q| ≤ 1 / 2 := by
  have hle : (⌊q⌋ : ℚ) ≤ q := Int.floor_le q
  have hlt : q < ⌊q⌋ + 1 := Int.lt_floor_add_one q
  rw [abs_le, roundHalfEven]
  split_ifs with hdown hup
  · constructor <;> linarith
  · push_cast
    constructor <;> linarith
  · have hhalf : q - ⌊q⌋ = 1 / 2 := by linarith
    have hparity : (⌊q⌋ % 2 : ℤ) = 0 ∨ (⌊q⌋ % 2 : ℤ) = 1 := by omega
    push_cast
    rcases hparity with h | h <;> rw [h] <;> push_cast <;> constructor <;> linarith

/-- The characters `str.isspace` accepts. -/
def isSpace (c : Char) : Bool :=
  c.toNat ∈ [0x9, 0xa, 0xb, 0xc, 0xd, 0x1c, 0x1d, 0x1e, 0x1f, 0x20, 0x85, 0xa0, 0x1680, 0x2000,
    0x2001, 0x2002, 0x2003, 0x2004, 0x2005, 0x2006, 0x2007, 0x2008, 0x2009, 0x200a, 0x2028, 0x2029,
    0x202f, 0x205f, 0x3000]

/-- `str.strip()`. -/
def strip (s : String) : String :=
  String.ofList ((s.toList.dropWhile isSpace).reverse.dropWhile isSpace).reverse

/-- `str.strip()`, on the characters. -/
def stripChars (s : List Char) : List Char :=
  ((s.dropWhile isSpace).reverse.dropWhile isSpace).reverse

/-- `str.strip(chars)`, on the characters. -/
def stripOf (p : Char → Bool) (s : List Char) : List Char :=
  ((s.dropWhile p).reverse.dropWhile p).reverse

theorem dropWhile_of_forall {p : Char → Bool} {s : List Char} (h : ∀ c ∈ s, p c = false) :
    s.dropWhile p = s := by
  cases s with
  | nil => rfl
  | cons c s => exact List.dropWhile_cons_of_neg (by simp [h c List.mem_cons_self])

/-- A text that has none of the characters stays as it is. -/
theorem stripOf_of_forall {p : Char → Bool} {s : List Char} (h : ∀ c ∈ s, p c = false) :
    stripOf p s = s := by
  have hreverse : ∀ c ∈ s.reverse, p c = false := fun c hc => h c (List.mem_reverse.mp hc)
  rw [stripOf, dropWhile_of_forall h, dropWhile_of_forall hreverse, List.reverse_reverse]

/-- The parameters of a `def`: the positional ones, then those after `*`, each with whether a call
    must supply it. -/
structure Signature where
  positional : List (String × Bool)
  keywordOnly : List (String × Bool)
  deriving Repr

/-- The arguments of a call: how many positional ones, and the keywords. -/
structure Args where
  positional : ℕ
  keywords : List String
  deriving Repr

/-- The parameters the call binds: the first positional ones, and those named by a keyword. -/
def Signature.bound (f : Signature) (a : Args) : List String :=
  (f.positional.take a.positional).map Prod.fst ++ a.keywords

/-- Whether a call of `f` with these arguments binds, or raises a `TypeError` at the call. -/
def Signature.Binds (f : Signature) (a : Args) : Prop :=
  a.positional ≤ f.positional.length ∧
  (f.bound a).Nodup ∧
  (∀ k ∈ a.keywords, k ∈ (f.positional ++ f.keywordOnly).map Prod.fst) ∧
  (∀ p ∈ f.positional ++ f.keywordOnly, p.2 = true → p.1 ∈ f.bound a)

instance (f : Signature) (a : Args) : Decidable (f.Binds a) := by
  unfold Signature.Binds; infer_instance

/-- More positional arguments than positional parameters do not bind. -/
theorem not_binds_of_positional {f : Signature} {a : Args}
    (h : f.positional.length < a.positional) : ¬ f.Binds a := fun hb => absurd hb.1 (by omega)

end Lib.Python
