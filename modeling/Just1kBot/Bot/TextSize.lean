import Just1kBot.Bot.TextSplit
import Mathlib.Tactic.SplitIfs

/-! How long the parts of a message are.

    A cut makes progress where it takes more of the line than the opening tag that is written again.
    Then the cutting of a line ends, and no part is longer than the limit. -/

namespace Just1kBot

variable {limit : ℕ} {b : Bool} {tag rem text : List Char} {parts : List (List Char)}

/-! ### One cut -/

/-- The limit leaves room for the tag, its closing tag and one more character. -/
def RoomFor (limit : ℕ) (tag : List Char) : Prop := tag.length + closeTag.length + 1 ≤ limit

theorem length_neededClose_le (b : Bool) (text : List Char) :
    (neededClose b text).length ≤ if b then closeTag.length else 0 := by
  rw [neededClose]
  split_ifs with h hb hb
  · exact le_rfl
  · exact absurd h.1 hb
  · exact Nat.zero_le _
  · exact le_rfl

theorem length_reopen_le (b : Bool) (tag text : List Char) :
    (reopen b tag text).length ≤ (if b then tag.length else 0) + text.length := by
  rw [reopen]
  split_ifs with h hb hb
  · rw [List.length_append]
  · exact absurd h.1 hb
  · exact Nat.le_add_left _ _
  · exact Nat.le_add_left _ _

/-- A cut takes a whole part, less its closing tag. -/
theorem maxContentLen_eq (hlimit : 1 ≤ limit) (hroom : b = true → RoomFor limit tag) :
    maxContentLen limit b tag rem = limit - if b then closeTag.length else 0 := by
  have hprefix : (if b ∧ openWord <+: rem then tag.length else 0) +
      (if b then closeTag.length else 0) < limit := by
    cases b with
    | false =>
      simp only [Bool.false_eq_true, false_and, if_false]
      omega
    | true =>
      have hroom := hroom rfl
      rw [RoomFor] at hroom
      simp only [true_and, if_true]
      split_ifs <;> omega
  simp only [maxContentLen]
  rw [if_neg (by omega)]

/-- A part that is cut off fits. -/
theorem length_cut_le (hroom : b = true → RoomFor limit tag) :
    (rem.take (limit - if b then closeTag.length else 0) ++
      neededClose b (rem.take (limit - if b then closeTag.length else 0))).length ≤ limit := by
  have htake := List.length_take_le (limit - if b then closeTag.length else 0) rem
  have hclose := length_neededClose_le b (rem.take (limit - if b then closeTag.length else 0))
  rw [List.length_append]
  cases b with
  | false =>
    simp only [Bool.false_eq_true, if_false] at htake hclose ⊢
    omega
  | true =>
    have hroom := hroom rfl
    rw [RoomFor] at hroom
    simp only [if_true] at htake hclose ⊢
    omega

/-- A cut leaves a shorter line. -/
theorem length_rest_lt (hlimit : 1 ≤ limit) (hroom : b = true → RoomFor limit tag)
    (hover : Overflows limit b rem) :
    (reopen b tag (rem.drop (limit - if b then closeTag.length else 0))).length < rem.length := by
  have hclose := length_neededClose_le b rem
  have hreopen := length_reopen_le b tag (rem.drop (limit - if b then closeTag.length else 0))
  rw [Overflows] at hover
  rw [List.length_drop] at hreopen
  cases b with
  | false =>
    simp only [Bool.false_eq_true, if_false] at hclose hreopen ⊢
    omega
  | true =>
    have hroom := hroom rfl
    rw [RoomFor] at hroom
    simp only [if_true] at hclose hreopen ⊢
    omega

/-- The cutting of a line ends, and its parts fit. -/
theorem cutLine_total (hlimit : 1 ≤ limit) (hroom : b = true → RoomFor limit tag)
    (hparts : ∀ part ∈ parts, part.length ≤ limit) :
    ∃ fuel₀ parts' rem',
      (∀ fuel ≥ fuel₀, cutLine limit b tag fuel rem parts = some (parts', rem')) ∧
      (∀ part ∈ parts', part.length ≤ limit) ∧ rem'.length ≤ limit := by
  induction hn : rem.length using Nat.strong_induction_on generalizing rem parts with
  | h n ih =>
    by_cases hover : Overflows limit b rem
    · have hnext : ∀ part ∈ parts ++ [rem.take (limit - if b then closeTag.length else 0) ++
          neededClose b (rem.take (limit - if b then closeTag.length else 0))],
          part.length ≤ limit :=
        List.forall_mem_append.mpr ⟨hparts, List.forall_mem_singleton.mpr (length_cut_le hroom)⟩
      obtain ⟨fuel₀, parts', rem', hcut, hsize⟩ :=
        ih _ (hn ▸ length_rest_lt hlimit hroom hover) hnext rfl
      refine ⟨fuel₀ + 1, parts', rem', fun fuel hfuel => ?_, hsize⟩
      obtain ⟨k, rfl⟩ : ∃ k, fuel = k + 1 := ⟨fuel - 1, by omega⟩
      simp only [cutLine]
      rw [if_pos hover, maxContentLen_eq hlimit hroom]
      exact hcut k (by omega)
    · refine ⟨1, parts, rem, fun fuel hfuel => ?_, hparts, ?_⟩
      · obtain ⟨k, rfl⟩ : ∃ k, fuel = k + 1 := ⟨fuel - 1, by omega⟩
        rw [cutLine, if_neg hover]
      · rw [Overflows] at hover
        omega

/-- What every cut keeps is kept until the line fits. -/
theorem cutLine_induct {I : List (List Char) → List Char → Prop} {fuel : ℕ}
    {parts' : List (List Char)} {rem' : List Char}
    (hcut : ∀ parts rem, Overflows limit b rem → I parts rem →
      I (parts ++ [rem.take (maxContentLen limit b tag rem) ++
          neededClose b (rem.take (maxContentLen limit b tag rem))])
        (reopen b tag (rem.drop (maxContentLen limit b tag rem))))
    (h : cutLine limit b tag fuel rem parts = some (parts', rem')) (hI : I parts rem) :
    I parts' rem' ∧ ¬ Overflows limit b rem' := by
  induction fuel generalizing rem parts with
  | zero => exact absurd h (by simp [cutLine])
  | succ fuel ih =>
    simp only [cutLine] at h
    split_ifs at h with hover
    · exact ih h (hcut parts rem hover hI)
    · simp only [Option.some.injEq, Prod.mk.injEq] at h
      obtain ⟨rfl, rfl⟩ := h
      exact ⟨hI, hover⟩

/-! ### A line -/

namespace SplitState

variable {s s' : SplitState} {line : List Char} {fuel : ℕ}

/-- A line that starts a part is in a blockquote where the text is or the line opens one. -/
theorem newPart_inBlockquote :
    (s.newPart limit line).inBlockquote = (s.inBlockquote || openWord <:+: line) := by
  simp only [newPart]
  cases hs : s.inBlockquote with
  | true => simp
  | false => simp

theorem newPart_bqOpenTag :
    (s.newPart limit line).bqOpenTag =
      if openWord <:+: (s.newPart limit line).line then
        (findOpenTag (s.newPart limit line).line).getD s.bqOpenTag
      else s.bqOpenTag := rfl

theorem newPart_enabled :
    (s.newPart limit line).enabled = tagEnabled limit
      ((s.newPart limit line).inBlockquote && !decide (closeTag <:+ (s.newPart limit line).line))
      (s.newPart limit line).bqOpenTag := rfl

/-- What holds for the parts and for the one that is put out holds for all. -/
theorem forall_mem_flush {P : List Char → Prop} {e : Bool} (hparts : ∀ part ∈ s.parts, P part)
    (hlast : s.current ≠ [] → P (closePart limit (e && s.inBlockquote) s.current)) :
    ∀ part ∈ s.flush limit e, P part := by
  rw [flush]
  split_ifs with hcurrent
  · exact hparts
  · exact List.forall_mem_append.mpr ⟨hparts, List.forall_mem_singleton.mpr (hlast hcurrent)⟩

/-- What a line does: it is added to the part, or it starts the next one, whole or cut. -/
theorem step_cases (h : s.step fuel limit line = some s') :
    s.Fits limit line ∧ s' = s.extend line ∨
    ¬ s.Fits limit line ∧ ∃ parts current,
      (¬ Overflows limit (s.newPart limit line).wrapped (s.newPart limit line).line ∧
          parts = s.flush limit (s.enabled limit line) ∧ current = (s.newPart limit line).line ∨
        Overflows limit (s.newPart limit line).wrapped (s.newPart limit line).line ∧
          cutLine limit (s.newPart limit line).wrapped (s.newPart limit line).bqOpenTag fuel
            (s.newPart limit line).line (s.flush limit (s.enabled limit line)) =
              some (parts, current)) ∧
      s' = (s.newPart limit line).keep parts current := by
  simp only [step] at h
  split_ifs at h with hfits hover
  · exact .inl ⟨hfits, (Option.some.inj h).symm⟩
  · obtain ⟨⟨parts, current⟩, hcut, rfl⟩ := Option.map_eq_some_iff.mp h
    exact .inr ⟨hfits, parts, current, .inr ⟨hover, hcut⟩, rfl⟩
  · exact .inr ⟨hfits, _, _, .inl ⟨hover, rfl, rfl⟩, (Option.some.inj h).symm⟩

/-- Everything so far fits. -/
structure Sized (limit : ℕ) (s : SplitState) : Prop where
  parts : ∀ part ∈ s.parts, part.length ≤ limit
  current : s.current.length ≤ limit

/-- A part that is closed leaves room for the closing tag, and a line that is cut inside a
    blockquote leaves room for its opening tag too. -/
def SplitsWithRoom (limit : ℕ) (s : SplitState) (line : List Char) : Prop :=
  ¬ s.Fits limit line →
    (s.current ≠ [] → (s.enabled limit line && s.inBlockquote) = true → ¬ closeTag <:+ s.current →
      closeTag.length ≤ limit) ∧
    ((s.newPart limit line).wrapped = true →
      Overflows limit (s.newPart limit line).wrapped (s.newPart limit line).line →
      RoomFor limit (s.newPart limit line).bqOpenTag)

theorem length_closePart_le {current : List Char} (hcurrent : current.length ≤ limit)
    (hclose : b = true → ¬ closeTag <:+ current → closeTag.length ≤ limit) :
    (closePart limit b current).length ≤ limit := by
  rw [closePart]
  split_ifs with hb hfits
  · rw [List.length_append]
    exact hfits
  · have hclose := hclose hb.1 hb.2
    have hslice := List.length_take_le ((limit : ℤ) - closeTag.length).toNat current
    rw [sliceTo, if_pos (by omega), List.length_append]
    omega
  · exact hcurrent

/-- The last part fits when it is put out. -/
theorem Sized.flush {e : Bool} (hs : s.Sized limit)
    (hclose : s.current ≠ [] → (e && s.inBlockquote) = true → ¬ closeTag <:+ s.current →
      closeTag.length ≤ limit) :
    ∀ part ∈ s.flush limit e, part.length ≤ limit :=
  forall_mem_flush hs.parts fun hcurrent => length_closePart_le hs.current (hclose hcurrent)

/-- At the end of the text a part is closed only where its tags fit. -/
theorem Sized.finish (hs : s.Sized limit) : ∀ part ∈ s.finish limit, part.length ≤ limit := by
  refine hs.flush fun _ he _ => ?_
  rw [Bool.and_eq_true, tagEnabled, decide_eq_true_eq] at he
  rw [he.2, if_pos rfl] at he
  omega

/-- A line is taken in, and everything still fits. -/
theorem step_total (hlimit : 1 ≤ limit) (hs : s.Sized limit) (hroom : s.SplitsWithRoom limit line) :
    ∃ fuel₀ s', (∀ fuel ≥ fuel₀, s.step fuel limit line = some s') ∧ s'.Sized limit := by
  by_cases hfits : s.Fits limit line
  · refine ⟨0, s.extend line, fun fuel _ => by rw [step, if_pos hfits], hs.parts, ?_⟩
    rw [Fits] at hfits
    exact (Nat.le_add_right _ _).trans hfits
  · obtain ⟨hclose, hcuts⟩ := hroom hfits
    have hparts := hs.flush hclose
    by_cases hover : Overflows limit (s.newPart limit line).wrapped (s.newPart limit line).line
    · obtain ⟨fuel₀, parts, rem, hcut, hsize, hrem⟩ :=
        cutLine_total hlimit (fun hwrapped => hcuts hwrapped hover) hparts
      refine ⟨fuel₀, (s.newPart limit line).keep parts rem, fun fuel hfuel => ?_, hsize, hrem⟩
      simp only [step]
      rw [if_neg hfits, if_pos hover, hcut fuel hfuel, Option.map_some]
    · refine ⟨0, (s.newPart limit line).keep (s.flush limit (s.enabled limit line))
        (s.newPart limit line).line, fun fuel _ => ?_, hparts, ?_⟩
      · simp only [step]
        rw [if_neg hfits, if_neg hover, Option.map_some]
      · rw [Overflows] at hover
        show (s.newPart limit line).line.length ≤ limit
        omega

/-- A condition on every line, on the lines before it and on the state it comes to. -/
def AtEachLine (limit : ℕ) (P : List (List Char) → SplitState → List Char → Prop) :
    List (List Char) → SplitState → List (List Char) → Prop
  | _, _, [] => True
  | before, s, line :: lines =>
    P before s line ∧
      ∀ fuel s', s.step fuel limit line = some s' → AtEachLine limit P (before ++ [line]) s' lines

/-- All lines are taken in. -/
theorem run_total {before lines : List (List Char)} (hlimit : 1 ≤ limit) (hs : s.Sized limit)
    (hroom : AtEachLine limit (fun _ => SplitsWithRoom limit) before s lines) :
    ∃ fuel₀ s', (∀ fuel ≥ fuel₀, lines.foldlM (step fuel limit) s = some s') ∧ s'.Sized limit := by
  induction lines generalizing before s with
  | nil => exact ⟨0, s, fun _ _ => rfl, hs⟩
  | cons line lines ih =>
    obtain ⟨fuel₁, s₁, hstep, hs₁⟩ := step_total hlimit hs hroom.1
    obtain ⟨fuel₂, s₂, hrun, hs₂⟩ := ih hs₁ (hroom.2 fuel₁ s₁ (hstep fuel₁ le_rfl))
    refine ⟨max fuel₁ fuel₂, s₂, fun fuel hfuel => ?_, hs₂⟩
    rw [List.foldlM_cons, hstep fuel (le_trans (le_max_left _ _) hfuel)]
    exact hrun fuel (le_trans (le_max_right _ _) hfuel)

/-- A run keeps what each of its lines keeps. -/
theorem run_induct {P : List (List Char) → SplitState → List Char → Prop}
    {I : List (List Char) → SplitState → Prop} {before lines : List (List Char)}
    (hstep : ∀ before s line s', line ∈ lines → P before s line → I before s →
      s.step fuel limit line = some s' → I (before ++ [line]) s')
    (hP : AtEachLine limit P before s lines) (hI : I before s)
    (hrun : lines.foldlM (step fuel limit) s = some s') : I (before ++ lines) s' := by
  induction lines generalizing before s with
  | nil =>
    rw [List.foldlM_nil, Option.pure_def, Option.some.injEq] at hrun
    rwa [List.append_nil, ← hrun]
  | cons line lines ih =>
    rw [List.foldlM_cons] at hrun
    obtain ⟨s₁, hs₁, hrun⟩ := Option.bind_eq_some_iff.mp hrun
    rw [List.append_cons]
    exact ih (fun before s line s' hline => hstep before s line s' (List.mem_cons_of_mem _ hline))
      (hP.2 fuel s₁ hs₁) (hstep before s line s₁ List.mem_cons_self hP.1 hI hs₁) hrun

end SplitState

end Just1kBot
