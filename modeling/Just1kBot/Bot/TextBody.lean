import Just1kBot.Bot.Blockquote
import Just1kBot.Bot.TextSize

/-! Nothing of a message is lost.

    A text without blockquote tags is put out as it is, cut at line breaks and inside lines. The
    word of an opening tag without its end is taken for one where the limit allows for tags. -/

namespace Just1kBot

open SplitState

variable {limit fuel : ℕ} {s s' : SplitState} {line tag rem text : List Char}
  {parts parts' lines : List (List Char)}

/-- A text without its line breaks. -/
def body (text : List Char) : List Char := text.filter (· ≠ '\n')

theorem body_append (text text' : List Char) : body (text ++ text') = body text ++ body text' :=
  List.filter_append text text'

theorem body_intercalate (lines : List (List Char)) :
    body (['\n'].intercalate lines) = body lines.flatten := by
  induction lines with
  | nil => rfl
  | cons line lines ih =>
    cases lines with
    | nil => simp
    | cons next lines =>
      rw [show ['\n'].intercalate (line :: next :: lines) =
        line ++ ('\n' :: ['\n'].intercalate (next :: lines)) by simp [List.intercalate],
        body_append, List.flatten_cons, body_append, ← ih]
      rfl

theorem body_splitOn (text : List Char) : body (text.splitOn '\n').flatten = body text := by
  rw [← body_intercalate, List.intercalate_splitOn]

/-- Outside a blockquote a line is cut into its pieces. -/
theorem cutLine_flatten {rem' : List Char}
    (h : cutLine limit false tag fuel rem parts = some (parts', rem')) :
    parts'.flatten ++ rem' = parts.flatten ++ rem := by
  refine (cutLine_induct (I := fun parts' rem' =>
    parts'.flatten ++ rem' = parts.flatten ++ rem) ?_ h rfl).1
  intro parts' rem' _ hkeep
  rw [← hkeep]
  simp [reopen, neededClose]

/-- The text has no blockquote tags. -/
def HasNoTags (text : List Char) : Prop :=
  findTag openWord text = none ∧ findTag closeWord text = none

theorem HasNoTags.not_closeTag (h : HasNoTags text) : ¬ closeTag <:+: text :=
  fun hclose => findTag_ne_none (w := closeWord) (e := ['>']) (.inl rfl) hclose h.2

theorem HasNoTags.stripTags_eq (h : HasNoTags text) : stripTags text = text := by
  rw [stripTags]
  induction text with
  | nil => rfl
  | cons c text ih =>
    simp only [HasNoTags, findTag, Option.or_eq_none_iff] at h
    simp only [stripTagsFrom, h.1.1, h.2.1, Option.or_none]
    rw [ih ⟨h.1.2, h.2.2⟩]

/-- The least limit for which tags are kept up. -/
def minTagLimit : ℕ := defaultOpenTag.length + closeTag.length + 1

theorem tagEnabled_eq_false (hlimit : limit < minTagLimit)
    (htag : defaultOpenTag.length ≤ tag.length) : tagEnabled limit true tag = false := by
  rw [minTagLimit] at hlimit
  rw [tagEnabled, decide_eq_false_iff_not, if_pos rfl]
  omega

namespace SplitState

/-- No tag is written into the parts: a blockquote is begun only where the limit does not allow for
    tags. -/
structure Untagged (limit : ℕ) (s : SplitState) : Prop where
  inBlockquote : s.inBlockquote = true → limit < minTagLimit
  bqOpenTag : defaultOpenTag.length ≤ s.bqOpenTag.length

theorem length_findOpenTag_getD (htag : defaultOpenTag.length ≤ tag.length) :
    defaultOpenTag.length ≤ ((findOpenTag line).getD tag).length := by
  cases h : findOpenTag line with
  | none => exact htag
  | some found =>
    obtain ⟨e, he, rfl, -⟩ := findTag_eq_some h
    have hend := he.length_pos
    have hword : openWord.length + 1 = defaultOpenTag.length := rfl
    rw [Option.getD_some, List.length_append]
    omega

theorem Untagged.enabled (hs : s.Untagged limit) (hclose : ¬ closeTag <:+: line) :
    (s.enabled limit line && s.inBlockquote) = false := by
  cases hflag : s.inBlockquote with
  | false => rw [Bool.and_false]
  | true =>
    rw [Bool.and_true, SplitState.enabled, willBeInBq, hflag, decide_eq_false hclose]
    exact tagEnabled_eq_false (hs.inBlockquote hflag) (length_findOpenTag_getD le_rfl)

theorem Untagged.newPart_line (hs : s.Untagged limit) (hclose : ¬ closeTag <:+: line) :
    (s.newPart limit line).line = line := by
  have henabled := hs.enabled hclose
  rw [Bool.and_eq_false_iff] at henabled
  simp only [newPart]
  rw [if_neg]
  rintro ⟨he, hflag, -⟩
  rcases henabled with h | h
  · exact absurd he (by simp [h])
  · exact absurd hflag (by simp [h])

theorem Untagged.newPart (hs : s.Untagged limit)
    (hopen : openWord <:+: line → limit < minTagLimit) (hclose : ¬ closeTag <:+: line) :
    (s.newPart limit line).wrapped = false ∧
      defaultOpenTag.length ≤ (s.newPart limit line).bqOpenTag.length := by
  have hline := hs.newPart_line hclose
  have htag : defaultOpenTag.length ≤ (s.newPart limit line).bqOpenTag.length := by
    rw [newPart_bqOpenTag]
    split_ifs
    · exact length_findOpenTag_getD hs.bqOpenTag
    · exact hs.bqOpenTag
  refine ⟨?_, htag⟩
  rw [NewPart.wrapped, newPart_enabled, hline, decide_eq_false (fun h => hclose h.isInfix),
    Bool.not_false, Bool.and_true]
  cases hin : (s.newPart limit line).inBlockquote with
  | false => rw [Bool.and_false]
  | true =>
    rw [newPart_inBlockquote, Bool.or_eq_true, decide_eq_true_eq] at hin
    rw [Bool.and_true, tagEnabled_eq_false (hin.elim hs.inBlockquote hopen) htag]

theorem flush_flatten {e : Bool} (h : (e && s.inBlockquote) = false) :
    (s.flush limit e).flatten = s.parts.flatten ++ s.current := by
  rw [flush, h]
  split_ifs with hcurrent
  · simp [hcurrent]
  · simp [closePart]

theorem body_testCandidate (s : SplitState) (line : List Char) :
    body (s.testCandidate line) = body s.current ++ body line := by
  rw [testCandidate]
  split_ifs with hcurrent
  · rw [hcurrent]
    rfl
  · rw [body_append]
    rfl

/-- A line is added to what is there. -/
theorem Untagged.step (hs : s.Untagged limit) (hopen : openWord <:+: line → limit < minTagLimit)
    (hclose : ¬ closeTag <:+: line) (h : s.step fuel limit line = some s') :
    s'.Untagged limit ∧ body (s'.parts.flatten ++ s'.current) =
      body (s.parts.flatten ++ s.current) ++ body line := by
  have henabled := hs.enabled hclose
  have hline := hs.newPart_line hclose
  obtain ⟨hwrapped, htag⟩ := hs.newPart hopen hclose
  have hin : (s.inBlockquote || openWord <:+: line) = true → limit < minTagLimit := by
    intro h
    rw [Bool.or_eq_true, decide_eq_true_eq] at h
    exact h.elim hs.inBlockquote hopen
  rcases step_cases h with ⟨-, rfl⟩ | ⟨-, parts, current, hcut, rfl⟩
  · refine ⟨⟨fun h => hin ?_, ?_⟩, ?_⟩
    · rw [extend, Bool.and_eq_true] at h
      exact h.1
    · rw [extend]
      split_ifs
      · exact length_findOpenTag_getD le_rfl
      · exact hs.bqOpenTag
    · rw [extend, body_append, body_append, body_testCandidate, List.append_assoc]
  · refine ⟨⟨fun h => hin ?_, htag⟩, ?_⟩
    · rw [NewPart.keep, Bool.and_eq_true, newPart_inBlockquote] at h
      exact h.1
    · rw [hwrapped, hline] at hcut
      rw [NewPart.keep, ← body_append]
      rcases hcut with ⟨-, rfl, rfl⟩ | ⟨-, hcut⟩
      · rw [flush_flatten henabled]
      · rw [cutLine_flatten hcut, flush_flatten henabled]

/-- A text without tags is put out whole. -/
theorem run_lossless {P : List (List Char) → SplitState → List Char → Prop}
    (hopen : ∀ line ∈ lines, openWord <:+: line → limit < minTagLimit)
    (hclose : ∀ line ∈ lines, ¬ closeTag <:+: line) (hP : AtEachLine limit P [] {} lines)
    (hrun : lines.foldlM (step fuel limit) {} = some s') :
    body (s'.finish limit).flatten = body lines.flatten := by
  have hkeep : s'.Untagged limit ∧
      body (s'.parts.flatten ++ s'.current) = body ([] ++ lines).flatten := by
    refine run_induct (I := fun before s => s.Untagged limit ∧
      body (s.parts.flatten ++ s.current) = body before.flatten) ?_ hP
      ⟨⟨by simp, le_rfl⟩, rfl⟩ hrun
    intro before s line s' hline _ hs hstep
    obtain ⟨huntagged, hbody⟩ := hs.1.step (hopen line hline) (hclose line hline) hstep
    refine ⟨huntagged, ?_⟩
    rw [hbody, hs.2, List.flatten_append, body_append]
    simp
  have hoff : (tagEnabled limit s'.inBlockquote s'.bqOpenTag && s'.inBlockquote) = false := by
    cases hflag : s'.inBlockquote with
    | false => rw [Bool.and_false]
    | true =>
      rw [Bool.and_true, tagEnabled_eq_false (hkeep.1.inBlockquote hflag) hkeep.1.bqOpenTag]
  rw [finish, flush_flatten hoff, hkeep.2, List.nil_append]

end SplitState

end Just1kBot
