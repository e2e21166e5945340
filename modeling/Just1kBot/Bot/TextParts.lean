import Just1kBot.Bot.TextBody
import Just1kBot.Bot.TextQuotes

/-! What the splitting of a message promises, and when it keeps it.

    Parts fit the limit, a text without blockquote tags loses nothing but line breaks, and the
    blockquotes of each part are closed in it. -/

namespace Just1kBot

open SplitState

variable {limit fuel : ℕ} {s : SplitState} {line tag rem text : List Char}
  {parts lines before : List (List Char)}

/-- The splitting ends with these parts. -/
def SplitsInto (limit : ℕ) (text : List Char) (parts : List (List Char)) : Prop :=
  ∃ fuel₀, ∀ fuel ≥ fuel₀, splitTextByLines fuel limit text = some parts

/-- The parts are as promised. -/
structure KeepsPromise (limit : ℕ) (text : List Char) (parts : List (List Char)) : Prop where
  size : ∀ part ∈ parts, part.length ≤ limit
  lossless : HasNoTags text → body parts.flatten = body text
  balanced : WellFormed text → HasRoom limit text →
    ∀ part ∈ parts, countOpen part = countClose part

/-- The text takes none of the wrong branches. Without tags it does not have their word either; its
    opening tags are on one line each; where it has to lose them it loses them all; and its lines
    come to states in which there is room for what is written and in which blockquotes are kept. -/
structure Divisible (limit : ℕ) (text : List Char) : Prop where
  complete : HasNoTags text → openWord <:+: text → limit < minTagLimit
  linewise : WellFormed text → HasRoom limit text → Linewise text
  strippable : WellFormed text → HasRoom limit text → limit < 37 → openWord <:+: text →
    ¬ openWord <:+: stripTags text ∧ ¬ closeTag <:+: stripTags text
  room : AtEachLine limit (fun _ => SplitsWithRoom limit) [] {}
    ((strippedFor limit text).splitOn '\n')
  kept : WellFormed text → HasRoom limit text →
    AtEachLine limit (KeepsBlockquotes limit) [] {} ((strippedFor limit text).splitOn '\n')

theorem infix_of_mem_splitOn (hline : line ∈ text.splitOn '\n') : line <:+: text := by
  have hmem : ∀ {lines : List (List Char)}, line ∈ lines → line ∈ lines.intersperse ['\n'] := by
    intro lines
    induction lines with
    | nil => exact id
    | cons first lines ih =>
      cases lines with
      | nil => exact id
      | cons next lines =>
        intro h
        rw [List.intersperse_cons_cons]
        rcases List.mem_cons.mp h with rfl | h
        · exact List.mem_cons_self
        · exact List.mem_cons_of_mem _ (List.mem_cons_of_mem _ (ih h))
  have htext : ['\n'].intercalate (text.splitOn '\n') = text := List.intercalate_splitOn '\n'
  have hinfix : line <:+: ['\n'].intercalate (text.splitOn '\n') :=
    List.infix_of_mem_flatten (hmem hline)
  rwa [htext] at hinfix

/-- A text without tags stays as it is. -/
theorem HasNoTags.strippedFor_eq (h : HasNoTags text) : strippedFor limit text = text := by
  rw [strippedFor, h.stripTags_eq, ite_self]

/-- A well formed text is read line by line, also where its tags have been taken out. -/
theorem Divisible.of_wellFormed (h : Divisible limit text) (hwell : WellFormed text)
    (hroom : HasRoom limit text) :
    Linewise (strippedFor limit text) ∧ HasRoom limit (strippedFor limit text) := by
  rw [strippedFor]
  split_ifs with hstrip
  · obtain ⟨hopen, hclose⟩ := h.strippable hwell hroom hstrip.1 hstrip.2
    refine ⟨scan_of_untagged hopen hclose, fun tag htag hmem => ?_⟩
    obtain ⟨e, -, rfl, -⟩ := matchTag_eq_some.mp htag
    exact absurd ((List.prefix_append openWord e).isInfix.trans hmem) hopen
  · exact ⟨h.linewise hwell hroom, hroom⟩

/-- The text that is not split is a part by itself. -/
theorem KeepsPromise.single {plain : List Char} (hsize : plain.length ≤ limit)
    (hplain : HasNoTags text → plain = text)
    (hwell : WellFormed text → HasRoom limit text → WellFormed plain) :
    KeepsPromise limit text [plain] where
  size := by simpa using hsize
  lossless htags := by simp [hplain htags]
  balanced hformed hroom := by simpa using (hwell hformed hroom).count_eq

namespace SplitState

/-- A line that fits asks for nothing. -/
theorem atEachLine_of_fits {P : List (List Char) → SplitState → List Char → Prop}
    (hfits : s.Fits limit line)
    (h : AtEachLine limit (fun before s line => ¬ s.Fits limit line → P before s line)
      (before ++ [line]) (s.extend line) lines) :
    AtEachLine limit (fun before s line => ¬ s.Fits limit line → P before s line) before s
      (line :: lines) := by
  refine ⟨fun h => absurd hfits h, fun fuel s' hstep => ?_⟩
  rw [step, if_pos hfits, Option.some.injEq] at hstep
  rwa [← hstep]

/-- A line that starts a part and is not cut. -/
theorem atEachLine_of_whole {P : List (List Char) → SplitState → List Char → Prop}
    (hP : P before s line) (hfits : ¬ s.Fits limit line)
    (hwhole : ¬ Overflows limit (s.newPart limit line).wrapped (s.newPart limit line).line)
    (h : AtEachLine limit P (before ++ [line])
      ((s.newPart limit line).keep (s.flush limit (s.enabled limit line))
        (s.newPart limit line).line) lines) :
    AtEachLine limit P before s (line :: lines) := by
  refine ⟨hP, fun fuel s' hstep => ?_⟩
  simp only [step] at hstep
  rw [if_neg hfits, if_neg hwhole, Option.map_some, Option.some.injEq] at hstep
  rwa [← hstep]

/-- A line that is not cut asks for room to close the part before it. -/
theorem splitsWithRoom_of_whole
    (hwhole : ¬ Overflows limit (s.newPart limit line).wrapped (s.newPart limit line).line)
    (hclose : closeTag.length ≤ limit) : SplitsWithRoom limit s line :=
  fun _ => ⟨fun _ _ _ => hclose, fun _ hover => absurd hover hwhole⟩

/-- A line that is not cut keeps blockquotes where the flag is right. -/
theorem keepsBlockquotes_of_whole
    (hwhole : ¬ Overflows limit (s.newPart limit line).wrapped (s.newPart limit line).line)
    (hflag : before.foldlM scan false = some true → s.inBlockquote = true) :
    KeepsBlockquotes limit before s line := by
  refine fun _ => ⟨hflag, fun hwrapped rem hrem hover => ?_⟩
  rw [hwrapped] at hwhole
  exact absurd hover (hrem.not_overflows hwhole)

end SplitState

/-- A blockquote that goes on in a second part, and a line after it. -/
def twoParts : List Char := "<blockquote>abcdefgh\nijklmnop\nqrst</blockquote>\nuv".toList

/-- A line that begins with an opening tag longer than the limit is cut without end: each cut
    leaves it longer than before. -/
theorem cutLine_never (htag : IsOpenTag tag) (hlimit : 1 ≤ limit) (hlong : limit < tag.length) :
    cutLine limit true tag fuel (tag ++ rem) parts = none := by
  induction fuel generalizing rem parts with
  | zero => rfl
  | succ fuel ih =>
    have hword : openWord <+: tag ++ rem :=
      htag.openWord_isPrefix.trans (List.prefix_append tag rem)
    have hover : Overflows limit true (tag ++ rem) := by
      rw [Overflows, List.length_append]
      omega
    have hn : maxContentLen limit true tag (tag ++ rem) = limit := by
      simp only [maxContentLen, hword, and_self, if_true]
      rw [if_pos (by omega)]
    have hrest : tag.drop limit ≠ [] := by
      rw [Ne, List.drop_eq_nil_iff]
      omega
    have hopen : ¬ openWord <+: tag.drop limit ++ rem := by
      obtain ⟨w, rfl, hmark, -⟩ := htag.exists_cons
      obtain ⟨n, rfl⟩ : ∃ n, limit = n + 1 := ⟨limit - 1, by omega⟩
      rw [List.drop_succ_cons] at hrest ⊢
      obtain ⟨c, rest, hc⟩ := List.exists_cons_of_ne_nil hrest
      intro h
      rw [hc] at h
      have hmem : c ∈ w.drop n := by
        rw [hc]
        exact List.mem_cons_self
      have hcmark : '<' = c := (List.cons_prefix_cons.mp h).1
      exact hmark (hcmark ▸ List.mem_of_mem_drop hmem)
    simp only [cutLine]
    rw [if_pos hover, hn, List.drop_append_of_le_length hlong.le, reopen,
      if_pos ⟨rfl, by simp [hrest], hopen⟩]
    exact ih

/-- An opening tag of 63 characters. -/
def longTag : List Char := "<blockquote ".toList ++ List.replicate 50 'a' ++ ['>']

def longTagged : List Char := longTag ++ "b</blockquote>".toList

end Just1kBot
