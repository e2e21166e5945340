import Just1kBot.Bot.TextSplit
import Mathlib.Data.List.TakeWhile

/-! Blockquotes in a text.

    A text is read from left to right: an opening tag is allowed outside a blockquote, a closing tag
    inside one. Read so, a text put together at line breaks or in front of tags is read piece by
    piece. -/

namespace Just1kBot

open Lib.Python (isSpace)

variable {d d' : Bool} {c : Char} {s t u v : List Char}

/-! ### Tags -/

/-- A word that begins before a letter which it does not hold, except perhaps as its first, ends
    before that letter too. -/
theorem prefix_append_cons {a : Char} {w : List Char} (hc : c ∉ w) (hu : u ≠ []) :
    a :: w <+: u ++ c :: v ↔ a :: w <+: u := by
  refine ⟨fun h => ?_, fun h => h.trans (List.prefix_append u _)⟩
  obtain ⟨b, u, rfl⟩ := List.exists_cons_of_ne_nil hu
  have hc' : (b :: u) ++ [c] <+: (b :: u) ++ c :: v := ⟨v, by simp⟩
  rcases List.prefix_or_prefix_of_prefix h hc' with h | h
  · rcases List.prefix_concat_iff.mp h with h | h
    · rw [List.cons_append, List.cons.injEq] at h
      exact absurd (by rw [h.2]; simp) hc
    · exact h
  · rw [List.cons_append, List.cons_prefix_cons] at h
    exact absurd (h.2.subset (by simp)) hc

/-- What follows the name of a tag. -/
def TagEnd (e : List Char) : Prop :=
  e = ['>'] ∨ ∃ c a, e = c :: a ++ ['>'] ∧ isSpace c ∧ '>' ∉ a

/-- An opening tag on one line, with no mark in its attributes. -/
def IsOpenTag (t : List Char) : Prop :=
  ∃ e, TagEnd e ∧ t = openWord ++ e ∧ '<' ∉ e ∧ '\n' ∉ e

theorem takeWhile_append_isPrefix (h : '>' ∈ s) : s.takeWhile (· ≠ '>') ++ ['>'] <+: s := by
  induction s with
  | nil => exact absurd h (by simp)
  | cons a s ih =>
    by_cases ha : a = '>'
    · subst ha
      simp
    · rw [List.takeWhile_cons_of_pos (by simpa using ha), List.cons_append, List.cons_prefix_cons]
      exact ⟨rfl, ih ((List.mem_cons.mp h).resolve_left (Ne.symm ha))⟩

/-- Up to its first `>` a text is read in one way. -/
theorem eq_takeWhile_of_isPrefix {a : List Char} (ha : '>' ∉ a) (h : a ++ ['>'] <+: s) :
    s.takeWhile (· ≠ '>') = a := by
  obtain ⟨r, rfl⟩ := h
  rw [List.append_assoc, List.takeWhile_append_of_pos]
  · simp
  · intro x hx
    exact decide_eq_true (ne_of_mem_of_not_mem hx ha)

theorem matchTagEnd_eq_some {e : List Char} : matchTagEnd s = some e ↔ TagEnd e ∧ e <+: s := by
  cases s with
  | nil =>
    simp only [matchTagEnd, List.prefix_nil, reduceCtorEq, false_iff, not_and]
    rintro (rfl | ⟨c, a, rfl, -, -⟩) <;> simp
  | cons c s =>
    simp only [matchTagEnd]
    split_ifs with hc hs
    · subst hc
      simp only [Option.some.injEq]
      constructor
      · rintro rfl
        exact ⟨.inl rfl, by simp⟩
      · rintro ⟨rfl | ⟨c, a, rfl, hspace, -⟩, he⟩
        · rfl
        · rw [List.cons_append, List.cons_prefix_cons] at he
          rw [he.1] at hspace
          exact absurd hspace (by decide)
    · simp only [Option.some.injEq]
      constructor
      · rintro rfl
        refine ⟨.inr ⟨c, _, rfl, hs.1, fun h => ?_⟩, ?_⟩
        · simpa using List.mem_takeWhile_imp h
        · rw [List.cons_append, List.cons_prefix_cons]
          exact ⟨rfl, takeWhile_append_isPrefix hs.2⟩
      · rintro ⟨rfl | ⟨c', a, rfl, -, ha⟩, he⟩
        · exact absurd (List.cons_prefix_cons.mp he).1.symm hc
        · rw [List.cons_append, List.cons_prefix_cons] at he
          rw [eq_takeWhile_of_isPrefix ha he.2, he.1]
    · simp only [false_iff, not_and]
      rintro (rfl | ⟨c', a, rfl, hspace, -⟩) he
      · exact hc (List.cons_prefix_cons.mp he).1.symm
      · rw [List.cons_append, List.cons_prefix_cons] at he
        exact hs ⟨he.1 ▸ hspace, he.2.subset (by simp)⟩

theorem matchTag_eq_some {w : List Char} :
    matchTag w s = some t ↔ ∃ e, TagEnd e ∧ t = w ++ e ∧ t <+: s := by
  simp only [matchTag]
  split_ifs with hw
  · obtain ⟨r, rfl⟩ := hw
    simp only [List.drop_left, Option.map_eq_some_iff, matchTagEnd_eq_some]
    constructor
    · rintro ⟨e, ⟨he, hr⟩, rfl⟩
      exact ⟨e, he, rfl, (List.prefix_append_right_inj w).mpr hr⟩
    · rintro ⟨e, he, rfl, hr⟩
      exact ⟨e, ⟨he, (List.prefix_append_right_inj w).mp hr⟩, rfl⟩
  · simp only [false_iff, not_exists, not_and]
    rintro e - rfl hr
    exact hw ((List.prefix_append w e).trans hr)

theorem matchTag_eq_none (h : ¬ openWord <+: s) : matchTag openWord s = none := if_neg h

theorem TagEnd.length_pos {e : List Char} (he : TagEnd e) : 0 < e.length := by
  rcases he with rfl | ⟨c, a, rfl, -, -⟩ <;> simp

/-- A tag that is found is in the text. -/
theorem findTag_eq_some {w : List Char} (h : findTag w s = some t) :
    ∃ e, TagEnd e ∧ t = w ++ e ∧ t <:+: s := by
  induction s with
  | nil => exact absurd h (by simp [findTag])
  | cons c s ih =>
    rw [findTag, Option.or_eq_some_iff] at h
    rcases h with h | ⟨-, h⟩
    · obtain ⟨e, he, ht, hs⟩ := matchTag_eq_some.mp h
      exact ⟨e, he, ht, hs.isInfix⟩
    · obtain ⟨e, he, ht, hs⟩ := ih h
      exact ⟨e, he, ht, hs.trans (List.suffix_cons c s).isInfix⟩

/-- A tag that is in the text is found. -/
theorem findTag_ne_none {w e : List Char} (he : TagEnd e) (h : w ++ e <:+: s) :
    findTag w s ≠ none := by
  induction s with
  | nil =>
    have := he.length_pos
    have := h.length_le
    simp only [List.length_append, List.length_nil] at this
    omega
  | cons c s ih =>
    rw [findTag, Ne, Option.or_eq_none_iff, not_and_or]
    rcases List.infix_cons_iff.mp h with h | h
    · left
      rw [matchTag_eq_some.mpr ⟨e, he, rfl, h⟩]
      exact Option.some_ne_none _
    · exact .inr (ih h)

namespace IsOpenTag

theorem openWord_isPrefix (ht : IsOpenTag t) : openWord <+: t := by
  obtain ⟨e, -, rfl, -, -⟩ := ht
  exact List.prefix_append openWord e

/-- An opening tag is a word with a mark, and with no other mark or line break. -/
theorem exists_cons (ht : IsOpenTag t) : ∃ w, t = '<' :: w ∧ '<' ∉ w ∧ '\n' ∉ w := by
  obtain ⟨e, -, rfl, hmark, hline⟩ := ht
  refine ⟨"blockquote".toList ++ e, rfl, ?_, ?_⟩
  · rw [List.mem_append, not_or]
    exact ⟨by decide, hmark⟩
  · rw [List.mem_append, not_or]
    exact ⟨by decide, hline⟩

theorem length_le (ht : IsOpenTag t) : 12 ≤ t.length := by
  obtain ⟨e, he, rfl, -, -⟩ := ht
  have hword : openWord.length = 11 := rfl
  have hend := he.length_pos
  rw [List.length_append, hword]
  omega

theorem matchTag_append (ht : IsOpenTag t) : matchTag openWord (t ++ v) = some t := by
  obtain ⟨e, he, rfl, -, -⟩ := ht
  exact matchTag_eq_some.mpr ⟨e, he, rfl, List.prefix_append _ v⟩

/-- A text that begins with an opening tag has it as its first one. -/
theorem findOpenTag_append (ht : IsOpenTag t) : findOpenTag (t ++ v) = some t := by
  obtain ⟨w, rfl, -, -⟩ := ht.exists_cons
  have h := ht.matchTag_append (v := v)
  rw [List.cons_append] at h ⊢
  rw [findOpenTag, findTag, h, Option.some_or]

end IsOpenTag

/-- The opening tag that the text begins with. -/
def openTagAt (s : List Char) : Option (List Char) :=
  (matchTag openWord s).filter fun t => '<' ∉ t.tail ∧ '\n' ∉ t

theorem openTagAt_eq_some : openTagAt s = some t ↔ IsOpenTag t ∧ t <+: s := by
  simp only [openTagAt, Option.filter_eq_some_iff, matchTag_eq_some, decide_eq_true_eq]
  constructor
  · rintro ⟨⟨e, he, rfl, hs⟩, hmark, hline⟩
    refine ⟨⟨e, he, rfl, fun h => hmark ?_, fun h => hline (by simp [h])⟩, hs⟩
    exact List.mem_append_right "blockquote".toList h
  · rintro ⟨ht, hs⟩
    obtain ⟨w, hw, hmark, hline⟩ := ht.exists_cons
    obtain ⟨e, he, rfl, -, -⟩ := ht
    refine ⟨⟨e, he, rfl, hs⟩, ?_, ?_⟩
    · rw [hw]
      exact hmark
    · rw [hw, List.mem_cons, not_or]
      exact ⟨by decide, hline⟩

/-! ### The tags of a text -/

/-- The tags of a text from left to right, `true` for an opening one, where `skip` characters of a
    tag are still to be passed over. -/
def tagsFrom : ℕ → List Char → List Bool
  | _, [] => []
  | skip + 1, _ :: s => tagsFrom skip s
  | 0, c :: s =>
    match matchTag openWord (c :: s) with
    | some tag => true :: tagsFrom (tag.length - 1) s
    | none => if closeTag <+: c :: s then false :: tagsFrom 0 s else tagsFrom 0 s

def tags (text : List Char) : List Bool := tagsFrom 0 text

/-- What a tag does to a text that is inside a blockquote (`true`) or outside. -/
def follow : Bool → Bool → Option Bool
  | false, true => some true
  | true, false => some false
  | _, _ => none

/-- The blockquotes of the text are opened and closed in turn. -/
def WellFormed (text : List Char) : Prop := (tags text).foldlM follow false = some false

def countOpen (text : List Char) : ℕ := (tags text).count true

def countClose (text : List Char) : ℕ := (tags text).count false

theorem follow_eq_some {b : Bool} : follow d b = some d' ↔ d = !b ∧ d' = b := by
  revert d b d'
  decide

theorem count_of_follow {l : List Bool} (h : l.foldlM follow d = some d') :
    l.count true + d.toNat = l.count false + d'.toNat := by
  induction l generalizing d with
  | nil =>
    rw [List.foldlM_nil, Option.pure_def, Option.some.injEq] at h
    simp [h]
  | cons b l ih =>
    rw [List.foldlM_cons] at h
    obtain ⟨d₁, hd, hl⟩ := Option.bind_eq_some_iff.mp h
    obtain ⟨rfl, rfl⟩ := follow_eq_some.mp hd
    have ih := ih hl
    cases d₁ with
    | true =>
      simp only [Bool.not_true, Bool.toNat_true, Bool.toNat_false, List.count_cons_self,
        List.count_cons_of_ne Bool.false_ne_true.symm] at ih ⊢
      omega
    | false =>
      simp only [Bool.not_false, Bool.toNat_true, Bool.toNat_false, List.count_cons_self,
        List.count_cons_of_ne Bool.false_ne_true] at ih ⊢
      omega

/-- A well formed text has as many closing tags as opening ones. -/
theorem WellFormed.count_eq (h : WellFormed s) : countOpen s = countClose s := by
  have hcount := count_of_follow h
  rwa [Nat.add_right_cancel_iff] at hcount

/-! ### Reading a text -/

/-- A text read from outside a blockquote (`false`) or from inside one, with every opening tag on
    one line: where it ends, or `none` where its tags do not fit. -/
def scan : Bool → List Char → Option Bool
  | d, [] => some d
  | d, c :: s =>
    if openWord <+: c :: s then
      if (openTagAt (c :: s)).isSome ∧ d = false then scan true s else none
    else if closeTag <+: c :: s then
      if d then scan false s else none
    else scan d s

/-- Read so, the text is outside a blockquote at its end. -/
def Linewise (text : List Char) : Prop := scan false text = some false

instance (text : List Char) : Decidable (Linewise text) :=
  inferInstanceAs (Decidable (_ = _))

/-- A part may begin or end at such a character. -/
def IsBoundary (c : Char) : Prop := c = '<' ∨ c = '\n'

theorem openWord_isPrefix_append (hc : IsBoundary c) (hu : u ≠ []) :
    openWord <+: u ++ c :: v ↔ openWord <+: u :=
  prefix_append_cons (w := "blockquote".toList)
    (by rcases hc with rfl | rfl <;> decide) hu

theorem closeTag_isPrefix_append (hc : IsBoundary c) (hu : u ≠ []) :
    closeTag <+: u ++ c :: v ↔ closeTag <+: u :=
  prefix_append_cons (w := "/blockquote>".toList)
    (by rcases hc with rfl | rfl <;> decide) hu

theorem openTagAt_append (hc : IsBoundary c) (hu : u ≠ []) :
    openTagAt (u ++ c :: v) = openTagAt u := by
  refine Option.ext fun t => ?_
  rw [openTagAt_eq_some, openTagAt_eq_some]
  refine and_congr_right fun ht => ?_
  obtain ⟨w, rfl, hmark, hline⟩ := ht.exists_cons
  exact prefix_append_cons (by rcases hc with rfl | rfl <;> assumption) hu

/-- A text is read piece by piece. -/
theorem scan_append (hc : IsBoundary c) :
    scan d (u ++ c :: v) = (scan d u).bind fun d' => scan d' (c :: v) := by
  induction u generalizing d with
  | nil => rfl
  | cons a u ih =>
    have hu := List.cons_ne_nil a u
    have hopen := openWord_isPrefix_append (v := v) hc hu
    have hclose := closeTag_isPrefix_append (v := v) hc hu
    have htag := openTagAt_append (v := v) hc hu
    rw [List.cons_append] at hopen hclose htag ⊢
    rw [scan, scan]
    simp only [hopen, hclose, htag]
    split_ifs
    · exact ih
    · rfl
    · exact ih
    · rfl
    · exact ih

theorem scan_cons_of_ne (hc : c ≠ '<') : scan d (c :: s) = scan d s := by
  have hopen : ¬ openWord <+: c :: s := fun h => hc (List.cons_prefix_cons.mp h).1.symm
  have hclose : ¬ closeTag <+: c :: s := fun h => hc (List.cons_prefix_cons.mp h).1.symm
  rw [scan, if_neg hopen, if_neg hclose]

theorem scan_append_of_notMem (hu : '<' ∉ u) : scan d (u ++ v) = scan d v := by
  induction u with
  | nil => rfl
  | cons a u ih =>
    rw [List.mem_cons, not_or] at hu
    rw [List.cons_append, scan_cons_of_ne (Ne.symm hu.1), ih hu.2]

/-- Line breaks do not count. -/
theorem scan_append_newline : scan d (u ++ '\n' :: v) = (scan d u).bind (scan · v) := by
  rw [scan_append (.inr rfl)]
  simp only [scan_cons_of_ne (show '\n' ≠ '<' by decide)]

/-- An opening tag leads into a blockquote. -/
theorem scan_openTag (ht : IsOpenTag t) : scan false (t ++ v) = scan true v := by
  have hopen : openWord <+: t ++ v := ht.openWord_isPrefix.trans (List.prefix_append t v)
  have htag : openTagAt (t ++ v) = some t := openTagAt_eq_some.mpr ⟨ht, List.prefix_append t v⟩
  obtain ⟨w, rfl, hmark, -⟩ := ht.exists_cons
  rw [List.cons_append] at hopen htag ⊢
  rw [scan, if_pos hopen, if_pos ⟨by rw [htag]; rfl, rfl⟩, scan_append_of_notMem hmark]

theorem not_openWord_isPrefix_closeTag : ¬ openWord <+: closeTag ++ v := fun h => by
  exact absurd (List.cons_prefix_cons.mp (List.cons_prefix_cons.mp h).2).1 (by decide)

/-- A closing tag leads out of a blockquote. -/
theorem scan_closeTag : scan d (closeTag ++ v) = if d then scan false v else none := by
  have hopen := not_openWord_isPrefix_closeTag (v := v)
  have hclose : closeTag <+: closeTag ++ v := List.prefix_append _ v
  have hrest : scan false ("/blockquote>".toList ++ v) = scan false v :=
    scan_append_of_notMem (by decide)
  rw [show closeTag ++ v = '<' :: ("/blockquote>".toList ++ v) from rfl] at hopen hclose ⊢
  rw [scan, if_neg hopen, if_pos hclose, hrest]

/-! ### What a reading says -/

theorem not_closeTag_isPrefix (h : openWord <+: s) : ¬ closeTag <+: s := fun hclose => by
  obtain ⟨v, rfl⟩ := hclose
  exact not_openWord_isPrefix_closeTag h

theorem tagsFrom_length_append (u v : List Char) : tagsFrom u.length (u ++ v) = tags v := by
  induction u with
  | nil => rfl
  | cons a u ih => exact ih

theorem tags_append_of_notMem (hu : '<' ∉ u) : tags (u ++ v) = tags v := by
  induction u with
  | nil => rfl
  | cons a u ih =>
    rw [List.mem_cons, not_or] at hu
    have hopen : ¬ openWord <+: a :: (u ++ v) := fun h => hu.1 (List.cons_prefix_cons.mp h).1
    have hclose : ¬ closeTag <+: a :: (u ++ v) := fun h => hu.1 (List.cons_prefix_cons.mp h).1
    rw [← ih hu.2, tags, List.cons_append]
    simp only [tagsFrom, matchTag_eq_none hopen, hclose, if_false]
    rfl

/-- The tags of a text that is read are in turn. -/
theorem follow_of_scan (h : scan d s = some d') : (tags s).foldlM follow d = some d' := by
  rw [tags]
  induction s generalizing d with
  | nil => exact h
  | cons c s ih =>
    rw [scan] at h
    split_ifs at h with hopen htag hclose hd
    · -- an opening tag; what is passed over has no mark
      obtain ⟨t, ht⟩ := Option.isSome_iff_exists.mp htag.1
      obtain ⟨ht, v, hv⟩ := openTagAt_eq_some.mp ht
      have hmatch : matchTag openWord (c :: s) = some t := hv ▸ ht.matchTag_append
      obtain ⟨w, rfl, hmark, -⟩ := ht.exists_cons
      rw [List.cons_append, List.cons.injEq] at hv
      have hskip : tagsFrom (('<' :: w).length - 1) s = tagsFrom 0 s := by
        rw [← hv.2]
        exact (tagsFrom_length_append w v).trans (tags_append_of_notMem hmark).symm
      simp only [tagsFrom, hmatch, hskip, List.foldlM_cons, htag.2]
      exact ih h
    · simp only [tagsFrom, matchTag_eq_none hopen, hclose, if_true, List.foldlM_cons, hd]
      exact ih h
    · simp only [tagsFrom, matchTag_eq_none hopen, hclose, if_false]
      exact ih h

theorem Linewise.wellFormed (h : Linewise s) : WellFormed s := follow_of_scan h

/-- A text that ends inside a blockquote does not end with a closing tag. -/
theorem not_closeTag_suffix (h : scan d s = some true) : ¬ closeTag <:+ s := by
  rintro ⟨u, rfl⟩
  rw [show closeTag = '<' :: "/blockquote>".toList from rfl, scan_append (.inl rfl),
    Option.bind_eq_some_iff] at h
  obtain ⟨d', -, h⟩ := h
  have hclose := scan_closeTag (d := d') (v := [])
  rw [List.append_nil, show closeTag = '<' :: "/blockquote>".toList from rfl, h] at hclose
  cases d' <;> simp [scan] at hclose

/-- A closing tag ends it well. -/
theorem scan_append_closeTag (h : scan d s = some true) :
    scan d (s ++ closeTag) = some false := by
  have hclose := scan_closeTag (d := true) (v := [])
  rw [List.append_nil] at hclose
  rw [show closeTag = '<' :: "/blockquote>".toList from rfl, scan_append (.inl rfl), h,
    Option.bind_some]
  exact hclose

/-- Inside a blockquote no other one begins. -/
theorem not_openWord_isPrefix (h : scan true s = some d') : ¬ openWord <+: s := by
  intro hopen
  cases s with
  | nil => exact absurd hopen (by decide)
  | cons c s =>
    rw [scan, if_pos hopen] at h
    simp at h

/-- Where a text is read through, its first word is that of an opening tag. -/
theorem findOpenTag_of_scan (h : scan d s = some d') (hopen : openWord <:+: s) :
    ∃ t, findOpenTag s = some t ∧ IsOpenTag t ∧ t <:+: s := by
  induction s generalizing d with
  | nil => exact absurd hopen (by decide)
  | cons c s ih =>
    rw [scan] at h
    split_ifs at h with hword htag hclose hd
    · obtain ⟨t, ht⟩ := Option.isSome_iff_exists.mp htag.1
      obtain ⟨ht, v, hv⟩ := openTagAt_eq_some.mp ht
      rw [← hv]
      exact ⟨t, ht.findOpenTag_append, ht, (List.prefix_append t v).isInfix⟩
    all_goals
      obtain ⟨t, hfind, ht, hs⟩ := ih h ((List.infix_cons_iff.mp hopen).resolve_left hword)
      refine ⟨t, ?_, ht, hs.trans (List.suffix_cons c s).isInfix⟩
      rw [findOpenTag, findTag, matchTag_eq_none hword, Option.none_or]
      exact hfind

/-- Without a closing tag, a text that is inside a blockquote or enters one stays there. -/
theorem inside_of_scan (h : scan d s = some d') (hclose : ¬ closeTag <:+: s)
    (hin : d = true ∨ openWord <:+: s) : d' = true := by
  induction s generalizing d with
  | nil =>
    rw [scan, Option.some.injEq] at h
    rcases hin with hd | hopen
    · rw [← h, hd]
    · exact absurd hopen (by decide)
  | cons c s ih =>
    rw [List.infix_cons_iff, not_or] at hclose
    rw [scan, if_neg hclose.1] at h
    split_ifs at h with hword htag
    · exact ih h hclose.2 (.inl rfl)
    · refine ih h hclose.2 (hin.imp id fun hopen => ?_)
      exact (List.infix_cons_iff.mp hopen).resolve_left hword

/-- From outside, and without an opening tag, there is nothing to close. -/
theorem outside_of_scan (h : scan false s = some d') (hopen : ¬ openWord <:+: s) :
    d' = false ∧ ¬ closeTag <:+: s := by
  induction s with
  | nil =>
    rw [scan, Option.some.injEq] at h
    exact ⟨h.symm, by decide⟩
  | cons c s ih =>
    rw [List.infix_cons_iff, not_or] at hopen
    rw [scan, if_neg hopen.1, if_neg Bool.false_ne_true] at h
    split_ifs at h with hclose
    obtain ⟨hd, hs⟩ := ih h hopen.2
    refine ⟨hd, ?_⟩
    rw [List.infix_cons_iff, not_or]
    exact ⟨hclose, hs⟩

/-- A text without tags is read through. -/
theorem scan_of_untagged (hopen : ¬ openWord <:+: s) (hclose : ¬ closeTag <:+: s) :
    scan d s = some d := by
  induction s with
  | nil => rfl
  | cons c s ih =>
    rw [List.infix_cons_iff, not_or] at hopen hclose
    rw [scan, if_neg hopen.1, if_neg hclose.1, ih hopen.2 hclose.2]

/-- Where no blockquote begins, every piece of the text is outside one. -/
theorem linewise_of_isInfix (h : scan false s = some d') (hopen : ¬ openWord <:+: s)
    (hu : u <:+: s) : Linewise u :=
  scan_of_untagged (fun hw => hopen (hw.trans hu))
    fun hw => (outside_of_scan h hopen).2 (hw.trans hu)

/-- A text is read line by line. -/
theorem scan_intercalate (line : List Char) (lines : List (List Char)) :
    scan d (['\n'].intercalate (line :: lines)) = (line :: lines).foldlM scan d := by
  induction lines generalizing d line with
  | nil => simp
  | cons next lines ih =>
    rw [List.foldlM_cons, show ['\n'].intercalate (line :: next :: lines) =
      line ++ '\n' :: ['\n'].intercalate (next :: lines) by simp [List.intercalate],
      scan_append_newline]
    exact congrArg (Option.bind (scan d line)) (funext fun d' => ih next)

theorem foldlM_scan_splitOn (text : List Char) :
    (text.splitOn '\n').foldlM scan d = scan d text := by
  obtain ⟨line, lines, hlines⟩ := List.exists_cons_of_ne_nil (List.splitOn_ne_nil '\n' text)
  rw [hlines, ← scan_intercalate, ← hlines, List.intercalate_splitOn]

end Just1kBot
