import Just1kBot.Bot.Blockquote
import Just1kBot.Bot.TextSize

/-! Every part of a message closes its blockquotes.

    This holds as long as the flag of the loop says whether the text is in a blockquote where a part
    begins, and as long as a long line is cut inside a blockquote, or between two of them. -/

namespace Just1kBot

open SplitState

variable {limit fuel : ℕ} {d d' : Bool} {s s' : SplitState} {line tag rem text : List Char}
  {parts parts' lines before : List (List Char)}

/-- Every opening tag of the text leaves room in a part. -/
def HasRoom (limit : ℕ) (text : List Char) : Prop :=
  ∀ tag, matchTag openWord tag = some tag → tag <:+: text → RoomFor limit tag

theorem HasRoom.roomFor (h : HasRoom limit text) (htag : IsOpenTag tag) (hmem : tag <:+: text) :
    RoomFor limit tag := by
  have hmatch := htag.matchTag_append (v := [])
  rw [List.append_nil] at hmatch
  exact h tag hmatch hmem

/-- What is left of a line in a blockquote, after some of its cuts. -/
inductive Remainder (limit : ℕ) (tag line : List Char) : List Char → Prop
  | start : Remainder limit tag line line
  | cut {rem : List Char} : Remainder limit tag line rem → Overflows limit true rem →
      Remainder limit tag line (reopen true tag (rem.drop (maxContentLen limit true tag rem)))

/-- A line that is not cut is all that is left. -/
theorem Remainder.not_overflows (h : Remainder limit tag line rem)
    (hwhole : ¬ Overflows limit true line) : ¬ Overflows limit true rem := by
  induction h with
  | start => exact hwhole
  | cut _ hover ih => exact absurd hover ih

/-- The cut falls inside a blockquote and not into a tag, or between two blockquotes. -/
def CutsWell (n : ℕ) (rem : List Char) : Prop :=
  scan false (rem.take n) = some true ∧ scan true (rem.drop n) = scan false rem ∨
  scan false (rem.take n) = some false ∧ closeTag <:+ rem.take n ∧ openWord <+: rem.drop n

/-- A part that is cut off is closed, and the rest of the line is opened again. -/
theorem CutsWell.keeps {n : ℕ} (h : CutsWell n rem) (htag : IsOpenTag tag)
    (hscan : scan false rem = some d') (hn : n < rem.length) :
    Linewise (rem.take n ++ neededClose true (rem.take n)) ∧
      scan false (reopen true tag (rem.drop n)) = some d' := by
  have hrest : rem.drop n ≠ [] := by
    rw [Ne, List.drop_eq_nil_iff]
    omega
  rcases h with ⟨htake, hdrop⟩ | ⟨htake, hclose, hopen⟩
  · rw [hscan] at hdrop
    rw [neededClose, if_pos ⟨rfl, not_closeTag_suffix htake⟩, reopen,
      if_pos ⟨rfl, hrest, not_openWord_isPrefix hdrop⟩]
    exact ⟨scan_append_closeTag htake, by rw [scan_openTag htag, hdrop]⟩
  · rw [neededClose, if_neg (fun h => h.2 hclose), List.append_nil, reopen,
      if_neg (fun h => h.2.2 hopen)]
    refine ⟨htake, ?_⟩
    obtain ⟨rest, hrest⟩ := hopen
    rw [← List.take_append_drop n rem, ← hrest,
      show openWord ++ rest = '<' :: ("blockquote".toList ++ rest) from rfl,
      scan_append (.inl rfl), htake, Option.bind_some] at hscan
    rw [← hrest]
    exact hscan

/-- A line that is cut well leaves parts that are closed, and a remainder that ends as it does. -/
theorem cutLine_quoted {current : List Char} (hlimit : 1 ≤ limit) (htag : IsOpenTag tag)
    (hroom : RoomFor limit tag)
    (hcuts : ∀ rem, Remainder limit tag line rem → Overflows limit true rem →
      CutsWell (maxContentLen limit true tag rem) rem)
    (hscan : scan false line = some d') (hparts : ∀ part ∈ parts, Linewise part)
    (h : cutLine limit true tag fuel line parts = some (parts', current)) :
    (∀ part ∈ parts', Linewise part) ∧ scan false current = some d' ∧
      ¬ Overflows limit true current := by
  obtain ⟨⟨hparts', hscan', -⟩, hover⟩ := cutLine_induct (I := fun parts rem =>
    (∀ part ∈ parts, Linewise part) ∧ scan false rem = some d' ∧ Remainder limit tag line rem)
    (fun parts rem hover hI => by
      obtain ⟨hparts, hscan, hrem⟩ := hI
      have hlen : maxContentLen limit true tag rem < rem.length := by
        have hclose := length_neededClose_le true rem
        rw [maxContentLen_eq hlimit fun _ => hroom]
        rw [Overflows] at hover
        rw [RoomFor] at hroom
        simp only [if_true] at hclose ⊢
        omega
      obtain ⟨hpart, hrest⟩ := (hcuts rem hrem hover).keeps htag hscan hlen
      exact ⟨List.forall_mem_append.mpr ⟨hparts, List.forall_mem_singleton.mpr hpart⟩, hrest,
        .cut hrem hover⟩)
    h ⟨hparts, hscan, .start⟩
  exact ⟨hparts', hscan', hover⟩

/-- Outside a blockquote every cut is well. -/
theorem cutLine_plain {current : List Char} (hscan : scan false line = some d')
    (hopen : ¬ openWord <:+: line) (hparts : ∀ part ∈ parts, Linewise part)
    (h : cutLine limit false tag fuel line parts = some (parts', current)) :
    (∀ part ∈ parts', Linewise part) ∧ current <:+: line := by
  refine (cutLine_induct (I := fun parts rem => (∀ part ∈ parts, Linewise part) ∧ rem <:+: line)
    ?_ h ⟨hparts, List.infix_refl line⟩).1
  rintro parts rem - ⟨hparts, hrem⟩
  simp only [neededClose, reopen, Bool.false_eq_true, false_and, if_false, List.append_nil]
  have htake : rem.take (maxContentLen limit false tag rem) <+: rem := List.take_prefix _ rem
  have hpart := linewise_of_isInfix hscan hopen (htake.isInfix.trans hrem)
  exact ⟨List.forall_mem_append.mpr ⟨hparts, List.forall_mem_singleton.mpr hpart⟩,
    (List.drop_suffix _ rem).isInfix.trans hrem⟩

namespace SplitState

/-- The parts are well formed, and the state follows the text: `d` says whether it is inside a
    blockquote. Where the flag is set it is, and its tags fit. -/
structure Follows (limit : ℕ) (d : Bool) (s : SplitState) : Prop where
  parts : ∀ part ∈ s.parts, Linewise part
  current : scan false s.current = some d
  inside : s.inBlockquote = true → d = true
  close : s.inBlockquote = true → s.current.length + closeTag.length ≤ limit
  openTag : s.inBlockquote = true → IsOpenTag s.bqOpenTag ∧ RoomFor limit s.bqOpenTag

/-- A line that starts a part does so with the flag set if the text is in a blockquote, and where
    it is cut inside a blockquote it is cut well. -/
def KeepsBlockquotes (limit : ℕ) (before : List (List Char)) (s : SplitState) (line : List Char) :
    Prop :=
  ¬ s.Fits limit line →
    (before.foldlM scan false = some true → s.inBlockquote = true) ∧
    ((s.newPart limit line).wrapped = true →
      ∀ rem, Remainder limit (s.newPart limit line).bqOpenTag (s.newPart limit line).line rem →
        Overflows limit true rem →
        CutsWell (maxContentLen limit true (s.newPart limit line).bqOpenTag rem) rem)

/-- The tag of a line that is read through. -/
theorem currentOpenTag_of_scan (hscan : scan d line = some d') (hopen : openWord <:+: line) :
    IsOpenTag (currentOpenTag line) ∧ currentOpenTag line <:+: line := by
  obtain ⟨tag, hfind, htag, hline⟩ := findOpenTag_of_scan hscan hopen
  rw [currentOpenTag, hfind, Option.getD_some]
  exact ⟨htag, hline⟩

theorem currentOpenTag_eq_default (hopen : ¬ openWord <:+: line) :
    currentOpenTag line = defaultOpenTag := by
  have hfind : findOpenTag line = none := by
    induction line with
    | nil => rfl
    | cons c line ih =>
      rw [List.infix_cons_iff, not_or] at hopen
      rw [findOpenTag, findTag, matchTag_eq_none hopen.1, Option.none_or]
      exact ih hopen.2
  rw [currentOpenTag, hfind, Option.getD_none]

theorem tagEnabled_of_room (hlimit : 1 ≤ limit) (h : d = true → RoomFor limit tag) :
    tagEnabled limit d tag = true := by
  rw [tagEnabled, decide_eq_true_eq]
  cases d with
  | false => simpa using hlimit
  | true => exact h rfl

/-- Where there is room for the tags, they are kept up. -/
theorem Follows.enabled (hs : s.Follows limit d) (hlimit : 1 ≤ limit)
    (hscan : scan d line = some d') (hroom : HasRoom limit line) : s.enabled limit line = true := by
  refine tagEnabled_of_room hlimit fun hwill => ?_
  by_cases hopen : openWord <:+: line
  · obtain ⟨htag, hline⟩ := currentOpenTag_of_scan hscan hopen
    exact hroom.roomFor htag hline
  · rw [willBeInBq, decide_eq_false hopen, Bool.or_false, Bool.and_eq_true] at hwill
    obtain ⟨htag, hroom⟩ := hs.openTag hwill.1
    have hlen := htag.length_le
    rw [currentOpenTag_eq_default hopen]
    rw [RoomFor] at hroom ⊢
    have hdefault : defaultOpenTag.length = 12 := rfl
    omega

/-- A line that is added to the part. -/
theorem Follows.extend (hs : s.Follows limit d) (hlimit : 1 ≤ limit)
    (hscan : scan d line = some d') (hroom : HasRoom limit line) (hfits : s.Fits limit line) :
    (s.extend line).Follows limit d' := by
  have hinside : (s.extend line).inBlockquote = true →
      (s.inBlockquote = true ∨ openWord <:+: line) ∧ ¬ closeTag <:+: line := by
    intro h
    simpa [SplitState.extend] using h
  refine ⟨hs.parts, ?_, fun h => ?_, fun h => ?_, fun h => ?_⟩
  · show scan false (s.testCandidate line) = some d'
    rw [testCandidate]
    split_ifs with hcurrent
    · have hd := hs.current
      rw [hcurrent, scan, Option.some.injEq] at hd
      rw [hd, hscan]
    · rw [scan_append_newline, hs.current, Option.bind_some, hscan]
  · obtain ⟨hin, hclose⟩ := hinside h
    exact inside_of_scan hscan hclose (hin.imp hs.inside id)
  · have hclose := (hinside h).2
    rw [Fits, hs.enabled hlimit hscan hroom, Bool.true_and, neededClose,
      if_pos ⟨h, fun hsuffix => hclose hsuffix.isInfix⟩] at hfits
    exact hfits
  · by_cases hopen : openWord <:+: line
    · obtain ⟨htag, hline⟩ := currentOpenTag_of_scan hscan hopen
      rw [SplitState.extend, if_pos hopen]
      exact ⟨htag, hroom.roomFor htag hline⟩
    · rw [SplitState.extend, if_neg hopen]
      exact hs.openTag ((hinside h).1.resolve_right hopen)

/-- Where the flag is right and not set, the text is outside. -/
theorem outside_of_flag (hd : d = true → s.inBlockquote = true)
    (hflag : s.inBlockquote = false) : d = false := by
  rw [← Bool.not_eq_true]
  intro h
  rw [hd h] at hflag
  exact absurd hflag.symm Bool.false_ne_true

/-- The last part closes its blockquote when it is put out. -/
theorem Follows.flush (hs : s.Follows limit d) (hd : d = true → s.inBlockquote = true) :
    ∀ part ∈ s.flush limit true, Linewise part := by
  refine forall_mem_flush hs.parts fun _ => ?_
  have hscan := hs.current
  rw [Bool.true_and, closePart]
  cases hflag : s.inBlockquote with
  | true =>
    rw [hs.inside hflag] at hscan
    rw [if_pos ⟨rfl, not_closeTag_suffix hscan⟩, if_pos (hs.close hflag)]
    exact scan_append_closeTag hscan
  | false =>
    rw [if_neg (fun h => absurd h.1 Bool.false_ne_true), Linewise, hscan,
      outside_of_flag hd hflag]

/-- A line that starts a part is read from outside, with the opening tag in front of it where the
    text is inside. -/
theorem Follows.newPart (hs : s.Follows limit d) (hlimit : 1 ≤ limit)
    (hscan : scan d line = some d') (hroom : HasRoom limit line)
    (hd : d = true → s.inBlockquote = true) :
    scan false (s.newPart limit line).line = some d' ∧
      ((s.newPart limit line).inBlockquote = true ↔ openWord <:+: (s.newPart limit line).line) ∧
      ((s.newPart limit line).inBlockquote = true →
        IsOpenTag (s.newPart limit line).bqOpenTag ∧
          RoomFor limit (s.newPart limit line).bqOpenTag) := by
  have henabled := hs.enabled hlimit hscan hroom
  cases hflag : s.inBlockquote with
  | true =>
    obtain ⟨htag, htagRoom⟩ := hs.openTag hflag
    rw [hs.inside hflag] at hscan
    have hline : (s.newPart limit line).line = s.bqOpenTag ++ line := by
      simp only [SplitState.newPart]
      rw [if_pos ⟨henabled, hflag, not_openWord_isPrefix hscan⟩]
    have hopen : openWord <:+: s.bqOpenTag ++ line :=
      (htag.openWord_isPrefix.trans (List.prefix_append _ line)).isInfix
    have hbqOpenTag : (s.newPart limit line).bqOpenTag = s.bqOpenTag := by
      rw [newPart_bqOpenTag, hline, if_pos hopen, htag.findOpenTag_append, Option.getD_some]
    rw [newPart_inBlockquote, hline, hbqOpenTag, hflag, scan_openTag htag]
    exact ⟨hscan, by simp [hopen], fun _ => ⟨htag, htagRoom⟩⟩
  | false =>
    have hd := outside_of_flag hd hflag
    have hline : (s.newPart limit line).line = line := by simp [SplitState.newPart, hflag]
    rw [newPart_inBlockquote, hline, hflag, Bool.false_or, decide_eq_true_eq, ← hd]
    refine ⟨hscan, Iff.rfl, fun hopen => ?_⟩
    obtain ⟨tag, hfind, htag, htagLine⟩ := findOpenTag_of_scan hscan hopen
    have hbqOpenTag : (s.newPart limit line).bqOpenTag = tag := by
      rw [newPart_bqOpenTag, hline, if_pos hopen, hfind, Option.getD_some]
    rw [hbqOpenTag]
    exact ⟨htag, hroom.roomFor htag htagLine⟩

/-- Where there is room for its tag, it is kept up when the line is cut. -/
theorem newPart_wrapped (hlimit : 1 ≤ limit)
    (hroom : (s.newPart limit line).inBlockquote = true →
      RoomFor limit (s.newPart limit line).bqOpenTag) :
    (s.newPart limit line).wrapped = (s.newPart limit line).inBlockquote := by
  have henabled : (s.newPart limit line).enabled = true := by
    refine tagEnabled_of_room hlimit fun h => hroom ?_
    rw [Bool.and_eq_true] at h
    exact h.1
  rw [NewPart.wrapped, henabled, Bool.true_and]

/-- The part that a line begins, and those that it is cut into. -/
theorem Follows.begin (hs : s.Follows limit d) (hlimit : 1 ≤ limit) (hscan : scan d line = some d')
    (hroom : HasRoom limit line) (hbefore : before.foldlM scan false = some d)
    (hkeeps : KeepsBlockquotes limit before s line) (hfits : ¬ s.Fits limit line)
    {current : List Char}
    (hcut : ¬ Overflows limit (s.newPart limit line).wrapped (s.newPart limit line).line ∧
        parts = s.flush limit (s.enabled limit line) ∧ current = (s.newPart limit line).line ∨
      Overflows limit (s.newPart limit line).wrapped (s.newPart limit line).line ∧
        cutLine limit (s.newPart limit line).wrapped (s.newPart limit line).bqOpenTag fuel
          (s.newPart limit line).line (s.flush limit (s.enabled limit line)) =
            some (parts, current)) :
    (∀ part ∈ parts, Linewise part) ∧ scan false current = some d' ∧
      ((s.newPart limit line).inBlockquote = true → ¬ Overflows limit true current) := by
  obtain ⟨hd, hcuts⟩ := hkeeps hfits
  have hd : d = true → s.inBlockquote = true := fun h => hd (h ▸ hbefore)
  obtain ⟨hline, hopen, htag⟩ := hs.newPart hlimit hscan hroom hd
  rw [hs.enabled hlimit hscan hroom] at hcut
  rw [newPart_wrapped hlimit fun h => (htag h).2] at hcut hcuts
  rcases hcut with ⟨hover, rfl, rfl⟩ | ⟨-, hcut⟩
  · exact ⟨hs.flush hd, hline, fun h => by rwa [h] at hover⟩
  · cases hin : (s.newPart limit line).inBlockquote with
    | true =>
      rw [hin] at hcut
      obtain ⟨hparts, hcurrent, hover⟩ :=
        cutLine_quoted hlimit (htag hin).1 (htag hin).2 (hcuts hin) hline (hs.flush hd) hcut
      exact ⟨hparts, hcurrent, fun _ => hover⟩
    | false =>
      have hplain : ¬ openWord <:+: (s.newPart limit line).line := by
        rw [← hopen, hin]
        exact Bool.false_ne_true
      rw [hin] at hcut
      obtain ⟨hparts, hcurrent⟩ :=
        cutLine_plain hline hplain (hs.flush hd) hcut
      refine ⟨hparts, ?_, fun h => absurd h Bool.false_ne_true⟩
      rw [(outside_of_scan hline hplain).1]
      exact linewise_of_isInfix hline hplain hcurrent

/-- A line keeps the state to the text. -/
theorem Follows.step (hs : s.Follows limit d) (hlimit : 1 ≤ limit) (hscan : scan d line = some d')
    (hroom : HasRoom limit line) (hbefore : before.foldlM scan false = some d)
    (hkeeps : KeepsBlockquotes limit before s line) (h : s.step fuel limit line = some s') :
    s'.Follows limit d' := by
  rcases step_cases h with ⟨hfits, rfl⟩ | ⟨hfits, parts, current, hcut, rfl⟩
  · exact hs.extend hlimit hscan hroom hfits
  obtain ⟨hparts, hcurrent, hover⟩ :=
    hs.begin hlimit hscan hroom hbefore hkeeps hfits hcut
  obtain ⟨hline, hopen, htag⟩ :=
    hs.newPart hlimit hscan hroom fun h => (hkeeps hfits).1 (h ▸ hbefore)
  have hflag : ((s.newPart limit line).keep parts current).inBlockquote = true →
      (s.newPart limit line).inBlockquote = true ∧
        ¬ closeTag <:+: (s.newPart limit line).line := by
    intro h
    simpa [NewPart.keep] using h
  have hinside : ((s.newPart limit line).keep parts current).inBlockquote = true → d' = true :=
    fun h => inside_of_scan hline (hflag h).2 (.inr (hopen.mp (hflag h).1))
  refine ⟨hparts, hcurrent, hinside, fun h => ?_, fun h => htag (hflag h).1⟩
  have hover := hover (hflag h).1
  rw [hinside h] at hcurrent
  rw [Overflows, neededClose, if_pos ⟨rfl, not_closeTag_suffix hcurrent⟩] at hover
  exact not_lt.mp hover

/-- The parts of a well formed text are well formed. -/
theorem run_quoted (hlimit : 1 ≤ limit) (hroom : ∀ line ∈ lines, HasRoom limit line)
    (hscan : lines.foldlM scan false = some false)
    (hkeeps : AtEachLine limit (KeepsBlockquotes limit) [] {} lines)
    (hrun : lines.foldlM (SplitState.step fuel limit) {} = some s') :
    ∀ part ∈ s'.finish limit, Linewise part := by
  have hstart : ({} : SplitState).Follows limit false :=
    ⟨by simp, rfl, by simp, by simp, by simp⟩
  have hfollows : ∀ d, ([] ++ lines).foldlM scan false = some d → s'.Follows limit d := by
    refine run_induct (I := fun before s => ∀ d, before.foldlM scan false = some d →
      s.Follows limit d) ?_ hkeeps ?_ hrun
    · intro before s line s' hline hkeeps hs hstep d' hd'
      rw [List.foldlM_append] at hd'
      obtain ⟨d, hd, hscan⟩ := Option.bind_eq_some_iff.mp hd'
      simp only [List.foldlM_cons, List.foldlM_nil, bind_pure] at hscan
      exact (hs d hd).step hlimit hscan (hroom line hline) hd hkeeps hstep
    · intro d hd
      rw [List.foldlM_nil, Option.pure_def, Option.some.injEq] at hd
      rw [← hd]
      exact hstart
  have hs := hfollows false hscan
  have hflag : s'.inBlockquote = false := by
    rw [← Bool.not_eq_true]
    intro h
    exact absurd (hs.inside h) Bool.false_ne_true
  rw [finish, hflag, tagEnabled_of_room (d := false) hlimit fun h => absurd h Bool.false_ne_true]
  exact hs.flush fun h => absurd h Bool.false_ne_true

end SplitState

end Just1kBot
