import Just1kBot.Lib.Url
import Mathlib.Data.List.DropRight
import Mathlib.Data.List.Infix

/-! The normal form of public domains: `normalize_hostname`, `validate_public_fqdn` and
    `normalize_public_domain` of `utils/security.py`.

    A host name is stripped of white space and then of dots, and the check strips it of dots and
    then of white space. So the text that is checked may differ from the text that is returned. -/

namespace Just1kBot
open Lib
open Lib.IpAddress (ipAddress)
open Lib.Python (isSpace stripChars)

/-- `text.rstrip(".")`. -/
def rstripDots (text : List Char) : List Char := text.rdropWhile (· = '.')

def schemeSep : List Char := "://".toList

/-- The host that `normalize_hostname` finds in a stripped text: what `urlparse` says, or else what
    stands before the path. -/
def hostOf (u : Url.Unicode) (val : List Char) : Option (List Char) := do
  let parsed ← Url.urlsplit u (if schemeSep <:+: val then val else '/' :: '/' :: val)
  let _ ← parsed.port
  match parsed.hostname u with
  | some (c :: cs) => some (c :: cs)
  | _ =>
    let netloc :=
      if parsed.netloc ≠ [] then parsed.netloc
      else Url.before '#' (Url.before '?' (Url.before '/' val))
    let netloc := if '@' ∈ netloc then Url.afterLast '@' netloc else netloc
    if ':' ∈ netloc ∧ netloc.head? ≠ some '[' then some (Url.before ':' netloc) else some netloc

/-- The host of an input, before it is cleaned. -/
def rawHost (u : Url.Unicode) (raw : List Char) : Option (List Char) :=
  let val := stripChars raw
  if val = [] ∨ (¬ schemeSep <:+: val ∧ '@' ∈ val) then none else hostOf u val

/-- `normalize_hostname`. -/
def normalizeHostname (u : Url.Unicode) (raw : List Char) : Option (List Char) := do
  let host ← rawHost u raw
  let cleaned := u.lower (rstripDots (stripChars host))
  if cleaned = [] then none else some cleaned

/-- `[a-z0-9]`. -/
def isLowerAlnum (c : Char) : Bool := c.isLower || c.isDigit

/-- `[a-z0-9]([a-z0-9-]*[a-z0-9])?`. -/
def matchesLabel (label : List Char) : Bool :=
  label.head?.any isLowerAlnum && label.getLast?.any isLowerAlnum &&
    label.all fun c => isLowerAlnum c || c = '-'

def punycodeMark : List Char := "xn--".toList

/-- `([a-z]{2,}|xn--[a-z0-9]+)`. -/
def matchesTld (tld : List Char) : Bool :=
  (2 ≤ tld.length && tld.all Char.isLower) ||
    (punycodeMark <+: tld && 5 ≤ tld.length && (tld.drop 4).all isLowerAlnum)

/-- `localhost`, or a name under one of the local domains. -/
def isLocalName (name : List Char) : Bool :=
  name = "localhost".toList || ".localhost".toList <:+ name || ".local".toList <:+ name ||
    ".internal".toList <:+ name || ".arpa".toList <:+ name

/-- `validate_public_fqdn`. -/
def validatePublicFqdn (u : Url.Unicode) (host : List Char) : Bool :=
  let cleaned := stripChars (rstripDots host)
  if cleaned = [] ∨ 253 < cleaned.length then false
  else if ¬ cleaned.all fun c => c.isAlphanum || c = '.' || c = '-' then false
  else if (ipAddress cleaned).isSome then false
  else
    let lower := u.lower cleaned
    let labels := lower.splitOn '.'
    !isLocalName lower && 2 ≤ labels.length &&
      (labels.all fun label => 1 ≤ label.length && label.length ≤ 63 && matchesLabel label) &&
      labels.getLast?.any matchesTld

/-- `normalize_public_domain`. -/
def normalizePublicDomain (u : Url.Unicode) (raw : List Char) (requireFqdn : Bool) :
    Option (List Char) := do
  let host ← normalizeHostname u raw
  if requireFqdn ∧ ¬ validatePublicFqdn u host then none else some host

/-! ### The grammar -/

/-- A public domain in normal form. -/
structure IsPublicDomain (d : List Char) : Prop where
  length : d.length ≤ 253
  labels : 2 ≤ (d.splitOn '.').length
  label : ∀ l ∈ d.splitOn '.', 1 ≤ l.length ∧ l.length ≤ 63 ∧
    (∀ c ∈ l, isLowerAlnum c = true ∨ c = '-') ∧ l.head? ≠ some '-' ∧ l.getLast? ≠ some '-'
  tld : ∀ l ∈ (d.splitOn '.').getLast?, (2 ≤ l.length ∧ ∀ c ∈ l, c.isLower = true) ∨
    (punycodeMark <+: l ∧ 5 ≤ l.length ∧ ∀ c ∈ l.drop 4, isLowerAlnum c = true)
  noSpace : ∀ c ∈ d, isSpace c = false
  noDot : d.getLast? ≠ some '.'
  address : ipAddress d = none
  name : isLocalName d = false

/-- A character of a public domain. -/
def IsDomainChar (c : Char) : Prop := isLowerAlnum c = true ∨ c = '-' ∨ c = '.'

theorem isAscii_of_isAlphanum {c : Char} (h : c.isAlphanum = true) : Url.isAscii c = true := by
  change ((c.isUpper || c.isLower) || c.isDigit) = true at h
  rw [Bool.or_eq_true, Bool.or_eq_true] at h
  rcases h with (h | h) | h
  · exact Url.isAscii_of_isUpper h
  · have hbounds : decide ('a'.val ≤ c.val) = true ∧ decide (c.val ≤ 'z'.val) = true :=
      (Bool.and_eq_true _ _).mp h
    rw [Url.isAscii, decide_eq_true_eq]
    exact (UInt32.le_iff_toNat_le.1 (of_decide_eq_true hbounds.2)).trans_lt (by decide)
  · rw [Char.isDigit_iff_toNat] at h
    rw [Url.isAscii, decide_eq_true_eq]
    exact h.2.trans_lt (by decide)

theorem IsDomainChar.facts {c : Char} (h : IsDomainChar c) :
    Url.Plain c ∧ isSpace c = false ∧ c.isUpper = false ∧ c.toLower = c ∧
      (c.isAlphanum = true ∨ c = '.' ∨ c = '-') := by
  have hascii : Url.isAscii c = true := by
    rcases h with h | rfl | rfl
    · refine isAscii_of_isAlphanum ?_
      rw [isLowerAlnum, Bool.or_eq_true] at h
      change ((c.isUpper || c.isLower) || c.isDigit) = true
      rcases h with h | h <;> simp [h]
    · rfl
    · rfl
  revert h
  exact Url.forall_isAscii (P := fun c => IsDomainChar c → Url.Plain c ∧ isSpace c = false ∧
    c.isUpper = false ∧ c.toLower = c ∧ (c.isAlphanum = true ∨ c = '.' ∨ c = '-'))
    (by unfold IsDomainChar; decide +kernel) hascii

theorem forall_mem_intercalate {P : Char → Prop} (sep : Char) (hsep : P sep)
    (labels : List (List Char)) (h : ∀ l ∈ labels, ∀ c ∈ l, P c) :
    ∀ c ∈ [sep].intercalate labels, P c := by
  induction labels with
  | nil => exact fun c hc => absurd hc List.not_mem_nil
  | cons l labels ih =>
    obtain ⟨hl, hlabels⟩ := List.forall_mem_cons.mp h
    cases labels with
    | nil => rwa [List.intercalate_singleton]
    | cons l' labels =>
      intro c hc
      rw [List.intercalate_cons_cons] at hc
      simp only [List.mem_append, List.mem_singleton] at hc
      rcases hc with (hc | rfl) | hc
      · exact hl c hc
      · exact hsep
      · exact ih hlabels c hc

/-- Where the labels have letters, digits and hyphens only, so has the name but for its dots. -/
theorem isDomainChar_of_labels {d : List Char}
    (h : ∀ l ∈ d.splitOn '.', ∀ c ∈ l, isLowerAlnum c = true ∨ c = '-') :
    ∀ c ∈ d, IsDomainChar c := by
  have hall := forall_mem_intercalate (P := IsDomainChar) '.' (.inr (.inr rfl)) (d.splitOn '.')
    fun l hl c hc => (h l hl c hc).imp_right .inl
  rwa [List.intercalate_splitOn] at hall

theorem matchesLabel_iff {l : List Char} :
    matchesLabel l = true ↔ l ≠ [] ∧ (∀ c ∈ l, isLowerAlnum c = true ∨ c = '-') ∧
      l.head? ≠ some '-' ∧ l.getLast? ≠ some '-' := by
  have hhyphen : isLowerAlnum '-' = false := by decide
  have hend : ∀ {c : Char}, isLowerAlnum c = true ∨ c = '-' →
      (isLowerAlnum c = true ↔ c ≠ '-') := by
    rintro c (hc | rfl)
    · refine ⟨fun _ => ?_, fun _ => hc⟩
      rintro rfl
      rw [hhyphen] at hc
      cases hc
    · simp [hhyphen]
  have hall : (l.all fun c => isLowerAlnum c || c = '-') = true ↔
      ∀ c ∈ l, isLowerAlnum c = true ∨ c = '-' := by simp
  rw [matchesLabel, Bool.and_eq_true, Bool.and_eq_true, hall]
  cases l with
  | nil => simp
  | cons a l =>
    obtain ⟨b, hb⟩ : ∃ b, (a :: l).getLast? = some b := ⟨_, List.getLast?_eq_some_getLast (by simp)⟩
    rw [hb, List.head?_cons]
    simp only [Option.any_some, ne_eq, reduceCtorEq, not_false_eq_true, true_and, Option.some.injEq]
    constructor
    · rintro ⟨⟨ha, hlast⟩, hchars⟩
      exact ⟨hchars, (hend (.inl ha)).mp ha, (hend (.inl hlast)).mp hlast⟩
    · rintro ⟨hchars, ha, hlast⟩
      exact ⟨⟨(hend (hchars a List.mem_cons_self)).mpr ha,
        (hend (hchars b (List.mem_of_getLast? hb))).mpr hlast⟩, hchars⟩

theorem matchesTld_iff {l : List Char} :
    matchesTld l = true ↔ (2 ≤ l.length ∧ ∀ c ∈ l, c.isLower = true) ∨
      (punycodeMark <+: l ∧ 5 ≤ l.length ∧ ∀ c ∈ l.drop 4, isLowerAlnum c = true) := by
  simp [matchesTld, and_assoc]

section
variable {u : Url.Unicode} (hu : u.Documented)
include hu

/-- A lower-case name of ASCII is lowered to itself. -/
theorem lower_eq_self {text : List Char} (h : ∀ c ∈ text, Url.isAscii c = true ∧ c.toLower = c) :
    u.lower text = text := by
  rw [hu.lower_ascii fun c hc => (h c hc).1]
  exact (List.map_congr_left fun c hc => (h c hc).2).trans (List.map_id' text)

/-- What the check accepts of a name without capital letters. -/
theorem validatePublicFqdn_iff {host : List Char} (hupper : ∀ c ∈ host, c.isUpper = false) :
    validatePublicFqdn u host = true ↔ IsPublicDomain (stripChars (rstripDots host)) := by
  have hsub : ∀ c ∈ stripChars (rstripDots host), c ∈ host := fun c hc =>
    (List.rdropWhile_prefix _ _).subset
      ((List.dropWhile_suffix _).subset ((List.rdropWhile_prefix isSpace _).subset hc))
  simp only [validatePublicFqdn]
  generalize stripChars (rstripDots host) = d at *
  have hchar : (∀ c ∈ d, c.isAlphanum = true ∨ c = '.' ∨ c = '-') → ∀ c ∈ d, IsDomainChar c := by
    intro h c hc
    rcases h c hc with halnum | rfl | rfl
    · refine .inl ?_
      change ((c.isUpper || c.isLower) || c.isDigit) = true at halnum
      rwa [hupper c (hsub c hc), Bool.false_or] at halnum
    · exact .inr (.inr rfl)
    · exact .inr (.inl rfl)
  have hlower : (∀ c ∈ d, IsDomainChar c) → u.lower d = d := fun h =>
    lower_eq_self hu fun c hc => ⟨(h c hc).facts.1.1, (h c hc).facts.2.2.2.1⟩
  have hclass_iff : (d.all fun c => c.isAlphanum || c = '.' || c = '-') = true ↔
      ∀ c ∈ d, c.isAlphanum = true ∨ c = '.' ∨ c = '-' := by
    simp only [List.all_eq_true, Bool.or_eq_true, decide_eq_true_eq, or_assoc]
  constructor
  · intro h
    split at h
    · cases h
    split at h
    · cases h
    split at h
    · cases h
    next hlen hclass haddr =>
    have hchars : ∀ c ∈ d, IsDomainChar c := hchar (hclass_iff.mp (not_not.mp hclass))
    rw [hlower hchars] at h
    simp only [Bool.and_eq_true, Bool.not_eq_true', decide_eq_true_eq, List.all_eq_true,
      matchesLabel_iff, Option.any_eq_true, matchesTld_iff] at h
    obtain ⟨⟨⟨hname, hlabels⟩, hlabel⟩, last, hlast, htld⟩ := h
    refine ⟨by omega, hlabels, ?_, ?_, fun c hc => (hchars c hc).facts.2.1, ?_, ?_, hname⟩
    · intro l hl
      obtain ⟨⟨hpos, hmax⟩, -, hl⟩ := hlabel l hl
      exact ⟨hpos, hmax, hl⟩
    · intro l hl
      obtain rfl := Option.some.inj (hlast.symm.trans hl)
      exact htld
    · intro hdot
      obtain ⟨d', rfl⟩ := List.getLast?_eq_some_iff.mp hdot
      have hempty : [] ∈ (d' ++ ['.']).splitOn '.' := by
        rw [List.splitOn_append_cons_self]
        simp
      exact absurd (hlabel [] hempty).1.1 (by decide)
    · simpa using haddr
  · intro h
    have hchars : ∀ c ∈ d, IsDomainChar c :=
      isDomainChar_of_labels fun l hl => (h.label l hl).2.2.1
    have halnum : ∀ c ∈ d, c.isAlphanum = true ∨ c = '.' ∨ c = '-' :=
      fun c hc => (hchars c hc).facts.2.2.2.2
    have hne : d ≠ [] := by
      rintro rfl
      have hlabels := h.labels
      simp at hlabels
    have hlen := h.length
    obtain ⟨last, hlast⟩ : ∃ l, (d.splitOn '.').getLast? = some l :=
      ⟨_, List.getLast?_eq_some_getLast (List.splitOn_ne_nil _ _)⟩
    rw [if_neg (by simp [hne, hlen]), if_neg (not_not.mpr (hclass_iff.mpr halnum)),
      if_neg (by simp [h.address]), hlower hchars]
    simp only [Bool.and_eq_true, Bool.not_eq_true', decide_eq_true_eq, List.all_eq_true,
      matchesLabel_iff, Option.any_eq_true, matchesTld_iff]
    refine ⟨⟨⟨h.name, h.labels⟩, fun l hl => ?_⟩, last, hlast, h.tld last hlast⟩
    obtain ⟨hpos, hmax, hl⟩ := h.label l hl
    refine ⟨⟨hpos, hmax⟩, ?_, hl⟩
    rintro rfl
    exact absurd hpos (by decide)

end

/-! ### The two trims -/

/-- Without white space at either end. -/
def Trimmed (text : List Char) : Prop :=
  (∀ c ∈ text.head?, isSpace c = false) ∧ ∀ c ∈ text.getLast?, isSpace c = false

theorem rdropWhile_eq_self {p : Char → Bool} {text : List Char}
    (h : ∀ c ∈ text.getLast?, p c = false) : text.rdropWhile p = text := by
  refine (List.rdropWhile_eq_self_iff ..).mpr fun hne => ?_
  rw [h _ (List.getLast?_eq_some_getLast hne)]
  exact Bool.false_ne_true

theorem rdropWhile_append {p : Char → Bool} {text tail : List Char} (h : ∀ c ∈ tail, p c = true) :
    (text ++ tail).rdropWhile p = text.rdropWhile p := by
  induction tail using List.reverseRecOn with
  | nil => rw [List.append_nil]
  | append_singleton tail c ih =>
    rw [← List.append_assoc, List.rdropWhile_concat_pos _ _ _ (h c (by simp))]
    exact ih fun c' hc' => h c' (List.mem_append_left _ hc')

theorem getLast_rdropWhile {p : Char → Bool} {text : List Char} :
    ∀ c ∈ (text.rdropWhile p).getLast?, p c = false := by
  intro c hc
  have hne : text.rdropWhile p ≠ [] := by
    rintro heq
    rw [heq] at hc
    cases hc
  have hlast := List.rdropWhile_last_not p text hne
  obtain rfl := Option.some.inj ((List.getLast?_eq_some_getLast hne).symm.trans hc)
  simpa using hlast

theorem head_dropWhile {p : Char → Bool} {text : List Char} :
    ∀ c ∈ (text.dropWhile p).head?, p c = false := by
  induction text with
  | nil => intro c hc; cases hc
  | cons a text ih =>
    intro c hc
    rcases ha : p a with _ | _
    · rw [List.dropWhile_cons_of_neg (by simp [ha])] at hc
      obtain rfl := Option.some.inj hc
      exact ha
    · rw [List.dropWhile_cons_of_pos ha] at hc
      exact ih c hc

/-- A part at the beginning begins with what the text begins with. -/
theorem head_of_part {part text : List Char} (h : part <+: text) :
    ∀ c ∈ part.head?, c ∈ text.head? := by
  intro c hc
  obtain ⟨rest, rfl⟩ := h
  cases part with
  | nil => cases hc
  | cons a part => exact hc

theorem trimmed_stripChars (text : List Char) : Trimmed (stripChars text) := by
  refine ⟨fun c hc => ?_, getLast_rdropWhile⟩
  exact head_dropWhile c (head_of_part (List.rdropWhile_prefix isSpace _) c hc)

theorem Trimmed.stripChars_append {text ws : List Char} (h : Trimmed text) (hne : text ≠ [])
    (hws : ∀ c ∈ ws, isSpace c = true) : stripChars (text ++ ws) = text := by
  have hhead : (text ++ ws).dropWhile isSpace = text ++ ws := by
    cases text with
    | nil => exact absurd rfl hne
    | cons a text => exact List.dropWhile_cons_of_neg (by simp [h.1 a rfl])
  change ((text ++ ws).dropWhile isSpace).rdropWhile isSpace = text
  rw [hhead, rdropWhile_append hws, rdropWhile_eq_self h.2]

theorem Trimmed.stripChars_eq {text : List Char} (h : Trimmed text) (hne : text ≠ []) :
    stripChars text = text := by
  have hnothing := h.stripChars_append hne (List.forall_mem_nil _)
  rwa [List.append_nil] at hnothing

namespace IsPublicDomain
variable {d : List Char} (h : IsPublicDomain d)
include h

theorem ne_nil : d ≠ [] := by
  rintro rfl
  have hlabels := h.labels
  simp at hlabels

theorem chars : ∀ c ∈ d, IsDomainChar c :=
  isDomainChar_of_labels fun l hl => (h.label l hl).2.2.1

theorem trimmed : Trimmed d :=
  ⟨fun c hc => h.noSpace c (List.mem_of_mem_head? hc),
    fun c hc => h.noSpace c (List.mem_of_getLast? hc)⟩

theorem stripChars_eq : stripChars d = d := h.trimmed.stripChars_eq h.ne_nil

theorem rstripDots_eq : rstripDots d = d :=
  rdropWhile_eq_self fun _ hc => decide_eq_false fun heq => h.noDot (heq ▸ hc)

theorem lower_eq {u : Url.Unicode} (hu : u.Documented) : u.lower d = d :=
  lower_eq_self hu fun c hc => ⟨(h.chars c hc).facts.1.1, (h.chars c hc).facts.2.2.2.1⟩

end IsPublicDomain

/-- A public domain with white space and then dots after it. -/
def Slips (u : Url.Unicode) (host : List Char) : Prop :=
  ∃ domain ws dots, stripChars host = domain ++ ws ++ dots ∧
    (ws ≠ [] ∧ ∀ c ∈ ws, isSpace c = true) ∧ (dots ≠ [] ∧ ∀ c ∈ dots, c = '.') ∧
    IsPublicDomain (u.lower domain)

/-- The host as `normalize_hostname` cleans it. -/
def cleaned (u : Url.Unicode) (host : List Char) : List Char :=
  u.lower (rstripDots (stripChars host))

section Trims
variable {u : Url.Unicode} (hu : u.Documented) {host : List Char}
include hu

theorem validate_cleaned_iff : validatePublicFqdn u (cleaned u host) = true ↔
    IsPublicDomain (stripChars (rstripDots (cleaned u host))) :=
  validatePublicFqdn_iff hu fun _ hc => hu.isUpper_lower hc

/-- A host that slips through is returned with its white space. -/
theorem Slips.returned (h : Slips u host) :
    validatePublicFqdn u (cleaned u host) = true ∧ ∃ c ∈ cleaned u host, isSpace c = true := by
  obtain ⟨domain, ws, dots, hhost, ⟨hne, hws⟩, ⟨-, hdots⟩, hdomain⟩ := h
  have hend : ∀ text c, c ∈ (text ++ ws).getLast? → decide (c = '.') = false := by
    intro text c hc
    rw [List.getLast?_append_of_ne_nil _ hne] at hc
    have hspace := hws c (List.mem_of_getLast? hc)
    refine decide_eq_false ?_
    rintro rfl
    revert hspace
    decide
  have hcleaned : cleaned u host = u.lower domain ++ ws := by
    rw [cleaned, rstripDots, hhost, rdropWhile_append (by simpa using hdots),
      rdropWhile_eq_self (hend domain), hu.lower_append_spaces _ hws]
  rw [validate_cleaned_iff hu, hcleaned, rstripDots, rdropWhile_eq_self (hend _),
    hdomain.trimmed.stripChars_append hdomain.ne_nil hws]
  obtain ⟨c, hc⟩ := List.exists_mem_of_ne_nil ws hne
  exact ⟨hdomain, c, List.mem_append_right _ hc, hws c hc⟩

theorem trimmed_lower {text : List Char} (h : Trimmed text) : Trimmed (u.lower text) := by
  refine ⟨hu.head_lower h.1, fun c hc => ?_⟩
  rcases hlast : text.getLast? with _ | last
  · rw [List.getLast?_eq_none_iff.mp hlast] at hc
    cases hc
  · obtain ⟨c', hc', hspace, -⟩ := hu.getLast_lower hlast
    obtain rfl := Option.some.inj (hc'.symm.trans hc)
    exact hspace (h.2 last hlast)

/-- What passes the check is a public domain, or it slips through. -/
theorem domain_or_slips (h : validatePublicFqdn u (cleaned u host) = true) :
    IsPublicDomain (cleaned u host) ∨ Slips u host := by
  rw [validate_cleaned_iff hu] at h
  have hy : Trimmed (stripChars host) := trimmed_stripChars host
  have hsplit : rstripDots (stripChars host) ++ (stripChars host).rtakeWhile (· = '.') =
      stripChars host := List.rdropWhile_append_rtakeWhile ..
  -- the name between the dots and the white space in front of them
  set x := rstripDots (stripChars host) with hx
  have hbody : x.rdropWhile isSpace ++ x.rtakeWhile isSpace = x :=
    List.rdropWhile_append_rtakeWhile ..
  have hws : ∀ c ∈ x.rtakeWhile isSpace, isSpace c = true := fun c hc =>
    List.mem_rtakeWhile_imp hc
  have hhead : ∀ c ∈ x.head?, isSpace c = false := fun c hc =>
    hy.1 c (head_of_part (List.rdropWhile_prefix _ _) c hc)
  have htrimmed : Trimmed (x.rdropWhile isSpace) :=
    ⟨fun c hc => hhead c (head_of_part (List.rdropWhile_prefix _ _) c hc), getLast_rdropWhile⟩
  have hcleaned : cleaned u host = u.lower (x.rdropWhile isSpace) ++ x.rtakeWhile isSpace := by
    rw [← hu.lower_append_spaces _ hws, hbody, cleaned]
  have hne : x ≠ [] := by
    intro hnil
    refine h.ne_nil ?_
    rw [hcleaned, hnil]
    rfl
  have hbodyne : x.rdropWhile isSpace ≠ [] := by
    intro hnil
    obtain ⟨c, hc⟩ := Option.ne_none_iff_exists'.mp (mt List.head?_eq_none_iff.mp hne)
    have hspace := (List.rdropWhile_eq_nil_iff ..).mp hnil c (List.mem_of_mem_head? hc)
    rw [hhead c hc] at hspace
    cases hspace
  have hlowerne : u.lower (x.rdropWhile isSpace) ≠ [] := by
    obtain ⟨c, hc, -⟩ := hu.getLast_lower (List.getLast?_eq_some_getLast hbodyne)
    exact List.ne_nil_of_mem (List.mem_of_getLast? hc)
  have hstrip : stripChars (cleaned u host) = u.lower (x.rdropWhile isSpace) := by
    rw [hcleaned]
    exact (trimmed_lower hu htrimmed).stripChars_append hlowerne hws
  have hdots : rstripDots (cleaned u host) = cleaned u host := by
    refine rdropWhile_eq_self fun c hc => decide_eq_false ?_
    have hlast := List.getLast?_eq_some_getLast hne
    obtain ⟨c', hc', -, hdot⟩ := hu.getLast_lower hlast
    obtain rfl := Option.some.inj (hc'.symm.trans hc)
    exact hdot (of_decide_eq_false (getLast_rdropWhile _ hlast))
  rw [hdots, hstrip] at h
  by_cases hnil : x.rtakeWhile isSpace = []
  · left
    rwa [hcleaned, hnil, List.append_nil]
  · right
    refine ⟨x.rdropWhile isSpace, x.rtakeWhile isSpace, (stripChars host).rtakeWhile (· = '.'),
      by rw [hbody, hsplit], ⟨hnil, hws⟩, ⟨fun hnodots => ?_, fun c hc => ?_⟩, h⟩
    · -- without dots the stripped host would end in white space
      rw [hnodots, List.append_nil] at hsplit
      rw [← hsplit, ← hbody] at hy
      have hlast := List.getLast?_eq_some_getLast hnil
      have hspace := hy.2 _ ((List.getLast?_append_of_ne_nil _ hnil).trans hlast)
      rw [hws _ (List.mem_of_getLast? hlast)] at hspace
      cases hspace
    · simpa using List.mem_rtakeWhile_imp hc

end Trims

theorem normalizePublicDomain_eq_some_iff {u : Url.Unicode} {raw d : List Char} :
    normalizePublicDomain u raw true = some d ↔
      ∃ host ∈ rawHost u raw, cleaned u host = d ∧ validatePublicFqdn u d = true := by
  simp only [normalizePublicDomain, normalizeHostname, Option.bind_eq_bind, Option.bind_eq_some_iff,
    Option.mem_def, true_and, cleaned]
  constructor
  · rintro ⟨_, ⟨host, hhost, hclean⟩, hd⟩
    split at hclean
    · cases hclean
    cases hclean
    split at hd
    · cases hd
    next hvalid =>
    cases hd
    exact ⟨host, hhost, rfl, not_not.mp hvalid⟩
  · rintro ⟨host, hhost, rfl, hvalid⟩
    refine ⟨_, ⟨host, hhost, if_neg ?_⟩, if_neg (not_not.mpr hvalid)⟩
    intro hnil
    rw [hnil] at hvalid
    revert hvalid
    simp [validatePublicFqdn, rstripDots, stripChars]

/-- The host of a public domain is the domain. -/
theorem rawHost_of_domain {u : Url.Unicode} (hu : u.Documented) {d : List Char}
    (h : IsPublicDomain d) : rawHost u d = some d := by
  have hplain : ∀ c ∈ d, Url.Plain c := fun c hc => (h.chars c hc).facts.1
  have hsep : ¬ schemeSep <:+: d := fun hsepIn =>
    Url.notMem_of_plain hplain (c := ':') (by decide) (hsepIn.subset (by decide))
  have hat : '@' ∉ d := Url.notMem_of_plain hplain (by decide)
  simp only [rawHost, h.stripChars_eq]
  rw [if_neg (by simp [h.ne_nil, hat]), hostOf, if_neg hsep, Url.urlsplit_of_plain hplain]
  simp only [Option.bind_eq_bind, Option.bind_some, Url.port_of_plain hplain,
    Url.hostname_of_plain hplain h.ne_nil, h.lower_eq hu]
  obtain ⟨c, cs, rfl⟩ := List.exists_cons_of_ne_nil h.ne_nil
  rfl

/-- A public domain is its own normal form. -/
theorem normalizePublicDomain_self {u : Url.Unicode} (hu : u.Documented) {d : List Char}
    (h : IsPublicDomain d) : normalizePublicDomain u d true = some d := by
  refine normalizePublicDomain_eq_some_iff.mpr ⟨d, rawHost_of_domain hu h, ?_, ?_⟩
  · rw [cleaned, h.stripChars_eq, h.rstripDots_eq, h.lower_eq hu]
  · rw [validatePublicFqdn_iff hu fun c hc => (h.chars c hc).facts.2.2.1, h.rstripDots_eq,
      h.stripChars_eq]
    exact h

/-- What is returned is a public domain and its own normal form, except where a public domain with
    white space and then dots after it slips through. -/
theorem normalized_iff {u : Url.Unicode} (hu : u.Documented) (raw : List Char) :
    (∀ d ∈ normalizePublicDomain u raw true,
      IsPublicDomain d ∧ normalizePublicDomain u d true = some d) ↔
      ∀ host ∈ rawHost u raw, ¬ Slips u host := by
  constructor
  · intro h host hhost hslips
    obtain ⟨hvalid, c, hc, hspace⟩ := hslips.returned hu
    have hd := h _ (normalizePublicDomain_eq_some_iff.mpr ⟨host, hhost, rfl, hvalid⟩)
    rw [hd.1.noSpace c hc] at hspace
    cases hspace
  · intro h d hd
    obtain ⟨host, hhost, rfl, hvalid⟩ := normalizePublicDomain_eq_some_iff.mp hd
    have hdomain := (domain_or_slips hu hvalid).resolve_right (h host hhost)
    exact ⟨hdomain, normalizePublicDomain_self hu hdomain⟩

def plainName : List Char := "Example.com".toList

theorem normalized_iff_plainName :
    Url.Unicode.asciiOnly.Documented ∧
      ∀ d ∈ normalizePublicDomain .asciiOnly plainName true,
        IsPublicDomain d ∧ normalizePublicDomain .asciiOnly d true = some d := by
  refine ⟨Url.Unicode.asciiOnly_documented,
    (normalized_iff Url.Unicode.asciiOnly_documented plainName).mpr ?_⟩
  rintro host hhost ⟨domain, ws, dots, heq, -, ⟨hne, hdots⟩, -⟩
  have hraw : rawHost .asciiOnly plainName = some "example.com".toList := by decide +kernel
  obtain rfl := Option.some.inj (hraw.symm.trans hhost)
  have hlast := List.getLast?_eq_some_getLast hne
  have hend : (stripChars "example.com".toList).getLast? = some '.' := by
    rw [heq, List.getLast?_append_of_ne_nil _ hne, hlast, hdots _ (List.mem_of_getLast? hlast)]
  revert hend
  decide +kernel

def spacedName : List Char := "example.com .".toList

/-- The white space before the last dot is returned. -/
theorem spacedName_slips :
    normalizePublicDomain .asciiOnly spacedName true = some "example.com ".toList ∧
      ¬ ∀ d ∈ normalizePublicDomain .asciiOnly spacedName true,
        IsPublicDomain d ∧ normalizePublicDomain .asciiOnly d true = some d := by
  have hreturned : normalizePublicDomain .asciiOnly spacedName true =
      some "example.com ".toList := by decide +kernel
  refine ⟨hreturned, fun h => ?_⟩
  have hspace := (h _ hreturned).1.noSpace ' ' (by decide)
  revert hspace
  decide

end Just1kBot
