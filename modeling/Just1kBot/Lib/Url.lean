import Just1kBot.Lib.IpAddress
import Just1kBot.Lib.Python
import Mathlib.Data.List.TakeWhile

/-! `urlsplit` of the language's module `urllib.parse`, as far as it finds the scheme and the host.

    What depends on the Unicode tables is a parameter, with what is documented of it as laws. -/

namespace Lib.Url
open IpAddress (ipAddress decimal hexDigit)

def isAscii (c : Char) : Bool := c.toNat < 128

/-- A property of the characters of ASCII. -/
theorem forall_isAscii {P : Char → Prop} (h : ∀ n < 128, P (Char.ofNat n)) {c : Char}
    (hc : isAscii c = true) : P c := by
  rw [← Char.ofNat_toNat c]
  exact h c.toNat (by simpa [isAscii] using hc)

theorem isAscii_of_isUpper {c : Char} (h : c.isUpper = true) : isAscii c = true := by
  have hbounds : 'A'.val ≤ c.val ∧ c.val ≤ 'Z'.val := of_decide_eq_true h
  rw [isAscii, decide_eq_true_eq]
  exact (UInt32.le_iff_toNat_le.1 hbounds.2).trans_lt (by decide)

theorem isUpper_of_not_isAscii {c : Char} (h : isAscii c = false) : c.isUpper = false := by
  rcases hupper : c.isUpper with _ | _
  · rfl
  · rw [isAscii_of_isUpper hupper] at h
    cases h

theorem toLower_of_not_isUpper {c : Char} (h : c.isUpper = false) : c.toLower = c := by
  have hbounds : ¬ ('A'.val ≤ c.val ∧ c.val ≤ 'Z'.val) := of_decide_eq_false h
  exact dif_neg hbounds

theorem isUpper_of_isSpace {c : Char} (h : Python.isSpace c = true) : c.isUpper = false := by
  rcases hascii : isAscii c with _ | _
  · exact isUpper_of_not_isAscii hascii
  · revert h
    exact forall_isAscii (P := fun c => Python.isSpace c = true → c.isUpper = false)
      (by decide +kernel) hascii

theorem toLower_of_isAscii {c : Char} (h : isAscii c = true) :
    c.toLower.isUpper = false ∧ (Python.isSpace c = false → Python.isSpace c.toLower = false) ∧
      (c ≠ '.' → c.toLower ≠ '.') := by
  revert c
  exact fun {c} => forall_isAscii (P := fun c => c.toLower.isUpper = false ∧
    (Python.isSpace c = false → Python.isSpace c.toLower = false) ∧ (c ≠ '.' → c.toLower ≠ '.'))
    (by decide +kernel)

/-- The tables behind `str.lower` and `unicodedata.normalize("NFKC", …)`: what a character is
    lowered to between those before and those after it, and the normal form of a text. -/
structure Unicode where
  lowerAt : List Char → Char → List Char → List Char
  nfkc : List Char → List Char

namespace Unicode
variable (u : Unicode)

def lowerFrom (left : List Char) : List Char → List Char
  | [] => []
  | c :: right => u.lowerAt left c right ++ lowerFrom (left ++ [c]) right

/-- `str.lower`. -/
def lower (text : List Char) : List Char := u.lowerFrom [] text

/-- What is documented of `str.lower`: ASCII letters have their lower case and white space has none.
    No other character is lowered to white space, a dot or a capital letter of ASCII, and white
    space at the end of the text does not matter to the characters before it. -/
structure Documented : Prop where
  ascii : ∀ left c right, isAscii c = true → u.lowerAt left c right = [c.toLower]
  space : ∀ left c right, Python.isSpace c = true → u.lowerAt left c right = [c]
  ne_nil : ∀ left c right, u.lowerAt left c right ≠ []
  other : ∀ left c right, isAscii c = false → Python.isSpace c = false →
    ∀ c' ∈ u.lowerAt left c right, Python.isSpace c' = false ∧ c' ≠ '.' ∧ c'.isUpper = false
  trailing : ∀ left c right ws, (∀ c' ∈ ws, Python.isSpace c' = true) →
    u.lowerAt left c (right ++ ws) = u.lowerAt left c right

/-- Tables in which only the letters of ASCII have a lower case. -/
def asciiOnly : Unicode := ⟨fun _ c _ => [c.toLower], id⟩

theorem asciiOnly_documented : asciiOnly.Documented where
  ascii _ _ _ _ := rfl
  space _ _ _ hc := congrArg (fun c => [c]) (toLower_of_not_isUpper (isUpper_of_isSpace hc))
  ne_nil _ _ _ := List.cons_ne_nil _ _
  other _ c _ hc hspace := by
    intro c' hc'
    have hupper := isUpper_of_not_isAscii hc
    have hlower : c' = c := (List.mem_singleton.mp hc').trans (toLower_of_not_isUpper hupper)
    rw [hlower]
    refine ⟨hspace, ?_, hupper⟩
    rintro rfl
    cases hc
  trailing _ _ _ _ _ := rfl

variable {u} (h : u.Documented)
include h

theorem Documented.lower_ascii {text : List Char} (htext : ∀ c ∈ text, isAscii c = true) :
    u.lower text = text.map Char.toLower := by
  have hfrom : ∀ left, u.lowerFrom left text = text.map Char.toLower := by
    induction text with
    | nil => exact fun _ => rfl
    | cons c right ih =>
      intro left
      obtain ⟨hc, hright⟩ := List.forall_mem_cons.mp htext
      rw [lowerFrom, h.ascii _ _ _ hc, ih hright, List.map_cons, List.singleton_append]
  exact hfrom []

theorem Documented.lower_append_spaces (text : List Char) {ws : List Char}
    (hws : ∀ c ∈ ws, Python.isSpace c = true) : u.lower (text ++ ws) = u.lower text ++ ws := by
  have hspaces : ∀ left, u.lowerFrom left ws = ws := by
    induction ws with
    | nil => exact fun _ => rfl
    | cons c ws ih =>
      intro left
      obtain ⟨hc, hws⟩ := List.forall_mem_cons.mp hws
      rw [lowerFrom, h.space _ _ _ hc, ih hws, List.singleton_append]
  have hfrom : ∀ left, u.lowerFrom left (text ++ ws) = u.lowerFrom left text ++ ws := by
    induction text with
    | nil => exact fun left => hspaces left
    | cons c right ih =>
      intro left
      rw [List.cons_append, lowerFrom, lowerFrom, h.trailing _ _ _ _ hws, ih, List.append_assoc]
  exact hfrom []

/-- What a character is lowered to is no capital letter, and white space or a dot only if it is. -/
theorem Documented.mem_lowerAt {left right : List Char} {c c' : Char}
    (hc' : c' ∈ u.lowerAt left c right) :
    c'.isUpper = false ∧ (Python.isSpace c = false → Python.isSpace c' = false) ∧
      (c ≠ '.' → c' ≠ '.') := by
  rcases hascii : isAscii c with _ | _
  · rcases hspace : Python.isSpace c with _ | _
    · obtain ⟨hs, hdot, hupper⟩ := h.other left c right hascii hspace c' hc'
      exact ⟨hupper, fun _ => hs, fun _ => hdot⟩
    · rw [h.space _ _ _ hspace, List.mem_singleton] at hc'
      subst hc'
      exact ⟨isUpper_of_isSpace hspace, (fun hno => by cases hno), id⟩
  · rw [h.ascii _ _ _ hascii, List.mem_singleton] at hc'
    subst hc'
    exact toLower_of_isAscii hascii

/-- No lowered text has a capital letter of ASCII. -/
theorem Documented.isUpper_lower {text : List Char} {c : Char} (hc : c ∈ u.lower text) :
    c.isUpper = false := by
  have hfrom : ∀ text left, c ∈ u.lowerFrom left text → c.isUpper = false := by
    intro text
    induction text with
    | nil => exact fun _ hc => absurd hc List.not_mem_nil
    | cons d right ih =>
      intro left hc
      rcases List.mem_append.mp hc with hc | hc
      · exact (h.mem_lowerAt hc).1
      · exact ih _ hc
  exact hfrom text [] hc

/-- A lowered text begins with white space only if the text does. -/
theorem Documented.head_lower {text : List Char}
    (hhead : ∀ c ∈ text.head?, Python.isSpace c = false) :
    ∀ c ∈ (u.lower text).head?, Python.isSpace c = false := by
  cases text with
  | nil => exact hhead
  | cons d right =>
    intro c hc
    rw [lower, lowerFrom, List.head?_append_of_ne_nil _ (h.ne_nil _ _ _)] at hc
    exact (h.mem_lowerAt (List.mem_of_mem_head? hc)).2.1 (hhead d rfl)

/-- A lowered text ends with white space or a dot only if the text does. -/
theorem Documented.getLast_lower {text : List Char} {last : Char}
    (hlast : text.getLast? = some last) :
    ∃ c, (u.lower text).getLast? = some c ∧
      (Python.isSpace last = false → Python.isSpace c = false) ∧ (last ≠ '.' → c ≠ '.') := by
  obtain ⟨init, rfl⟩ := List.getLast?_eq_some_iff.mp hlast
  have hfrom : ∀ left, ∃ text', u.lowerFrom left (init ++ [last]) =
      text' ++ u.lowerAt (left ++ init) last [] := by
    induction init with
    | nil => exact fun left => ⟨[], by simp [lowerFrom]⟩
    | cons d init ih =>
      intro left
      obtain ⟨text', htext'⟩ := ih (by simp) (left ++ [d])
      refine ⟨u.lowerAt left d (init ++ [last]) ++ text', ?_⟩
      rw [List.cons_append, lowerFrom, htext', List.append_assoc, List.append_assoc,
        List.singleton_append]
  obtain ⟨text', htext'⟩ := hfrom []
  rcases hc : (u.lowerAt ([] ++ init) last []).getLast? with _ | c
  · exact absurd (List.getLast?_eq_none_iff.mp hc) (h.ne_nil _ _ _)
  · refine ⟨c, ?_, (h.mem_lowerAt (List.mem_of_getLast? hc)).2⟩
    rw [lower, htext', List.getLast?_append_of_ne_nil _ (h.ne_nil _ _ _), hc]

end Unicode

/-! ### Text -/

/-- What `partition` finds before the separator, which is everything if there is none. -/
def before (sep : Char) (text : List Char) : List Char := text.takeWhile (· ≠ sep)

/-- What `partition` finds after the separator. -/
def after (sep : Char) (text : List Char) : List Char := (text.dropWhile (· ≠ sep)).tail

/-- What `rpartition` finds after the last separator. -/
def afterLast (sep : Char) (text : List Char) : List Char :=
  (text.reverse.takeWhile (· ≠ sep)).reverse

theorem before_of_notMem {sep : Char} {text : List Char} (h : sep ∉ text) :
    before sep text = text := by
  refine List.takeWhile_eq_self_iff.mpr fun c hc => ?_
  simpa using fun heq : c = sep => h (heq ▸ hc)

theorem after_of_notMem {sep : Char} {text : List Char} (h : sep ∉ text) : after sep text = [] := by
  rw [after, List.dropWhile_eq_nil_iff.mpr fun c hc => ?_, List.tail_nil]
  simpa using fun heq : c = sep => h (heq ▸ hc)

theorem afterLast_of_notMem {sep : Char} {text : List Char} (h : sep ∉ text) :
    afterLast sep text = text := by
  have hrev : before sep text.reverse = text.reverse := before_of_notMem (by simpa using h)
  rw [afterLast]
  exact (congrArg List.reverse hrev).trans text.reverse_reverse

/-! ### The parts of a network location -/

/-- `_hostinfo`: the host and the port, either of which may be missing. -/
def hostinfo (netloc : List Char) : List Char × List Char :=
  let hostinfo := afterLast '@' netloc
  if '[' ∈ hostinfo then
    let bracketed := after '[' hostinfo
    (before ']' bracketed, after ':' (after ']' bracketed))
  else (before ':' hostinfo, after ':' hostinfo)

/-- `_check_bracketed_host`: an IPv6 address, or an address of a version to come. -/
def checkBracketedHost (hostname : List Char) : Bool :=
  match hostname with
  | 'v' :: rest =>
    let version := rest.takeWhile fun c => (hexDigit c).isSome
    version ≠ [] && match rest.drop version.length with
      | '.' :: _ :: _ => true
      | _ => false
  | _ =>
    match ipAddress hostname with
    | some (.v6 ..) => true
    | _ => false

/-- `_check_bracketed_netloc`: nothing before the bracket, and only a port after it. -/
def checkBracketedNetloc (netloc : List Char) : Bool :=
  let hostnameAndPort := afterLast '@' netloc
  if '[' ∈ hostnameAndPort then
    let bracketed := after '[' hostnameAndPort
    let port := after ']' bracketed
    before '[' hostnameAndPort = [] && (port = [] || port.head? = some ':') &&
      checkBracketedHost (before ']' bracketed)
  else checkBracketedHost (before ':' hostnameAndPort)

/-- `_checknetloc`: no character may stand for a delimiter. -/
def checkNetloc (u : Unicode) (netloc : List Char) : Bool :=
  netloc.all isAscii ||
    let n := netloc.filter fun c => c ∉ ['@', ':', '#', '?']
    n = u.nfkc n || (u.nfkc n).all fun c => c ∉ ['/', '?', '#', '@', ':']

/-- Brackets come in pairs, around an address. -/
def checkBrackets (netloc : List Char) : Bool :=
  if '[' ∈ netloc ∧ ']' ∈ netloc then checkBracketedNetloc netloc
  else '[' ∉ netloc && ']' ∉ netloc

/-! ### The URL -/

structure SplitResult where
  scheme : List Char
  netloc : List Char
  deriving DecidableEq, Repr

/-- `scheme_chars`. -/
def isSchemeChar (c : Char) : Bool := c.isAlphanum || c = '+' || c = '-' || c = '.'

/-- The scheme, and what follows it. -/
def splitScheme (url : List Char) : List Char × List Char :=
  let scheme := before ':' url
  if ':' ∈ url ∧ (scheme.head?.any Char.isAlpha) ∧ scheme.all isSchemeChar then
    (scheme.map Char.toLower, after ':' url)
  else ([], url)

/-- The network location, which follows two slashes. -/
def splitNetloc (rest : List Char) : List Char :=
  match rest with
  | '/' :: '/' :: rest => rest.takeWhile fun c => c ∉ ['/', '?', '#']
  | _ => []

/-- `urlsplit`. -/
def urlsplit (u : Unicode) (url : List Char) : Option SplitResult :=
  let url := (url.dropWhile fun c => c.toNat ≤ 0x20).filter fun c => c ∉ ['\t', '\r', '\n']
  let (scheme, rest) := splitScheme url
  let netloc := splitNetloc rest
  if checkBrackets netloc && checkNetloc u netloc then some ⟨scheme, netloc⟩ else none

namespace SplitResult

/-- `hostname`, in lower case but for the zone. -/
def hostname (u : Unicode) (r : SplitResult) : Option (List Char) :=
  match (hostinfo r.netloc).1 with
  | [] => none
  | c :: cs => some (u.lower (before '%' (c :: cs)) ++ (c :: cs).dropWhile (· ≠ '%'))

/-- `port`, which is `none` for what is no port. -/
def port (r : SplitResult) : Option (Option ℕ) :=
  match (hostinfo r.netloc).2 with
  | [] => some none
  | c :: cs => ((decimal (c :: cs)).filter fun port => port ≤ 65535).map some

end SplitResult

/-! ### Plain host names -/

/-- A character that means nothing to `urlsplit`. -/
def Plain (c : Char) : Prop :=
  isAscii c = true ∧ 0x20 < c.toNat ∧ c ∉ ['/', '?', '#', '[', ']', '@', ':', '%']

instance : DecidablePred Plain := fun c => by unfold Plain; infer_instance

section Plain
variable {u : Unicode} {text : List Char} (h : ∀ c ∈ text, Plain c)
include h

theorem notMem_of_plain {c : Char} (hc : c ∈ ['/', '?', '#', '[', ']', '@', ':', '%']) : c ∉ text :=
  fun hmem => (h c hmem).2.2 hc

theorem hostinfo_of_plain : hostinfo text = (text, []) := by
  have hat := notMem_of_plain h (c := '@') (by decide)
  have hbracket := notMem_of_plain h (c := '[') (by decide)
  have hcolon := notMem_of_plain h (c := ':') (by decide)
  rw [hostinfo, afterLast_of_notMem hat, if_neg hbracket, before_of_notMem hcolon,
    after_of_notMem hcolon]

/-- A plain name after the two slashes is the whole network location. -/
theorem urlsplit_of_plain : urlsplit u ('/' :: '/' :: text) = some ⟨[], text⟩ := by
  have hcontrol : ('/' :: '/' :: text).dropWhile (fun c => c.toNat ≤ 0x20) =
      '/' :: '/' :: text := by
    simp
  have hunsafe : ('/' :: '/' :: text).filter (fun c => c ∉ ['\t', '\r', '\n']) =
      '/' :: '/' :: text := by
    refine List.filter_eq_self.mpr fun c hc => ?_
    have hne : ∀ c' : Char, c'.toNat ≤ 0x20 → c ≠ c' := by
      rintro c' hc' rfl
      rcases List.mem_cons.mp hc with rfl | hc
      · simp at hc'
      · rcases List.mem_cons.mp hc with rfl | hc
        · simp at hc'
        · exact absurd (h c hc).2.1 (by omega)
    simp [hne '\t' (by decide), hne '\r' (by decide), hne '\n' (by decide)]
  have hscheme : splitScheme ('/' :: '/' :: text) = ([], '/' :: '/' :: text) := by
    refine if_neg ?_
    have hcolon := notMem_of_plain h (c := ':') (by decide)
    simp [hcolon]
  have hnetloc : splitNetloc ('/' :: '/' :: text) = text := by
    refine List.takeWhile_eq_self_iff.mpr fun c hc => decide_eq_true fun hmem => ?_
    exact (h c hc).2.2 (List.mem_of_mem_take (i := 3) (by simpa using hmem))
  have hascii : text.all isAscii = true := List.all_eq_true.mpr fun c hc => (h c hc).1
  have hopen := notMem_of_plain h (c := '[') (by decide)
  have hclose := notMem_of_plain h (c := ']') (by decide)
  simp only [urlsplit, hcontrol, hunsafe, hscheme, hnetloc]
  simp [checkBrackets, checkNetloc, hascii, hopen, hclose]

theorem hostname_of_plain (hne : text ≠ []) (scheme : List Char) :
    SplitResult.hostname u ⟨scheme, text⟩ = some (u.lower text) := by
  have hpercent := notMem_of_plain h (c := '%') (by decide)
  have hzone : text.dropWhile (· ≠ '%') = [] :=
    List.dropWhile_eq_nil_iff.mpr fun c hc => by
      simpa using fun heq : c = '%' => hpercent (heq ▸ hc)
  rw [SplitResult.hostname, hostinfo_of_plain h]
  cases text with
  | nil => exact absurd rfl hne
  | cons c cs =>
    dsimp only
    rw [hzone, before_of_notMem hpercent, List.append_nil]

theorem port_of_plain (scheme : List Char) : SplitResult.port ⟨scheme, text⟩ = some none := by
  rw [SplitResult.port, hostinfo_of_plain h]

end Plain

end Lib.Url
