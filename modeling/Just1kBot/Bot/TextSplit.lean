import Just1kBot.Lib.Python
import Mathlib.Data.List.Infix

/-! The splitting of long messages (`split_text_by_lines` of `utils/text_limits.py`).

    Lines are packed into parts of at most `limit` characters. Where a part ends inside a
    blockquote, its closing tag is added there and its opening tag is written again in front of the
    next part; a line that is longer than a part is cut. -/

namespace Just1kBot

open Lib.Python (isSpace)

/-! ### Tags -/

/-- The word that a line is searched for: an opening tag without its end. -/
def openWord : List Char := "<blockquote".toList

def closeWord : List Char := "</blockquote".toList

def defaultOpenTag : List Char := "<blockquote>".toList

def closeTag : List Char := "</blockquote>".toList

/-- `(?:\s+[^>]*)?>` at the beginning of the text. -/
def matchTagEnd : List Char → Option (List Char)
  | [] => none
  | c :: s =>
    if c = '>' then some ['>']
    else if isSpace c ∧ '>' ∈ s then some (c :: s.takeWhile (· ≠ '>') ++ ['>'])
    else none

/-- A tag that begins with `word`, at the beginning of the text. -/
def matchTag (word s : List Char) : Option (List Char) :=
  if word <+: s then (matchTagEnd (s.drop word.length)).map (word ++ ·) else none

/-- The first tag that begins with `word`. -/
def findTag (word : List Char) : List Char → Option (List Char)
  | [] => none
  | c :: s => (matchTag word (c :: s)).or (findTag word s)

/-- `re.search(r"<blockquote(?:\s+[^>]*)?>", line)`. -/
def findOpenTag (line : List Char) : Option (List Char) := findTag openWord line

/-- `re.sub(r"</?blockquote(?:\s+[^>]*)?>", "", text)`, within a match of which `skip` characters
    are still to be passed over. -/
def stripTagsFrom : ℕ → List Char → List Char
  | _, [] => []
  | skip + 1, _ :: s => stripTagsFrom skip s
  | 0, c :: s =>
    match (matchTag openWord (c :: s)).or (matchTag closeWord (c :: s)) with
    | some tag => stripTagsFrom (tag.length - 1) s
    | none => c :: stripTagsFrom 0 s

def stripTags (text : List Char) : List Char := stripTagsFrom 0 text

/-- `min_wrapper` is what the tags take of a part; a part has to hold one more character. -/
def tagEnabled (limit : ℕ) (inBlockquote : Bool) (openTag : List Char) : Bool :=
  (if inBlockquote then openTag.length + closeTag.length else 0) + 1 ≤ limit

/-- The closing tag, where `text` is left open. -/
def neededClose (inBlockquote : Bool) (text : List Char) : List Char :=
  if inBlockquote ∧ ¬ closeTag <:+ text then closeTag else []

/-- `text[:k]`; a negative index counts from the end. -/
def sliceTo (text : List Char) (k : ℤ) : List Char :=
  if 0 ≤ k then text.take k.toNat else text.take (text.length - (-k).toNat)

/-- A part before it is put out: closed, by force where the closing tag does not fit. -/
def closePart (limit : ℕ) (inBlockquote : Bool) (current : List Char) : List Char :=
  if inBlockquote ∧ ¬ closeTag <:+ current then
    if current.length + closeTag.length ≤ limit then current ++ closeTag
    else sliceTo current (limit - closeTag.length) ++ closeTag
  else current

/-! ### A line that is too long -/

/-- `max_content_len`: how much of the remainder the next part takes. -/
def maxContentLen (limit : ℕ) (inBlockquote : Bool) (openTag rem : List Char) : ℕ :=
  let prefixLen := if inBlockquote ∧ openWord <+: rem then openTag.length else 0
  let closeLen := if inBlockquote then closeTag.length else 0
  if limit ≤ prefixLen + closeLen then limit else limit - closeLen

/-- The rest of a cut line, with its opening tag written again. -/
def reopen (inBlockquote : Bool) (openTag rest : List Char) : List Char :=
  if inBlockquote ∧ rest ≠ [] ∧ ¬ openWord <+: rest then openTag ++ rest else rest

/-- The remainder does not fit in a part. -/
def Overflows (limit : ℕ) (inBlockquote : Bool) (rem : List Char) : Prop :=
  limit < rem.length + (neededClose inBlockquote rem).length

instance (limit : ℕ) (inBlockquote : Bool) (rem : List Char) :
    Decidable (Overflows limit inBlockquote rem) :=
  inferInstanceAs (Decidable (_ < _))

/-- The loop that cuts a line; `none` where it does not end within `fuel` rounds. It returns the
    parts and the remainder that is left. -/
def cutLine (limit : ℕ) (inBlockquote : Bool) (openTag : List Char) :
    ℕ → List Char → List (List Char) → Option (List (List Char) × List Char)
  | 0, _, _ => none
  | fuel + 1, rem, parts =>
    if Overflows limit inBlockquote rem then
      let n := maxContentLen limit inBlockquote openTag rem
      cutLine limit inBlockquote openTag fuel (reopen inBlockquote openTag (rem.drop n))
        (parts ++ [rem.take n ++ neededClose inBlockquote (rem.take n)])
    else some (parts, rem)

/-! ### The lines -/

/-- What the loop over the lines keeps. -/
structure SplitState where
  parts : List (List Char) := []
  current : List Char := []
  inBlockquote : Bool := false
  bqOpenTag : List Char := defaultOpenTag
  deriving DecidableEq, Repr

/-- A line that starts a part: `actual_line`, and what holds for it. -/
structure NewPart where
  line : List Char
  inBlockquote : Bool
  bqOpenTag : List Char
  enabled : Bool
  deriving DecidableEq, Repr

/-- Its tags are kept up where it is cut. -/
def NewPart.wrapped (new : NewPart) : Bool := new.enabled && new.inBlockquote

/-- What is kept after the line, with the parts that are put out and the one that is begun. -/
def NewPart.keep (new : NewPart) (parts : List (List Char)) (current : List Char) : SplitState where
  parts
  current
  inBlockquote := new.inBlockquote && !decide (closeTag <:+: new.line)
  bqOpenTag := new.bqOpenTag

namespace SplitState

/-- `will_be_in_bq` of a line as it is. -/
def willBeInBq (s : SplitState) (line : List Char) : Bool :=
  (s.inBlockquote || openWord <:+: line) && !decide (closeTag <:+: line)

/-- `current_open_tag`. -/
def currentOpenTag (line : List Char) : List Char := (findOpenTag line).getD defaultOpenTag

/-- `tag_enabled` of a line as it is. -/
def enabled (s : SplitState) (limit : ℕ) (line : List Char) : Bool :=
  tagEnabled limit (s.willBeInBq line) (currentOpenTag line)

def testCandidate (s : SplitState) (line : List Char) : List Char :=
  if s.current = [] then line else s.current ++ '\n' :: line

/-- The line fits in the part. -/
def Fits (s : SplitState) (limit : ℕ) (line : List Char) : Prop :=
  (s.testCandidate line).length +
    (neededClose (s.enabled limit line && s.willBeInBq line) line).length ≤ limit

instance (s : SplitState) (limit : ℕ) (line : List Char) : Decidable (s.Fits limit line) :=
  inferInstanceAs (Decidable (_ ≤ _))

/-- The line is added to the part. -/
def extend (s : SplitState) (line : List Char) : SplitState where
  parts := s.parts
  current := s.testCandidate line
  inBlockquote := (s.inBlockquote || openWord <:+: line) && !decide (closeTag <:+: line)
  bqOpenTag := if openWord <:+: line then currentOpenTag line else s.bqOpenTag

/-- The parts, after the last one has been put out. -/
def flush (s : SplitState) (limit : ℕ) (enabled : Bool) : List (List Char) :=
  if s.current = [] then s.parts
  else s.parts ++ [closePart limit (enabled && s.inBlockquote) s.current]

/-- The line that starts the next part. -/
def newPart (s : SplitState) (limit : ℕ) (line : List Char) : NewPart :=
  let actualLine :=
    if s.enabled limit line ∧ s.inBlockquote ∧ ¬ openWord <+: line then s.bqOpenTag ++ line
    else line
  let inBlockquote := s.inBlockquote || openWord <:+: actualLine
  let bqOpenTag :=
    if openWord <:+: actualLine then (findOpenTag actualLine).getD s.bqOpenTag else s.bqOpenTag
  { line := actualLine
    inBlockquote
    bqOpenTag
    enabled := tagEnabled limit (inBlockquote && !decide (closeTag <:+ actualLine)) bqOpenTag }

/-- One line; `none` where it is cut without end. -/
def step (fuel limit : ℕ) (s : SplitState) (line : List Char) : Option SplitState :=
  if s.Fits limit line then some (s.extend line)
  else
    let new := s.newPart limit line
    let parts := s.flush limit (s.enabled limit line)
    let cut :=
      if Overflows limit new.wrapped new.line then
        cutLine limit new.wrapped new.bqOpenTag fuel new.line parts
      else some (parts, new.line)
    cut.map fun cut => new.keep cut.1 cut.2

/-- The parts at the end of the text. -/
def finish (s : SplitState) (limit : ℕ) : List (List Char) :=
  s.flush limit (tagEnabled limit s.inBlockquote s.bqOpenTag)

end SplitState

/-- Where not even one character fits between a pair of tags, the text loses them. -/
def strippedFor (limit : ℕ) (text : List Char) : List Char :=
  if limit < 37 ∧ openWord <:+: text then stripTags text else text

/-- `split_text_by_lines`, with `fuel` rounds for the cutting of a line. -/
def splitTextByLines (fuel limit : ℕ) (text : List Char) : Option (List (List Char)) :=
  if text.length ≤ limit then some [text]
  else if (strippedFor limit text).length ≤ limit then some [strippedFor limit text]
  else
    (((strippedFor limit text).splitOn '\n').foldlM (SplitState.step fuel limit) {}).map
      (SplitState.finish · limit)

end Just1kBot
