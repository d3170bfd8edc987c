import ApiContract.Yaml.Cursor
import ApiContract.Decimal.Reader
/-!
# Scalars in quotes

Between single quotes every character stands for itself, and a quote is written twice; between double
quotes there are escapes. Scalars can go on over several lines, which are folded.
-/

namespace ApiContract.Yaml

/-- What the breaks between two lines of text stand for: one line feed is a blank, and of more the
first is dropped. -/
def foldBreaks : List Char → List Char
  | ['\n'] => [' ']
  | '\n' :: more => more
  | breaks => breaks

/-- What stands between two words: blanks within a line are kept, and breaks are folded. -/
def gapText (gap : List Char) : List Char :=
  let breaks := gap.filter isBreak
  if breaks.isEmpty then gap else foldBreaks breaks

/-- A part of a scalar in quotes. -/
inductive QuotedPart where
  | closing
  | text (cs : List Char)
deriving DecidableEq, Repr, Inhabited

/-- The part of a scalar in single quotes that stands at a place, and the place after it. -/
def singlePart? (c : Cursor) : Option (QuotedPart × Cursor) :=
  match c.rest with
  | [] => none
  | '\'' :: '\'' :: _ => some (.text ['\''], c.skip 2)
  | '\'' :: _ => some (.closing, c.next)
  | x :: _ =>
    if isGap x then
      let (gap, c) := c.span isGap
      some (.text (gapText gap), c)
    else some (.text [x], c.next)

/-- The character that one character after a backslash stands for. -/
def shortEscape? : Char → Option Char
  | '0' => some '\x00'
  | 'a' => some '\x07'
  | 'b' => some '\x08'
  | 't' => some '\t'
  | '\t' => some '\t'
  | 'n' => some '\n'
  | 'v' => some '\x0b'
  | 'f' => some '\x0c'
  | 'r' => some '\r'
  | 'e' => some '\x1b'
  | ' ' => some ' '
  | '"' => some '"'
  | '/' => some '/'
  | '\\' => some '\\'
  | 'N' => some '\x85'
  | '_' => some '\xa0'
  | 'L' => some '\u2028'
  | 'P' => some '\u2029'
  | _ => none

/-- The number of hexadecimal digits in an escape. -/
def escapeWidth? : Char → Option Nat
  | 'x' => some 2
  | 'u' => some 4
  | 'U' => some 8
  | _ => none

/-- The character of a code point, unless it is a surrogate or none at all. -/
def charOf? (n : Nat) : Option Char := if n.isValidChar then some (Char.ofNat n) else none

/-- The character that an escape stands for, and the number of characters after its backslash. -/
def escape? : List Char → Option (Char × Nat)
  | [] => none
  | x :: rest =>
    match escapeWidth? x with
    | none => (shortEscape? x).map fun c => (c, 1)
    | some width =>
      let digits := rest.take width
      if digits.length = width then
        ((Decimal.readDigits? 16 digits).bind charOf?).map fun c => (c, width + 1)
      else none

/-- The part of a scalar in double quotes that stands at a place, and the place after it. A break
after a backslash joins two lines. -/
def doublePart? (c : Cursor) : Option (QuotedPart × Cursor) :=
  match c.rest with
  | [] => none
  | '"' :: _ => some (.closing, c.next)
  | '\\' :: rest =>
    if rest.head?.any isBreak then
      let (gap, c) := (c.skip 2).span isGap
      some (.text (gap.filter isBreak), c)
    else (escape? rest).map fun (x, width) => (.text [x], c.skip (width + 1))
  | x :: _ =>
    if isGap x then
      let (gap, c) := c.span isGap
      some (.text (gapText gap), c)
    else some (.text [x], c.next)

/-- The text of a scalar in quotes up to its closing quote, and the place after it. `sofar` holds the
text before this place, latest first. -/
def quotedFrom (part? : Cursor → Option (QuotedPart × Cursor)) :
    (fuel : Nat) → Cursor → (sofar : List Char) → Option (List Char × Cursor)
  | 0, _, _ => none
  | fuel + 1, c, sofar =>
    if c.isAtDocumentMarker then none
    else
      match part? c with
      | none => none
      | some (.closing, c) => some (sofar.reverse, c)
      | some (.text cs, c) => quotedFrom part? fuel c (cs.reverse ++ sofar)

/-- The text of a scalar whose opening quote stands at a place, and the place after it. `limit` is
more than the number of characters that follow. -/
def quoted? (limit : Nat) (c : Cursor) : Option (List Char × Cursor) :=
  quotedFrom (if c.isAt '"' then doublePart? else singlePart?) limit c.next []

end ApiContract.Yaml
