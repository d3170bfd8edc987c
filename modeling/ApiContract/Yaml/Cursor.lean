/-!
# Places in a text

A `Cursor` is a place in a text: what follows it, and its line and column, both counted from zero.
Indentation is a matter of columns, and some constructs have to end on the line they begin on.
-/

namespace ApiContract.Yaml

/-- Whether a character may stand in a text at all. -/
def isAdmitted (c : Char) : Bool :=
  let n := c.toNat
  n = 0x9 || n = 0xA || n = 0xD || (0x20 ≤ n && n ≤ 0x7E) || n = 0x85
    || (0xA0 ≤ n && n ≤ 0xFFFD) || 0x10000 ≤ n

/-- Whether a character separates words within a line. -/
def isBlank (c : Char) : Bool := c = ' ' || c = '\t'

/-- Whether a character ends a line. -/
def isBreak (c : Char) : Bool := c = '\n' || c = '\u2028' || c = '\u2029'

/-- Whether a character stands between words. -/
def isGap (c : Char) : Bool := isBlank c || isBreak c

/-- Whether a character may stand in the name of an anchor. -/
def isNameChar (c : Char) : Bool := c.isAlphanum || c = '-' || c = '_'

/-- A text whose lines all end in one character. Line and paragraph separators stay themselves; all
other breaks are line feeds. -/
def unifyBreaks : List Char → List Char
  | [] => []
  | '\r' :: '\n' :: rest => '\n' :: unifyBreaks rest
  | c :: rest => (if c = '\r' || c = '\x85' then '\n' else c) :: unifyBreaks rest

/-- A place in a text. -/
structure Cursor where
  rest : List Char
  line : Nat
  column : Nat
deriving DecidableEq, Repr, Inhabited

namespace Cursor

/-- The first place in a text. A byte order mark is no part of the text, but has a column. -/
def start (cs : List Char) : Cursor :=
  match cs with
  | '\ufeff' :: rest => ⟨rest, 0, 1⟩
  | cs => ⟨cs, 0, 0⟩

/-- The character at a place. -/
def head? (c : Cursor) : Option Char := c.rest.head?

/-- Whether this character stands at a place. -/
def isAt (c : Cursor) (x : Char) : Bool := c.head? = some x

/-- Whether a break or the end of the text stands at a place. -/
def isAtLineEnd (c : Cursor) : Bool := c.head?.all isBreak

/-- The place one character further. -/
def next (c : Cursor) : Cursor :=
  match c.rest with
  | [] => c
  | x :: rest => if isBreak x then ⟨rest, c.line + 1, 0⟩ else ⟨rest, c.line, c.column + 1⟩

/-- The place so many characters further. -/
def skip (c : Cursor) : Nat → Cursor
  | 0 => c
  | n + 1 => c.next.skip n

/-- The characters at a place that pass a test, and the place after them. -/
def span (test : Char → Bool) (c : Cursor) : List Char × Cursor :=
  let run := c.rest.takeWhile test
  (run, c.skip run.length)

/-- The place after the characters that pass a test. -/
def skipWhile (test : Char → Bool) (c : Cursor) : Cursor := (c.span test).2

/-- The end of the line, if nothing but blanks and a comment stands before it. -/
def lineEnd? (c : Cursor) : Option Cursor :=
  let c := c.skipWhile isBlank
  let c := if c.isAt '#' then c.skipWhile fun x => !isBreak x else c
  if c.isAtLineEnd then some c else none

/-- Whether a word ends before the rest of a text. -/
def endsWord (rest : List Char) : Bool := rest.head?.all isGap

/-- Whether a line begins with three of these characters as a word of its own. -/
def isAtMarker (c : Cursor) (x : Char) : Bool :=
  c.column = 0 && [x, x, x].isPrefixOf c.rest && endsWord (c.rest.drop 3)

/-- Whether the beginning or the end of a document is marked at a place. -/
def isAtDocumentMarker (c : Cursor) : Bool := c.isAtMarker '-' || c.isAtMarker '.'

end Cursor

end ApiContract.Yaml
