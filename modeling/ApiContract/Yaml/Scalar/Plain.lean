import ApiContract.Yaml.Scalar.Quoted
/-!
# Plain scalars

A plain scalar is a sequence of words, over one line or several. It ends before a comment, before a
colon that ends a word, inside brackets before what structures them, and where a line is indented
less than the scalar has to be.
-/

namespace ApiContract.Yaml

/-- Whether a character structures collections in brackets. -/
def isBracketing (c : Char) : Bool := ",[]\x7b\x7d".toList.contains c

/-- The word at the front of a text; `sofar` holds what has been read of it, latest first. None where,
inside brackets, a colon stands before what structures them. -/
def plainWordFrom (inBrackets : Bool) : (sofar : List Char) → List Char → Option (List Char)
  | sofar, [] => some sofar.reverse
  | sofar, x :: rest =>
    if isGap x then some sofar.reverse
    else if inBrackets && x = ':' && rest.head?.any fun y => isBracketing y || y = '?' then none
    else if (x = ':' && Cursor.endsWord rest) || (inBrackets && isBracketing x) then
      some sofar.reverse
    else plainWordFrom inBrackets (x :: sofar) rest

/-- Whether a gap has a tab in the indentation of a line, which takes the columns below `least`.
`column` is that of the front of the gap, if a line of the gap begins before it. -/
def hasIndentingTab (least : Nat) : (column : Option Nat) → List Char → Bool
  | _, [] => false
  | column, x :: rest =>
    if isBreak x then hasIndentingTab least (some 0) rest
    else (x = '\t' && column.any (· < least)) || hasIndentingTab least (column.map (· + 1)) rest

/-- A plain scalar that has been read. -/
structure PlainScalar where
  text : List Char
  /-- The place after the scalar and the gap that follows it. -/
  after : Cursor
  /-- Whether a line ends in that gap. -/
  endsLine : Bool
deriving DecidableEq, Repr, Inhabited

/-- A plain scalar that ends before a gap. -/
def PlainScalar.ended (sofar : List Char) (after : Cursor) (gap : List Char) : PlainScalar :=
  ⟨sofar.reverse, after, gap.any isBreak⟩

/-- The plain scalar that goes on at a place, after a gap. Its lines have to begin at the column
`least` or later; `sofar` holds its text before the gap, latest first. -/
def plainFrom (inBrackets : Bool) (least : Nat) :
    (fuel : Nat) → Cursor → (gap sofar : List Char) → Option PlainScalar
  | 0, _, _, _ => none
  | fuel + 1, c, gap, sofar =>
    if c.isAtDocumentMarker || c.isAt '#' then some (.ended sofar c gap)
    else
      match plainWordFrom inBrackets [] c.rest with
      | none => none
      | some [] => some (.ended sofar c gap)
      | some word =>
        let sofar := word.reverse ++ ((gapText gap).reverse ++ sofar)
        let (gap, after) := (c.skip word.length).span isGap
        if gap.isEmpty then some (.ended sofar after [])
        else if hasIndentingTab least none gap then none
        else if !inBrackets && after.column < least then some (.ended sofar after gap)
        else plainFrom inBrackets least fuel after gap sofar

/-- The plain scalar at a place. `limit` is more than the number of characters that follow. -/
def plain? (limit : Nat) (inBrackets : Bool) (least : Nat) (c : Cursor) : Option PlainScalar :=
  plainFrom inBrackets least limit c [] []

/-- Whether a plain scalar begins with a text. -/
def beginsPlain (inBrackets : Bool) : List Char → Bool
  | [] => false
  | x :: rest =>
    if x = '-' then !rest.head?.any isBlank
    else if x = '?' || x = ':' then !inBrackets && !Cursor.endsWord rest
    else !(isGap x || isBracketing x || "#&*!|>'\"%@\x60".toList.contains x)

end ApiContract.Yaml
