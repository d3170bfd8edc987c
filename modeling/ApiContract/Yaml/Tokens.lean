import ApiContract.Yaml.Scalar.Block
import ApiContract.Yaml.Scalar.Plain
import ApiContract.Yaml.Token
/-!
# The tokens of a text

`tokens?` reads a text as tokens. Outside brackets collections begin and end by indentation, and
whether a node is a key is known only when the colon after it comes; the tokens that say so are put in
front of the node then. What can be a key fits on a line and is not too long.
-/

namespace ApiContract.Yaml

/-- A node that is a key if a colon follows. -/
structure PendingKey where
  line : Nat
  column : Nat
  /-- Whether the node cannot be anything but a key. -/
  required : Bool
  /-- The number of tokens before the node. -/
  position : Nat
deriving DecidableEq, Repr, Inhabited

/-- How far the tokens of a text have been read. -/
structure TokenReader where
  cursor : Cursor
  /-- More than the number of characters of the text. -/
  limit : Nat
  /-- The columns of the collections that are open outside brackets, innermost first. -/
  indents : List Nat
  /-- Whether a node that begins here can be a key. -/
  keyAllowed : Bool
  /-- The node that may be a key, within the innermost brackets. -/
  pending : Option PendingKey
  /-- The nodes that may be keys, for each pair of brackets outside the innermost. -/
  outer : List (Option PendingKey)
  tokens : Array Token
deriving Inhabited

namespace TokenReader

/-- Nothing has been read. -/
def start (cs : List Char) : TokenReader := ⟨.start cs, cs.length + 1, [], true, none, [], #[]⟩

/-- Whether the place is inside brackets. -/
def inBrackets (r : TokenReader) : Bool := !r.outer.isEmpty

/-- The column of the innermost collection outside brackets. -/
def indent? (r : TokenReader) : Option Nat := r.indents.head?

/-- The least column that a continued line may begin at. -/
def leastColumn (r : TokenReader) : Nat := r.indent?.elim 0 (· + 1)

/-- Add a token. -/
def push (r : TokenReader) (token : Token) : TokenReader := { r with tokens := r.tokens.push token }

/-- Go on at another place. -/
def moveTo (r : TokenReader) (c : Cursor) : TokenReader := { r with cursor := c }

/-- Add a token that takes so many characters. -/
def pushOver (r : TokenReader) (token : Token) (width : Nat) : TokenReader :=
  (r.push token).moveTo (r.cursor.skip width)

/-- Skip blanks, comments and line ends before a token. Outside brackets a tab is no indentation, and
a new line can begin with a key. -/
def skipGapFrom (inBrackets : Bool) :
    (fuel : Nat) → Cursor → (keyAllowed : Bool) → Cursor × Bool
  | 0, c, keyAllowed => (c, keyAllowed)
  | fuel + 1, c, keyAllowed =>
    let c := c.skipWhile fun x => x = ' ' || (x = '\t' && (inBrackets || !keyAllowed))
    let c := if c.isAt '#' then c.skipWhile fun x => !isBreak x else c
    if c.head?.any isBreak then skipGapFrom inBrackets fuel c.next (keyAllowed || !inBrackets)
    else (c, keyAllowed)

/-- Skip what stands before the next token. -/
def skipGap (r : TokenReader) : TokenReader :=
  let (c, keyAllowed) := skipGapFrom r.inBrackets r.limit r.cursor r.keyAllowed
  { r with cursor := c, keyAllowed := keyAllowed }

/-- The greatest distance between the beginning of a key and the colon after it. -/
def keyReach : Nat := 1024

/-- A node that may be a key, seen from a place: none once it is too far away. None in none where it
had to be one. -/
def current (c : Cursor) (pending : Option PendingKey) : Option (Option PendingKey) :=
  match pending with
  | none => some none
  | some key =>
    if key.line < c.line || key.column + keyReach < c.column then
      if key.required then none else some none
    else some (some key)

/-- Give up nodes that are too far away to be keys. -/
def dropStale (r : TokenReader) : Option TokenReader :=
  (current r.cursor r.pending).bind fun pending =>
    (r.outer.mapM (current r.cursor)).map fun outer => { r with pending := pending, outer := outer }

/-- Give up the node that may be a key. -/
def dropPending (r : TokenReader) : Option TokenReader :=
  if r.pending.any PendingKey.required then none else some { r with pending := none }

/-- Take note that the node that begins here may be a key. -/
def notePending (r : TokenReader) : Option TokenReader :=
  if r.keyAllowed then
    r.dropPending.map fun r =>
      let required := !r.inBrackets && r.indent? = some r.cursor.column
      { r with pending := some ⟨r.cursor.line, r.cursor.column, required, r.tokens.size⟩ }
  else some r

/-- Say whether the next node can be a key. -/
def allowKey (r : TokenReader) (allowed : Bool) : TokenReader := { r with keyAllowed := allowed }

/-- Begin a collection at a column, unless one stands there already: `position` is the number of
tokens before it. -/
def openAt (r : TokenReader) (column position : Nat) (token : Token) : TokenReader :=
  if r.inBrackets || r.indent?.any (column ≤ ·) then r
  else
    { r with
      indents := column :: r.indents
      tokens := r.tokens.insertIdxIfInBounds position token }

/-- Begin a collection here. -/
def openHere (r : TokenReader) (token : Token) : TokenReader :=
  r.openAt r.cursor.column r.tokens.size token

/-- End the collections whose columns do not satisfy a test. -/
def closeWhile (test : Nat → Bool) (indents : List Nat) (r : TokenReader) : TokenReader :=
  match indents with
  | [] => { r with indents := [] }
  | n :: outer =>
    if test n then closeWhile test outer (r.push .blockEnd) else { r with indents := n :: outer }

/-- End the collections that are indented further than this place. -/
def closeDeeper (r : TokenReader) : TokenReader :=
  if r.inBrackets then r else closeWhile (r.cursor.column < ·) r.indents r

/-- End all collections, where the document ends. -/
def closeAll (r : TokenReader) : TokenReader :=
  if r.inBrackets then r else closeWhile (fun _ => true) r.indents r

/-- Read a directive. -/
def readDirective (r : TokenReader) : Option TokenReader :=
  r.closeAll.dropPending.bind fun r =>
    (directive? r.cursor).map fun (token, c) => ((r.allowKey false).push token).moveTo c

/-- Read the mark of a document's beginning or end. -/
def readDocumentMarker (r : TokenReader) (token : Token) : Option TokenReader :=
  r.closeAll.dropPending.map fun r => (r.allowKey false).pushOver token 3

/-- Read an opening bracket. -/
def readOpening (r : TokenReader) (token : Token) : Option TokenReader :=
  r.notePending.map fun r =>
    ({ r with pending := none, outer := r.pending :: r.outer }.allowKey true).pushOver token 1

/-- Read a closing bracket. -/
def readClosing (r : TokenReader) (token : Token) : Option TokenReader :=
  r.dropPending.map fun r =>
    let left :=
      match r.outer with
      | [] => r
      | pending :: outer => { r with pending := pending, outer := outer }
    (left.allowKey false).pushOver token 1

/-- Read a comma between the members of a collection in brackets. -/
def readComma (r : TokenReader) : Option TokenReader :=
  r.dropPending.map fun r => (r.allowKey true).pushOver .comma 1

/-- Read the dash before an item. -/
def readDash (r : TokenReader) : Option TokenReader :=
  if r.inBrackets then r.dropPending.map fun r => (r.allowKey true).pushOver .dash 1
  else if r.keyAllowed then
    (r.openHere .sequenceStart).dropPending.map fun r => (r.allowKey true).pushOver .dash 1
  else none

/-- Read the question mark before a key. -/
def readKey (r : TokenReader) : Option TokenReader :=
  if r.inBrackets then r.dropPending.map fun r => (r.allowKey false).pushOver .key 1
  else if r.keyAllowed then
    (r.openHere .mappingStart).dropPending.map fun r => (r.allowKey true).pushOver .key 1
  else none

/-- Read the colon before a value. -/
def readColon (r : TokenReader) : Option TokenReader :=
  match r.pending with
  | some key =>
    let keyed : TokenReader :=
      { r with tokens := r.tokens.insertIdxIfInBounds key.position .key, pending := none }
    some (((keyed.openAt key.column key.position .mappingStart).allowKey false).pushOver .value 1)
  | none =>
    if r.inBrackets then some ((r.allowKey false).pushOver .value 1)
    else if r.keyAllowed then
      some (((r.openHere .mappingStart).allowKey true).pushOver .value 1)
    else none

/-- Read a token that can be a part of a key. -/
def readInKey {α : Type} (r : TokenReader) (read : Cursor → Option (α × Cursor)) (token : α → Token) :
    Option TokenReader :=
  r.notePending.bind fun r =>
    (read r.cursor).map fun (x, c) => ((r.allowKey false).push (token x)).moveTo c

/-- Read a block scalar. -/
def readBlock (r : TokenReader) : Option TokenReader :=
  r.dropPending.bind fun r =>
    (block? r.limit r.indent? r.cursor).map fun (cs, c) =>
      ((r.allowKey true).push (.scalar (String.ofList cs) false)).moveTo c

/-- Read a plain scalar. After a line end another key can come. -/
def readPlain (r : TokenReader) : Option TokenReader :=
  r.notePending.bind fun r =>
    (plain? r.limit r.inBrackets r.leastColumn r.cursor).map fun scalar =>
      ((r.allowKey scalar.endsLine).push (.scalar (String.ofList scalar.text) true)).moveTo
        scalar.after

/-- Read the token that begins here with a character, where another follows. -/
def readAt (r : TokenReader) (x : Char) (rest : List Char) : Option TokenReader :=
  let ends := Cursor.endsWord rest
  if r.cursor.column = 0 && x = '%' then r.readDirective
  else if r.cursor.isAtMarker '-' then r.readDocumentMarker .documentStart
  else if r.cursor.isAtMarker '.' then r.readDocumentMarker .documentEnd
  else if x = '[' then r.readOpening .bracketOpen
  else if x = '\x7b' then r.readOpening .braceOpen
  else if x = ']' then r.readClosing .bracketClose
  else if x = '\x7d' then r.readClosing .braceClose
  else if x = ',' then r.readComma
  else if x = '-' && ends then r.readDash
  else if x = '?' && (r.inBrackets || ends) then r.readKey
  else if x = ':' && (r.inBrackets || ends) then r.readColon
  else if x = '*' then r.readInKey anchorName? .aliasOf
  else if x = '&' then r.readInKey anchorName? .anchor
  else if x = '!' then r.readInKey (tagText? r.inBrackets) .tag
  else if (x = '|' || x = '>') && !r.inBrackets then r.readBlock
  else if x = '\'' || x = '"' then
    r.readInKey (quoted? r.limit) fun cs => .scalar (String.ofList cs) false
  else if beginsPlain r.inBrackets (x :: rest) then r.readPlain
  else none

/-- Read tokens to the end of the text. -/
def readAll (r : TokenReader) : (fuel : Nat) → Option (Array Token)
  | 0 => none
  | fuel + 1 =>
    match r.skipGap.dropStale with
    | none => none
    | some r =>
      let r := r.closeDeeper
      match r.cursor.rest with
      | [] => (r.closeAll.dropPending).map TokenReader.tokens
      | x :: rest => (r.readAt x rest).bind fun r => r.readAll fuel

end TokenReader

/-- The tokens of a text. -/
def tokens? (text : String) : Option (List Token) :=
  let cs := text.toList
  if cs.all isAdmitted then
    let start := TokenReader.start (unifyBreaks cs)
    (start.readAll start.limit).map Array.toList
  else none

end ApiContract.Yaml
