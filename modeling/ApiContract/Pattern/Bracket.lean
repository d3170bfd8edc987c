import ApiContract.Pattern.Property
import ApiContract.Decimal.Reader
/-!
# Bracketed sets and escapes

The sets of characters that a pattern writes with a backslash or in square brackets. Between
brackets stand characters, ranges, named sets and further brackets; `&&`, `--` and `~~` take the
intersection, the difference and the symmetric difference of what stands on their sides.
-/

namespace ApiContract.Pattern

/-- What a backslash and the characters after it stand for, in and out of brackets. -/
inductive Escape where
  | character (c : Char)
  /-- A set in which case does not count. -/
  | set (s : CharSet)
  | property (negated : Bool) (s : CharSet)
  | hexDigit (negated : Bool)

namespace Escape

/-- Whether a character is a hexadecimal digit. -/
def isHexDigit (c : Char) : Bool := (Decimal.digitValue? 16 c).isSome

/-- The character of a code point. -/
def ofCodePoint? (n : Nat) : Option Char :=
  if h : n.isValidChar then some (Char.ofNatAux n h) else none

/-- A code point in hexadecimal: exactly so many digits, or one to eight of them in braces. -/
def readCodePoint? (digits : Nat) (cs : List Char) : Option (Escape × List Char) :=
  let plain := cs.take digits
  if plain.length = digits && plain.all isHexDigit then
    ((Decimal.readDigits? 16 plain).bind ofCodePoint?).map fun c => (character c, cs.drop digits)
  else
    match cs with
    | '\x7b' :: rest =>
      let inner := rest.takeWhile isHexDigit
      if inner.length ≤ 8 && (rest.drop inner.length).head? = some '\x7d' then
        ((Decimal.readDigits? 16 inner).bind ofCodePoint?).map fun c =>
          (character c, rest.drop (inner.length + 1))
      else none
    | _ => none

/-- The name of a property: one letter, or what stands in braces. -/
def readProperty? (negated : Bool) : List Char → Option (Escape × List Char)
  | '\x7b' :: rest =>
    let name := rest.takeWhile (· != '\x7d')
    if name.length < rest.length then
      (Property.ofBraces? name).map fun s => (property negated s, rest.drop (name.length + 1))
    else none
  | c :: rest => (Property.named? (String.ofList [c])).map fun s => (property negated s, rest)
  | [] => none

/-- The control character that a letter after a backslash stands for. -/
def controlCharacter? : Char → Option Char
  | 'a' => some '\x07'
  | 'f' => some '\x0c'
  | 'n' => some '\n'
  | 'r' => some '\r'
  | 't' => some '\t'
  | 'v' => some '\x0b'
  | 'e' => some '\x1b'
  | _ => none

/-- The escape whose letter is `c`, with what follows it. Letters without a meaning are refused. -/
def read? (c : Char) (rest : List Char) : Option (Escape × List Char) :=
  match c with
  | 'd' => some (set .digit, rest)
  | 'D' => some (set (.complement .digit), rest)
  | 's' => some (set .blank, rest)
  | 'S' => some (set (.complement .blank), rest)
  | 'w' => some (set .word, rest)
  | 'W' => some (set (.complement .word), rest)
  | 'h' => some (hexDigit false, rest)
  | 'H' => some (hexDigit true, rest)
  | 'x' => readCodePoint? 2 rest
  | 'u' => readCodePoint? 4 rest
  | 'U' => readCodePoint? 8 rest
  | 'p' => readProperty? false rest
  | 'P' => readProperty? true rest
  | _ =>
    match controlCharacter? c with
    | some control => some (character control, rest)
    | none => if c.isAlpha then none else some (character c, rest)

/-- A set named by a property. Where case does not count it is closed under case before it is
negated. -/
def propertySet (ignoreCase negated : Bool) (s : CharSet) : CharSet :=
  let closed := if ignoreCase then .folded s else s
  if negated then .complement closed else closed

/-- The hexadecimal digits of ASCII. -/
def hexDigits : CharSet := .unions [.range '0' '9', .range 'A' 'F', .range 'a' 'f']

end Escape

namespace Bracket

/-- What stands between brackets, piece by piece. -/
inductive Piece where
  /-- A character as written. -/
  | plain (c : Char)
  /-- A character that stands for itself, whatever it means elsewhere. -/
  | literal (c : Char)
  | set (s : CharSet)
deriving Inhabited

/-- Whether a character has a meaning of its own in patterns. -/
def isSpecial (c : Char) : Bool := "\\.+*?()|[]\x7b\x7d^$#&-~".toList.contains c

/-- The pieces of plain characters. -/
def plainPieces (s : String) : List Piece := s.toList.map .plain

/-- The pieces that an escape stands for. -/
def piecesOf (ignoreCase : Bool) : Escape → List Piece
  | .character c => [if isSpecial c then .literal c else .plain c]
  | .set s => [.set s]
  | .property negated s => [.set (Escape.propertySet ignoreCase negated s)]
  | .hexDigit false => plainPieces "[0-9A-Fa-f]"
  | .hexDigit true => plainPieces "[^0-9A-Fa-f]"

/-- The pieces up to the bracket that closes the outermost one, and what follows it. -/
def pieces? (ignoreCase : Bool) :
    (fuel depth : Nat) → List Char → Option (List Piece × List Char)
  | 0, _, _ => none
  | fuel + 1, depth, cs =>
    match cs with
    | [] => none
    | '\\' :: c :: rest =>
      let escape? := if c = 'b' then some (.character '\x08', rest) else Escape.read? c rest
      if c.isDigit then none
      else
        escape?.bind fun (escape, rest) =>
          (pieces? ignoreCase fuel depth rest).map fun (more, after) =>
            (piecesOf ignoreCase escape ++ more, after)
    | '\\' :: [] => none
    | '[' :: rest =>
      (pieces? ignoreCase fuel (depth + 1) rest).map fun (more, after) => (.plain '[' :: more, after)
    | ']' :: rest =>
      if depth ≤ 1 then some ([.plain ']'], rest)
      else
        (pieces? ignoreCase fuel (depth - 1) rest).map fun (more, after) =>
          (.plain ']' :: more, after)
    | c :: rest =>
      (pieces? ignoreCase fuel depth rest).map fun (more, after) => (.plain c :: more, after)

/-- The pieces of a bracketed set, after its first bracket, and what follows the set. A closing
bracket at the front stands for itself. -/
def scan? (ignoreCase : Bool) (cs : List Char) : Option (List Piece × List Char) :=
  let (caret, afterCaret) :=
    match cs with
    | '^' :: rest => ([Piece.plain '^'], rest)
    | _ => ([], cs)
  let (bracket, rest) :=
    match afterCaret with
    | ']' :: rest => ([Piece.plain ']'], rest)
    | _ => ([], afterCaret)
  (pieces? ignoreCase (rest.length + 1) 1 rest).map fun (more, after) =>
    (caret ++ bracket ++ more, after)

/-- The sets of ASCII characters with names. -/
def namedSet? : String → Option CharSet
  | "alnum" => some (.unions [.range '0' '9', .range 'A' 'Z', .range 'a' 'z'])
  | "alpha" => some (.unions [.range 'A' 'Z', .range 'a' 'z'])
  | "ascii" => some (.range '\x00' '\x7f')
  | "blank" => some (.unions [.single '\t', .single ' '])
  | "cntrl" => some (.unions [.range '\x00' '\x1f', .single '\x7f'])
  | "digit" => some (.range '0' '9')
  | "graph" => some (.range '!' '~')
  | "lower" => some (.range 'a' 'z')
  | "print" => some (.range ' ' '~')
  | "punct" => some (.unions [.range '!' '/', .range ':' '@', .range '[' '\x60', .range '\x7b' '~'])
  | "space" =>
    some (.unions [.single '\t', .single '\n', .single '\x0b', .single '\x0c', .single '\r', .single ' '])
  | "upper" => some (.range 'A' 'Z')
  | "word" => some (.unions [.range '0' '9', .range 'A' 'Z', .single '_', .range 'a' 'z'])
  | "xdigit" => some Escape.hexDigits
  | _ => none

/-- The character of a piece that is one. -/
def Piece.character? : Piece → Option Char
  | plain c | literal c => some c
  | set _ => none

/-- Whether a piece is this character as written. -/
def Piece.isPlain (c : Char) : Piece → Bool
  | plain d => d = c
  | literal _ | set _ => false

/-- The set of a piece. -/
def Piece.toSet : Piece → CharSet
  | plain c | literal c => .single c
  | set s => s

/-- A named set such as `[:alpha:]`, after its first bracket, and what follows it. -/
def named? (ignoreCase : Bool) (pieces : List Piece) : Option (CharSet × List Piece) :=
  match pieces with
  | .plain ':' :: rest =>
    let (negated, rest) :=
      match rest with
      | .plain '^' :: rest => (true, rest)
      | _ => (false, rest)
    let name := rest.takeWhile fun piece => !piece.isPlain ':'
    match rest.drop name.length with
    | .plain ':' :: .plain ']' :: after =>
      (namedSet? (String.ofList (name.filterMap Piece.character?))).map fun s =>
        (Escape.propertySet ignoreCase negated s, after)
    | _ => none
  | _ => none

/-- An operation on two sets. -/
inductive Operation where
  | intersection
  | difference
  | symmetricDifference

/-- The result of an operation. -/
def Operation.apply : Operation → CharSet → CharSet → CharSet
  | intersection, a, b => .intersection a b
  | difference, a, b => .difference a b
  | symmetricDifference, a, b => .symmetricDifference a b

/-- The operation that two characters write, if they do. -/
def operation? : Piece → Piece → Option Operation
  | .plain '&', .plain '&' => some .intersection
  | .plain '-', .plain '-' => some .difference
  | .plain '~', .plain '~' => some .symmetricDifference
  | _, _ => none

/-- A set under an operation that stands before it. -/
def complete (ignoreCase : Bool) (pending : Option (CharSet × Operation)) (s : CharSet) : CharSet :=
  match pending with
  | none => s
  | some (left, operation) =>
    if ignoreCase then operation.apply (.folded left) (.folded s) else operation.apply left s

/-- The item at the front: a single piece, or a range from one character to another. -/
def item? (first : Piece) (rest : List Piece) : Option (CharSet × List Piece) :=
  match rest with
  | .plain '-' :: second :: after =>
    if second.isPlain ']' || second.isPlain '-' then some (first.toSet, rest)
    else
      match first.character?, second.character? with
      | some low, some high => if low ≤ high then some (.range low high, after) else none
      | _, _ => none
  | _ => some (first.toSet, rest)

/-- The characters in front that stand for themselves there: hyphens, or else a closing bracket. -/
def leading : List Piece → List Piece × List Piece
  | .plain ']' :: rest => ([.plain ']'], rest)
  | pieces =>
    (pieces.takeWhile (Piece.isPlain '-'), pieces.dropWhile (Piece.isPlain '-'))

mutual

/-- The set of a bracket, after its opening, and what follows it. -/
def bracket? (ignoreCase : Bool) : (fuel : Nat) → List Piece → Option (CharSet × List Piece)
  | 0, _ => none
  | fuel + 1, pieces =>
    let (negated, rest) :=
      match pieces with
      | .plain '^' :: rest => (true, rest)
      | _ => (false, pieces)
    let (first, rest) := leading rest
    (items? ignoreCase fuel none (.unions (first.map Piece.toSet)) rest).map fun (s, after) =>
      (Escape.propertySet ignoreCase negated s, after)

/-- The set of the items up to the closing bracket, and what follows it. -/
def items? (ignoreCase : Bool) :
    (fuel : Nat) → Option (CharSet × Operation) → CharSet → List Piece →
      Option (CharSet × List Piece)
  | 0, _, _, _ => none
  | fuel + 1, pending, sofar, pieces =>
    match pieces with
    | [] => none
    | .plain '[' :: rest =>
      match named? ignoreCase rest with
      | some (s, after) => items? ignoreCase fuel pending (.union sofar s) after
      | none =>
        (bracket? ignoreCase fuel rest).bind fun (s, after) =>
          items? ignoreCase fuel pending (.union sofar s) after
    | .plain ']' :: rest => some (complete ignoreCase pending sofar, rest)
    | first :: rest =>
      match rest.head?.bind (operation? first) with
      | some operation =>
        items? ignoreCase fuel (some (complete ignoreCase pending sofar, operation)) .nothing
          (rest.drop 1)
      | none =>
        (item? first rest).bind fun (s, after) =>
          items? ignoreCase fuel pending (.union sofar s) after

end

/-- The sets that a bracketed set stands for, one after the other, after its first bracket, with
what follows it. A range that ends in a bracket can close the set early; what then stands before the
last bracket is taken character by character. -/
def read? (ignoreCase : Bool) (cs : List Char) : Option (List CharSet × List Char) :=
  (scan? ignoreCase cs).bind fun (pieces, after) =>
    (bracket? ignoreCase (2 * pieces.length + 2) pieces).map fun (s, rest) =>
      (s :: rest.map Piece.toSet, after)

end Bracket

end ApiContract.Pattern
