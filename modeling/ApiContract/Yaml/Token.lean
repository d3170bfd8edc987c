import ApiContract.Yaml.Property
/-!
# Tokens

The tokens of a text. Some are not written: they stand where a collection begins or ends by its
indentation, and before the key of a mapping.
-/

namespace ApiContract.Yaml

/-- A token. -/
inductive Token where
  | version (major minor : Nat)
  | handle (name : String) (meaning : Octets)
  | documentStart
  | documentEnd
  | sequenceStart
  | mappingStart
  | blockEnd
  | bracketOpen
  | bracketClose
  | braceOpen
  | braceClose
  | comma
  | dash
  | key
  | value
  | aliasOf (name : String)
  | anchor (name : String)
  | tag (text : TagText)
  | scalar (text : String) (plain : Bool)
deriving DecidableEq, Repr, Inhabited

/-- The number of digits that a version can have. -/
def versionDigits : Nat := 9

/-- The number at a place in a version. -/
def versionNumber? (c : Cursor) : Option (Nat × Cursor) :=
  let (digits, c) := c.span Char.isDigit
  if digits.length ≤ versionDigits then (Decimal.readDigits? 10 digits).map fun n => (n, c) else none

/-- The version that a directive gives. -/
def versionDirective? (c : Cursor) : Option (Token × Cursor) :=
  (versionNumber? (c.skipWhile isBlank)).bind fun (major, c) =>
    if c.isAt '.' then (versionNumber? c.next).map fun (minor, c) => (.version major minor, c)
    else none

/-- The meaning that a directive gives to a handle. -/
def handleDirective? (c : Cursor) : Option (Token × Cursor) :=
  let c := c.skipWhile isBlank
  if c.isAt '!' then
    let (handle, c) := tagHandle c
    let isHandle : Bool := handle = ['!'] || (1 < handle.length && handle.getLast? = some '!')
    if isHandle && c.head?.any isBlank then
      let start := c.skipWhile isBlank
      (tagOctets? true start).bind fun (meaning, c) =>
        if c.rest.length < start.rest.length && Cursor.endsWord c.rest then
          some (.handle (String.ofList handle) meaning, c)
        else none
    else none
  else none

/-- The directive at a place, which takes a whole line. -/
def directive? (c : Cursor) : Option (Token × Cursor) :=
  let (name, c) := c.next.span isNameChar
  let content :=
    if Cursor.endsWord c.rest then
      match String.ofList name with
      | "YAML" => versionDirective? c
      | "TAG" => handleDirective? c
      | _ => none
    else none
  content.bind fun (token, c) => c.lineEnd?.map fun c => (token, c.next)

end ApiContract.Yaml
