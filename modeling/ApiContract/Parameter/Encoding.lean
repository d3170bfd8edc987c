import ApiContract.Parameter.Error
import ApiContract.Json.Printer
import ApiContract.Text.Percent
/-!
# Writing parameter values

A value is written as one text in the styles of paths and headers, and as pairs of a name and a
text in the styles of queries and cookies. Scalars are atoms; arrays and objects are atoms put
together the way the style says, so that only `deepObject` has room for more than one level.
-/

namespace ApiContract

open Json (Value)

namespace Parameter

/-- The text of a scalar, which stands at `key` of an array or object. -/
def atom (style : ParameterStyle) (key : String) : Value → Except CodecError String
  | .null => .ok ""
  | .bool true => .ok "true"
  | .bool false => .ok "false"
  | .number n => .ok n.render
  | .string s => .ok s
  | .array _ | .object _ => .error (.nested style key)

/-- The atoms of the items of an array from a position on. -/
def itemAtoms (style : ParameterStyle) : (position : Nat) → List Value → Except CodecError (List String)
  | _, [] => .ok []
  | i, item :: rest =>
    match atom style (Decimal.integerText i) item with
    | .error e => .error e
    | .ok first => (itemAtoms style (i + 1) rest).map (first :: ·)

/-- The names and atoms of the members of an object. -/
def memberAtoms (style : ParameterStyle) : Entries Value → Except CodecError (Entries String)
  | [] => .ok []
  | (key, value) :: rest =>
    match atom style key value with
    | .error e => .error e
    | .ok first => (memberAtoms style rest).map ((key, first) :: ·)

/-- Names and atoms as one list. -/
def alternating (pairs : Entries String) : List String :=
  pairs.flatMap fun (key, value) => [key, value]

/-- Names and atoms, each with an equals sign between. -/
def assignments (pairs : Entries String) : List String :=
  pairs.map fun (key, value) => key ++ "=" ++ value

/-- Each text with a mark before it. -/
def marked (mark : String) (texts : List String) : String :=
  String.join (texts.map fun text => mark ++ text)

/-- The text of an array in a style that writes one text. -/
def arrayText (style : ParameterStyle) (explode : Bool) (name : String) (atoms : List String) :
    Except CodecError String :=
  match style with
  | .simple => .ok (",".intercalate atoms)
  | .label => .ok ("." ++ ".".intercalate atoms)
  | .matrix =>
    if atoms.isEmpty then .ok (";" ++ name)
    else if explode then .ok (marked (";" ++ name ++ "=") atoms)
    else .ok (";" ++ name ++ "=" ++ ",".intercalate atoms)
  | style => .error (.unsupportedShape style "array")

/-- The text of an object in a style that writes one text. -/
def objectText (style : ParameterStyle) (explode : Bool) (name : String) (pairs : Entries String) :
    Except CodecError String :=
  match style with
  | .simple => .ok (",".intercalate (if explode then assignments pairs else alternating pairs))
  | .label => .ok ("." ++ ".".intercalate (if explode then assignments pairs else alternating pairs))
  | .matrix =>
    if explode then .ok (marked ";" (assignments pairs))
    else if pairs.isEmpty then .ok (";" ++ name)
    else .ok (";" ++ name ++ "=" ++ ",".intercalate (alternating pairs))
  | style => .error (.unsupportedShape style "object")

/-- The text of a scalar in a style that writes one text. -/
def scalarText (style : ParameterStyle) (name shape text : String) : Except CodecError String :=
  match style with
  | .simple => .ok text
  | .label => .ok ("." ++ text)
  | .matrix => .ok (if text = "" then ";" ++ name else ";" ++ name ++ "=" ++ text)
  | style => .error (.unsupportedShape style shape)

/-- The text of a value, with `escape` applied to the name and to each atom. -/
def renderText (escape : String → String) (name : String) (style : ParameterStyle) (explode : Bool) :
    Value → Except CodecError String
  | .array items =>
    (itemAtoms style 0 items).bind fun atoms =>
      arrayText style explode (escape name) (atoms.map escape)
  | .object members =>
    (memberAtoms style members).bind fun pairs =>
      objectText style explode (escape name)
        (pairs.map fun (key, value) => (escape key, escape value))
  | scalar =>
    (atom style name scalar).bind fun text =>
      scalarText style (escape name) scalar.typeName (escape text)

/-- The text of a value as it is. -/
def encodeText (name : String) (style : ParameterStyle) (explode : Bool) (value : Value) :
    Except CodecError String :=
  renderText id name style explode value

/-- The ASCII characters that are percent-encoded in an atom of a path: control characters and those
that mean something in a path, in a URL or in a style. -/
def isPathReserved (n : Nat) : Bool :=
  Text.Percent.isControl n || (" \"#%/<>?\x60\x7b\x7d|\\^[],;=".toList.any fun c => c.toNat = n)

/-- The text of a value with each atom percent-encoded for a path. -/
def encodePath (name : String) (style : ParameterStyle) (explode : Bool) (value : Value) :
    Except CodecError String :=
  renderText (Text.Percent.encode isPathReserved) name style explode value

/-- What stands between atoms in the styles that write pairs, except `deepObject`. -/
def pairSeparator? : ParameterStyle → Option Char
  | .form => some ','
  | .spaceDelimited => some ' '
  | .pipeDelimited => some '|'
  | .simple | .matrix | .label | .deepObject => none

mutual

/-- The pairs of an object within an object, whose path is `front`. -/
def deepPairs (front : String) : Value → Except CodecError (List (String × String))
  | .object members => deepMembers front members
  | .array _ => .error (.nested .deepObject front)
  | .null => .ok [(front, "")]
  | .bool true => .ok [(front, "true")]
  | .bool false => .ok [(front, "false")]
  | .number n => .ok [(front, n.render)]
  | .string s => .ok [(front, s)]

/-- The pairs of the members of an object, whose path is `front`. -/
def deepMembers (front : String) : List (String × Value) → Except CodecError (List (String × String))
  | [] => .ok []
  | (key, value) :: rest =>
    match deepPairs (front ++ "[" ++ key ++ "]") value with
    | .error e => .error e
    | .ok pairs => (deepMembers front rest).map (pairs ++ ·)

end

/-- The pairs of a value with a separator between atoms. -/
def delimitedPairs (name : String) (style : ParameterStyle) (separator : String) (explode : Bool) :
    Value → Except CodecError (List (String × String))
  | .array items =>
    (itemAtoms style 0 items).map fun atoms =>
      if explode then atoms.map fun text => (name, text) else [(name, separator.intercalate atoms)]
  | .object members =>
    (memberAtoms style members).map fun pairs =>
      if explode && style == .form then pairs
      else [(name, separator.intercalate (alternating pairs))]
  | scalar => (atom style name scalar).map fun text => [(name, text)]

/-- The pairs of a value. -/
def encodePairs (name : String) (style : ParameterStyle) (explode : Bool) (value : Value) :
    Except CodecError (List (String × String)) :=
  match style with
  | .deepObject =>
    match value with
    | .object members => deepMembers name members
    | other => .error (.unsupportedShape style other.typeName)
  | style =>
    match pairSeparator? style with
    | some separator =>
      delimitedPairs name style (String.singleton separator) explode value
    | none => .error (.unsupportedShape style "pair")

end Parameter

end ApiContract
