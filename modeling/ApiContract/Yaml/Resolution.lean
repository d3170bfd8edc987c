import ApiContract.Decimal.Reader
import ApiContract.Json.Value
import ApiContract.Yaml.Node
/-!
# Values of scalars

A plain scalar without a tag is null, a truth value or a number if it is written like one, and a
string otherwise. The tags of the core schema ask for one of them.
-/

namespace ApiContract.Yaml

open Json (Value)

/-- A tag of the core schema. -/
def coreTag (name : String) : Tag := Text.Utf8.encode ("tag:yaml.org,2002:" ++ name)

/-- The octet of an exclamation mark, with which the tags of an application begin. -/
def tagMark : UInt8 := 0x21

/-- Whether a tag is one of an application's own, and what follows the mark is text. -/
def isLocal : Tag → Bool
  | [] => false
  | mark :: rest => mark = tagMark && (Text.Utf8.decode? rest).isSome

/-- Whether a text writes null. -/
def isNull (s : String) : Bool := ["null", "Null", "NULL", "~"].contains s

/-- The truth value that a text writes. -/
def readBool? (s : String) : Option Bool :=
  if ["true", "True", "TRUE"].contains s then some true
  else if ["false", "False", "FALSE"].contains s then some false
  else none

/-- Whether a text is a sequence of digits that begins with a zero and is not a number. -/
def isZeroPadded (cs : List Char) : Bool :=
  match (Decimal.splitSign cs).2 with
  | '0' :: d :: rest => (d :: rest).all Char.isDigit
  | _ => false

/-- The base that a number begins with, and its digits. -/
def splitBase? : List Char → Option (Nat × List Char)
  | '0' :: 'x' :: digits => some (16, digits)
  | '0' :: 'o' :: digits => some (8, digits)
  | '0' :: 'b' :: digits => some (2, digits)
  | _ => none

/-- The integer that a text writes. -/
def readInteger? (cs : List Char) : Option Int :=
  let (negative, unsigned) := Decimal.splitSign cs
  let magnitude :=
    match splitBase? unsigned with
    | some (base, digits) => Decimal.readDigits? base digits
    | none => if isZeroPadded cs then none else Decimal.readDigits? 10 unsigned
  magnitude.map fun n => if negative then -(n : Int) else n

/-- Whether an integer has 128 bits, signed or not. -/
def isWide (n : Int) : Bool := -(Int.pow 2 127) ≤ n && n < Int.pow 2 128

/-- The integer that a text writes as a value. None in none is an integer that values do not have;
one beyond 128 bits counts as none. -/
def integerValue? (cs : List Char) : Option (Option Value) :=
  match readInteger? cs with
  | none => none
  | some n =>
    if Decimal.isUnsigned64 n || Decimal.isSigned64 n then some (some (.ofInt n))
    else if isWide n then some none
    else none

/-- Whether a text writes an infinite number or none at all. -/
def isNotFinite (s : String) : Bool :=
  [".inf", ".Inf", ".INF", "+.inf", "+.Inf", "+.INF", "-.inf", "-.Inf", "-.INF", ".nan", ".NaN",
    ".NAN"].contains s

/-- The number that a text writes as a value; one that is not finite is null. -/
def realValue? (s : String) : Option Value :=
  if isNotFinite s then some .null
  else (Decimal.readReal? s.toList).map fun x => .number (.real x)

/-- The value of a plain scalar. -/
def plainValue (s : String) : Option Value :=
  if s.isEmpty || isNull s then some .null
  else
    match readBool? s, integerValue? s.toList with
    | some b, _ => some (.bool b)
    | none, some value => value
    | none, none =>
      if isZeroPadded s.toList then some (.string s) else some ((realValue? s).getD (.string s))

/-- The value of a scalar, if it has one. -/
def scalarValue (tag : Option Tag) (plain : Bool) (s : String) : Option Value :=
  match tag with
  | none => if plain then plainValue s else some (.string s)
  | some tag =>
    if isLocal tag then none
    else if tag = coreTag "bool" then (readBool? s).map .bool
    else if tag = coreTag "int" then (integerValue? s.toList).bind id
    else if tag = coreTag "float" then realValue? s
    else if tag = coreTag "null" then if isNull s then some .null else none
    else if tag.head? = some tagMark && plain then plainValue s
    else some (.string s)

end ApiContract.Yaml
