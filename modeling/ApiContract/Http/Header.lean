import ApiContract.Text.Utf8
import ApiContract.Text.Blank
/-!
# Headers

Header fields are names and values in the order in which they were added; a name can come several
times. Names are in lower case. Values are octets, of which only visible ASCII, blanks and tabs read
as text.
-/

namespace ApiContract

/-- The fields of a message's head. -/
abbrev Headers := List (String × Octets)

namespace Headers

/-- Whether a character may stand in the name of a header or of a method. -/
def isTokenChar (c : Char) : Bool :=
  c.isAlphanum || "!#$%&'*+-.^_\x60|~".toList.contains c

/-- Whether a text is the name of a header. -/
def isName (s : String) : Bool :=
  s != "" && s.toList.all isTokenChar && s.length ≤ 65535

/-- Whether octets may be the value of a header: no control characters but tabs. -/
def isValue (value : Octets) : Bool :=
  value.all fun b => (0x20 ≤ b && b != 0x7F) || b = 0x09

/-- The text of a value. -/
def textOf? (value : Octets) : Option String :=
  if value.all fun b => (0x20 ≤ b && b < 0x7F) || b = 0x09 then
    some (String.ofList (value.map fun b => Char.ofNat b.toNat))
  else none

/-- The first value of a name, in whatever case the name is given. -/
def first? (headers : Headers) (name : String) : Option Octets :=
  (headers.find? fun field => field.1 = Text.lowerAscii name).map Prod.snd

/-- The first value of a name as text. -/
def text? (headers : Headers) (name : String) : Option String := (headers.first? name).bind textOf?

/-- Add a value to those of a name. -/
def add (headers : Headers) (name : String) (value : Octets) : Headers :=
  headers ++ [(Text.lowerAscii name, value)]

/-- Make a value the only one of a name. -/
def set (headers : Headers) (name : String) (value : Octets) : Headers :=
  (headers.filter fun field => field.1 != Text.lowerAscii name) ++ [(Text.lowerAscii name, value)]

/-- Add a field given as text, if the name and the value can be those of a header. -/
def addText? (headers : Headers) (name value : String) : Option Headers :=
  let octets := Text.Utf8.encode value
  if isName name && isValue octets then some (headers.add name octets) else none

end Headers

end ApiContract
