/-!
# Locations and styles

Where a parameter travels and how its value is written there.
-/

namespace ApiContract

/-- The part of a request in which a parameter travels. The order is the one in which messages list
parameters. -/
inductive ParameterLocation where
  | cookie
  | header
  | path
  | query
deriving DecidableEq, Repr, Inhabited

/-- How a structured value is written as text or as pairs. -/
inductive ParameterStyle where
  | simple
  | matrix
  | label
  | form
  | spaceDelimited
  | pipeDelimited
  | deepObject
deriving DecidableEq, Repr, Inhabited

namespace ParameterStyle

/-- All styles: first those that write one text, then those that write pairs. -/
def all : List ParameterStyle :=
  [simple, matrix, label, form, spaceDelimited, pipeDelimited, deepObject]

/-- The name of a style in a description. -/
def name : ParameterStyle → String
  | simple => "simple"
  | matrix => "matrix"
  | label => "label"
  | form => "form"
  | spaceDelimited => "spaceDelimited"
  | pipeDelimited => "pipeDelimited"
  | deepObject => "deepObject"

/-- The style of a name. -/
def ofName? (s : String) : Option ParameterStyle := all.find? fun style => style.name = s

/-- Whether values are exploded where a parameter does not say. -/
def explodesByDefault (style : ParameterStyle) : Bool := style == form

/-- Whether the style writes pairs of a name and a value rather than one text. -/
def writesPairs : ParameterStyle → Bool
  | simple | matrix | label => false
  | form | spaceDelimited | pipeDelimited | deepObject => true

theorem ofName?_name (style : ParameterStyle) : ofName? style.name = some style := by
  cases style <;> decide

end ParameterStyle

namespace ParameterLocation

/-- All locations, in their order. -/
def all : List ParameterLocation := [cookie, header, path, query]

/-- The position of a location in the order. -/
def rank : ParameterLocation → Nat
  | cookie => 0
  | header => 1
  | path => 2
  | query => 3

/-- The name of a location in a description. -/
def name : ParameterLocation → String
  | cookie => "cookie"
  | header => "header"
  | path => "path"
  | query => "query"

/-- The location of a name. -/
def ofName? (s : String) : Option ParameterLocation := all.find? fun location => location.name = s

/-- The style of a parameter that declares none. -/
def defaultStyle : ParameterLocation → ParameterStyle
  | path | header => .simple
  | query | cookie => .form

/-- Whether a parameter in this location may declare a style. -/
def allows : ParameterLocation → ParameterStyle → Bool
  | path, style => style == .simple || style == .label || style == .matrix
  | query, style => style.writesPairs
  | header, style => style == .simple
  | cookie, style => style == .form

theorem ofName?_name (location : ParameterLocation) : ofName? location.name = some location := by
  cases location <;> decide

theorem allows_defaultStyle (location : ParameterLocation) :
    location.allows location.defaultStyle = true := by
  cases location <;> decide

end ParameterLocation

end ApiContract
