import ApiContract.Parameter.Encoding
import ApiContract.DefinitionError
import ApiContract.Schema.Descriptor
/-!
# Parameters

What an operation declares as its parameters, how a value of one is written, and whether the
parameters that a caller supplies are the declared ones.
-/

namespace ApiContract

open Json (Value)

/-- A declared parameter. -/
structure Parameter where
  name : String
  location : ParameterLocation
  required : Bool
  style : ParameterStyle
  explode : Bool
  schema : Option SchemaId
  /-- The media type in which the value is written instead of in a style. -/
  mediaType : Option String
deriving DecidableEq, Repr, Inhabited

/-- A value as it travels. -/
inductive EncodedValue where
  | text (s : String)
  | pairs (entries : List (String × String))
deriving DecidableEq, Repr, Inhabited

/-- Why the supplied parameters are not those that are declared. -/
inductive SupplyError where
  | unknown (names accepted : List String)
  | missing (names provided : List String)
deriving DecidableEq, Repr, Inhabited

namespace SupplyError

/-- The wording of an error. -/
def message : SupplyError → String
  | unknown names accepted =>
    "Parameter " ++ listNames "," names ++ " unknown (accepted " ++ listNames "," accepted ++ ")"
  | missing names provided =>
    "Required Parameter " ++ listNames "," names ++ " missing (provided "
      ++ listNames "," provided ++ ")"

end SupplyError

namespace Parameter

/-- A value in a media type, as it travels in a location. -/
def encodeContent (parameter : Parameter) (value : Value) : EncodedValue :=
  let text := value.render
  match parameter.location with
  | .query | .cookie => .pairs [(parameter.name, text)]
  | .path => .text (Text.Percent.encode isPathReserved text)
  | .header => .text text

/-- A value as it travels for a parameter. -/
def encode (parameter : Parameter) (value : Value) : Except CodecError EncodedValue :=
  if parameter.mediaType.isSome then .ok (parameter.encodeContent value)
  else
    match parameter.location with
    | .path => (encodePath parameter.name parameter.style parameter.explode value).map .text
    | .header => (encodeText parameter.name parameter.style parameter.explode value).map .text
    | .query | .cookie =>
      (encodePairs parameter.name parameter.style parameter.explode value).map .pairs

/-- Whether a caller has to supply the parameter. -/
def isNeeded (parameter : Parameter) : Bool := parameter.required || parameter.location == .path

/-- Parameters by location, and as declared within each. -/
def byLocation (parameters : List Parameter) : List Parameter :=
  ParameterLocation.all.flatMap fun location => parameters.filter fun p => p.location == location

/-- Names without repetitions, in the order in which they first come up. -/
def firstOccurrences (names : List String) : List String :=
  names.foldl (fun seen name => if seen.contains name then seen else seen ++ [name]) []

/-- The values that a caller supplies, by ascending names; of two for one name the later counts. -/
def supply (pairs : List (String × Value)) : Entries Value := Entries.extendSorted [] pairs

/-- Check the supplied parameters: none is undeclared, and none that is needed is missing. -/
def checkSupplied (parameters : List Parameter) (supplied : Entries Value) :
    Except SupplyError Unit :=
  let ordered := byLocation parameters
  let accepted := firstOccurrences (ordered.map Parameter.name)
  let unknown := supplied.keys.filter fun name => !accepted.contains name
  let needed := (ordered.filter isNeeded).map Parameter.name
  let missing := firstOccurrences (needed.filter fun name => !Entries.has name supplied)
  if !unknown.isEmpty then .error (.unknown unknown accepted)
  else if !missing.isEmpty then .error (.missing missing supplied.keys)
  else .ok ()

end Parameter

end ApiContract
