import ApiContract.DefinitionError
import ApiContract.Json.Value
import ApiContract.Text.Blank
/-!
# Security schemes

The ways of proving who is calling that a description declares, and the requirements that name
them.
-/

namespace ApiContract

open Json (Value)

/-- The scheme of an `Authorization` header. -/
inductive HttpScheme where
  | basic
  | bearer
  | digest
  /-- Any other scheme, by its name in lower case. -/
  | other (name : String)
deriving DecidableEq, Repr, Inhabited

/-- The scheme of a name, in whatever case. -/
def HttpScheme.ofName (name : String) : HttpScheme :=
  match Text.lowerAscii name with
  | "basic" => .basic
  | "bearer" => .bearer
  | "digest" => .digest
  | lower => .other lower

/-- A declared way of proving who is calling. -/
inductive SecurityScheme where
  | apiKey (name : String) (location : ParameterLocation)
  | http (scheme : HttpScheme) (bearerFormat : Option String)
  | oauth2 (flows : Value)
  | openIdConnect (url : String)
  | mutualTls
deriving Repr, Inhabited

namespace SecurityScheme

/-- The location that a key travels in: any but the path. -/
def keyLocation? (name : Option String) : Option ParameterLocation :=
  (name.bind ParameterLocation.ofName?).filter fun location => location != .path

/-- The scheme that an object declares under a name. -/
def parse (name : String) (members : Entries Value) : Except DefinitionError SecurityScheme :=
  let field (key : String) : Option String := (Entries.get? key members).bind Value.text?
  let invalid (problem : String) : Except DefinitionError SecurityScheme :=
    .error (.invalidSecurityScheme name problem)
  match field "type" with
  | some "apiKey" =>
    match field "name", keyLocation? (field "in") with
    | none, _ => invalid "apiKey requires name"
    | some _, none => invalid "apiKey requires in: query, header, or cookie"
    | some keyName, some location => .ok (.apiKey keyName location)
  | some "http" =>
    match field "scheme" with
    | none => invalid "http requires scheme"
    | some scheme => .ok (.http (.ofName scheme) (field "bearerFormat"))
  | some "oauth2" => .ok (.oauth2 ((Entries.get? "flows" members).getD .null))
  | some "openIdConnect" =>
    match field "openIdConnectUrl" with
    | none => invalid "openIdConnect requires openIdConnectUrl"
    | some url => .ok (.openIdConnect url)
  | some "mutualTLS" => .ok .mutualTls
  | some other => invalid ("unknown type " ++ Text.quoted other)
  | none => invalid "missing type"

end SecurityScheme

/-- Schemes that are needed together, each with its scopes; none means that anyone may call. -/
abbrev SecurityRequirement := Entries (List String)

namespace SecurityRequirement

/-- Whether anyone may call. -/
def isAnonymous (requirement : SecurityRequirement) : Bool := requirement.isEmpty

/-- The scopes that a node lists. -/
def scopes (node : Value) : List String := ((node.items?).getD []).filterMap Value.text?

/-- The requirement that an object writes. -/
def ofNode? : Value → Option SecurityRequirement
  | .object members => some (members.map fun (name, node) => (name, scopes node))
  | _ => none

/-- The alternative requirements that a list of objects at a location writes. -/
def parseList (location : String) (node : Value) :
    Except DefinitionError (List SecurityRequirement) :=
  match node.items?.bind fun items => items.mapM ofNode? with
  | some requirements => .ok requirements
  | none => .error (.malformed location "security must be a list of requirement objects")

end SecurityRequirement

end ApiContract
