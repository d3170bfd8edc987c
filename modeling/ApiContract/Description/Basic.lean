import ApiContract.Parameter.Basic
import ApiContract.Parameter.Template
import ApiContract.Security.Scheme
import ApiContract.Text.Percent
import ApiContract.Text.Pieces
import ApiContract.Json.Pointer
/-!
# Descriptions

A description of an HTTP interface after all its references have been followed: servers, operations
with their parameters, bodies and responses, and the links from responses to other operations.
-/

namespace ApiContract

open Json (Value)

/-- The versions of the description format. -/
inductive Dialect where
  | v30
  | v31
deriving DecidableEq, Repr, Inhabited

namespace Dialect

/-- The name of a dialect. -/
def name : Dialect → String
  | v30 => "3.0"
  | v31 => "3.1"

/-- The dialect of a version: its first two numbers count. -/
def ofVersion? (version : String) : Option Dialect :=
  match Text.pieces '.' version.toList with
  | ['3'] :: ['0'] :: _ => some v30
  | ['3'] :: ['1'] :: _ => some v31
  | _ => none

end Dialect

/-- A variable of a server's URL. No allowed values mean any. -/
structure ServerVariable where
  default : Option String
  allowed : List String
deriving DecidableEq, Repr, Inhabited

/-- A server, by a template of its URL. -/
structure Server where
  url : String
  /-- The variables whose values replace the placeholders. -/
  placeholders : Entries ServerVariable
deriving DecidableEq, Repr, Inhabited

/-- The server at the root of the description's own host. -/
def Server.root : Server := ⟨"/", []⟩

/-- What is said of a body in one media type. -/
structure MediaType where
  schema : Option SchemaId
deriving DecidableEq, Repr, Inhabited

/-- The body of a request. -/
structure RequestBody where
  required : Bool
  /-- The media types, in lower case. -/
  content : Entries MediaType
deriving DecidableEq, Repr, Inhabited

/-- A declared header of a response. -/
structure ResponseHeader where
  required : Bool
  explode : Bool
  schema : Option SchemaId
deriving DecidableEq, Repr, Inhabited

/-- The operation that a link leads to: by its identifier, or by a reference. -/
inductive LinkTarget where
  | operationId (id : String)
  | operationRef (reference : String)
deriving DecidableEq, Repr, Inhabited

/-- The identifier or the reference. -/
def LinkTarget.text : LinkTarget → String
  | operationId id => id
  | operationRef reference => reference

/-- A link from a response to an operation. -/
structure Link where
  target : LinkTarget
  parameters : Entries Value
  requestBody : Option Value
deriving Repr, Inhabited

/-- A declared response. -/
structure Response where
  description : String
  headers : Entries ResponseHeader
  /-- The media types, in lower case. -/
  content : Entries MediaType
  links : Entries Link
deriving Repr, Inhabited

/-- An operation. -/
structure Operation where
  operationId : Option String
  path : String
  /-- The method, in upper case. -/
  method : String
  summary : Option String
  tags : List String
  parameters : List Parameter
  requestBody : Option RequestBody
  /-- The responses by status code, by a class of codes such as `2XX`, or by `default`. -/
  responses : Entries Response
  /-- The alternatives of which one is needed; none where the description's apply. -/
  security : Option (List SecurityRequirement)
  servers : List Server
deriving Repr, Inhabited

namespace Operation

/-- How an operation is called: by its identifier, or else by its method and path. -/
def label (operation : Operation) : String :=
  operation.operationId.getD (operation.method ++ " " ++ operation.path)

/-- Whether a key stands for the class of a status code, as `2XX` does. -/
def isClassKey (status : Nat) (key : String) : Bool :=
  match key.toList with
  | [digit, a, b] => [digit] = Decimal.digitChars (status / 100) && a.toLower = 'x' && b.toLower = 'x'
  | _ => false

/-- The declared response to a status code, with its key: the code itself, the first key for its
class, or the default. -/
def route (operation : Operation) (status : Nat) : Option (String × Response) :=
  let exact := operation.responses.find? fun entry => entry.1 = Decimal.integerText status
  let ofClass := operation.responses.find? fun entry => isClassKey status entry.1
  let default := operation.responses.find? fun entry => entry.1 = "default"
  (exact.orElse fun _ => ofClass).orElse fun _ => default

end Operation

/-- A description. -/
structure Description where
  dialect : Dialect
  base : Url
  servers : List Server
  operations : List Operation
  /-- The schemas among the components. -/
  schemas : Entries SchemaId
  securitySchemes : Entries SecurityScheme
  /-- The alternatives of which one is needed where an operation does not say. -/
  security : List SecurityRequirement
deriving Inhabited

namespace Description

/-- The operation of an identifier. -/
def operationById? (description : Description) (id : String) : Option Operation :=
  description.operations.find? fun operation => operation.operationId = some id

/-- The operation of a path and a method. -/
def operationAt? (description : Description) (path method : String) : Option Operation :=
  description.operations.find? fun operation => operation.path = path && operation.method = method

/-- The operations that carry a tag. -/
def operationsTagged (description : Description) (tag : String) : List Operation :=
  description.operations.filter fun operation => operation.tags.contains tag

/-- The alternatives of which one is needed for an operation. -/
def securityFor (description : Description) (operation : Operation) : List SecurityRequirement :=
  operation.security.getD description.security

/-- The path and the method that a reference such as `#/paths/~1pets/get` addresses. -/
def referencedOperation? (reference : String) : Option (String × String) :=
  (Text.cutAt? '#' reference.toList).bind fun (_, fragment) =>
    match Json.Pointer.tokens (Text.Percent.decodeText (String.ofList fragment)) with
    | ["paths", path, method] => some (path, Text.upperAscii method)
    | _ => none

/-- The operation that a link leads to. -/
def linkTarget? (description : Description) (link : Link) : Option Operation :=
  match link.target with
  | .operationId id => description.operationById? id
  | .operationRef reference =>
    (referencedOperation? reference).bind fun (path, method) =>
      description.operationAt? path method

end Description

end ApiContract
