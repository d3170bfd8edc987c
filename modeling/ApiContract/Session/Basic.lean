import ApiContract.Description.Reader
import ApiContract.Schema.Validation
import ApiContract.Security.Credential
import ApiContract.Session.Error
/-!
# Sessions

A session calls the operations of one description. What it holds beside the description are the
caller's credentials and the values of server variables; calls change neither.
-/

namespace ApiContract

open Json (Value)
open Text (quoted)

/-- The choices of a caller that hold for a whole session. -/
structure SessionOptions where
  /-- The classes of status codes that end a call before its response is decoded. -/
  failOnStatus : List StatusClass
  /-- Whether a tag that selects no member of a union makes a value invalid. -/
  strictDiscriminator : Bool
  /-- Whether bodies are checked against their schemas before they are sent. -/
  validateRequestBody : Bool
deriving DecidableEq, Repr, Inhabited

/-- The options of a session that chooses none. -/
def SessionOptions.default : SessionOptions := ⟨[.clientError, .serverError], false, true⟩

/-- A session. -/
structure Session where
  description : Description
  catalog : Catalog
  options : SessionOptions
  authenticator : Option Authenticator
  credentials : Credentials
  serverVariables : Entries String

/-- How a caller names an operation. -/
inductive OperationKey where
  | id (operationId : String)
  | pathMethod (path method : String)
deriving DecidableEq, Repr, Inhabited

/-- The text of a key. -/
def OperationKey.text : OperationKey → String
  | id operationId => operationId
  | pathMethod path method => method ++ " " ++ path

namespace Session

/-- The URL of a description. A relative one is a path on this machine. -/
def parseBase (base : String) : Except DefinitionError Url :=
  let result :=
    match Url.parse base with
    | .error .missingBase => (Url.parse "file:///").bind fun root => root.join base
    | result => result
  match result with
  | .ok url => .ok url
  | .error cause => .error (.malformed base cause.message)

/-- A session on a description that has been read. -/
def ofReading (reading : Description.Reading) (options : SessionOptions)
    (authenticator : Option Authenticator) : Session :=
  ⟨reading.description, reading.catalog, options, authenticator, [], []⟩

/-- A description that is read from a document whose URL is given as a text. -/
def readAt (loader : Loader) (base : String) (document : Value) :
    Except DefinitionError Description.Reading :=
  (parseBase base).bind fun url => Description.read loader url document

/-- The operation of a key. -/
def operation (session : Session) (key : OperationKey) : Except CallError Operation :=
  let found :=
    match key with
    | .id operationId => session.description.operationById? operationId
    | .pathMethod path method => session.description.operationAt? path method
  match found with
  | some operation => .ok operation
  | none => .error (.unknownOperation key.text)

/-- Take credentials, unless one is for a scheme that the description does not declare. -/
def authenticate (session : Session) (credentials : List (String × Credential)) :
    Except CallError Session :=
  match credentials.find? fun pair => !Entries.has pair.1 session.description.securitySchemes with
  | some (name, _) => .error (.unknownSecurityScheme name)
  | none => .ok { session with credentials := session.credentials.extendSorted credentials }

/-- Forget all credentials. -/
def resetAuthentication (session : Session) : Session := { session with credentials := [] }

/-- Set values of server variables. -/
def setServerVariables (session : Session) (values : List (String × String)) : Session :=
  { session with serverVariables := session.serverVariables.extendSorted values }

/-- The schema of a name among the components. -/
def schema? (session : Session) (name : String) : Option SchemaId :=
  Entries.get? name session.description.schemas

/-- Check a value against the schema of a name. -/
def validate (session : Session) (name : String) (value : Value) :
    Except ValidateError (List Warning) :=
  match session.schema? name with
  | none => .error (.unknownSchema name)
  | some id =>
    match session.catalog.validate session.options.strictDiscriminator id value with
    | .ok warnings => .ok warnings
    | .error errors => .error (.invalid errors)

/-- The name of a status class in a summary. -/
def className : StatusClass → String
  | .informational => "Informational"
  | .success => "Success"
  | .redirection => "Redirection"
  | .clientError => "ClientError"
  | .serverError => "ServerError"

/-- The text of a truth value. -/
def boolText (b : Bool) : String := if b then "true" else "false"

/-- A summary of the options. -/
def optionsSummary (options : SessionOptions) : String :=
  "ClientOptions \x7b fail_on_status: [" ++ ", ".intercalate (options.failOnStatus.map className)
    ++ "], strict_discriminator: " ++ boolText options.strictDiscriminator
    ++ ", validate_request_body: " ++ boolText options.validateRequestBody ++ " \x7d"

/-- A summary of a session, with the names of the credentials alone. -/
def summary (session : Session) : String :=
  "Api \x7b base: " ++ quoted session.description.base.text
    ++ ", operations: " ++ Decimal.integerText session.description.operations.length
    ++ ", schemas: " ++ Decimal.integerText session.catalog.size
    ++ ", options: " ++ optionsSummary session.options
    ++ ", credentials: [" ++ ", ".intercalate (session.credentials.keys.map quoted) ++ "], .. \x7d"

end Session

end ApiContract
