import ApiContract.Http.Header
import ApiContract.Json.Printer
import ApiContract.Url.Basic
/-!
# Requests and responses

The messages that pass between a session and a transport, and the classes of status codes.
-/

namespace ApiContract

/-- A request. -/
structure HttpRequest where
  method : String
  url : Url
  headers : Headers
  body : Option Octets
deriving DecidableEq, Repr, Inhabited

/-- A response. -/
structure HttpResponse where
  status : Nat
  headers : Headers
  body : Octets
deriving DecidableEq, Repr, Inhabited

namespace HttpResponse

/-- A response with a value as its JSON body. -/
def ofJson (status : Nat) (value : Json.Value) : HttpResponse :=
  ⟨status, [("content-type", Text.Utf8.encode "application/json")], Text.Utf8.encode value.render⟩

/-- The media type of the body, in lower case and without parameters. -/
def mediaType? (response : HttpResponse) : Option String :=
  (response.headers.text? "content-type").bind fun text =>
    let essence := Text.trim (text.toList.takeWhile (· != ';'))
    if essence.isEmpty then none else some (Text.lowerAscii (String.ofList essence))

/-- The body as text, whatever it holds. -/
def text (response : HttpResponse) : String := Text.Utf8.decodeLossy response.body

end HttpResponse

/-- A class of status codes. -/
inductive StatusClass where
  | informational
  | success
  | redirection
  | clientError
  | serverError
deriving DecidableEq, Repr, Inhabited

namespace StatusClass

/-- All classes, in ascending order. -/
def all : List StatusClass := [informational, success, redirection, clientError, serverError]

/-- The first digit of the codes of a class. -/
def digit : StatusClass → Nat
  | informational => 1
  | success => 2
  | redirection => 3
  | clientError => 4
  | serverError => 5

/-- The class of a code. -/
def of? (status : Nat) : Option StatusClass := all.find? fun class' => class'.digit = status / 100

/-- The name of a class. -/
def name : StatusClass → String
  | informational => "informational"
  | success => "success"
  | redirection => "redirection"
  | clientError => "client_error"
  | serverError => "server_error"

/-- The class of a name. -/
def ofName? (s : String) : Option StatusClass := all.find? fun class' => class'.name = s

theorem ofName?_name (class' : StatusClass) : ofName? class'.name = some class' := by
  cases class' <;> decide

end StatusClass

/-- Why a transport has no response. -/
structure TransportError where
  message : String
  /-- The text of the failure beneath. -/
  cause : Option String
deriving DecidableEq, Repr, Inhabited

/-- What a transport answers to a request, given the requests that it has had before. -/
structure Transport where
  answer : (earlier : List HttpRequest) → HttpRequest → Except TransportError HttpResponse

namespace Transport

/-- The transport that has no connection. -/
def unavailable : Transport := ⟨fun _ _ => .error ⟨"no transport configured", none⟩⟩

end Transport

end ApiContract
