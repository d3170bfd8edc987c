import ApiContract.Http.Message
import ApiContract.Http.Status
import ApiContract.Parameter.Basic
import ApiContract.Schema.Violation
/-!
# Errors of calls

Why a call was not made, or why its response is not what the description promises.
-/

namespace ApiContract

open Json (Value)
open Decimal (integerText)

/-- Why a call ended without a result. -/
inductive CallError where
  | unknownOperation (key : String)
  | supply (cause : SupplyError)
  | parameterEncoding (name : String) (cause : CodecError)
  | parameterSchema (name : String) (errors : List Violation)
  | unknownSecurityScheme (scheme : String)
  | unexpectedSecurity (operation : String) (schemes : List String)
  | noSecuritySatisfied (attempted : List (List String)) (provided : List String)
  | authentication (scheme problem : String)
  | serverVariableNotAllowed (name value : String) (allowed : List String)
  | invalidUrl (url : String) (cause : UrlError)
  | missingBody (operation : String)
  | bodyEncoding (mediaType problem : String)
  | requestSchema (errors : List Violation)
  | transport (cause : TransportError)
  | httpClient (response : HttpResponse)
  | httpServer (response : HttpResponse)
  | httpStatus (response : HttpResponse)
  | noContractMatched (response : HttpResponse)
  | contentType (status : Nat) (actual : Option String) (expected : List String)
  | headersMissing (names : List String)
  | headerDecoding (name : String) (cause : CodecError)
  | responseDecoding (mediaType : String)
  | responseSchema (errors : List Violation) (data : Value)
deriving Inhabited

namespace CallError

/-- The first of several violations, and how many there are beside it. -/
def firstOf : List Violation → String
  | [] => "no details"
  | [only] => only.text
  | first :: rest => first.text ++ " (and " ++ integerText rest.length ++ " more)"

/-- Lists of names, in brackets. -/
def listNameLists (lists : List (List String)) : String :=
  "[" ++ ",".intercalate (lists.map (listNames ",")) ++ "]"

/-- The wording of an error. -/
def message : CallError → String
  | unknownOperation key => "unknown operation " ++ key
  | supply cause => cause.message
  | parameterEncoding name cause => "cannot serialize parameter " ++ name ++ ": " ++ cause.message
  | parameterSchema name errors => "parameter " ++ name ++ " violates its schema: " ++ firstOf errors
  | unknownSecurityScheme scheme => "security scheme " ++ scheme ++ " is not defined"
  | unexpectedSecurity operation schemes =>
    operation ++ " does not accept security schemes " ++ listNames "," schemes
  | noSecuritySatisfied attempted provided =>
    "No security requirement satisfied (accepted " ++ listNameLists attempted ++ ", provided "
      ++ listNames "," provided ++ ")"
  | authentication scheme problem => "authentication via " ++ scheme ++ " failed: " ++ problem
  | serverVariableNotAllowed name value _ =>
    "Server Variable " ++ name ++ " value " ++ value ++ " not allowed"
  | invalidUrl url cause => "invalid request URL " ++ url ++ ": " ++ cause.message
  | missingBody operation => operation ++ " requires a request body"
  | bodyEncoding mediaType problem =>
    "request body cannot be sent as " ++ mediaType ++ ": " ++ problem
  | requestSchema errors => "request body violates schema: " ++ firstOf errors
  | transport cause => "transport failure: " ++ cause.message
  | httpClient response => "HTTP client error " ++ StatusCode.text response.status
  | httpServer response => "HTTP server error " ++ StatusCode.text response.status
  | httpStatus response =>
    "HTTP status " ++ StatusCode.text response.status ++ " configured as failure"
  | noContractMatched response =>
    "no response contract matched status " ++ StatusCode.text response.status
  | contentType status actual expected =>
    "unexpected content type " ++ actual.getD "<none>" ++ " for status " ++ integerText status
      ++ " (declared " ++ listNames "," expected ++ ")"
  | headersMissing names => "response headers missing: " ++ listNames "," names
  | headerDecoding name cause => "cannot decode " ++ name ++ " response header: " ++ cause.message
  | responseDecoding mediaType =>
    "failed to decode " ++ mediaType ++ " response: " ++ parserDetail
  | responseSchema errors _ => "response body violates schema: " ++ firstOf errors

/-- The exit code of a command that ends with this error. -/
def exitCode : CallError → Nat
  | transport _ => 3
  | unknownOperation _ | unknownSecurityScheme _ => 2
  | _ => 1

end CallError

/-- Why a value is not an instance of a named schema. -/
inductive ValidateError where
  | unknownSchema (name : String)
  | invalid (errors : List Violation)
deriving Inhabited

namespace ValidateError

/-- The wording of an error. -/
def message : ValidateError → String
  | unknownSchema name => "unknown schema " ++ name
  | invalid errors => "validation failed with " ++ integerText errors.length ++ " error(s)"

/-- The exit code of a command that ends with this error. -/
def exitCode : ValidateError → Nat
  | unknownSchema _ => 2
  | invalid _ => 1

end ValidateError

end ApiContract
