import ApiContract.Session.Security
import ApiContract.Url.Parser
import ApiContract.Url.Query
/-!
# Preparing requests

From what a caller supplies to the request that is sent: parameters are checked, validated and
written, security is chosen and applied, the body is checked and written, and the URL is put
together. The first failure ends the call before anything is sent.
-/

namespace ApiContract

open Json (Value)

/-- The body that a caller supplies. -/
inductive Payload where
  /-- A value, written in the media type that the operation declares first. -/
  | value (v : Value)
  | raw (octets : Octets)
deriving Inhabited

/-- Encoded parameters, by where they go. -/
structure EncodedParameters where
  path : Entries String
  headers : Headers
  query : List (String × String)
  cookies : List (String × String)
deriving DecidableEq, Repr, Inhabited

/-- A request that is ready to be sent for an operation. -/
structure PreparedRequest where
  operation : Operation
  request : HttpRequest
  /-- The scheme by which a challenge of the server is to be answered. -/
  digest : Option String
deriving Inhabited

namespace Session

/-- Add a header, if the name and the value can be those of one. -/
def addHeader (headers : Headers) (name value : String) (style : ParameterStyle) :
    Except CallError Headers :=
  match headers.addText? name value with
  | some headers => .ok headers
  | none => .error (.parameterEncoding name (.malformed style value))

/-- Check a value against the schema of its parameter. Null is never checked. -/
def checkParameter (session : Session) (parameter : Parameter) (value : Value) :
    Except CallError Unit :=
  match parameter.schema, value with
  | none, _ => .ok ()
  | some _, .null => .ok ()
  | some schema, value =>
    match session.catalog.validate session.options.strictDiscriminator schema value with
    | .ok _ => .ok ()
    | .error errors => .error (.parameterSchema parameter.name errors)

/-- Put an encoded value where its parameter travels. -/
def place (parameter : Parameter) (encoded : EncodedValue) (sofar : EncodedParameters) :
    Except CallError EncodedParameters :=
  match parameter.location, encoded with
  | .path, .text text => .ok { sofar with path := Entries.put parameter.name text sofar.path }
  | .header, .text text =>
    (addHeader sofar.headers parameter.name text parameter.style).map fun headers =>
      { sofar with headers := headers }
  | .cookie, .pairs pairs => .ok { sofar with cookies := sofar.cookies ++ pairs }
  | _, .pairs pairs => .ok { sofar with query := sofar.query ++ pairs }
  | _, .text text => .ok { sofar with query := sofar.query ++ [(parameter.name, text)] }

/-- Check and write the value of one parameter. -/
def encodeParameter (session : Session) (parameter : Parameter) (value : Value)
    (sofar : EncodedParameters) : Except CallError EncodedParameters :=
  (session.checkParameter parameter value).bind fun _ =>
    match parameter.encode value with
    | .error cause => .error (.parameterEncoding parameter.name cause)
    | .ok encoded => place parameter encoded sofar

/-- Check and write the values of the parameters that are supplied, in the order of declaration. -/
def encodeParameters (session : Session) (supplied : Entries Value) :
    List Parameter → EncodedParameters → Except CallError EncodedParameters
  | [], sofar => .ok sofar
  | parameter :: rest, sofar =>
    match Entries.get? parameter.name supplied with
    | none => encodeParameters session supplied rest sofar
    | some value =>
      match session.encodeParameter parameter value sofar with
      | .error e => .error e
      | .ok sofar => encodeParameters session supplied rest sofar

/-- Add several headers. -/
def addHeaders : Headers → List (String × String) → Except CallError Headers
  | headers, [] => .ok headers
  | headers, (name, value) :: rest =>
    match addHeader headers name value .simple with
    | .error e => .error e
    | .ok headers => addHeaders headers rest

/-- Whether bodies of a media type are JSON. -/
def isJson (mediaType : String) : Bool :=
  mediaType == "application/json" || "+json".toList.reverse.isPrefixOf mediaType.toList.reverse

/-- Whether bodies of a media type are text. -/
def isText (mediaType : String) : Bool := "text/".toList.isPrefixOf mediaType.toList

/-- The field that a member of an object is in a form. -/
def formField (member : String × Value) : String × String :=
  (member.1, match member.2 with
    | .string s => s
    | other => other.render)

/-- A value as a body of a media type. -/
def encodeValue (mediaType : String) (value : Value) : Except CallError Octets :=
  let unsupported (problem : String) : Except CallError Octets :=
    .error (.bodyEncoding mediaType problem)
  if isJson mediaType then .ok (Text.Utf8.encode value.render)
  else if mediaType = "application/x-www-form-urlencoded" then
    match value with
    | .object members => .ok (Text.Utf8.encode (Text.FormEncoded.encode (members.map formField)))
    | _ => unsupported "form bodies must be objects"
  else
    match value with
    | .string text => .ok (Text.Utf8.encode text)
    | _ =>
      if isText mediaType then unsupported "text bodies must be strings"
      else unsupported "pass binary bodies with with_raw_body"

/-- Check a body against its schema, unless the session does not. -/
def checkBody (session : Session) (media : MediaType) (value : Value) : Except CallError Unit :=
  match media.schema with
  | none => .ok ()
  | some schema =>
    if session.options.validateRequestBody then
      match session.catalog.validate session.options.strictDiscriminator schema value with
      | .ok _ => .ok ()
      | .error errors => .error (.requestSchema errors)
    else .ok ()

/-- A payload in a media type. -/
def encodePayload (session : Session) (mediaType : String) (media : MediaType) :
    Payload → Except CallError Octets
  | .raw octets => .ok octets
  | .value value => (session.checkBody media value).bind fun _ => encodeValue mediaType value

/-- The body of a request and the headers with its media type. -/
def encodeBody (session : Session) (operation : Operation) (payload : Option Payload)
    (headers : Headers) : Except CallError (Option Octets × Headers) :=
  match operation.requestBody, payload with
  | some declared, none =>
    if declared.required then .error (.missingBody operation.label) else .ok (none, headers)
  | none, none => .ok (none, headers)
  | none, some _ =>
    .error (.bodyEncoding "" (operation.label ++ " declares no request body"))
  | some declared, some payload =>
    match declared.content with
    | [] =>
      match payload with
      | .raw octets => .ok (some octets, headers)
      | .value value => .ok (some (Text.Utf8.encode value.render), headers)
    | (mediaType, media) :: _ =>
      (session.encodePayload mediaType media payload).bind fun octets =>
        let value := Text.Utf8.encode mediaType
        if Headers.isValue value then .ok (some octets, headers.set "content-type" value)
        else .error (.bodyEncoding mediaType "failed to parse header value")

/-- A text with each occurrence of another replaced, from the front; `skip` characters belong to an
occurrence that has been replaced. -/
def replaceFrom (old new : List Char) : (skip : Nat) → List Char → List Char
  | _, [] => []
  | skip + 1, _ :: rest => replaceFrom old new skip rest
  | 0, c :: rest =>
    if old.isPrefixOf (c :: rest) then new ++ replaceFrom old new (old.length - 1) rest
    else c :: replaceFrom old new 0 rest

/-- The value of a server variable, if it is an allowed one. -/
def variableValue (session : Session) (name : String) (declared : ServerVariable) :
    Except CallError String :=
  let value :=
    ((Entries.get? name session.serverVariables).orElse fun _ => declared.default).getD ""
  if declared.allowed.isEmpty || declared.allowed.contains value then .ok value
  else .error (.serverVariableNotAllowed name value declared.allowed)

/-- A server's URL with the values of variables for their placeholders, one variable after the
other. -/
def fillServer (session : Session) :
    Entries ServerVariable → List Char → Except CallError (List Char)
  | [], url => .ok url
  | (name, declared) :: rest, url =>
    match session.variableValue name declared with
    | .error e => .error e
    | .ok value =>
      let placeholder := '\x7b' :: (name.toList ++ ['\x7d'])
      fillServer session rest (replaceFrom placeholder value.toList 0 url)

/-- The URL of a server, relative to that of the description. -/
def serverUrl (session : Session) (server : Server) : Except CallError Url :=
  (session.fillServer server.placeholders server.url.toList).bind fun cs =>
    let text := String.ofList cs
    match session.description.base.join text with
    | .ok url => .ok url
    | .error cause => .error (.invalidUrl text cause)

/-- The server that an operation is called on. -/
def serverOf (session : Session) (operation : Operation) : Server :=
  ((operation.servers.head?).orElse fun _ => session.description.servers.head?).getD .root

/-- A text without the slashes at its end. -/
def dropTrailingSlashes (s : String) : String :=
  String.ofList (s.toList.reverse.dropWhile (· = '/')).reverse

/-- The URL of a request. -/
def requestUrl (session : Session) (operation : Operation) (path : Entries String)
    (query : List (String × String)) : Except CallError Url :=
  (session.serverUrl (session.serverOf operation)).bind fun base =>
    let text := dropTrailingSlashes base.text ++ Template.fillPath path operation.path
    match Url.parse text with
    | .ok url => .ok (url.addPairs query)
    | .error cause => .error (.invalidUrl text cause)

/-- Cookies as the value of one header. -/
def cookieText (cookies : List (String × String)) : String :=
  "; ".intercalate (cookies.map fun (name, value) => name ++ "=" ++ value)

/-- The headers with one for the cookies, if there are any. -/
def setCookies (headers : Headers) (cookies : List (String × String)) : Except CallError Headers :=
  if cookies.isEmpty then .ok headers
  else
    let value := cookieText cookies
    if Headers.isValue (Text.Utf8.encode value) then
      .ok (headers.set "cookie" (Text.Utf8.encode value))
    else .error (.parameterEncoding "cookie" (.malformed .form value))

/-- The parameters of a call, checked and written. -/
def encodeSupplied (session : Session) (operation : Operation) (supplied : Entries Value) :
    Except CallError EncodedParameters :=
  match Parameter.checkSupplied operation.parameters supplied with
  | .error cause => .error (.supply cause)
  | .ok () => session.encodeParameters supplied operation.parameters ⟨[], [], [], []⟩

/-- The request of a call, from its parameters and from what security adds. -/
def assemble (session : Session) (operation : Operation) (payload : Option Payload)
    (parameters : EncodedParameters) (applied : AppliedSecurity) :
    Except CallError PreparedRequest :=
  (addHeaders parameters.headers applied.headers).bind fun headers =>
    (session.encodeBody operation payload headers).bind fun (body, headers) =>
      (session.requestUrl operation parameters.path (parameters.query ++ applied.query)).bind
        fun url =>
          (setCookies headers (parameters.cookies ++ applied.cookies)).map fun headers =>
            ⟨operation, ⟨operation.method, url, headers, body⟩, applied.digest⟩

/-- The request of a call, and what the authenticator was asked for it. -/
def prepare (session : Session) (operation : Operation) (supplied : Entries Value)
    (payload : Option Payload) : Except CallError PreparedRequest × List Consultation :=
  match session.encodeSupplied operation supplied with
  | .error e => (.error e, [])
  | .ok parameters =>
    let (applied, asked) := session.applySecurity operation
    (applied.bind fun applied => session.assemble operation payload parameters applied, asked)

end Session

end ApiContract
