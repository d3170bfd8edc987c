import ApiContract.Json.Parser
import ApiContract.Parameter.Decoding
import ApiContract.Session.Exchange
/-!
# Results of calls

A response is matched to what the operation declares for its status, its headers and its body are
decoded, and the body is checked against its schema.
-/

namespace ApiContract

open Json (Value)

/-- The body of a response. -/
inductive ResponseData where
  | empty
  | json (value : Value)
  | text (s : String)
  | octets (bytes : Octets)
deriving Inhabited

/-- A response that has been matched and decoded. -/
structure DecodedResponse where
  status : Nat
  /-- The key of the declared response. -/
  matched : String
  mediaType : Option String
  schema : Option SchemaId
  headers : Entries Value
  data : ResponseData
deriving Inhabited

/-- The result of a call. -/
structure CallResult where
  status : Nat
  matched : String
  mediaType : Option String
  headers : Entries Value
  data : ResponseData
  warnings : List Warning
deriving Inhabited

namespace Session

/-- The failure that a status code is for a session, if it is one. -/
def statusFailure? (options : SessionOptions) (response : HttpResponse) : Option CallError :=
  match StatusClass.of? response.status with
  | none => none
  | some class' =>
    if options.failOnStatus.contains class' then
      match class' with
      | .clientError => some (.httpClient response)
      | .serverError => some (.httpServer response)
      | .informational | .success | .redirection => some (.httpStatus response)
    else none

/-- The declared media type of a response, with what is said of it; none where nothing is declared or
the response has no body. -/
def mediaOf (declared : Response) (response : HttpResponse) :
    Except CallError (Option (String × MediaType)) :=
  let actual := response.mediaType?
  if declared.content.isEmpty || (actual.isNone && response.body.isEmpty) then .ok none
  else
    match actual.bind fun mediaType => declared.content.find? fun entry => entry.1 = mediaType with
    | some entry => .ok (some entry)
    | none => .error (.contentType response.status actual declared.content.keys)

/-- The names of the headers that have to be there and are not. -/
def missingHeaders (response : HttpResponse) (declared : Entries ResponseHeader) : List String :=
  (declared.filter fun entry =>
    entry.2.required && (response.headers.text? entry.1).isNone).map Prod.fst

/-- The declared headers that are there, decoded. -/
def decodeHeaders (catalog : Catalog) (response : HttpResponse) :
    Entries ResponseHeader → Except CallError (Entries Value)
  | [] => .ok []
  | (name, header) :: rest =>
    match response.headers.text? name with
    | none => decodeHeaders catalog response rest
    | some text =>
      let hint := header.schema.elim .untyped catalog.hint
      match Parameter.decodeText name .simple header.explode text hint with
      | .error cause => .error (.headerDecoding name cause)
      | .ok value => (decodeHeaders catalog response rest).map ((name, value) :: ·)

/-- The body of a response in a media type. -/
def decodeBody (mediaType : Option String) (body : Octets) : Except CallError ResponseData :=
  match mediaType with
  | none => .ok (if body.isEmpty then .empty else .octets body)
  | some mediaType =>
    let orFailure (data : Option ResponseData) : Except CallError ResponseData :=
      match data with
      | some data => .ok data
      | none => .error (.responseDecoding mediaType)
    if isJson mediaType then orFailure ((Json.parseOctets? body).map .json)
    else if isText mediaType then orFailure ((Text.Utf8.decode? body).map .text)
    else .ok (.octets body)

/-- A response matched to a declared one, and decoded. -/
def decodeAs (session : Session) (response : HttpResponse) (matched : String) (declared : Response) :
    Except CallError DecodedResponse :=
  (mediaOf declared response).bind fun media =>
    (decodeHeaders session.catalog response declared.headers).bind fun headers =>
      let missing := missingHeaders response declared.headers
      if !missing.isEmpty then .error (.headersMissing missing)
      else
        let mediaType := media.map Prod.fst
        (decodeBody mediaType response.body).map fun data =>
          { status := response.status
            matched := matched
            mediaType := mediaType
            schema := media.bind fun entry => entry.2.schema
            headers := headers
            data := data }

/-- A response to an operation, matched and decoded. -/
def decode (session : Session) (operation : Operation) (response : HttpResponse) :
    Except CallError DecodedResponse :=
  match statusFailure? session.options response with
  | some e => .error e
  | none =>
    match operation.route response.status with
    | none => .error (.noContractMatched response)
    | some (matched, declared) => session.decodeAs response matched declared

/-- The value that is checked against the schema of a body. -/
def ResponseData.value? : ResponseData → Option Value
  | .json value => some value
  | .text s => some (.string s)
  | .empty | .octets _ => none

/-- The warnings on a body, or the failure that its violations are. -/
def checkData (session : Session) (schema : Option SchemaId) (data : ResponseData) :
    Except CallError (List Warning) :=
  match schema, ResponseData.value? data with
  | some schema, some value =>
    match session.catalog.validate session.options.strictDiscriminator schema value with
    | .ok warnings => .ok warnings
    | .error errors => .error (.responseSchema errors value)
  | _, _ => .ok []

/-- The result of a call from its decoded response. -/
def finish (session : Session) (decoded : DecodedResponse) : Except CallError CallResult :=
  (session.checkData decoded.schema decoded.data).map fun warnings =>
    { status := decoded.status
      matched := decoded.matched
      mediaType := decoded.mediaType
      headers := decoded.headers
      data := decoded.data
      warnings := warnings }

/-- What came of a call: the requests that were sent, the questions that were asked, the result. -/
structure CallRecord where
  sent : List HttpRequest
  asked : List Consultation
  result : Except CallError CallResult

/-- Call an operation: prepare the request, send it, and decode and check the response. -/
def call (session : Session) (transport : Transport) (operation : Operation)
    (supplied : Entries Value) (payload : Option Payload) : CallRecord :=
  let (prepared, asked) := session.prepare operation supplied payload
  match prepared with
  | .error e => ⟨[], asked, .error e⟩
  | .ok prepared =>
    let exchange := session.send transport [] prepared
    let result :=
      (exchange.outcome.bind (session.decode operation)).bind session.finish
    ⟨exchange.sent, asked ++ exchange.asked, result⟩

end Session

end ApiContract
