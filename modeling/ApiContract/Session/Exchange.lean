import ApiContract.Session.Request
/-!
# Sending requests

A request is sent once, or twice where the server answers with a challenge that the session has an
answer to.
-/

namespace ApiContract

/-- What came of sending a request. -/
structure Exchange where
  /-- The requests that the transport was given, in order. -/
  sent : List HttpRequest
  asked : List Consultation
  outcome : Except CallError HttpResponse

namespace Session

/-- What a transport answers, as the outcome of a call. -/
def transmit (transport : Transport) (earlier : List HttpRequest) (request : HttpRequest) :
    Except CallError HttpResponse :=
  match transport.answer earlier request with
  | .ok response => .ok response
  | .error cause => .error (.transport cause)

/-- The challenge to answer: that of a refusal, where a scheme with challenges was chosen. -/
def challenge? (digest : Option String) (response : HttpResponse) : Option (String × String) :=
  if response.status = 401 then
    digest.bind fun scheme =>
      (response.headers.text? "www-authenticate").map fun challenge => (scheme, challenge)
  else none

/-- The request that answers a challenge, and what the authenticator was asked for it. -/
def answer (session : Session) (scheme challenge : String) (request : HttpRequest) :
    Except CallError HttpRequest × List Consultation :=
  match session.authenticator, Entries.get? scheme session.credentials with
  | none, _ => (.error (.authentication scheme "no authenticator configured"), [])
  | some _, none => (.error (.authentication scheme "no credential"), [])
  | some authenticator, some credential =>
    let asked := [Consultation.challenge scheme challenge request credential]
    match authenticator.answerChallenge scheme challenge request credential with
    | .error problem => (.error (.authentication scheme problem), asked)
    | .ok text =>
      let value := Text.Utf8.encode text
      if Headers.isValue value then
        (.ok { request with headers := request.headers.set "authorization" value }, asked)
      else (.error (.authentication scheme "failed to parse header value"), asked)

/-- Send a request; a challenge is answered once. `earlier` holds what the transport was given
before. -/
def send (session : Session) (transport : Transport) (earlier : List HttpRequest)
    (prepared : PreparedRequest) : Exchange :=
  let request := prepared.request
  match transmit transport earlier request with
  | .error e => ⟨[request], [], .error e⟩
  | .ok response =>
    match challenge? prepared.digest response with
    | none => ⟨[request], [], .ok response⟩
    | some (scheme, challenge) =>
      match session.answer scheme challenge request with
      | (.error e, asked) => ⟨[request], asked, .error e⟩
      | (.ok second, asked) =>
        ⟨[request, second], asked, transmit transport (earlier ++ [request]) second⟩

end Session

end ApiContract
