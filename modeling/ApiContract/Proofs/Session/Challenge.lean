import ApiContract.Proofs.Session.Admission
/-!
# Challenges

A request is sent a second time only in answer to a challenge, and never a third time. What has to
come together for that is a scheme with challenges in the alternative that was taken, a refusal that
challenges, and an authenticator whose answer can be the value of a header; the second request is the
first one with that answer as its only `Authorization` (`Session.AnswersOnce`).
-/

namespace ApiContract

open Json (Value)

/-- A transport answers a request with a refusal whose challenge reads as text. -/
def Transport.Challenges (transport : Transport) (earlier : List HttpRequest) (request : HttpRequest)
    (challenge : String) : Prop :=
  ∃ response, transport.answer earlier request = .ok response ∧ response.status = 401 ∧
    response.headers.text? "www-authenticate" = some challenge

theorem Transport.Challenges.unique {transport : Transport} {earlier : List HttpRequest}
    {request : HttpRequest} {challenge other : String}
    (h : transport.Challenges earlier request challenge)
    (h' : transport.Challenges earlier request other) : challenge = other := by
  obtain ⟨response, answered, -, text⟩ := h
  obtain ⟨_, answered', -, text'⟩ := h'
  cases answered.symm.trans answered'
  exact Option.some.inj (text.symm.trans text')

/-- A request is another one with a text as its only `Authorization`. -/
structure HttpRequest.Repeats (second first : HttpRequest) (answer : String) : Prop where
  method : second.method = first.method
  url : second.url = first.url
  body : second.body = first.body
  authorization : second.headers.filter (fun field => field.1 = "authorization") =
    [("authorization", Text.Utf8.encode answer)]
  others : second.headers.filter (fun field => field.1 ≠ "authorization") =
    first.headers.filter fun field => field.1 ≠ "authorization"

namespace Session

variable {session : Session} {operation : Operation} {supplied : Entries Value}
  {payload : Option Payload} {prepared : PreparedRequest}

/-- The alternative that a session takes has a scheme whose challenges are to be answered. -/
def NegotiatesDigest (session : Session) (operation : Operation) (scheme : String) : Prop :=
  ∃ requirement, session.Chooses operation requirement ∧ session.digestOf requirement = some scheme

/-- The authenticator of a session answers a challenge to a request, with what can be the value of a
header. -/
def HasAnswer (session : Session) (scheme challenge : String) (request : HttpRequest)
    (answer : String) : Prop :=
  ∃ authenticator credential, session.authenticator = some authenticator ∧
    Entries.get? scheme session.credentials = some credential ∧
      authenticator.answerChallenge scheme challenge request credential = .ok answer ∧
        Headers.isValue (Text.Utf8.encode answer) = true

/-- An exchange over a request of an operation: the request is sent once, and a second time exactly if
there is an answer to a challenge. -/
structure AnswersOnce (session : Session) (operation : Operation) (transport : Transport)
    (earlier : List HttpRequest) (request : HttpRequest) (exchange : Exchange) : Prop where
  first : exchange.sent.head? = some request
  atMostTwice : exchange.sent.length = 1 ∨ exchange.sent.length = 2
  held : ∀ scheme, session.NegotiatesDigest operation scheme → scheme ∈ session.credentials.keys
  twice_iff : exchange.sent.length = 2 ↔ ∃ scheme challenge answer,
    session.NegotiatesDigest operation scheme ∧ transport.Challenges earlier request challenge ∧
      session.HasAnswer scheme challenge request answer
  repeated : ∀ scheme challenge answer, session.NegotiatesDigest operation scheme →
    transport.Challenges earlier request challenge →
      session.HasAnswer scheme challenge request answer →
        ∃ second, second.Repeats request answer ∧ exchange.sent = [request, second] ∧
          exchange.outcome = transmit transport (earlier ++ [request]) second
  unanswered : ∀ scheme challenge, session.NegotiatesDigest operation scheme →
    transport.Challenges earlier request challenge →
      (∀ answer, ¬ session.HasAnswer scheme challenge request answer) →
        exchange.sent = [request] ∧ ∃ problem, exchange.outcome = .error (.authentication scheme problem)
  otherwise : (¬ ∃ scheme challenge, session.NegotiatesDigest operation scheme ∧
      transport.Challenges earlier request challenge) →
    exchange.sent = [request] ∧ exchange.outcome = transmit transport earlier request

/-! ### What is to be answered -/

/-- A prepared request tells the scheme whose challenges are to be answered. -/
theorem digest_of_prepare (h : (session.prepare operation supplied payload).1 = .ok prepared)
    (scheme : String) :
    prepared.digest = some scheme ↔ session.NegotiatesDigest operation scheme := by
  obtain ⟨parameters, applied, -, secured, assembled⟩ := exists_of_prepare_eq_ok h
  rw [(exists_of_assemble_eq_ok assembled).1]
  exact digest_applySecurity secured scheme

theorem mem_keys_of_digestOf {requirement : SecurityRequirement} {scheme : String}
    (h : session.digestOf requirement = some scheme) : scheme ∈ requirement.keys :=
  (List.mem_filter.mp (List.mem_of_getLast? h)).1

theorem NegotiatesDigest.unique {scheme other : String}
    (h : session.NegotiatesDigest operation scheme)
    (h' : session.NegotiatesDigest operation other) : scheme = other := by
  obtain ⟨requirement, chosen, own⟩ := h
  obtain ⟨_, chosen', own'⟩ := h'
  cases chosen.unique chosen'
  exact Option.some.inj (own.symm.trans own')

theorem held_of_negotiatesDigest {scheme : String} (h : session.NegotiatesDigest operation scheme) :
    scheme ∈ session.credentials.keys := by
  obtain ⟨requirement, chosen, own⟩ := h
  exact chosen.satisfies scheme (mem_keys_of_digestOf own)

theorem challenge?_eq_some_iff {digest : Option String} {response : HttpResponse}
    {scheme challenge : String} : challenge? digest response = some (scheme, challenge) ↔
      digest = some scheme ∧ response.status = 401 ∧
        response.headers.text? "www-authenticate" = some challenge := by
  unfold challenge?
  by_cases refused : response.status = 401
  · cases digest with
    | none => simp
    | some own => simp [refused, and_comm]
  · simp [refused]

/-! ### The answer -/

theorem repeats_set (request : HttpRequest) (answer : String) :
    HttpRequest.Repeats { request with
      headers := request.headers.set "authorization" (Text.Utf8.encode answer) } request answer := by
  have name : Text.lowerAscii "authorization" = "authorization" := by decide
  refine ⟨rfl, rfl, rfl, ?_, ?_⟩
  · simp [Headers.set, name, List.filter_filter]
  · simp [Headers.set, name, List.filter_filter, bne, beq_eq_decide]

/-- There is a second request if there is an answer, and otherwise the scheme is at fault. -/
theorem answer_spec (session : Session) (scheme challenge : String) (request : HttpRequest) :
    (∃ second answer, (session.answer scheme challenge request).1 = .ok second ∧
      session.HasAnswer scheme challenge request answer ∧ second.Repeats request answer) ∨
    ∃ problem, (session.answer scheme challenge request).1 = .error (.authentication scheme problem) ∧
      ∀ answer, ¬ session.HasAnswer scheme challenge request answer := by
  cases hook : session.authenticator with
  | none =>
    refine .inr ⟨"no authenticator configured", by simp only [Session.answer, hook], ?_⟩
    rintro answer ⟨authenticator, credential, own, -⟩
    rw [hook] at own
    cases own
  | some authenticator =>
    cases held : Entries.get? scheme session.credentials with
    | none =>
      refine .inr ⟨"no credential", by simp only [Session.answer, hook, held], ?_⟩
      rintro answer ⟨-, credential, -, own, -⟩
      rw [held] at own
      cases own
    | some credential =>
      cases text : authenticator.answerChallenge scheme challenge request credential with
      | error problem =>
        refine .inr ⟨problem, by simp only [Session.answer, hook, held, text], ?_⟩
        rintro answer ⟨other, own, same, same', given, -⟩
        rw [hook] at same
        rw [held] at same'
        cases same
        cases same'
        rw [text] at given
        cases given
      | ok answer =>
        by_cases fits : Headers.isValue (Text.Utf8.encode answer) = true
        · refine .inl ⟨_, answer, ?_, ⟨authenticator, credential, hook, held, text, fits⟩,
            repeats_set request answer⟩
          simp only [Session.answer, hook, held, text, fits, if_true]
        · refine .inr ⟨"failed to parse header value", ?_, ?_⟩
          · simp only [Session.answer, hook, held, text, fits]
            rfl
          · rintro other ⟨_, _, same, same', given, fitting⟩
            rw [hook] at same
            rw [held] at same'
            cases same
            cases same'
            rw [text] at given
            cases given
            exact fits fitting

theorem HasAnswer.unique {scheme challenge answer other : String} {request : HttpRequest}
    (h : session.HasAnswer scheme challenge request answer)
    (h' : session.HasAnswer scheme challenge request other) : answer = other := by
  obtain ⟨authenticator, credential, hook, held, text, -⟩ := h
  obtain ⟨_, _, hook', held', text', -⟩ := h'
  cases hook.symm.trans hook'
  cases held.symm.trans held'
  exact Except.ok.inj (text.symm.trans text')

/-! ### The exchange -/

section

variable {transport : Transport} {earlier : List HttpRequest} {request second : HttpRequest}
  {exchange : Exchange} {scheme challenge answer problem : String}

theorem answersOnce_of_unchallenged (none : ¬ ∃ scheme challenge,
      session.NegotiatesDigest operation scheme ∧ transport.Challenges earlier request challenge)
    (sent : exchange.sent = [request]) (outcome : exchange.outcome = transmit transport earlier request) :
    session.AnswersOnce operation transport earlier request exchange where
  first := by rw [sent]; rfl
  atMostTwice := .inl (by rw [sent]; rfl)
  held _ := held_of_negotiatesDigest
  twice_iff := by
    constructor
    · intro twice
      rw [sent] at twice
      cases twice
    · rintro ⟨scheme, challenge, answer, digest, challenges, -⟩
      exact absurd ⟨scheme, challenge, digest, challenges⟩ none
  repeated scheme challenge _ digest challenges := absurd ⟨scheme, challenge, digest, challenges⟩ none
  unanswered scheme challenge digest challenges := absurd ⟨scheme, challenge, digest, challenges⟩ none
  otherwise _ := ⟨sent, outcome⟩

theorem answersOnce_of_answered (digest : session.NegotiatesDigest operation scheme)
    (challenges : transport.Challenges earlier request challenge)
    (has : session.HasAnswer scheme challenge request answer) (repeats : second.Repeats request answer)
    (sent : exchange.sent = [request, second])
    (outcome : exchange.outcome = transmit transport (earlier ++ [request]) second) :
    session.AnswersOnce operation transport earlier request exchange where
  first := by rw [sent]; rfl
  atMostTwice := .inr (by rw [sent]; rfl)
  held _ := held_of_negotiatesDigest
  twice_iff := by
    constructor
    · intro _
      exact ⟨scheme, challenge, answer, digest, challenges, has⟩
    · intro _
      rw [sent]
      rfl
  repeated := by
    intro other text given digest' challenges' has'
    obtain rfl := digest.unique digest'
    obtain rfl := challenges.unique challenges'
    obtain rfl := has.unique has'
    exact ⟨second, repeats, sent, outcome⟩
  unanswered := by
    intro other text digest' challenges' without
    obtain rfl := digest.unique digest'
    obtain rfl := challenges.unique challenges'
    exact absurd has (without answer)
  otherwise without := absurd ⟨scheme, challenge, digest, challenges⟩ without

theorem answersOnce_of_unanswered (digest : session.NegotiatesDigest operation scheme)
    (challenges : transport.Challenges earlier request challenge)
    (none : ∀ answer, ¬ session.HasAnswer scheme challenge request answer)
    (sent : exchange.sent = [request])
    (outcome : exchange.outcome = .error (.authentication scheme problem)) :
    session.AnswersOnce operation transport earlier request exchange where
  first := by rw [sent]; rfl
  atMostTwice := .inl (by rw [sent]; rfl)
  held _ := held_of_negotiatesDigest
  twice_iff := by
    constructor
    · intro twice
      rw [sent] at twice
      cases twice
    · rintro ⟨other, text, answer, digest', challenges', has⟩
      obtain rfl := digest.unique digest'
      obtain rfl := challenges.unique challenges'
      exact absurd has (none answer)
  repeated := by
    intro other text answer digest' challenges' has
    obtain rfl := digest.unique digest'
    obtain rfl := challenges.unique challenges'
    exact absurd has (none answer)
  unanswered := by
    intro other text digest' challenges' _
    obtain rfl := digest.unique digest'
    exact ⟨sent, problem, outcome⟩
  otherwise without := absurd ⟨scheme, challenge, digest, challenges⟩ without

/-- A request that is not challenged is sent once. -/
theorem send_of_unchallenged (h : ¬ ∃ scheme challenge, prepared.digest = some scheme ∧
      transport.Challenges earlier prepared.request challenge) :
    session.send transport earlier prepared =
      ⟨[prepared.request], [], transmit transport earlier prepared.request⟩ := by
  cases heard : transport.answer earlier prepared.request with
  | error cause => simp only [send, transmit, heard]
  | ok response =>
    cases asked : challenge? prepared.digest response with
    | none => simp only [send, transmit, heard, asked]
    | some pair =>
      obtain ⟨scheme, challenge⟩ := pair
      obtain ⟨own, refused, text⟩ := challenge?_eq_some_iff.mp asked
      exact absurd ⟨scheme, challenge, own, response, heard, refused, text⟩ h

/-- What comes of a challenge is a matter of its answer. -/
theorem send_of_challenged (own : prepared.digest = some scheme)
    (h : transport.Challenges earlier prepared.request challenge) :
    session.send transport earlier prepared =
      match session.answer scheme challenge prepared.request with
      | (.error e, asked) => ⟨[prepared.request], asked, .error e⟩
      | (.ok second, asked) => ⟨[prepared.request, second], asked,
          transmit transport (earlier ++ [prepared.request]) second⟩ := by
  obtain ⟨response, heard, refused, text⟩ := h
  have challenged := challenge?_eq_some_iff.mpr ⟨own, refused, text⟩
  cases answered : session.answer scheme challenge prepared.request with
  | mk result asked =>
    cases result with
    | error e => simp only [send, transmit, heard, challenged, answered]
    | ok second => simp only [send, transmit, heard, challenged, answered]

end

/-- Whatever a transport and an authenticator do, a request that has been prepared is sent once, and
once more to answer a challenge. -/
theorem answersOnce_of_prepare (h : (session.prepare operation supplied payload).1 = .ok prepared)
    (transport : Transport) (earlier : List HttpRequest) :
    session.AnswersOnce operation transport earlier prepared.request
      (session.send transport earlier prepared) := by
  by_cases challenged : ∃ scheme challenge, prepared.digest = some scheme ∧
      transport.Challenges earlier prepared.request challenge
  · obtain ⟨scheme, challenge, own, challenges⟩ := challenged
    have digest := (digest_of_prepare h scheme).mp own
    rw [send_of_challenged own challenges]
    rcases answer_spec session scheme challenge prepared.request with
      ⟨second, answer, answered, has, repeats⟩ | ⟨problem, failed, none⟩
    · generalize session.answer scheme challenge prepared.request = result at answered
      obtain ⟨_, asked⟩ := result
      obtain rfl : _ = Except.ok second := answered
      exact answersOnce_of_answered digest challenges has repeats rfl rfl
    · generalize session.answer scheme challenge prepared.request = result at failed
      obtain ⟨_, asked⟩ := result
      obtain rfl : _ = Except.error _ := failed
      exact answersOnce_of_unanswered digest challenges none rfl rfl
  · rw [send_of_unchallenged challenged]
    simp only [digest_of_prepare h] at challenged
    exact answersOnce_of_unchallenged challenged rfl rfl

/-- The shelves behind two schemes at once, of which one has challenges that are repeated for an
answer. -/
def guardedShelves : Session :=
  { shelves with
    description :=
      { shelves.description with
        securitySchemes := [("guard", .http .digest none), ("pass", .http .basic none)]
        security := [[("guard", []), ("pass", [])]] }
    authenticator := some
      { Authenticator.empty with
        answerChallenge := fun _ challenge _ _ => .ok ("Digest " ++ challenge) }
    credentials := [("guard", .userPassword "ann" "open"), ("pass", .userPassword "ann" "open")] }

/-- A transport that refuses every request with a challenge. -/
def guard : Transport :=
  ⟨fun _ _ => .ok ⟨401, [("www-authenticate", Text.Utf8.encode "who")], []⟩⟩

/-- The second request has the answer alone where the first one had a password, and is the last one
although it is refused like the first. -/
theorem answersOnce_guardedShelves :
    ∃ prepared, (guardedShelves.prepare labelShelf [("name", .string "a")]
        (some (.value (.string "b")))).1 = .ok prepared ∧
      guardedShelves.AnswersOnce labelShelf guard [] prepared.request
        (guardedShelves.send guard [] prepared) ∧
      (guardedShelves.send guard [] prepared).sent.map (fun request =>
        request.headers.filter fun field => field.1 = "authorization") =
          [[("authorization", Text.Utf8.encode "Basic YW5uOm9wZW4=")],
            [("authorization", Text.Utf8.encode "Digest who")]] := by
  obtain ⟨prepared, preparing, sent⟩ := @exists_of_any _ _ (guardedShelves.prepare labelShelf
      [("name", .string "a")] (some (.value (.string "b")))).1
    (fun prepared => decide ((guardedShelves.send guard [] prepared).sent.map (fun request =>
      request.headers.filter fun field => field.1 = "authorization") =
        [[("authorization", Text.Utf8.encode "Basic YW5uOm9wZW4=")],
          [("authorization", Text.Utf8.encode "Digest who")]])) (by decide +kernel)
  exact ⟨prepared, preparing, answersOnce_of_prepare preparing guard [], of_decide_eq_true sent⟩

end Session

end ApiContract
