import ApiContract.Proofs.Session.Challenge
/-!
# What credentials reach

A call is shaped by the names that the session has credentials for, and by the credentials of the one
alternative that it takes. A session with other credentials under the other names calls, sends and
fails in the same way (`call_eq_of_twins`), so that what it holds for other alternatives is known to
nobody.
-/

namespace ApiContract

open Json (Value)

namespace Session

variable {session other : Session} {operation : Operation} {supplied : Entries Value}
  {payload : Option Payload} {prepared : PreparedRequest}

/-- A session with other credentials. -/
def withCredentials (session : Session) (credentials : Credentials) : Session :=
  { session with credentials := credentials }

/-- Two sessions that hold credentials for the same schemes and agree in all else. -/
structure Twins (session other : Session) : Prop where
  frame : other = session.withCredentials other.credentials
  ascending : session.credentials.Ascending
  ascendingOther : other.credentials.Ascending
  names : ∀ scheme, scheme ∈ session.credentials.keys ↔ scheme ∈ other.credentials.keys

theorem Twins.keys_eq (h : session.Twins other) :
    session.credentials.keys = other.credentials.keys :=
  h.ascending.keys_eq h.ascendingOther h.names

theorem Twins.description_eq (h : session.Twins other) :
    other.description = session.description := by
  rw [h.frame]
  rfl

theorem Twins.authenticator_eq (h : session.Twins other) :
    other.authenticator = session.authenticator := by
  rw [h.frame]
  rfl

/-! ### What knows no credentials -/

section

variable (session : Session) (credentials : Credentials) (operation : Operation)

theorem encodeParameters_withCredentials (supplied : Entries Value) (declared : List Parameter)
    (sofar : EncodedParameters) :
    (session.withCredentials credentials).encodeParameters supplied declared sofar =
      session.encodeParameters supplied declared sofar := by
  induction declared generalizing sofar with
  | nil => rfl
  | cons parameter rest ih =>
    simp only [encodeParameters, ih]
    rfl

theorem encodeSupplied_withCredentials (supplied : Entries Value) :
    (session.withCredentials credentials).encodeSupplied operation supplied =
      session.encodeSupplied operation supplied := by
  simp only [encodeSupplied, encodeParameters_withCredentials]

theorem fillServer_withCredentials (placeholders : Entries ServerVariable) (url : List Char) :
    (session.withCredentials credentials).fillServer placeholders url =
      session.fillServer placeholders url := by
  induction placeholders generalizing url with
  | nil => rfl
  | cons placeholder rest ih =>
    simp only [fillServer, ih]
    rfl

theorem requestUrl_withCredentials (path : Entries String) (query : List (String × String)) :
    (session.withCredentials credentials).requestUrl operation path query =
      session.requestUrl operation path query := by
  simp only [requestUrl, serverUrl, fillServer_withCredentials]
  rfl

theorem encodeRest_withCredentials (payload : Option Payload) (path : Entries String) :
    (session.withCredentials credentials).encodeRest operation payload path =
      session.encodeRest operation payload path := by
  simp only [encodeRest, requestUrl_withCredentials]
  rfl

theorem assemble_withCredentials (payload : Option Payload) (parameters : EncodedParameters)
    (applied : AppliedSecurity) :
    (session.withCredentials credentials).assemble operation payload parameters applied =
      session.assemble operation payload parameters applied := by
  simp only [assemble, requestUrl_withCredentials]
  rfl

end

theorem Twins.encodeSupplied_eq (h : session.Twins other) :
    other.encodeSupplied operation supplied = session.encodeSupplied operation supplied := by
  rw [h.frame, encodeSupplied_withCredentials]

theorem Twins.encodeRest_eq (h : session.Twins other) (path : Entries String) :
    other.encodeRest operation payload path = session.encodeRest operation payload path := by
  rw [h.frame, encodeRest_withCredentials]

/-! ### What knows the credentials of one alternative -/

/-- Schemes are applied alike where their credentials are the same. -/
theorem applySchemes_withCredentials {credentials : Credentials} {names : List String}
    (agree : ∀ scheme ∈ names,
      Entries.get? scheme session.credentials = Entries.get? scheme credentials)
    (applied : AppliedSecurity) :
    (session.withCredentials credentials).applySchemes names applied =
      session.applySchemes names applied := by
  induction names generalizing applied with
  | nil => rfl
  | cons name rest ih =>
    have here := agree name List.mem_cons_self
    have further := ih fun scheme member => agree scheme (List.mem_cons_of_mem _ member)
    simp only [applySchemes, further]
    simp only [withCredentials, here]

/-- Two sessions have the same credentials for the alternative that they take. -/
def Agree (session : Session) (operation : Operation) (other : Session) : Prop :=
  ∀ requirement, session.Chooses operation requirement → ∀ scheme ∈ requirement.keys,
    Entries.get? scheme session.credentials = Entries.get? scheme other.credentials

theorem applySecurity_eq_of_twins (twins : session.Twins other)
    (agree : session.Agree operation other) :
    session.applySecurity operation = other.applySecurity operation := by
  have same : session.negotiated operation = other.negotiated operation :=
    negotiated_congr twins.description_eq twins.keys_eq
  rw [applySecurity_eq, applySecurity_eq, same]
  cases taken : other.negotiated operation with
  | error e => rfl
  | ok requirement =>
    cases requirement with
    | none => rfl
    | some requirement =>
      rw [← same] at taken
      have own := agree requirement (chooses_of_negotiated taken)
      rw [twins.frame]
      exact (applySchemes_withCredentials own .none).symm

theorem prepare_eq_of_twins (twins : session.Twins other) (agree : session.Agree operation other)
    (supplied : Entries Value) (payload : Option Payload) :
    session.prepare operation supplied payload = other.prepare operation supplied payload := by
  have secured := applySecurity_eq_of_twins twins agree
  unfold prepare
  rw [secured, twins.frame, encodeSupplied_withCredentials]
  simp only [assemble_withCredentials]

/-- What is sent depends on the credential of the one scheme whose challenges are to be answered. -/
theorem send_withCredentials {credentials : Credentials}
    (agree : ∀ scheme, prepared.digest = some scheme →
      Entries.get? scheme session.credentials = Entries.get? scheme credentials)
    (transport : Transport) (earlier : List HttpRequest) :
    (session.withCredentials credentials).send transport earlier prepared =
      session.send transport earlier prepared := by
  by_cases challenged : ∃ scheme challenge, prepared.digest = some scheme ∧
      transport.Challenges earlier prepared.request challenge
  · obtain ⟨scheme, challenge, own, challenges⟩ := challenged
    have answer : (session.withCredentials credentials).answer scheme challenge prepared.request =
        session.answer scheme challenge prepared.request := by
      simp only [Session.answer, withCredentials, agree scheme own]
    rw [send_of_challenged own challenges, send_of_challenged own challenges, answer]
  · rw [send_of_unchallenged challenged, send_of_unchallenged challenged]

theorem send_eq_of_twins (twins : session.Twins other) (agree : session.Agree operation other)
    (h : (session.prepare operation supplied payload).1 = .ok prepared) (transport : Transport)
    (earlier : List HttpRequest) :
    session.send transport earlier prepared = other.send transport earlier prepared := by
  rw [twins.frame]
  refine (send_withCredentials ?_ transport earlier).symm
  intro scheme own
  obtain ⟨requirement, chosen, last⟩ := (digest_of_prepare h scheme).mp own
  exact agree requirement chosen scheme (mem_keys_of_digestOf last)

theorem sent_eq_of_twins (twins : session.Twins other) (agree : session.Agree operation other)
    (supplied : Entries Value) (payload : Option Payload) (transport : Transport) :
    (session.call transport operation supplied payload).sent =
      (other.call transport operation supplied payload).sent := by
  simp only [call, ← prepare_eq_of_twins twins agree supplied payload]
  cases preparing : (session.prepare operation supplied payload).1 with
  | error e => rfl
  | ok prepared => exact congrArg Exchange.sent (send_eq_of_twins twins agree preparing transport [])

/-- A session with another credential in the place of one that it holds. -/
theorem twins_insertSorted {scheme : String} (ascending : session.credentials.Ascending)
    (held : scheme ∈ session.credentials.keys) (credential : Credential) :
    session.Twins
      (session.withCredentials (session.credentials.insertSorted scheme credential)) := by
  refine ⟨rfl, ascending, ascending.insertSorted, ?_⟩
  intro name
  refine Iff.trans ?_ Entries.mem_keys_insertSorted_iff.symm
  constructor
  · exact .inr
  · rintro (rfl | member)
    · exact held
    · exact member

/-- Two sessions with credentials for the same schemes, and with the same ones for the alternative that
they take, prepare the same request or fail with the same error, and send the same. So no credential
of another alternative reaches a transport: with any other one in its place the same is sent. -/
theorem call_eq_of_twins (twins : session.Twins other) (agree : session.Agree operation other)
    (supplied : Entries Value) (payload : Option Payload) :
    session.prepare operation supplied payload = other.prepare operation supplied payload ∧
      (∀ prepared, (session.prepare operation supplied payload).1 = .ok prepared →
        ∀ transport earlier,
          session.send transport earlier prepared = other.send transport earlier prepared) ∧
      ∀ scheme ∈ session.credentials.keys,
        (∀ requirement, session.Chooses operation requirement → scheme ∉ requirement.keys) →
          ∀ credential transport,
            ((session.withCredentials (session.credentials.insertSorted scheme credential)).call
              transport operation supplied payload).sent =
                (session.call transport operation supplied payload).sent := by
  refine ⟨prepare_eq_of_twins twins agree supplied payload, ?sends, ?hides⟩
  case sends =>
    intro prepared preparing transport earlier
    exact send_eq_of_twins twins agree preparing transport earlier
  case hides =>
    intro scheme held elsewhere credential transport
    refine (sent_eq_of_twins (twins_insertSorted twins.ascending held credential) ?_ supplied
      payload transport).symm
    intro requirement chosen name member
    have different : name ≠ scheme := by
      rintro rfl
      exact elsewhere requirement chosen member
    exact ((Entries.get?_insertSorted scheme name credential _).trans (if_neg different)).symm

/-- The shelves with two alternatives, the first of which is a badge. -/
def badgeShelves (credentials : Credentials) : Session :=
  { shelves with
    description :=
      { shelves.description with
        securitySchemes := [("badge", .apiKey "badge" .query), ("key", .apiKey "key" .header)]
        security := [[("badge", [])], [("key", [])]] }
    credentials := credentials }

/-- Whatever the key is, the badge alone is sent. -/
theorem call_eq_badgeShelves :
    let session := badgeShelves [("badge", .secret "ann"), ("key", .secret "open")]
    let other := badgeShelves [("badge", .secret "ann"), ("key", .secret "shut")]
    let supplied := [("name", Value.string "a")]
    let payload := some (Payload.value (.string "b"))
    session.Twins other ∧ session.Agree labelShelf other ∧
      session.prepare labelShelf supplied payload = other.prepare labelShelf supplied payload ∧
        (session.prepare labelShelf supplied payload).1.isOk = true := by
  intro session other supplied payload
  have twins : session.Twins other := by
    refine ⟨rfl, ?_, ?_, fun _ => Iff.rfl⟩ <;>
      · unfold Entries.Ascending
        decide
  have agree : session.Agree labelShelf other := by
    intro requirement chosen scheme member
    have first : some [("badge", [])] = some requirement := chooses_iff.mp chosen
    cases first
    obtain rfl := List.mem_singleton.mp member
    rfl
  exact ⟨twins, agree, (call_eq_of_twins twins agree supplied payload).1, by decide +kernel⟩

end Session

end ApiContract
