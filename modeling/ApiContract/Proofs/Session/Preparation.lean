import ApiContract.Proofs.Except
import ApiContract.Session.Request
/-!
# The stages of preparing a request

A request is prepared in stages, of which each has its own ways to fail: the parameters, the security,
and then what `Session.assemble` puts together, which is the headers of the security, the body and
the URL, and the cookies. Of these the body and the URL have nothing to do with the security
(`Session.encodeRest`).
-/

namespace ApiContract

open Json (Value)

namespace CallError

/-- The errors about the values of parameters. -/
def IsOfParameters : CallError → Prop
  | supply _ | parameterSchema _ _ | parameterEncoding _ _ => True
  | _ => False

/-- The errors about the body and the URL of a request. -/
def IsOfRest : CallError → Prop
  | missingBody _ | bodyEncoding _ _ | requestSchema _ | serverVariableNotAllowed _ _ _
  | invalidUrl _ _ => True
  | _ => False

end CallError

namespace Session

variable {session : Session} {operation : Operation} {supplied : Entries Value}
  {payload : Option Payload} {parameters : EncodedParameters} {applied : AppliedSecurity}
  {prepared : PreparedRequest} {e : CallError}

/-- A request is prepared from encoded parameters and applied security. -/
theorem prepare_fst (session : Session) (operation : Operation) (supplied : Entries Value)
    (payload : Option Payload) : (session.prepare operation supplied payload).1 =
      (session.encodeSupplied operation supplied).bind fun parameters =>
        (session.applySecurity operation).1.bind fun applied =>
          session.assemble operation payload parameters applied := by
  unfold prepare
  cases session.encodeSupplied operation supplied <;> rfl

theorem exists_of_prepare_eq_ok
    (h : (session.prepare operation supplied payload).1 = .ok prepared) :
    ∃ parameters applied, session.encodeSupplied operation supplied = .ok parameters ∧
      (session.applySecurity operation).1 = .ok applied ∧
        session.assemble operation payload parameters applied = .ok prepared := by
  rw [prepare_fst] at h
  obtain ⟨parameters, encoding, h⟩ := exists_of_bind_eq_ok h
  obtain ⟨applied, secured, assembled⟩ := exists_of_bind_eq_ok h
  exact ⟨parameters, applied, encoding, secured, assembled⟩

theorem exists_of_assemble_eq_ok
    (h : session.assemble operation payload parameters applied = .ok prepared) :
    prepared.digest = applied.digest ∧
      (∃ headers encoded, session.encodeBody operation payload headers = .ok encoded) ∧
        session.requestUrl operation parameters.path (parameters.query ++ applied.query) =
          .ok prepared.request.url := by
  obtain ⟨headers, -, h⟩ := exists_of_bind_eq_ok h
  obtain ⟨⟨octets, between⟩, body, h⟩ := exists_of_bind_eq_ok h
  obtain ⟨url, located, h⟩ := exists_of_bind_eq_ok h
  obtain ⟨last, -, rfl⟩ := exists_of_map_eq_ok h
  exact ⟨rfl, ⟨headers, _, body⟩, located⟩

/-! ### How parameters fail -/

theorem eq_of_addHeader_eq_error {headers : Headers} {name value : String} {style : ParameterStyle}
    (h : addHeader headers name value style = .error e) :
    (Headers.isName name && Headers.isValue (Text.Utf8.encode value)) = false ∧
      e = .parameterEncoding name (.malformed style value) := by
  simp only [addHeader, Headers.addText?] at h
  split at h
  · cases h
  · next refused =>
    cases h
    refine ⟨?_, rfl⟩
    simpa only [Option.ite_none_right_eq_some, reduceCtorEq, ite_eq_right_iff, imp_false,
      Bool.not_eq_true] using refused

theorem isOfParameters_of_encodeParameter {parameter : Parameter} {value : Value}
    (h : session.encodeParameter parameter value parameters = .error e) : e.IsOfParameters := by
  rcases cases_of_bind_eq_error h with invalid | ⟨_, -, unwritten⟩
  · unfold checkParameter at invalid
    split at invalid
    · cases invalid
    · cases invalid
    · split at invalid
      · cases invalid
      · cases invalid
        trivial
  · split at unwritten
    · cases unwritten
      trivial
    · unfold place at unwritten
      split at unwritten
      · cases unwritten
      · have refused := eq_error_of_map_eq_error unwritten
        obtain ⟨-, rfl⟩ := eq_of_addHeader_eq_error refused
        trivial
      all_goals cases unwritten

theorem isOfParameters_of_encodeParameters {declared : List Parameter}
    (h : session.encodeParameters supplied declared parameters = .error e) : e.IsOfParameters := by
  induction declared generalizing parameters with
  | nil => cases h
  | cons parameter rest ih =>
    rw [encodeParameters] at h
    split at h
    · exact ih h
    · split at h
      · next failed =>
        cases h
        exact isOfParameters_of_encodeParameter failed
      · exact ih h

theorem isOfParameters_of_encodeSupplied (h : session.encodeSupplied operation supplied = .error e) :
    e.IsOfParameters := by
  unfold encodeSupplied at h
  split at h
  · cases h
    trivial
  · exact isOfParameters_of_encodeParameters h

/-! ### How the rest fails -/

/-- What a request takes beside its headers and cookies: a body, and a URL but for the query. -/
def encodeRest (session : Session) (operation : Operation) (payload : Option Payload)
    (path : Entries String) : Except CallError Unit :=
  (session.encodeBody operation payload []).bind fun _ =>
    (session.requestUrl operation path []).map fun _ => ()

theorem isOfRest_of_encodeValue {mediaType : String} {value : Value}
    (h : encodeValue mediaType value = .error e) : e.IsOfRest := by
  simp only [encodeValue] at h
  repeat' split at h
  all_goals
    cases h
    try trivial

theorem isOfRest_of_checkBody {media : MediaType} {value : Value}
    (h : session.checkBody media value = .error e) : e.IsOfRest := by
  simp only [checkBody] at h
  repeat' split at h
  all_goals
    cases h
    try trivial

theorem isOfRest_of_encodeBody {headers : Headers}
    (h : session.encodeBody operation payload headers = .error e) : e.IsOfRest := by
  unfold encodeBody at h
  split at h
  · split at h
    · cases h
      trivial
    · cases h
  · cases h
  · cases h
    trivial
  · split at h
    · split at h <;> cases h
    · rcases cases_of_bind_eq_error h with unwritten | ⟨_, -, unsent⟩
      · unfold encodePayload at unwritten
        split at unwritten
        · cases unwritten
        · rcases cases_of_bind_eq_error unwritten with invalid | ⟨_, -, shapeless⟩
          · exact isOfRest_of_checkBody invalid
          · exact isOfRest_of_encodeValue shapeless
      · simp only at unsent
        split at unsent
        · cases unsent
        · cases unsent
          trivial

theorem isOfRest_of_fillServer {placeholders : Entries ServerVariable} {url : List Char}
    (h : session.fillServer placeholders url = .error e) : e.IsOfRest := by
  induction placeholders generalizing url with
  | nil => cases h
  | cons first rest ih =>
    obtain ⟨name, declared⟩ := first
    rw [fillServer] at h
    split at h
    · next unfit =>
      cases h
      simp only [variableValue] at unfit
      split at unfit
      · cases unfit
      · cases unfit
        trivial
    · exact ih h

theorem isOfRest_of_requestUrl {path : Entries String} {query : List (String × String)}
    (h : session.requestUrl operation path query = .error e) : e.IsOfRest := by
  rcases cases_of_bind_eq_error h with server | ⟨_, -, target⟩
  · rcases cases_of_bind_eq_error server with unfilled | ⟨_, -, unread⟩
    · exact isOfRest_of_fillServer unfilled
    · simp only at unread
      split at unread
      · cases unread
      · cases unread
        trivial
  · simp only at target
    split at target
    · cases target
    · cases target
      trivial

theorem isOfRest_of_encodeRest {path : Entries String}
    (h : session.encodeRest operation payload path = .error e) : e.IsOfRest := by
  rcases cases_of_bind_eq_error h with body | ⟨_, -, target⟩
  · exact isOfRest_of_encodeBody body
  · exact isOfRest_of_requestUrl (eq_error_of_map_eq_error target)

/-- Whether there is a body to send does not depend on the headers that it is sent with. -/
theorem encodeBody_map_fst (session : Session) (operation : Operation) (payload : Option Payload)
    (headers : Headers) :
    (session.encodeBody operation payload headers).map Prod.fst =
      (session.encodeBody operation payload []).map Prod.fst := by
  unfold encodeBody
  split
  · split <;> rfl
  · rfl
  · rfl
  · split
    · split <;> rfl
    · next mediaType media _ _ =>
      cases session.encodePayload mediaType media _ with
      | error e => rfl
      | ok octets =>
        by_cases fits : Headers.isValue (Text.Utf8.encode mediaType) = true <;>
          simp [Except.bind, Except.map, fits]

/-- Whether there is a URL does not depend on its query. -/
theorem requestUrl_map (session : Session) (operation : Operation) (path : Entries String)
    (query : List (String × String)) :
    (session.requestUrl operation path query).map (fun _ => ()) =
      (session.requestUrl operation path []).map fun _ => () := by
  unfold requestUrl
  cases session.serverUrl (session.serverOf operation) with
  | error e => simp only [Except.bind]
  | ok base =>
    simp only [Except.bind]
    split <;> simp only [Except.map]

/-! ### How the whole fails -/

theorem cases_of_addHeaders_eq_error {headers : Headers} {fields : List (String × String)}
    (h : addHeaders headers fields = .error e) : ∃ field ∈ fields,
      (Headers.isName field.1 && Headers.isValue (Text.Utf8.encode field.2)) = false ∧
        e = .parameterEncoding field.1 (.malformed .simple field.2) := by
  induction fields generalizing headers with
  | nil => cases h
  | cons field rest ih =>
    rw [addHeaders] at h
    split at h
    · next refused =>
      cases h
      exact ⟨field, List.mem_cons_self, eq_of_addHeader_eq_error refused⟩
    · obtain ⟨other, member, facts⟩ := ih h
      exact ⟨other, List.mem_cons_of_mem _ member, facts⟩

theorem cases_of_setCookies_eq_error {headers : Headers} {cookies : List (String × String)}
    (h : setCookies headers cookies = .error e) :
    Headers.isValue (Text.Utf8.encode (cookieText cookies)) = false ∧
      e = .parameterEncoding "cookie" (.malformed .form (cookieText cookies)) := by
  simp only [setCookies] at h
  split at h
  · cases h
  · split at h
    · cases h
    · next unsent =>
      cases h
      exact ⟨by simpa using unsent, rfl⟩

/-- Assembling a request fails at a header of the security, at the rest, or at the cookies. -/
theorem cases_of_assemble_eq_error
    (h : session.assemble operation payload parameters applied = .error e) :
    (∃ field ∈ applied.headers,
      (Headers.isName field.1 && Headers.isValue (Text.Utf8.encode field.2)) = false ∧
        e = .parameterEncoding field.1 (.malformed .simple field.2)) ∨
    session.encodeRest operation payload parameters.path = .error e ∨
    session.encodeRest operation payload parameters.path = .ok () ∧
      let text := cookieText (parameters.cookies ++ applied.cookies)
      Headers.isValue (Text.Utf8.encode text) = false ∧
        e = .parameterEncoding "cookie" (.malformed .form text) := by
  rcases cases_of_bind_eq_error h with refused | ⟨headers, -, h⟩
  · exact .inl (cases_of_addHeaders_eq_error refused)
  have body := encodeBody_map_fst session operation payload headers
  rcases cases_of_bind_eq_error h with unsent | ⟨⟨octets, between⟩, sent, h⟩
  · rw [unsent] at body
    have same := eq_error_of_map_eq_error body.symm
    exact .inr (.inl (by rw [encodeRest, same]; rfl))
  rw [sent] at body
  obtain ⟨first, same, -⟩ := exists_of_map_eq_ok body.symm
  have target := requestUrl_map session operation parameters.path
    (parameters.query ++ applied.query)
  have rest : session.encodeRest operation payload parameters.path =
      (session.requestUrl operation parameters.path []).map fun _ => () := by
    rw [encodeRest, same]
    rfl
  rcases cases_of_bind_eq_error h with unread | ⟨url, read, h⟩
  · rw [unread] at target
    exact .inr (.inl (rest.trans target.symm))
  · rw [read] at target
    exact .inr (.inr ⟨rest.trans target.symm, cases_of_setCookies_eq_error
      (eq_error_of_map_eq_error h)⟩)

end Session

end ApiContract
