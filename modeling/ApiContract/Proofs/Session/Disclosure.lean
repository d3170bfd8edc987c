import ApiContract.Proofs.Description.Fidelity
import ApiContract.Proofs.Session.Confinement
import ApiContract.Proofs.Session.History
/-!
# What errors disclose

Two sessions that differ in secrets alone fail alike in all that is checked before the secrets are
written down. A text that cannot be the value of a header is shown by the error that refuses it,
however, and so is a secret in it (`Session.Discloses`). The errors of the two sessions are the same
exactly if they disclose the same (`error_eq_iff_of_resembles`).
-/

namespace ApiContract

open Json (Value)

/-- Two credentials of one kind and, where they name one, for one user. -/
inductive Credential.Resembles : Credential → Credential → Prop
  | secret (own other : String) : Resembles (.secret own) (.secret other)
  | userPassword (user own other : String) :
      Resembles (.userPassword user own) (.userPassword user other)

theorem Credential.Resembles.symm {own other : Credential} (h : own.Resembles other) :
    other.Resembles own := by
  cases h with
  | secret own other => exact .secret other own
  | userPassword user own other => exact .userPassword user other own

/-- Two additions to a request with other texts in the same places. -/
structure AppliedSecurity.Resembles (applied other : AppliedSecurity) : Prop where
  headers : applied.headers.map Prod.fst = other.headers.map Prod.fst
  query : applied.query.map Prod.fst = other.query.map Prod.fst
  cookies : applied.cookies.map Prod.fst = other.cookies.map Prod.fst
  digest : applied.digest = other.digest

namespace AppliedSecurity.Resembles

variable {applied other : AppliedSecurity}

theorem addHeader (h : applied.Resembles other) (name value value' : String) :
    (applied.addHeader name value).Resembles (other.addHeader name value') := by
  refine ⟨?_, h.query, h.cookies, h.digest⟩
  simp [AppliedSecurity.addHeader, h.headers]

theorem addKey (h : applied.Resembles other) (name : String) (location : ParameterLocation)
    (value value' : String) :
    (applied.addKey name location value).Resembles (other.addKey name location value') := by
  cases location with
  | query => exact ⟨h.headers, by simp [AppliedSecurity.addKey, h.query], h.cookies, h.digest⟩
  | cookie => exact ⟨h.headers, h.query, by simp [AppliedSecurity.addKey, h.cookies], h.digest⟩
  | header => exact h.addHeader name value value'
  | path => exact h.addHeader name value value'

theorem withDigest (h : applied.Resembles other) (scheme : Option String) :
    Resembles { applied with digest := scheme } { other with digest := scheme } :=
  ⟨h.headers, h.query, h.cookies, rfl⟩

end AppliedSecurity.Resembles

namespace Session

variable {session other : Session} {operation : Operation} {supplied : Entries Value}
  {payload : Option Payload} {parameters : EncodedParameters} {applied : AppliedSecurity}
  {e e' : CallError}

/-- Two sessions that differ in nothing but secrets: they hold credentials for the same schemes, of the
same kinds and for the same users. -/
structure Resembles (session other : Session) : Prop extends session.Twins other where
  kinds : ∀ scheme, ∀ own ∈ Entries.get? scheme session.credentials,
    ∀ second ∈ Entries.get? scheme other.credentials, own.Resembles second

theorem Resembles.symm (h : session.Resembles other) : other.Resembles session where
  frame := by
    rw [h.frame]
    rfl
  ascending := h.ascendingOther
  ascendingOther := h.ascending
  names scheme := (h.names scheme).symm
  kinds scheme own first second last := (h.kinds scheme second last own first).symm

/-! ### Security of the same shape -/

section

variable {own second : Credential} {mine yours : AppliedSecurity}
  (authenticator : Option Authenticator) (name : String) (scheme : SecurityScheme)

theorem secretOf_failAlike (h : own.Resembles second) :
    FailAlike (fun _ _ => True) (secretOf name own) (secretOf name second) := by
  cases h with
  | secret => exact .ok trivial
  | userPassword => exact .error _

theorem applyCredential_failAlike (h : own.Resembles second) (shape : mine.Resembles yours) :
    FailAlike AppliedSecurity.Resembles (applyCredential name scheme own mine)
      (applyCredential name scheme second yours) := by
  have secrets := secretOf_failAlike name h
  cases scheme with
  | apiKey key location => exact secrets.map fun _ _ _ => shape.addKey ..
  | http http format =>
    cases http with
    | basic => exact .ok (shape.addHeader ..)
    | bearer => exact secrets.map fun _ _ _ => shape.addHeader ..
    | digest => exact .ok (shape.withDigest _)
    | other scheme => exact secrets.map fun _ _ _ => shape.addHeader ..
  | oauth2 | openIdConnect | mutualTls => exact .ok shape

theorem tokenOf_failAlike (h : own.Resembles second) :
    FailAlike (fun _ _ => True) (tokenOf authenticator name scheme own).1
      (tokenOf authenticator name scheme second).1 := by
  cases authenticator with
  | none => exact secretOf_failAlike name h
  | some authenticator =>
    simp only [tokenOf]
    split
    · exact .ok trivial
    · exact .error _

theorem applyScheme_failAlike (h : own.Resembles second) (shape : mine.Resembles yours) :
    FailAlike AppliedSecurity.Resembles (applyScheme authenticator name scheme own mine).1
      (applyScheme authenticator name scheme second yours).1 := by
  have tokens := tokenOf_failAlike authenticator name scheme h
  cases scheme with
  | oauth2 => exact tokens.map fun _ _ _ => shape.addHeader ..
  | openIdConnect => exact tokens.map fun _ _ _ => shape.addHeader ..
  | apiKey | http | mutualTls =>
    simp only [applyScheme]
    exact applyCredential_failAlike name _ h shape

end

theorem applySchemes_failAlike (h : session.Resembles other) (names : List String)
    {mine yours : AppliedSecurity} (shape : mine.Resembles yours) :
    FailAlike AppliedSecurity.Resembles (session.applySchemes names mine).1
      (other.applySchemes names yours).1 := by
  induction names generalizing mine yours with
  | nil => exact .ok shape
  | cons name rest ih =>
    have held : Entries.has name session.credentials = Entries.has name other.credentials :=
      Entries.has_eq_of_keys_eq h.keys_eq
    have kinds := h.kinds name
    simp only [applySchemes, h.description_eq, h.authenticator_eq]
    unfold Entries.has at held
    cases declared : Entries.get? name session.description.securitySchemes with
    | none => exact .error _
    | some scheme =>
      cases mineHeld : Entries.get? name session.credentials with
      | none =>
        rw [mineHeld] at held
        have yoursHeld := Option.isNone_iff_eq_none.mp (Option.isSome_eq_false_iff.mp held.symm)
        rw [yoursHeld]
        exact .error _
      | some own =>
        rw [mineHeld] at held
        obtain ⟨second, yoursHeld⟩ := Option.isSome_iff_exists.mp held.symm
        rw [yoursHeld]
        have step := applyScheme_failAlike session.authenticator name scheme
          (kinds own mineHeld second yoursHeld) shape
        dsimp only
        generalize applyScheme session.authenticator name scheme own mine = first at step
        generalize applyScheme session.authenticator name scheme second yours = last at step
        obtain ⟨first, asked⟩ := first
        obtain ⟨last, asked'⟩ := last
        cases step with
        | error e => exact .error e
        | ok after => exact ih after

theorem applySecurity_failAlike (h : session.Resembles other) (operation : Operation) :
    FailAlike AppliedSecurity.Resembles (session.applySecurity operation).1
      (other.applySecurity operation).1 := by
  have nothing : AppliedSecurity.none.Resembles .none := ⟨rfl, rfl, rfl, rfl⟩
  rw [applySecurity_eq, applySecurity_eq, negotiated_congr h.description_eq h.keys_eq]
  cases other.negotiated operation with
  | error e => exact .error e
  | ok requirement =>
    cases requirement with
    | none => exact .ok nothing
    | some requirement => exact applySchemes_failAlike h requirement.keys nothing

/-! ### What an error shows -/

/-- An error shows a text that security has put into the head of a request, under the name and in the
style in which it stands there: a header of a scheme, or the cookies where a scheme has one. -/
inductive Discloses (session : Session) (operation : Operation) (supplied : Entries Value) :
    String → ParameterStyle → String → CallError → Prop
  | header {parameters : EncodedParameters} {applied : AppliedSecurity} {name text : String} :
      session.encodeSupplied operation supplied = .ok parameters →
      (session.applySecurity operation).1 = .ok applied → (name, text) ∈ applied.headers →
      Discloses session operation supplied name .simple text
        (.parameterEncoding name (.malformed .simple text))
  | cookies {parameters : EncodedParameters} {applied : AppliedSecurity} :
      session.encodeSupplied operation supplied = .ok parameters →
      (session.applySecurity operation).1 = .ok applied → applied.cookies ≠ [] →
      Discloses session operation supplied "cookie" .form
        (cookieText (parameters.cookies ++ applied.cookies))
        (.parameterEncoding "cookie"
          (.malformed .form (cookieText (parameters.cookies ++ applied.cookies))))

/-- All that security puts into the head of a request can be sent there. -/
def Sendable (session : Session) (operation : Operation) (supplied : Entries Value) : Prop :=
  ∀ parameters applied, session.encodeSupplied operation supplied = .ok parameters →
    (session.applySecurity operation).1 = .ok applied →
      (∀ field ∈ applied.headers, Headers.isName field.1 = true ∧
        Headers.isValue (Text.Utf8.encode field.2) = true) ∧
      (applied.cookies ≠ [] → Headers.isValue
        (Text.Utf8.encode (cookieText (parameters.cookies ++ applied.cookies))) = true)

/-- What preparing a request comes to apart from the texts of security. -/
def prepareRest (session : Session) (operation : Operation) (supplied : Entries Value)
    (payload : Option Payload) : Except CallError Unit :=
  (session.encodeSupplied operation supplied).bind fun parameters =>
    (session.applySecurity operation).1.bind fun _ =>
      (session.encodeRest operation payload parameters.path).bind fun _ =>
        (setCookies [] parameters.cookies).map fun _ => ()

theorem Discloses.eq {name text : String} {style : ParameterStyle}
    (h : session.Discloses operation supplied name style text e) :
    e = .parameterEncoding name (.malformed style text) := by
  cases h <;> rfl

theorem setCookies_error_of_refused {cookies : List (String × String)} (some : cookies ≠ [])
    (h : Headers.isValue (Text.Utf8.encode (cookieText cookies)) = false) :
    setCookies [] cookies =
      .error (.parameterEncoding "cookie" (.malformed .form (cookieText cookies))) := by
  simp [setCookies, some, h]

/-- An error is one that all such sessions have, or it refuses a text of security and shows it. -/
theorem discloses_or_prepareRest (h : (session.prepare operation supplied payload).1 = .error e) :
    (¬ session.Sendable operation supplied ∧
      ∃ name style text, session.Discloses operation supplied name style text e) ∨
    session.prepareRest operation supplied payload = .error e := by
  rw [prepare_fst] at h
  rw [prepareRest]
  rcases cases_of_bind_eq_error h with unfit | ⟨parameters, encoding, h⟩
  · exact .inr (by rw [unfit]; rfl)
  rw [encoding]
  rcases cases_of_bind_eq_error h with unsecured | ⟨applied, secured, h⟩
  · exact .inr (by rw [Except.bind, unsecured]; rfl)
  simp only [Except.bind, secured]
  rcases cases_of_assemble_eq_error h with ⟨field, listed, refused, rfl⟩ | rest | ⟨rest, refused, rfl⟩
  · refine .inl ⟨fun sendable => ?_, field.1, .simple, field.2, .header encoding secured listed⟩
    obtain ⟨isName, isValue⟩ := (sendable parameters applied encoding secured).1 field listed
    simp [isName, isValue] at refused
  · exact .inr (by rw [rest])
  · by_cases own : applied.cookies = []
    · rw [own, List.append_nil] at refused ⊢
      have some : parameters.cookies ≠ [] := by
        intro none
        rw [none] at refused
        exact absurd refused (by decide)
      exact .inr (by rw [rest, setCookies_error_of_refused some refused]; rfl)
    · refine .inl ⟨fun sendable => ?_, "cookie", .form, _, .cookies encoding secured own⟩
      have isValue := (sendable parameters applied encoding secured).2 own
      rw [isValue] at refused
      cases refused

theorem prepareRest_eq_of_resembles (h : session.Resembles other) :
    other.prepareRest operation supplied payload = session.prepareRest operation supplied payload := by
  simp only [prepareRest, h.encodeSupplied_eq, h.encodeRest_eq]
  congr 1
  funext parameters
  exact ((applySecurity_failAlike h operation).bind_eq fun _ _ _ => rfl).symm

/-- What an error discloses of one session it discloses of the other one, if that fails with it. -/
theorem Discloses.of_resembles {name text : String} {style : ParameterStyle}
    (resembles : session.Resembles other)
    (h : session.Discloses operation supplied name style text e)
    (fails : (other.prepare operation supplied payload).1 = .error e) :
    other.Discloses operation supplied name style text e := by
  have same : other.encodeSupplied operation supplied = session.encodeSupplied operation supplied :=
    resembles.encodeSupplied_eq
  have secured := applySecurity_failAlike resembles operation
  rw [prepare_fst, same] at fails
  cases h with
  | @header parameters applied _ _ encoding mine listed =>
    rw [mine] at secured
    generalize yours : (other.applySecurity operation).1 = result at secured fails
    cases secured with
    | ok shape =>
      rw [encoding] at fails
      rcases cases_of_assemble_eq_error fails with ⟨field, listed', -, shown⟩ | rest | ⟨-, -, shown⟩
      · cases shown
        exact .header (same.trans encoding) yours listed'
      · exact (isOfRest_of_encodeRest rest).elim
      · cases shown
  | @cookies parameters applied encoding mine own =>
    rw [mine] at secured
    generalize yours : (other.applySecurity operation).1 = result at secured fails
    cases secured with
    | ok shape =>
      rw [encoding] at fails
      rcases cases_of_assemble_eq_error fails with ⟨field, -, -, shown⟩ | rest | ⟨-, -, shown⟩
      · obtain ⟨-, cause⟩ := CallError.parameterEncoding.inj shown
        cases (CodecError.malformed.inj cause).1
      · exact (isOfRest_of_encodeRest rest).elim
      · have further := shape.cookies
        obtain ⟨-, cause⟩ := CallError.parameterEncoding.inj shown
        rw [(CodecError.malformed.inj cause).2]
        refine .cookies (same.trans encoding) yours ?_
        intro none
        rw [none, List.map_nil, List.map_eq_nil_iff] at further
        exact own further

/-- The errors of two sessions that differ in secrets alone are the same exactly if they disclose the
same; and they are the same where all that security writes can be sent. -/
theorem error_eq_iff_of_resembles (resembles : session.Resembles other)
    (h : (session.prepare operation supplied payload).1 = .error e)
    (h' : (other.prepare operation supplied payload).1 = .error e') :
    (e = e' ↔ ∀ name style text, session.Discloses operation supplied name style text e ↔
      other.Discloses operation supplied name style text e') ∧
    (session.Sendable operation supplied → other.Sendable operation supplied → e = e') := by
  have quiet (mine : session.prepareRest operation supplied payload = .error e)
      (yours : other.prepareRest operation supplied payload = .error e') : e = e' := by
    rw [prepareRest_eq_of_resembles resembles] at yours
    exact Except.error.inj (mine.symm.trans yours)
  refine ⟨⟨?same, ?disclosed⟩, ?sendable⟩
  case same =>
    rintro rfl name style text
    exact ⟨fun shown => shown.of_resembles resembles h',
      fun shown => shown.of_resembles resembles.symm h⟩
  case disclosed =>
    intro alike
    rcases discloses_or_prepareRest h with ⟨-, name, style, text, shown⟩ | mine
    · exact shown.eq.trans ((alike name style text).mp shown).eq.symm
    rcases discloses_or_prepareRest h' with ⟨-, name, style, text, shown⟩ | yours
    · exact ((alike name style text).mpr shown).eq.trans shown.eq.symm
    exact quiet mine yours
  case sendable =>
    intro mine yours
    rcases discloses_or_prepareRest h with ⟨unsendable, -⟩ | rest
    · exact absurd mine unsendable
    rcases discloses_or_prepareRest h' with ⟨unsendable, -⟩ | rest'
    · exact absurd yours unsendable
    exact quiet rest rest'

/-- A session that holds one secret resembles one that holds another in its place. -/
theorem resembles_secret (start : Session) (scheme own second : String) :
    (start.withCredentials [(scheme, .secret own)]).Resembles
      (start.withCredentials [(scheme, .secret second)]) where
  frame := rfl
  ascending := List.pairwise_singleton _ _
  ascendingOther := List.pairwise_singleton _ _
  names _ := Iff.rfl
  kinds name mine held yours held' := by
    obtain ⟨-, rfl⟩ := Prod.mk.inj (List.mem_singleton.mp (Entries.mem_of_get? held))
    obtain ⟨-, rfl⟩ := Prod.mk.inj (List.mem_singleton.mp (Entries.mem_of_get? held'))
    exact .secret own second

/-- The shelves with a pass in a header. -/
def passShelves (pass : String) : Session :=
  { shelves with
    description :=
      { shelves.description with
        securitySchemes := [("pass", .http .bearer none)]
        security := [[("pass", [])]] }
    credentials := [("pass", .secret pass)] }

theorem sendable_passShelves {pass : String}
    (h : Headers.isValue (Text.Utf8.encode ("Bearer " ++ pass)) = true) :
    (passShelves pass).Sendable labelShelf supplied := by
  intro parameters applied _ secured
  cases secured
  have named : Headers.isName "authorization" = true := by decide
  refine ⟨List.forall_mem_singleton.mpr ⟨named, h⟩, ?_⟩
  intro some
  exact absurd rfl some

/-- The error for a label without a text is the same under any pass that can be sent. -/
theorem error_eq_passShelves :
    let session := passShelves "open"
    let other := passShelves "shut"
    let supplied := [("name", Value.string "a")]
    session.Resembles other ∧ ∃ e, (session.prepare labelShelf supplied none).1 = .error e ∧
      (other.prepare labelShelf supplied none).1 = .error e := by
  intro session other supplied
  have resembles : session.Resembles other := resembles_secret session "pass" "open" "shut"
  have sendable : session.Sendable labelShelf supplied := sendable_passShelves (by decide)
  have sendable' : other.Sendable labelShelf supplied := sendable_passShelves (by decide)
  obtain ⟨e, fails⟩ : ∃ e, (session.prepare labelShelf supplied none).1 = .error e :=
    exists_of_isOk_eq_false (by decide)
  obtain ⟨e', fails'⟩ : ∃ e, (other.prepare labelShelf supplied none).1 = .error e :=
    exists_of_isOk_eq_false (by decide)
  obtain rfl := (error_eq_iff_of_resembles resembles fails fails').2 sendable sendable'
  exact ⟨resembles, e, fails, fails'⟩

/-- A description of an operation that takes a token. -/
def tokenDocument : Value :=
  .object [
    ("openapi", .string "3.1.0"),
    ("servers", .array [.object [("url", .string "http://h")]]),
    ("paths", .object [("/a", .object [("get", .object [
      ("operationId", .string "get"),
      ("responses", .object [("200", .object [("description", .string "ok")])])])])]),
    ("components", .object [("securitySchemes", .object [
      ("token", .object [("type", .string "http"), ("scheme", .string "bearer")])])]),
    ("security", .array [.object [("token", .array [])]])]

/-- Whether an error shows a text that was to be the authorization. -/
def showsAuthorization (text : String) : CallError → Bool
  | .parameterEncoding "authorization" (.malformed .simple shown) => shown = text
  | _ => false

/-- Whether a request under a token fails with an error that shows this. -/
def showsToken (start : Session) (operation : Operation) (token : String) : Bool :=
  match ((start.withCredentials [("token", .secret token)]).prepare operation [] none).1 with
  | .ok _ => false
  | .error e => showsAuthorization ("Bearer " ++ token) e

theorem exists_of_showsToken {start : Session} {token : String}
    (h : showsToken start operation token = true) :
    ∃ e, ((start.withCredentials [("token", .secret token)]).prepare operation [] none).1 =
        .error e ∧ showsAuthorization ("Bearer " ++ token) e = true := by
  unfold showsToken at h
  split at h
  · cases h
  · next e refused => exact ⟨e, refused, h⟩

/-- A token that ends with its line is shown by the error that refuses it, so that two such tokens
are told apart. -/
theorem token_disclosed :
    ∃ reading operation session other e e',
      readAt Description.noLoader "http://example/openapi.json" tokenDocument = .ok reading ∧
        operation ∈ reading.description.operations ∧
        (ofReading reading .default none).authenticate [("token", .secret "one\n")] = .ok session ∧
        (ofReading reading .default none).authenticate [("token", .secret "two\n")] = .ok other ∧
        session.Resembles other ∧ (session.prepare operation [] none).1 = .error e ∧
        (other.prepare operation [] none).1 = .error e' ∧ e ≠ e' := by
  obtain ⟨reading, read, shown⟩ :=
    @exists_of_any _ _ (readAt Description.noLoader "http://example/openapi.json" tokenDocument)
      (fun reading =>
        Entries.has "token" reading.description.securitySchemes &&
          reading.description.operations.any fun operation =>
            showsToken (ofReading reading .default none) operation "one\n" &&
              showsToken (ofReading reading .default none) operation "two\n")
      (by decide +kernel)
  simp only [Bool.and_eq_true, List.any_eq_true] at shown
  obtain ⟨declares, operation, declared, one, two⟩ := shown
  obtain ⟨e, refused, text⟩ := exists_of_showsToken one
  obtain ⟨e', refused', text'⟩ := exists_of_showsToken two
  have batch (token : String) :
      ∀ pair ∈ [("token", Credential.secret token)], reading.description.Declares pair.1 :=
    List.forall_mem_singleton.mpr declares
  refine ⟨reading, operation, _, _, e, e', read, declared, authenticate_of_declared (batch _),
    authenticate_of_declared (batch _), resembles_secret .., refused, refused', ?_⟩
  rintro rfl
  unfold showsAuthorization at text text'
  split at text
  · have same := (of_decide_eq_true text).symm.trans (of_decide_eq_true text')
    exact absurd same (by decide)
  · cases text

end Session

end ApiContract
