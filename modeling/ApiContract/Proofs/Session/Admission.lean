import ApiContract.Proofs.Parameter.Supply
import ApiContract.Proofs.Session.Preparation
import ApiContract.Proofs.Session.Security
import ApiContract.Session.Result
/-!
# What is sent

No request goes out that breaks the description's side of the contract. `Session.Fits` says what
a call has to be for its request to be sent; each stage of preparing a request establishes its part
(`encodeSupplied_spec`, `applySecurity_spec`, `encodeBody_spec`, `requestUrl_spec`), and the only
way to the transport leads through all of them (`fits_of_sent`).
-/

namespace ApiContract

open Json (Value)

namespace Session

variable {session : Session} {operation : Operation} {supplied : Entries Value}
  {payload : Option Payload}

/-- The value of a server variable: the session's, else the default, else the empty text. -/
def variableText (session : Session) (name : String) (declared : ServerVariable) : String :=
  match Entries.get? name session.serverVariables, declared.default with
  | some own, _ => own
  | none, some default => default
  | none, none => ""

/-- A value passes a schema under the options of a session. -/
def Passes (session : Session) (schema : SchemaId) (value : Value) : Prop :=
  ∃ warnings,
    session.catalog.validate session.options.strictDiscriminator schema value = .ok warnings

/-- What a caller's parameters and body, the values of server variables and the credentials have to
be for an operation to be called. -/
structure Fits (session : Session) (operation : Operation) (supplied : Entries Value)
    (payload : Option Payload) : Prop where
  declared : ∀ name ∈ supplied.keys, ∃ p ∈ operation.parameters, p.name = name
  needed : ∀ p ∈ operation.parameters, p.required = true ∨ p.location = .path →
    p.name ∈ supplied.keys
  parameters : ∀ p ∈ operation.parameters, ∀ schema ∈ p.schema,
    ∀ value ∈ Entries.get? p.name supplied, value ≠ .null → session.Passes schema value
  bodyGiven : ∀ body ∈ operation.requestBody, body.required = true → payload ≠ none
  bodyDeclared : operation.requestBody = none → payload = none
  body : session.options.validateRequestBody = true → ∀ body ∈ operation.requestBody,
    ∀ entry ∈ body.content.head?, ∀ schema ∈ entry.2.schema,
      ∀ value, payload = some (.value value) → session.Passes schema value
  servers : ∀ entry ∈ (session.serverOf operation).placeholders, entry.2.allowed ≠ [] →
    session.variableText entry.1 entry.2 ∈ entry.2.allowed
  security : session.description.securityFor operation = [] ∨
    ∃ requirement ∈ session.description.securityFor operation,
      ∀ scheme ∈ requirement.keys, scheme ∈ session.credentials.keys

theorem passes_of_checkParameter {parameter : Parameter} {value : Value} {schema : SchemaId}
    (h : session.checkParameter parameter value = .ok ()) (declared : parameter.schema = some schema)
    (given : value ≠ .null) : session.Passes schema value := by
  unfold checkParameter at h
  rw [declared] at h
  cases valid : session.catalog.validate session.options.strictDiscriminator schema value with
  | ok warnings => exact ⟨warnings, valid⟩
  | error errors =>
    cases value with
    | null => exact absurd rfl given
    | _ => simp [valid] at h

theorem checkParameter_of_encodeParameters {parameters : List Parameter}
    {sofar encoded : EncodedParameters}
    (h : session.encodeParameters supplied parameters sofar = .ok encoded) :
    ∀ p ∈ parameters, ∀ value ∈ Entries.get? p.name supplied,
      session.checkParameter p value = .ok () := by
  induction parameters generalizing sofar with
  | nil => simp
  | cons parameter rest ih =>
    rw [encodeParameters] at h
    intro p member value given
    split at h
    · next missing =>
      rcases List.mem_cons.mp member with rfl | member
      · rw [missing] at given
        cases given
      · exact ih h p member value given
    · next own found =>
      split at h
      · cases h
      · next after step =>
        rcases List.mem_cons.mp member with rfl | member
        · rw [found] at given
          cases given
          obtain ⟨_, checked, -⟩ := exists_of_bind_eq_ok step
          exact checked
        · exact ih h p member value given

/-- Parameters that are encoded are the declared ones, none that is needed is missing, and their
values pass their schemas. -/
theorem encodeSupplied_spec {encoded : EncodedParameters}
    (h : session.encodeSupplied operation supplied = .ok encoded) :
    (∀ name ∈ supplied.keys, ∃ p ∈ operation.parameters, p.name = name) ∧
      (∀ p ∈ operation.parameters, p.required = true ∨ p.location = .path →
        p.name ∈ supplied.keys) ∧
      ∀ p ∈ operation.parameters, ∀ schema ∈ p.schema,
        ∀ value ∈ Entries.get? p.name supplied, value ≠ .null → session.Passes schema value := by
  unfold encodeSupplied at h
  split at h
  · cases h
  · next checked =>
    obtain ⟨declared, needed⟩ := (Parameter.checkSupplied_eq_ok_iff _ _).mp checked
    refine ⟨declared, ?_, ?_⟩
    · intro p member must
      rw [← Entries.get?_isSome_iff]
      exact needed p member (by simpa [Parameter.isNeeded] using must)
    · intro p member schema own value given notNull
      exact passes_of_checkParameter (checkParameter_of_encodeParameters h p member value given) own
        notNull

/-- Security that is applied is that of an alternative with all credentials. -/
theorem applySecurity_spec {applied : AppliedSecurity}
    (h : (session.applySecurity operation).1 = .ok applied) :
    session.description.securityFor operation = [] ∨
      ∃ requirement ∈ session.description.securityFor operation,
        ∀ scheme ∈ requirement.keys, scheme ∈ session.credentials.keys := by
  rw [applySecurity_eq] at h
  split at h
  · cases h
  · next none => exact .inl (securityFor_of_negotiated none)
  · next requirement taken =>
    obtain ⟨before, after, listed, satisfied, -⟩ := chooses_of_negotiated taken
    exact .inr ⟨requirement, by simp [listed], satisfied⟩

theorem passes_of_checkBody {media : MediaType} {value : Value} {schema : SchemaId}
    (h : session.checkBody media value = .ok ()) (declared : media.schema = some schema)
    (validated : session.options.validateRequestBody = true) : session.Passes schema value := by
  unfold checkBody at h
  rw [declared] at h
  simp only [validated, if_true] at h
  split at h
  · next warnings valid => exact ⟨warnings, valid⟩
  · cases h

/-- A body that is encoded is given where it has to be, and nowhere where none is declared, and
passes the schema of the first declared media type unless bodies are not checked. -/
theorem encodeBody_spec {headers : Headers} {encoded : Option Octets × Headers}
    (h : session.encodeBody operation payload headers = .ok encoded) :
    (∀ body ∈ operation.requestBody, body.required = true → payload ≠ none) ∧
      (operation.requestBody = none → payload = none) ∧
      (session.options.validateRequestBody = true → ∀ body ∈ operation.requestBody,
        ∀ entry ∈ body.content.head?, ∀ schema ∈ entry.2.schema,
          ∀ value, payload = some (.value value) → session.Passes schema value) := by
  unfold encodeBody at h
  cases declared : operation.requestBody with
  | none =>
    cases payload with
    | none => simp
    | some payload => simp [declared] at h
  | some body =>
    cases payload with
    | none =>
      rw [declared] at h
      by_cases required : body.required = true
      · simp [required] at h
      · simp [required]
    | some payload =>
      refine ⟨by simp, by simp, ?_⟩
      rintro validated _ ⟨⟩ entry first schema own value ⟨⟩
      rw [declared] at h
      cases content : body.content with
      | nil => simp [content] at first
      | cons first' rest =>
        simp only [content, List.head?_cons, Option.mem_def, Option.some.injEq] at first
        subst first
        simp only [content] at h
        obtain ⟨octets, encoded, -⟩ := exists_of_bind_eq_ok h
        obtain ⟨_, checked, -⟩ := exists_of_bind_eq_ok encoded
        exact passes_of_checkBody checked own validated

theorem variableValue_eq (session : Session) (name : String) (declared : ServerVariable) :
    session.variableValue name declared =
      if declared.allowed = [] ∨ session.variableText name declared ∈ declared.allowed then
        .ok (session.variableText name declared)
      else
        .error (.serverVariableNotAllowed name (session.variableText name declared) declared.allowed) := by
  have text : ((Entries.get? name session.serverVariables).orElse fun _ => declared.default).getD ""
      = session.variableText name declared := by
    unfold variableText
    cases Entries.get? name session.serverVariables <;> cases declared.default <;> rfl
  simp only [variableValue, text, Bool.or_eq_true, List.isEmpty_iff, List.contains_iff_mem]

theorem variableValue_spec {name value : String} {declared : ServerVariable}
    (h : session.variableValue name declared = .ok value) (limited : declared.allowed ≠ []) :
    session.variableText name declared ∈ declared.allowed := by
  rw [variableValue_eq] at h
  split at h
  · next allowed => exact allowed.resolve_left limited
  · cases h

theorem fillServer_spec {placeholders : Entries ServerVariable} {url filled : List Char}
    (h : session.fillServer placeholders url = .ok filled) :
    ∀ entry ∈ placeholders, entry.2.allowed ≠ [] →
      session.variableText entry.1 entry.2 ∈ entry.2.allowed := by
  induction placeholders generalizing url with
  | nil => simp
  | cons first rest ih =>
    obtain ⟨name, declared⟩ := first
    rw [fillServer] at h
    split at h
    · cases h
    · next value allowed =>
      intro entry member limited
      rcases List.mem_cons.mp member with rfl | member
      · exact variableValue_spec allowed limited
      · exact ih h entry member limited

/-- A URL is put together from values of variables that are allowed. -/
theorem requestUrl_spec {path : Entries String} {query : List (String × String)} {url : Url}
    (h : session.requestUrl operation path query = .ok url) :
    ∀ entry ∈ (session.serverOf operation).placeholders, entry.2.allowed ≠ [] →
      session.variableText entry.1 entry.2 ∈ entry.2.allowed := by
  obtain ⟨base, server, -⟩ := exists_of_bind_eq_ok h
  obtain ⟨filled, allowed, -⟩ := exists_of_bind_eq_ok server
  exact fillServer_spec allowed

/-- A request that is prepared is one whose call fits. -/
theorem fits_of_prepare {prepared : PreparedRequest}
    (h : (session.prepare operation supplied payload).1 = .ok prepared) :
    session.Fits operation supplied payload := by
  obtain ⟨parameters, applied, encoding, secured, assembled⟩ := exists_of_prepare_eq_ok h
  obtain ⟨-, ⟨headers, encoded, sent⟩, located⟩ := exists_of_assemble_eq_ok assembled
  obtain ⟨declared, needed, fitting⟩ := encodeSupplied_spec encoding
  obtain ⟨bodyGiven, bodyDeclared, body⟩ := encodeBody_spec sent
  exact ⟨declared, needed, fitting, bodyGiven, bodyDeclared, body, requestUrl_spec located,
    applySecurity_spec secured⟩

theorem sent_of_prepare_error {transport : Transport} {e : CallError}
    (h : (session.prepare operation supplied payload).1 = .error e) :
    (session.call transport operation supplied payload).sent = [] := by
  simp [call, h]

/-- A transport is given requests of calls that fit alone, in whatever state the session is, and
none where preparing the request fails. -/
theorem fits_of_sent (session : Session) (transport : Transport) (operation : Operation)
    (supplied : Entries Value) (payload : Option Payload) :
    ((session.call transport operation supplied payload).sent ≠ [] →
      session.Fits operation supplied payload) ∧
    ∀ e, (session.prepare operation supplied payload).1 = .error e →
      (session.call transport operation supplied payload).sent = [] := by
  refine ⟨?_, fun e => sent_of_prepare_error⟩
  intro sent
  cases prepared : (session.prepare operation supplied payload).1 with
  | error e => exact absurd (sent_of_prepare_error prepared) sent
  | ok request => exact fits_of_prepare prepared

/-- An operation on a shelf that takes a name in the path and a text as the body. -/
def labelShelf : Operation :=
  { operationId := some "labelShelf"
    path := "/shelves/\x7bname\x7d"
    method := "PUT"
    summary := none
    tags := []
    parameters := [⟨"name", .path, true, .simple, false, some 0, none⟩]
    requestBody := some ⟨true, [("application/json", ⟨some 0⟩)]⟩
    responses := []
    security := none
    servers := [] }

/-- A session on the shelves of a region, which takes a key. The one schema is that of texts. -/
def shelves : Session where
  description :=
    { dialect := .v31
      base :=
        { (default : Url) with
          scheme := "http", host := some (.name "shelves"), path := .rooted [] }
      servers := [⟨"http://\x7bregion\x7d/v1", [("region", ⟨some "north", ["north", "south"]⟩)]⟩]
      operations := [labelShelf]
      schemas := []
      securitySchemes := [("key", .apiKey "key" .query)]
      security := [[("key", [])]] }
  catalog := ⟨#[{ Descriptor.unrestricted "" none with types := [.string] }], []⟩
  options := .default
  authenticator := none
  credentials := [("key", .secret "open")]
  serverVariables := [("region", "south")]

/-- A transport that answers every request with no content. -/
def noContent : Transport := ⟨fun _ _ => .ok ⟨204, [], []⟩⟩

theorem fits_labelShelf :
    let supplied := [("name", Value.string "a")]
    (shelves.call noContent labelShelf supplied (some (.value (.string "b")))).sent ≠ [] ∧
      shelves.Fits labelShelf supplied (some (.value (.string "b"))) ∧
      (shelves.call noContent labelShelf supplied none).sent = [] := by
  intro supplied
  have sent : (shelves.call noContent labelShelf supplied
      (some (.value (.string "b")))).sent ≠ [] := by decide +kernel
  have bodiless : (shelves.prepare labelShelf supplied none).1.isOk = false := by decide +kernel
  refine ⟨sent, (fits_of_sent shelves noContent labelShelf supplied _).1 sent, ?_⟩
  cases refused : (shelves.prepare labelShelf supplied none).1 with
  | error e => exact (fits_of_sent shelves noContent labelShelf supplied none).2 e refused
  | ok prepared => simp [refused, Except.isOk, Except.toBool] at bodiless

end Session

end ApiContract
