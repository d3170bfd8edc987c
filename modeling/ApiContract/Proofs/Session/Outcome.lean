import ApiContract.Session.Result
/-!
# Outcomes of responses

What a session makes of a response, stage by stage. `Session.Outcome` says which result or error a
response comes to, by the conditions under which it does: the status is not one that the session
takes for a failure, a declared response is chosen for it, its media type is a declared one, the
required headers are there, the body reads as its media type says, and the schema accepts what it
holds. `outcome_iff` says that decoding and checking a response comes to exactly that.
-/

namespace ApiContract

open Json (Value)

namespace Operation

/-- A key stands for a class of status codes when it is the digit of the class and two letters `x`,
of either case. -/
def IsClassKey (status : Nat) (key : String) : Prop :=
  ∃ digit a b, key.toList = [digit, a, b] ∧ [digit] = Decimal.digitChars (status / 100) ∧
    (a = 'x' ∨ a = 'X') ∧ (b = 'x' ∨ b = 'X')

/-- The declared response of a status code and its key: that of the code itself, else the first of a
key for the class of the code, else the default. -/
inductive Routes (operation : Operation) (status : Nat) : String → Response → Prop
  | exact {declared : Response} :
      Entries.get? (Decimal.integerText status) operation.responses = some declared →
      Routes operation status (Decimal.integerText status) declared
  | ofClass {before after : Entries Response} {key : String} {declared : Response} :
      Entries.get? (Decimal.integerText status) operation.responses = none →
      operation.responses = before ++ (key, declared) :: after →
      IsClassKey status key → (∀ entry ∈ before, ¬ IsClassKey status entry.1) →
      Routes operation status key declared
  | default {declared : Response} :
      Entries.get? (Decimal.integerText status) operation.responses = none →
      (∀ entry ∈ operation.responses, ¬ IsClassKey status entry.1) →
      Entries.get? "default" operation.responses = some declared →
      Routes operation status "default" declared

theorem toLower_eq_x_iff (c : Char) : c.toLower = 'x' ↔ c = 'x' ∨ c = 'X' := by
  constructor
  · intro lower
    unfold Char.toLower at lower
    split at lower
    · next upper =>
      have code : (c.toNat + 32) % 4294967296 = 120 := by
        simpa using congrArg Char.toNat lower
      have above : c.toNat ≤ 90 := UInt32.le_iff_toNat_le.mp upper.2
      refine .inr (Char.toNat_inj.mp ?_)
      change c.toNat = 88
      omega
    · exact .inl lower
  · rintro (rfl | rfl) <;> decide

theorem isClassKey_iff (status : Nat) (key : String) :
    isClassKey status key = true ↔ IsClassKey status key := by
  unfold isClassKey IsClassKey
  split
  · next digit a b shape =>
    simp only [Bool.and_eq_true, decide_eq_true_eq, toLower_eq_x_iff, shape]
    constructor
    · rintro ⟨⟨isDigit, first⟩, second⟩
      exact ⟨digit, a, b, rfl, isDigit, first, second⟩
    · rintro ⟨_, _, _, same, isDigit, first, second⟩
      cases same
      exact ⟨⟨isDigit, first⟩, second⟩
  · next shape =>
    constructor
    · intro absurd
      cases absurd
    · rintro ⟨digit, a, b, same, -⟩
      exact absurd same (shape digit a b)

theorem find?_isClassKey_iff {responses : Entries Response} {status : Nat} {key : String}
    {declared : Response} :
    (responses.find? fun entry => isClassKey status entry.1) = some (key, declared) ↔
      ∃ before after, responses = before ++ (key, declared) :: after ∧ IsClassKey status key ∧
        ∀ entry ∈ before, ¬ IsClassKey status entry.1 := by
  simp only [List.find?_eq_some_iff_append, ← isClassKey_iff, Bool.not_eq_true,
    Bool.not_eq_eq_eq_not, Bool.not_true]
  constructor
  · rintro ⟨holds, before, after, split, earlier⟩
    exact ⟨before, after, split, holds, earlier⟩
  · rintro ⟨before, after, split, holds, earlier⟩
    exact ⟨holds, before, after, split, earlier⟩

/-- The declared response that is chosen is the one of the status code. -/
theorem route_eq_some_iff (operation : Operation) (status : Nat) (key : String)
    (declared : Response) :
    operation.route status = some (key, declared) ↔ operation.Routes status key declared := by
  unfold route
  simp only [Entries.find?_eq_get?]
  cases exact : Entries.get? (Decimal.integerText status) operation.responses with
  | some own =>
    simp only [Option.map_some, Option.orElse_some, Option.some.injEq, Prod.mk.injEq]
    constructor
    · rintro ⟨rfl, rfl⟩
      exact .exact exact
    · intro routes
      cases routes with
      | exact found => exact ⟨rfl, Option.some.inj (exact.symm.trans found)⟩
      | ofClass missing _ _ _ => rw [exact] at missing; cases missing
      | default missing _ _ => rw [exact] at missing; cases missing
  | none =>
    simp only [Option.map_none, Option.orElse_none]
    cases ofClass : operation.responses.find? fun entry => isClassKey status entry.1 with
    | some entry =>
      obtain ⟨first, own⟩ := entry
      obtain ⟨before, after, split, holds, earlier⟩ := find?_isClassKey_iff.mp ofClass
      simp only [Option.orElse_some, Option.some.injEq, Prod.mk.injEq]
      constructor
      · rintro ⟨rfl, rfl⟩
        exact .ofClass exact split holds earlier
      · intro routes
        cases routes with
        | exact found => rw [exact] at found; cases found
        | ofClass _ split holds earlier =>
          have found := find?_isClassKey_iff.mpr ⟨_, _, split, holds, earlier⟩
          exact Prod.mk.inj (Option.some.inj (ofClass.symm.trans found))
        | default _ others _ => exact absurd holds (others (first, own) (by simp [split]))
    | none =>
      have others : ∀ entry ∈ operation.responses, ¬ IsClassKey status entry.1 := by
        intro entry member
        rw [← isClassKey_iff]
        exact List.find?_eq_none.mp ofClass entry member
      simp only [Option.orElse_none, Option.map_eq_some_iff, Prod.mk.injEq]
      constructor
      · rintro ⟨value, found, rfl, rfl⟩
        exact .default exact others found
      · intro routes
        cases routes with
        | exact found => rw [exact] at found; cases found
        | ofClass _ split holds _ =>
          exact absurd holds (others (key, declared) (by simp [split]))
        | default _ _ found => exact ⟨_, found, rfl, rfl⟩

theorem route_eq_none_iff (operation : Operation) (status : Nat) :
    operation.route status = none ↔ ∀ key declared, ¬ operation.Routes status key declared := by
  rw [Option.eq_none_iff_forall_ne_some]
  constructor
  · intro unrouted key declared
    rw [← route_eq_some_iff]
    exact unrouted (key, declared)
  · rintro unrouted ⟨key, declared⟩
    rw [Ne, route_eq_some_iff]
    exact unrouted key declared

end Operation

/-- The declared media type as which the body of a response is read. It is none where no media type
is declared, and where the response has neither a media type nor a body. -/
inductive Response.ReadsAs (declared : Response) (response : HttpResponse) :
    Option (String × MediaType) → Prop
  | undeclared : declared.content = [] → ReadsAs declared response none
  | bodiless : response.mediaType? = none → response.body = [] → ReadsAs declared response none
  | listed {name : String} {media : MediaType} :
      response.mediaType? = some name → Entries.get? name declared.content = some media →
      ReadsAs declared response (some (name, media))

/-- A declared header that has to be there and is not, or is no text. -/
def ResponseHeader.Absent (response : HttpResponse) (entry : String × ResponseHeader) : Prop :=
  entry.2.required = true ∧ response.headers.text? entry.1 = none

instance (response : HttpResponse) : DecidablePred (ResponseHeader.Absent response) :=
  fun entry => inferInstanceAs (Decidable (entry.2.required = true ∧ _ = none))

namespace Session

variable {session : Session} {operation : Operation} {response : HttpResponse}
  {declared : Response} {media : Option (String × MediaType)} {data : ResponseData}
  {warnings : List Warning}

/-- What a body holds when it is read as a media type: JSON, a text or octets. Octets of no media
type are kept as they are. -/
inductive Reads (body : Octets) : Option String → ResponseData → Prop
  | nothing : body = [] → Reads body none .empty
  | bare : body ≠ [] → Reads body none (.octets body)
  | json {mediaType : String} {value : Value} :
      isJson mediaType = true → Json.parseOctets? body = some value →
      Reads body (some mediaType) (.json value)
  | text {mediaType s : String} :
      isJson mediaType = false → isText mediaType = true → Text.Utf8.decode? body = some s →
      Reads body (some mediaType) (.text s)
  | octets {mediaType : String} :
      isJson mediaType = false → isText mediaType = false →
      Reads body (some mediaType) (.octets body)

/-- The error that a status code of a class is, where the session takes the class for a failure. -/
def refusal (response : HttpResponse) : StatusClass → CallError
  | .clientError => .httpClient response
  | .serverError => .httpServer response
  | .informational | .success | .redirection => .httpStatus response

/-- The session takes the status of a response for a failure, as one of a class. -/
def Refuses (session : Session) (response : HttpResponse) (class' : StatusClass) : Prop :=
  StatusClass.of? response.status = some class' ∧ class' ∈ session.options.failOnStatus

/-- The declared headers that a response has, with the values that their texts write. -/
def headerValues (session : Session) (declared : Response) (response : HttpResponse) :
    Entries Value :=
  declared.headers.filterMap fun entry =>
    (response.headers.text? entry.1).map fun text =>
      let hint := entry.2.schema.elim .untyped session.catalog.hint
      (entry.1, Parameter.typed hint (Parameter.atoms ',' text.toList) entry.2.explode)

/-- The schema of a media type admits what a body holds, with warnings. Where there is no schema, or
neither JSON nor text, everything is admitted. -/
inductive Admits (session : Session) (schema : Option SchemaId) (data : ResponseData) :
    List Warning → Prop
  | unchecked : schema = none ∨ ResponseData.value? data = none → Admits session schema data []
  | checked {id : SchemaId} {value : Value} {warnings : List Warning} :
      schema = some id → ResponseData.value? data = some value →
      session.catalog.validate session.options.strictDiscriminator id value = .ok warnings →
      Admits session schema data warnings

/-- The result or the error that a response to an operation comes to. The conditions of each error
are that the earlier ones do not apply, in their order. -/
inductive Outcome (session : Session) (operation : Operation) (response : HttpResponse) :
    Except CallError CallResult → Prop
  | refused {class' : StatusClass} :
      session.Refuses response class' →
      Outcome session operation response (.error (refusal response class'))
  | unrouted :
      (∀ class', ¬ session.Refuses response class') →
      (∀ key declared, ¬ operation.Routes response.status key declared) →
      Outcome session operation response (.error (.noContractMatched response))
  | undeclaredType {key : String} {declared : Response} :
      (∀ class', ¬ session.Refuses response class') →
      operation.Routes response.status key declared →
      (∀ media, ¬ declared.ReadsAs response media) →
      Outcome session operation response
        (.error (.contentType response.status response.mediaType? declared.content.keys))
  | headersMissing {key : String} {declared : Response} {media : Option (String × MediaType)}
      {entry : String × ResponseHeader} :
      (∀ class', ¬ session.Refuses response class') →
      operation.Routes response.status key declared →
      declared.ReadsAs response media →
      entry ∈ declared.headers → ResponseHeader.Absent response entry →
      Outcome session operation response
        (.error (.headersMissing
          (Entries.keys (declared.headers.filter (ResponseHeader.Absent response)))))
  | unreadable {key mediaType : String} {declared : Response} {mediaOf : MediaType} :
      (∀ class', ¬ session.Refuses response class') →
      operation.Routes response.status key declared →
      declared.ReadsAs response (some (mediaType, mediaOf)) →
      (∀ entry ∈ declared.headers, ¬ ResponseHeader.Absent response entry) →
      (∀ data, ¬ Reads response.body (some mediaType) data) →
      Outcome session operation response (.error (.responseDecoding mediaType))
  | violating {key : String} {declared : Response} {media : Option (String × MediaType)}
      {data : ResponseData} {id : SchemaId} {value : Value} {errors : List Violation} :
      (∀ class', ¬ session.Refuses response class') →
      operation.Routes response.status key declared →
      declared.ReadsAs response media →
      (∀ entry ∈ declared.headers, ¬ ResponseHeader.Absent response entry) →
      Reads response.body (media.map Prod.fst) data →
      (media.bind fun entry => entry.2.schema) = some id → ResponseData.value? data = some value →
      session.catalog.validate session.options.strictDiscriminator id value = .error errors →
      Outcome session operation response (.error (.responseSchema errors value))
  | fulfilled {key : String} {declared : Response} {media : Option (String × MediaType)}
      {data : ResponseData} {warnings : List Warning} :
      (∀ class', ¬ session.Refuses response class') →
      operation.Routes response.status key declared →
      declared.ReadsAs response media →
      (∀ entry ∈ declared.headers, ¬ ResponseHeader.Absent response entry) →
      Reads response.body (media.map Prod.fst) data →
      session.Admits (media.bind fun entry => entry.2.schema) data warnings →
      Outcome session operation response
        (.ok ⟨response.status, key, media.map Prod.fst, session.headerValues declared response,
          data, warnings⟩)

theorem statusFailure?_of_refuses {class' : StatusClass} (h : session.Refuses response class') :
    statusFailure? session.options response = some (refusal response class') := by
  obtain ⟨found, listed⟩ := h
  unfold statusFailure?
  rw [found]
  simp only [List.contains_iff_mem, listed, if_true]
  cases class' <;> rfl

theorem statusFailure?_eq_none (h : ∀ class', ¬ session.Refuses response class') :
    statusFailure? session.options response = none := by
  unfold statusFailure?
  cases found : StatusClass.of? response.status with
  | none => rfl
  | some class' =>
    have unlisted : class' ∉ session.options.failOnStatus := fun listed => h class' ⟨found, listed⟩
    simp [unlisted]

theorem mediaOf_of_readsAs (h : declared.ReadsAs response media) :
    mediaOf declared response = .ok media := by
  unfold mediaOf
  simp only [Entries.find?_eq_get?]
  cases h with
  | undeclared undeclared => simp [undeclared]
  | bodiless untyped empty => simp [untyped, empty]
  | listed named found =>
    have content : declared.content ≠ [] := by
      intro empty
      rw [empty] at found
      cases found
    simp [named, found, content]

theorem mediaOf_of_not_readsAs (h : ∀ media, ¬ declared.ReadsAs response media) :
    mediaOf declared response =
      .error (.contentType response.status response.mediaType? declared.content.keys) := by
  have content : declared.content ≠ [] := fun empty => h none (.undeclared empty)
  unfold mediaOf
  simp only [Entries.find?_eq_get?]
  cases named : response.mediaType? with
  | none =>
    have body : response.body ≠ [] := fun empty => h none (.bodiless named empty)
    simp [content, body]
  | some name =>
    have unlisted : Entries.get? name declared.content = none := by
      cases found : Entries.get? name declared.content with
      | none => rfl
      | some media => exact absurd (.listed named found) (h (some (name, media)))
    simp [content, unlisted]

/-- A header's text is always read, whatever it is. -/
theorem decodeHeaders_eq (session : Session) (declared : Response) (response : HttpResponse) :
    decodeHeaders session.catalog response declared.headers =
      .ok (session.headerValues declared response) := by
  unfold headerValues
  induction declared.headers with
  | nil => rfl
  | cons entry rest ih =>
    obtain ⟨name, header⟩ := entry
    rw [decodeHeaders, ih, List.filterMap_cons]
    cases response.headers.text? name with
    | none => rfl
    | some text => rfl

theorem missingHeaders_eq (response : HttpResponse) (declared : Response) :
    missingHeaders response declared.headers =
      Entries.keys (declared.headers.filter (ResponseHeader.Absent response)) := by
  refine congrArg (List.map Prod.fst) (List.filter_congr fun entry _ => ?_)
  cases found : response.headers.text? entry.1 <;> simp [ResponseHeader.Absent, found]

theorem decodeBody_of_reads {mediaType : Option String} (h : Reads response.body mediaType data) :
    decodeBody mediaType response.body = .ok data := by
  cases h with
  | nothing empty => simp [decodeBody, empty]
  | bare body => simp [decodeBody, body]
  | json isJson parsed => simp [decodeBody, isJson, parsed]
  | text notJson isText decoded => simp [decodeBody, notJson, isText, decoded]
  | octets notJson notText => simp [decodeBody, notJson, notText]

theorem decodeBody_of_not_reads {mediaType : String}
    (h : ∀ data, ¬ Reads response.body (some mediaType) data) :
    decodeBody (some mediaType) response.body = .error (.responseDecoding mediaType) := by
  unfold decodeBody
  cases json : isJson mediaType with
  | true =>
    cases parsed : Json.parseOctets? response.body with
    | none => simp [json]
    | some value => exact absurd (.json json parsed) (h _)
  | false =>
    cases text : isText mediaType with
    | true =>
      cases decoded : Text.Utf8.decode? response.body with
      | none => simp [json, text]
      | some s => exact absurd (.text json text decoded) (h _)
    | false => exact absurd (.octets json text) (h _)

theorem checkData_of_admits {schema : Option SchemaId} (h : session.Admits schema data warnings) :
    session.checkData schema data = .ok warnings := by
  cases h with
  | unchecked none =>
    rcases none with rfl | none
    · rfl
    · cases schema <;> simp [checkData, none]
  | checked schema value valid => simp [checkData, schema, value, valid]

/-- A response whose body has been read comes to a result, or to an error by its schema. -/
theorem exists_outcome_of_reads {key : String}
    (accepted : ∀ class', ¬ session.Refuses response class')
    (routes : operation.Routes response.status key declared)
    (readsAs : declared.ReadsAs response media)
    (present : ∀ entry ∈ declared.headers, ¬ ResponseHeader.Absent response entry)
    (reads : Reads response.body (media.map Prod.fst) data) :
    ∃ outcome, session.Outcome operation response outcome := by
  cases schema : media.bind fun entry => entry.2.schema with
  | none => exact ⟨_, .fulfilled accepted routes readsAs present reads (.unchecked (.inl schema))⟩
  | some id =>
    cases held : ResponseData.value? data with
    | none => exact ⟨_, .fulfilled accepted routes readsAs present reads (.unchecked (.inr held))⟩
    | some value =>
      cases valid : session.catalog.validate session.options.strictDiscriminator id value with
      | ok warnings =>
        exact ⟨_, .fulfilled accepted routes readsAs present reads (.checked schema held valid)⟩
      | error errors =>
        exact ⟨_, .violating accepted routes readsAs present reads schema held valid⟩

/-- A response whose media type is a declared one comes to a result or to an error by its headers, its
body or its schema. -/
theorem exists_outcome_of_readsAs {key : String}
    (accepted : ∀ class', ¬ session.Refuses response class')
    (routes : operation.Routes response.status key declared)
    (readsAs : declared.ReadsAs response media) :
    ∃ outcome, session.Outcome operation response outcome := by
  by_cases missing : ∃ entry ∈ declared.headers, ResponseHeader.Absent response entry
  · obtain ⟨entry, member, absent⟩ := missing
    exact ⟨_, .headersMissing accepted routes readsAs member absent⟩
  have present : ∀ entry ∈ declared.headers, ¬ ResponseHeader.Absent response entry :=
    fun entry member absent => missing ⟨entry, member, absent⟩
  by_cases readable : ∃ data, Reads response.body (media.map Prod.fst) data
  · obtain ⟨data, reads⟩ := readable
    exact exists_outcome_of_reads accepted routes readsAs present reads
  cases media with
  | none =>
    -- Octets of no media type are always read.
    by_cases empty : response.body = []
    · exact absurd ⟨_, .nothing empty⟩ readable
    · exact absurd ⟨_, .bare empty⟩ readable
  | some media => exact ⟨_, .unreadable accepted routes readsAs present (not_exists.mp readable)⟩

/-- A response comes to some result or error. -/
theorem exists_outcome (session : Session) (operation : Operation) (response : HttpResponse) :
    ∃ outcome, session.Outcome operation response outcome := by
  by_cases refused : ∃ class', session.Refuses response class'
  · obtain ⟨class', refuses⟩ := refused
    exact ⟨_, .refused refuses⟩
  have accepted := not_exists.mp refused
  cases routed : operation.route response.status with
  | none => exact ⟨_, .unrouted accepted ((operation.route_eq_none_iff _).mp routed)⟩
  | some entry =>
    obtain ⟨key, declared⟩ := entry
    have routes := (operation.route_eq_some_iff _ _ _).mp routed
    by_cases typed : ∃ media, declared.ReadsAs response media
    · obtain ⟨media, readsAs⟩ := typed
      exact exists_outcome_of_readsAs accepted routes readsAs
    · exact ⟨_, .undeclaredType accepted routes (not_exists.mp typed)⟩

theorem decode_of_routes {key : String} (accepted : ∀ class', ¬ session.Refuses response class')
    (routes : operation.Routes response.status key declared) :
    session.decode operation response = session.decodeAs response key declared := by
  unfold decode
  rw [statusFailure?_eq_none accepted, (operation.route_eq_some_iff _ _ _).mpr routes]

theorem missingHeaders_eq_nil
    (present : ∀ entry ∈ declared.headers, ¬ ResponseHeader.Absent response entry) :
    missingHeaders response declared.headers = [] := by
  rw [missingHeaders_eq, List.filter_eq_nil_iff.mpr]
  · rfl
  · simpa using present

theorem decodeAs_of_present {key : String} (readsAs : declared.ReadsAs response media)
    (present : ∀ entry ∈ declared.headers, ¬ ResponseHeader.Absent response entry) :
    session.decodeAs response key declared =
      (decodeBody (media.map Prod.fst) response.body).map fun data =>
        ⟨response.status, key, media.map Prod.fst, media.bind fun entry => entry.2.schema,
          session.headerValues declared response, data⟩ := by
  unfold decodeAs
  rw [mediaOf_of_readsAs readsAs, decodeHeaders_eq, missingHeaders_eq_nil present]
  rfl

/-- What a response comes to is what decoding and checking it give. -/
theorem eq_of_outcome {outcome : Except CallError CallResult}
    (h : session.Outcome operation response outcome) :
    (session.decode operation response).bind session.finish = outcome := by
  cases h with
  | refused refuses =>
    rw [decode, statusFailure?_of_refuses refuses]
    rfl
  | unrouted accepted unrouted =>
    rw [decode, statusFailure?_eq_none accepted, (operation.route_eq_none_iff _).mpr unrouted]
    rfl
  | undeclaredType accepted routes untyped =>
    rw [decode_of_routes accepted routes, decodeAs, mediaOf_of_not_readsAs untyped]
    rfl
  | @headersMissing key declared media entry accepted routes readsAs member absent =>
    have missing : (missingHeaders response declared.headers).isEmpty = false := by
      rw [missingHeaders_eq, Entries.keys, List.isEmpty_map, List.isEmpty_eq_false_iff]
      exact List.ne_nil_of_mem (List.mem_filter.mpr ⟨member, decide_eq_true absent⟩)
    rw [decode_of_routes accepted routes, decodeAs, mediaOf_of_readsAs readsAs, decodeHeaders_eq,
      ← missingHeaders_eq]
    simp [Except.bind, missing]
  | unreadable accepted routes readsAs present unreadable =>
    rw [decode_of_routes accepted routes, decodeAs_of_present readsAs present, Option.map_some,
      decodeBody_of_not_reads unreadable]
    rfl
  | violating accepted routes readsAs present reads schema held invalid =>
    rw [decode_of_routes accepted routes, decodeAs_of_present readsAs present,
      decodeBody_of_reads reads]
    simp [Except.map, Except.bind, finish, checkData, schema, held, invalid]
  | fulfilled accepted routes readsAs present reads admits =>
    rw [decode_of_routes accepted routes, decodeAs_of_present readsAs present,
      decodeBody_of_reads reads]
    simp [Except.map, Except.bind, finish, checkData_of_admits admits]

/-- Decoding a response and checking it comes to the result or the error whose conditions hold, and
never to an error in a header's text. -/
theorem outcome_iff (session : Session) (operation : Operation) (response : HttpResponse) :
    (∀ outcome, (session.decode operation response).bind session.finish = outcome ↔
      session.Outcome operation response outcome) ∧
    ∀ name cause, (session.decode operation response).bind session.finish ≠
      .error (.headerDecoding name cause) := by
  have comes : ∀ outcome, (session.decode operation response).bind session.finish = outcome ↔
      session.Outcome operation response outcome := by
    intro outcome
    constructor
    · rintro rfl
      obtain ⟨outcome, comes⟩ := session.exists_outcome operation response
      rwa [eq_of_outcome comes]
    · exact eq_of_outcome
  refine ⟨comes, ?_⟩
  intro name cause undecoded
  have outcome := (comes _).mp undecoded
  generalize error : (Except.error (CallError.headerDecoding name cause) :
    Except CallError CallResult) = result at outcome
  cases outcome with
  | @refused class' _ => cases class' <;> simp [refusal] at error
  | _ => cases error

end Session

end ApiContract
