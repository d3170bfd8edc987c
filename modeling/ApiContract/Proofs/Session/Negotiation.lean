import ApiContract.Proofs.Session.Security
import Mathlib.Data.List.Forall2
import Mathlib.Data.List.ReduceOption
/-!
# What security adds to a request

Security is settled in three steps. A credential that nobody asks for ends the call; of the
alternatives in force the first is taken that the session satisfies; and each scheme of it shows the
server one artefact, or none where the proof is not part of the request (`Session.Shows`).
`applySecurity_outcome` says what comes of this: which errors there are and when, and for a
successful application every header, query pair and cookie.
-/

namespace ApiContract

/-- Something in a request that shows who is calling: a name with a text, in a location. -/
structure Artefact where
  location : ParameterLocation
  name : String
  text : String

namespace Artefact

/-- The location of a request in which a key travels. No description declares a key in a path. -/
def locationOfKey : ParameterLocation → ParameterLocation
  | .path => .header
  | location => location

/-- A key in the location that is declared for it. -/
def key (name : String) (location : ParameterLocation) (secret : String) : Artefact :=
  ⟨locationOfKey location, name, secret⟩

/-- The value of an `Authorization` header. -/
def authorization (text : String) : Artefact := ⟨.header, "authorization", text⟩

/-- The names and texts of the artefacts in a location. -/
def pairsIn (location : ParameterLocation) (artefacts : List Artefact) : List (String × String) :=
  (artefacts.filter fun artefact => artefact.location = location).map fun artefact =>
    (artefact.name, artefact.text)

theorem pairsIn_append (location : ParameterLocation) (front back : List Artefact) :
    pairsIn location (front ++ back) = pairsIn location front ++ pairsIn location back := by
  simp [pairsIn]

end Artefact

namespace AppliedSecurity

/-- Artefacts added, and the scheme by which challenges are answered if there is another one. -/
def extend (applied : AppliedSecurity) (artefacts : List Artefact) (digest : Option String) :
    AppliedSecurity where
  headers := applied.headers ++ Artefact.pairsIn .header artefacts
  query := applied.query ++ Artefact.pairsIn .query artefacts
  cookies := applied.cookies ++ Artefact.pairsIn .cookie artefacts
  digest := digest.or applied.digest

variable (applied : AppliedSecurity) (artefacts : List Artefact) (digest : Option String)

theorem extend_none : applied.extend [] Option.none = applied := by
  simp [extend, Artefact.pairsIn]

theorem extend_some (name : String) :
    applied.extend [] (some name) = { applied with digest := some name } := by
  simp [extend, Artefact.pairsIn]

theorem extend_extend (more : List Artefact) (later : Option String) :
    (applied.extend artefacts digest).extend more later =
      applied.extend (artefacts ++ more) (later.or digest) := by
  simp [extend, Artefact.pairsIn_append, Option.or_assoc]

theorem addAuthorization_eq (text : String) :
    applied.addAuthorization text = applied.extend [.authorization text] Option.none := by
  simp [addAuthorization, addHeader, extend, Artefact.pairsIn, Artefact.authorization]

theorem addKey_eq (name : String) (location : ParameterLocation) (secret : String) :
    applied.addKey name location secret = applied.extend [.key name location secret] Option.none := by
  cases location <;>
    simp [addKey, addHeader, extend, Artefact.pairsIn, Artefact.key, Artefact.locationOfKey]

end AppliedSecurity

namespace Session

variable {session : Session} {operation : Operation} {requirement : SecurityRequirement}
  {name : String} {names : List String} {scheme : SecurityScheme} {credential : Credential}
  {applied after : AppliedSecurity}

/-! ### What a scheme shows -/

/-- A scheme is declared under a name, and the session has a credential for it. -/
structure Holds (session : Session) (name : String) (scheme : SecurityScheme)
    (credential : Credential) : Prop where
  declared : Entries.get? name session.description.securitySchemes = some scheme
  held : Entries.get? name session.credentials = some credential

/-- The access token for a scheme: what the authenticator answers if there is one, else the secret. -/
def ObtainsToken (session : Session) (name : String) (scheme : SecurityScheme)
    (credential : Credential) (token : String) : Prop :=
  match session.authenticator with
  | some authenticator => authenticator.accessToken name scheme = .ok token
  | none => credential = .secret token

/-- What a session shows for the scheme of a name: one artefact for a key, for a scheme of the
`Authorization` header and for one with access tokens, and none for mutual TLS, nor for a scheme that
waits for a challenge. -/
inductive Shows (session : Session) (name : String) : Option Artefact → Prop
  | apiKey {key secret : String} {location : ParameterLocation} :
      session.Holds name (.apiKey key location) (.secret secret) →
      Shows session name (some (.key key location secret))
  | basic {format : Option String} {credential : Credential} :
      session.Holds name (.http .basic format) credential →
      Shows session name (some (.authorization
        ("Basic " ++ String.ofList (Text.Base64.encode (Text.Utf8.encode (basicText credential))))))
  | bearer {format : Option String} {secret : String} :
      session.Holds name (.http .bearer format) (.secret secret) →
      Shows session name (some (.authorization ("Bearer " ++ secret)))
  | other {scheme secret : String} {format : Option String} :
      session.Holds name (.http (.other scheme) format) (.secret secret) →
      Shows session name (some (.authorization (scheme ++ " " ++ secret)))
  | oauth2 {flows : Json.Value} {credential : Credential} {token : String} :
      session.Holds name (.oauth2 flows) credential →
      session.ObtainsToken name (.oauth2 flows) credential token →
      Shows session name (some (.authorization ("Bearer " ++ token)))
  | openIdConnect {url token : String} {credential : Credential} :
      session.Holds name (.openIdConnect url) credential →
      session.ObtainsToken name (.openIdConnect url) credential token →
      Shows session name (some (.authorization ("Bearer " ++ token)))
  | digest {format : Option String} {credential : Credential} :
      session.Holds name (.http .digest format) credential → Shows session name none
  | mutualTls {credential : Credential} :
      session.Holds name .mutualTls credential → Shows session name none

theorem Shows.exists_holds {shown : Option Artefact} (h : session.Shows name shown) :
    ∃ scheme credential, session.Holds name scheme credential := by
  cases h <;> exact ⟨_, _, ‹session.Holds name _ _›⟩

theorem Holds.unique {other : SecurityScheme} {credential' : Credential}
    (h : session.Holds name scheme credential) (h' : session.Holds name other credential') :
    scheme = other ∧ credential = credential' :=
  ⟨Option.some.inj (h.declared.symm.trans h'.declared), Option.some.inj (h.held.symm.trans h'.held)⟩

theorem secretOf_eq_ok_iff {secret : String} :
    secretOf name credential = .ok secret ↔ credential = .secret secret := by
  cases credential <;> simp [secretOf]

theorem tokenOf_eq_ok_iff {token : String} :
    (tokenOf session.authenticator name scheme credential).1 = .ok token ↔
      session.ObtainsToken name scheme credential token := by
  unfold tokenOf ObtainsToken
  cases session.authenticator with
  | none => exact secretOf_eq_ok_iff
  | some authenticator =>
    simp only
    cases authenticator.accessToken name scheme <;> simp

/-- A scheme for which there is a credential adds what the session shows for it, and nothing else. -/
theorem applyScheme_eq_ok_iff (h : session.Holds name scheme credential) :
    (applyScheme session.authenticator name scheme credential applied).1 = .ok after ↔
      ∃ shown, session.Shows name shown ∧
        after = applied.extend shown.toList (if scheme.isDigest then some name else none) := by
  constructor
  · intro result
    cases scheme with
    | apiKey key location =>
      obtain ⟨secret, own, rfl⟩ := exists_of_map_eq_ok result
      obtain rfl := secretOf_eq_ok_iff.mp own
      exact ⟨_, .apiKey h, applied.addKey_eq key location secret⟩
    | http scheme format =>
      cases scheme with
      | basic =>
        cases result
        exact ⟨_, .basic h, applied.addAuthorization_eq _⟩
      | bearer =>
        obtain ⟨secret, own, rfl⟩ := exists_of_map_eq_ok result
        obtain rfl := secretOf_eq_ok_iff.mp own
        exact ⟨_, .bearer h, applied.addAuthorization_eq _⟩
      | digest =>
        cases result
        exact ⟨_, .digest h, (applied.extend_some name).symm⟩
      | other scheme =>
        obtain ⟨secret, own, rfl⟩ := exists_of_map_eq_ok result
        obtain rfl := secretOf_eq_ok_iff.mp own
        exact ⟨_, .other h, applied.addAuthorization_eq _⟩
    | oauth2 flows =>
      obtain ⟨token, own, rfl⟩ := exists_of_map_eq_ok result
      exact ⟨_, .oauth2 h (tokenOf_eq_ok_iff.mp own), applied.addAuthorization_eq _⟩
    | openIdConnect url =>
      obtain ⟨token, own, rfl⟩ := exists_of_map_eq_ok result
      exact ⟨_, .openIdConnect h (tokenOf_eq_ok_iff.mp own), applied.addAuthorization_eq _⟩
    | mutualTls =>
      cases result
      exact ⟨_, .mutualTls h, applied.extend_none.symm⟩
  · rintro ⟨shown, shows, rfl⟩
    cases shows with
    | apiKey own =>
      obtain ⟨rfl, rfl⟩ := h.unique own
      exact congrArg _ (applied.addKey_eq _ _ _)
    | basic own =>
      obtain ⟨rfl, rfl⟩ := h.unique own
      exact congrArg _ (applied.addAuthorization_eq _)
    | bearer own =>
      obtain ⟨rfl, rfl⟩ := h.unique own
      exact congrArg _ (applied.addAuthorization_eq _)
    | other own =>
      obtain ⟨rfl, rfl⟩ := h.unique own
      exact congrArg _ (applied.addAuthorization_eq _)
    | oauth2 own obtains =>
      obtain ⟨rfl, rfl⟩ := h.unique own
      simp only [applyScheme, tokenOf_eq_ok_iff.mpr obtains]
      exact congrArg _ (applied.addAuthorization_eq _)
    | openIdConnect own obtains =>
      obtain ⟨rfl, rfl⟩ := h.unique own
      simp only [applyScheme, tokenOf_eq_ok_iff.mpr obtains]
      exact congrArg _ (applied.addAuthorization_eq _)
    | digest own =>
      obtain ⟨rfl, rfl⟩ := h.unique own
      exact congrArg _ (applied.extend_some name).symm
    | mutualTls own =>
      obtain ⟨rfl, rfl⟩ := h.unique own
      exact congrArg _ applied.extend_none.symm

/-- What one scheme adds and what those behind it add is what all of them add: a scheme that comes
later is the one whose challenges are answered. -/
theorem extend_reduceOption_cons
    (declared : Entries.get? name session.description.securitySchemes = some scheme)
    (shown : Option Artefact) (later : List (Option Artefact)) :
    (applied.extend shown.toList (if scheme.isDigest then some name else none)).extend
        later.reduceOption (names.filter session.declaresDigest).getLast? =
      applied.extend (shown :: later).reduceOption
        ((name :: names).filter session.declaresDigest).getLast? := by
  have own : session.declaresDigest name = scheme.isDigest := by
    simp [declaresDigest, declared]
  rw [AppliedSecurity.extend_extend, List.filter_cons, own]
  cases scheme.isDigest <;> cases shown <;> simp [List.getLast?_cons]

/-- The schemes of a list are applied with success exactly where the session shows something for each
of them, or has none to show; in the order of the list, this is all that they add. -/
theorem applySchemes_eq_ok_iff :
    (session.applySchemes names applied).1 = .ok after ↔
      ∃ shown, List.Forall₂ session.Shows names shown ∧
        after = applied.extend shown.reduceOption (names.filter session.declaresDigest).getLast? := by
  induction names generalizing applied with
  | nil =>
    constructor
    · intro result
      cases result
      exact ⟨[], .nil, after.extend_none.symm⟩
    · rintro ⟨_, ⟨⟩, rfl⟩
      exact congrArg _ (AppliedSecurity.extend_none _).symm
  | cons name rest ih =>
    constructor
    · intro result
      rw [applySchemes] at result
      split at result
      · next scheme credential declared held =>
        split at result
        · cases result
        · next between asked step =>
          obtain ⟨shown, shows, rfl⟩ :=
            (applyScheme_eq_ok_iff ⟨declared, held⟩).mp (congrArg Prod.fst step)
          obtain ⟨later, each, rfl⟩ := ih.mp result
          exact ⟨shown :: later, .cons shows each, extend_reduceOption_cons declared shown later⟩
      · cases result
    · rintro ⟨_, _ | @⟨_, shown, _, later, shows, each⟩, rfl⟩
      obtain ⟨scheme, credential, holds⟩ := shows.exists_holds
      have first : (applyScheme session.authenticator name scheme credential applied).1 = .ok _ :=
        (applyScheme_eq_ok_iff holds).mpr ⟨shown, shows, rfl⟩
      simp only [applySchemes, holds.declared, holds.held]
      split
      · next failed asked step => simp [step] at first
      · next between asked step =>
        rw [step] at first
        obtain rfl := Except.ok.inj first
        exact ih.mpr ⟨later, each, (extend_reduceOption_cons holds.declared shown later).symm⟩

/-! ### The outcome -/

/-- The names of the credentials that are asked for neither by an alternative in force nor by one of
the description's. -/
def unrequested (session : Session) (operation : Operation) : List String :=
  session.credentials.keys.filter fun name =>
    ∀ requirement ∈ session.description.securityFor operation ++ session.description.security,
      name ∉ requirement.keys

/-- Security that is applied for a requirement: its artefacts in the order of its schemes, each in its
location, and the last of the schemes that wait for a challenge. -/
def Applies (session : Session) (requirement : SecurityRequirement) (applied : AppliedSecurity) :
    Prop :=
  ∃ shown, List.Forall₂ session.Shows requirement.keys shown ∧
    applied.headers = Artefact.pairsIn .header shown.reduceOption ∧
    applied.query = Artefact.pairsIn .query shown.reduceOption ∧
    applied.cookies = Artefact.pairsIn .cookie shown.reduceOption ∧
    applied.digest = session.digestOf requirement

theorem applySchemes_eq_ok_iff_applies :
    (session.applySchemes requirement.keys .none).1 = .ok applied ↔
      session.Applies requirement applied := by
  rw [applySchemes_eq_ok_iff]
  refine exists_congr fun shown => and_congr_right fun _ => ?_
  obtain ⟨headers, query, cookies, digest⟩ := applied
  simp [AppliedSecurity.extend, AppliedSecurity.none, digestOf]

theorem digest_isSome_iff_of_applies (h : session.Applies requirement applied) :
    applied.digest.isSome = true ↔ ∃ name ∈ requirement.keys, session.declaresDigest name = true := by
  obtain ⟨shown, -, -, -, -, digest⟩ := h
  rw [digest, digestOf, List.getLast?_isSome, ne_eq, List.filter_eq_nil_iff]
  simp

theorem checkUnexpected_eq (session : Session) (operation : Operation) :
    checkUnexpected operation.label (session.description.securityFor operation)
        session.description.security session.credentials =
      if session.unrequested operation = [] then .ok ()
      else .error (.unexpectedSecurity operation.label (session.unrequested operation)) := by
  have same : (session.credentials.keys.filter fun name =>
      !(session.description.securityFor operation ++ session.description.security).any
        fun requirement => Entries.has name requirement) = session.unrequested operation := by
    refine List.filter_congr fun name _ => ?_
    rw [Bool.eq_iff_iff, Bool.not_eq_true', List.any_eq_false, decide_eq_true_iff]
    simp only [Entries.has_eq_true_iff]
  simp only [checkUnexpected, same, List.isEmpty_iff]

/-- Where no credential is unasked for, the first satisfied alternative is applied if there are any
alternatives. -/
theorem applySecurity_of_requested (requested : session.unrequested operation = []) :
    (session.description.securityFor operation = [] ∧
      session.applySecurity operation = (.ok .none, [])) ∨
    (∃ requirement, session.Chooses operation requirement ∧
      session.applySecurity operation = session.applySchemes requirement.keys .none) ∨
    (session.description.securityFor operation ≠ [] ∧
      (∀ requirement ∈ session.description.securityFor operation, ¬ session.Satisfies requirement) ∧
      session.applySecurity operation = (.error (.noSecuritySatisfied
        ((session.description.securityFor operation).map Entries.keys) session.credentials.keys), [])) := by
  have negotiates : session.negotiated operation =
      negotiate (session.description.securityFor operation) session.credentials := by
    rw [negotiated, checkUnexpected_eq, if_pos requested]
    rfl
  rw [applySecurity_eq, negotiates]
  by_cases none : session.description.securityFor operation = []
  · exact .inl ⟨none, by simp [negotiate, none]⟩
  refine .inr ?_
  rw [negotiate, if_neg (mt List.isEmpty_iff.mp none)]
  cases found : (session.description.securityFor operation).find? fun requirement =>
      requirement.keys.all fun name => Entries.has name session.credentials with
  | some requirement => exact .inl ⟨requirement, chooses_iff.mpr found, by simp [found]⟩
  | none =>
    refine .inr ⟨none, fun requirement member => ?_, by simp [found]⟩
    exact mt all_has_iff.mpr (List.find?_eq_none.mp found requirement member)

/-- Schemes fail to be applied for what is wrong with a credential, or for not being declared. -/
theorem cases_of_applySchemes_error {e : CallError}
    (h : (session.applySchemes names applied).1 = .error e) :
    (∃ name problem, e = .authentication name problem) ∨ ∃ name, e = .unknownSecurityScheme name := by
  induction names generalizing applied with
  | nil => cases h
  | cons name rest ih =>
    rw [applySchemes] at h
    split at h
    · split at h
      · next failed asked step =>
        cases h
        exact .inl ⟨name, error_of_applyScheme (congrArg Prod.fst step)⟩
      · exact ih h
    · cases h
      exact .inr ⟨name, rfl⟩

theorem applySecurity_of_unrequested (unrequested : session.unrequested operation ≠ []) :
    session.applySecurity operation =
      (.error (.unexpectedSecurity operation.label (session.unrequested operation)), []) := by
  rw [applySecurity_eq, negotiated, checkUnexpected_eq, if_neg unrequested]
  rfl

theorem Chooses.mem (h : session.Chooses operation requirement) :
    requirement ∈ session.description.securityFor operation := by
  obtain ⟨before, after, split, -, -⟩ := h
  simp [split]

theorem applySecurity_of_chooses (requested : session.unrequested operation = [])
    (h : session.Chooses operation requirement) :
    session.applySecurity operation = session.applySchemes requirement.keys .none := by
  rcases applySecurity_of_requested requested with
    ⟨none, -⟩ | ⟨other, chosen, applies⟩ | ⟨-, unsatisfied, -⟩
  · exact absurd h.mem (by simp [none])
  · rw [applies, h.unique chosen]
  · exact absurd h.satisfies (unsatisfied requirement h.mem)

theorem unexpectedSecurity_iff {label : String} :
    (session.applySecurity operation).1 = .error (.unexpectedSecurity label names) ↔
      label = operation.label ∧ names = session.unrequested operation ∧ names ≠ [] := by
  by_cases requested : session.unrequested operation = []
  · refine iff_of_false (fun refused => ?_) fun ⟨_, same, unrequested⟩ =>
      unrequested (same.trans requested)
    rcases applySecurity_of_requested requested with
      ⟨-, applies⟩ | ⟨requirement, -, applies⟩ | ⟨-, -, applies⟩
    · simp [applies] at refused
    · rw [applies] at refused
      rcases cases_of_applySchemes_error refused with ⟨_, _, other⟩ | ⟨_, other⟩ <;> cases other
    · simp [applies] at refused
  · rw [applySecurity_of_unrequested requested]
    constructor
    · intro refused
      cases refused
      exact ⟨rfl, rfl, requested⟩
    · rintro ⟨rfl, rfl, -⟩
      rfl

theorem noSecuritySatisfied_iff {attempted : List (List String)} {provided : List String} :
    (session.applySecurity operation).1 = .error (.noSecuritySatisfied attempted provided) ↔
      session.unrequested operation = [] ∧ session.description.securityFor operation ≠ [] ∧
        (∀ requirement ∈ session.description.securityFor operation,
          ¬ session.Satisfies requirement) ∧
        attempted = (session.description.securityFor operation).map Entries.keys ∧
        provided = session.credentials.keys := by
  by_cases requested : session.unrequested operation = []
  · rcases applySecurity_of_requested requested with
      ⟨none, applies⟩ | ⟨requirement, chosen, applies⟩ | ⟨offered, unsatisfied, applies⟩
    · simp [applies, none]
    · refine iff_of_false (fun refused => ?_) fun ⟨_, _, unsatisfied, _⟩ =>
        unsatisfied requirement chosen.mem chosen.satisfies
      rw [applies] at refused
      rcases cases_of_applySchemes_error refused with ⟨_, _, other⟩ | ⟨_, other⟩ <;> cases other
    · rw [applies]
      constructor
      · intro refused
        cases refused
        exact ⟨requested, offered, unsatisfied, rfl, rfl⟩
      · rintro ⟨-, -, -, rfl, rfl⟩
        rfl
  · simp [applySecurity_of_unrequested requested, requested]

theorem applySecurity_eq_ok_iff :
    (session.applySecurity operation).1 = .ok applied ↔
      session.unrequested operation = [] ∧
        (session.description.securityFor operation = [] ∧ applied = .none ∨
          ∃ requirement, session.Chooses operation requirement ∧
            session.Applies requirement applied) := by
  by_cases requested : session.unrequested operation = []
  · simp only [requested, true_and]
    rcases applySecurity_of_requested requested with
      ⟨none, applies⟩ | ⟨requirement, chosen, applies⟩ | ⟨offered, unsatisfied, applies⟩
    · have unchosen : ∀ requirement, ¬ session.Chooses operation requirement :=
        fun requirement chosen => absurd chosen.mem (by simp [none])
      simp [applies, none, unchosen, eq_comm]
    · rw [applies, applySchemes_eq_ok_iff_applies]
      refine ⟨fun own => .inr ⟨requirement, chosen, own⟩, ?_⟩
      rintro (⟨none, -⟩ | ⟨other, alternative, own⟩)
      · exact absurd chosen.mem (by simp [none])
      · rwa [chosen.unique alternative]
    · have unchosen : ∀ requirement, ¬ session.Chooses operation requirement :=
        fun requirement chosen => unsatisfied requirement chosen.mem chosen.satisfies
      simp [applies, offered, unchosen]
  · simp [applySecurity_of_unrequested requested, requested]

/-- What security comes to. Credentials that nobody asks for are refused, all of them and before
anything else. Then an operation without alternatives needs nothing, the first alternative that the
session satisfies is applied, and where there is none all alternatives are reported in their order.
What is applied are the artefacts of the alternative's schemes, one after the other, and a scheme for
challenges if there is one among them. -/
theorem applySecurity_outcome (session : Session) (operation : Operation) :
    (∀ label names,
      (session.applySecurity operation).1 = .error (.unexpectedSecurity label names) ↔
        label = operation.label ∧ names = session.unrequested operation ∧ names ≠ []) ∧
    (∀ attempted provided,
      (session.applySecurity operation).1 = .error (.noSecuritySatisfied attempted provided) ↔
        session.unrequested operation = [] ∧ session.description.securityFor operation ≠ [] ∧
          (∀ requirement ∈ session.description.securityFor operation,
            ¬ session.Satisfies requirement) ∧
          attempted = (session.description.securityFor operation).map Entries.keys ∧
          provided = session.credentials.keys) ∧
    (∀ requirement, session.unrequested operation = [] → session.Chooses operation requirement →
      session.applySecurity operation = session.applySchemes requirement.keys .none) ∧
    (∀ applied, (session.applySecurity operation).1 = .ok applied ↔
      session.unrequested operation = [] ∧
        (session.description.securityFor operation = [] ∧ applied = .none ∨
          ∃ requirement, session.Chooses operation requirement ∧
            session.Applies requirement applied)) ∧
    ∀ requirement applied, session.Applies requirement applied →
      (applied.digest.isSome = true ↔
        ∃ name ∈ requirement.keys, session.declaresDigest name = true) :=
  ⟨fun _ _ => unexpectedSecurity_iff, fun _ _ => noSecuritySatisfied_iff,
    fun _ requested chosen => applySecurity_of_chooses requested chosen,
    fun _ => applySecurity_eq_ok_iff, fun _ _ => digest_isSome_iff_of_applies⟩

end Session

end ApiContract
