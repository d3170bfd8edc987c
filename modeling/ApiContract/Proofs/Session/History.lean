import ApiContract.Proofs.Session.Preparation
import ApiContract.Proofs.Session.Security
import ApiContract.Session.Result
/-!
# What a session remembers

A caller takes a session through a series of acts. Whatever these are and whatever comes of them, the
session holds the credentials that it has taken since it was last told to forget them and the values
of server variables that it has been given (`Session.Recalls`); all else is as it was. The step from
one act to the next is `Recalls.act`, the whole series `recalls_run`.
-/

namespace ApiContract

open Json (Value)

/-- What a caller does with a session. -/
inductive Act where
  | authenticate (credentials : List (String × Credential))
  | resetAuthentication
  | setServerVariables (values : List (String × String))
  | call (transport : Transport) (key : OperationKey) (supplied : Entries Value)
      (payload : Option Payload)

/-- What comes of an act. -/
inductive Answer where
  | done
  | refused (cause : CallError)
  | called (record : Session.CallRecord)

/-- Acts with what came of them, the latest first. -/
abbrev History := List (Act × Answer)

namespace History

/-- Whether an act makes a session forget its credentials. -/
def forgets : Act × Answer → Bool
  | (.resetAuthentication, _) => true
  | _ => false

/-- The credentials that an act brings, the last first. A refused act brings none. -/
def taken : Act × Answer → List (String × Credential)
  | (.authenticate credentials, .done) => credentials.reverse
  | _ => []

/-- The values of server variables that an act brings, the last first. -/
def assigned : Act × Answer → List (String × String)
  | (.setServerVariables values, _) => values.reverse
  | _ => []

/-- The credentials that have been taken since they were last forgotten, the latest first. -/
def credentials (history : History) : List (String × Credential) :=
  (history.takeWhile fun step => !forgets step).flatMap taken

/-- The values of server variables that have been given, the latest first. -/
def serverVariables (history : History) : List (String × String) := history.flatMap assigned

end History

/-- A description declares a scheme. -/
def Description.Declares (description : Description) (scheme : String) : Prop :=
  Entries.has scheme description.securitySchemes = true

namespace Session

variable {session start : Session} {history : History}

/-- What comes of an act, and the session after it. -/
def act (session : Session) : Act → Answer × Session
  | .authenticate credentials =>
    match session.authenticate credentials with
    | .ok after => (.done, after)
    | .error cause => (.refused cause, session)
  | .resetAuthentication => (.done, session.resetAuthentication)
  | .setServerVariables values => (.done, session.setServerVariables values)
  | .call transport key supplied payload =>
    match session.operation key with
    | .ok operation => (.called (session.call transport operation supplied payload), session)
    | .error cause => (.refused cause, session)

/-- One act after another, on top of what came before. -/
def runFrom : History × Session → List Act → History × Session
  | state, [] => state
  | (history, session), act :: rest =>
    runFrom ((act, (session.act act).1) :: history, (session.act act).2) rest

/-- What comes of a series of acts, and the session after it. -/
def run (session : Session) (acts : List Act) : History × Session := runFrom ([], session) acts

/-- A session holds what a history has brought it since its start, of a name the latest, under names
in ascending order, and no credential of a scheme that is not declared. All else is as at the
start. -/
structure Recalls (session start : Session) (history : History) : Prop where
  frame : session = { start with
    credentials := session.credentials
    serverVariables := session.serverVariables }
  ascending : session.credentials.Ascending
  credentials : ∀ name, Entries.get? name session.credentials = Entries.get? name history.credentials
  declared : ∀ scheme ∈ session.credentials.keys, session.description.Declares scheme
  ascendingVariables : session.serverVariables.Ascending
  serverVariables : ∀ name,
    Entries.get? name session.serverVariables = Entries.get? name history.serverVariables

/-! ### Single acts -/

theorem authenticate_of_declared {credentials : List (String × Credential)}
    (h : ∀ pair ∈ credentials, session.description.Declares pair.1) :
    session.authenticate credentials =
      .ok { session with credentials := session.credentials.extendSorted credentials } := by
  have none : (credentials.find? fun pair =>
      !Entries.has pair.1 session.description.securitySchemes) = none := by
    rw [List.find?_eq_none]
    intro pair member
    simpa [Description.Declares] using h pair member
  simp only [authenticate, none]

/-- A batch is refused for its first name of no scheme, wherever this stands. -/
theorem authenticate_of_undeclared {before after : List (String × Credential)} {name : String}
    {credential : Credential} (first : ∀ pair ∈ before, session.description.Declares pair.1)
    (undeclared : ¬ session.description.Declares name) :
    session.authenticate (before ++ (name, credential) :: after) =
      .error (.unknownSecurityScheme name) := by
  have found : ((before ++ (name, credential) :: after).find? fun pair =>
      !Entries.has pair.1 session.description.securitySchemes) = some (name, credential) := by
    rw [List.find?_eq_some_iff_append]
    refine ⟨by simpa [Description.Declares] using undeclared, before, after, rfl, ?_⟩
    intro pair member
    simpa [Description.Declares] using first pair member
  simp only [authenticate, found]

/-- A batch holds names of declared schemes alone, or there is a first one that is not. -/
theorem cases_of_batch (description : Description) (credentials : List (String × Credential)) :
    (∀ pair ∈ credentials, description.Declares pair.1) ∨
      ∃ before name credential after, credentials = before ++ (name, credential) :: after ∧
        (∀ pair ∈ before, description.Declares pair.1) ∧ ¬ description.Declares name := by
  induction credentials with
  | nil => exact .inl (by simp)
  | cons pair rest ih =>
    obtain ⟨name, credential⟩ := pair
    by_cases own : description.Declares name
    · rcases ih with all | ⟨before, other, value, after, rfl, first, undeclared⟩
      · exact .inl (List.forall_mem_cons.mpr ⟨own, all⟩)
      · exact .inr ⟨(name, credential) :: before, other, value, after, rfl,
          List.forall_mem_cons.mpr ⟨own, first⟩, undeclared⟩
    · exact .inr ⟨[], name, credential, rest, rfl, by simp, own⟩

theorem act_call (transport : Transport) (key : OperationKey) (supplied : Entries Value)
    (payload : Option Payload) : (session.act (.call transport key supplied payload)).2 = session := by
  rw [act]
  cases session.operation key <;> rfl

/-- A session that recalls its history goes on to do so. -/
theorem Recalls.act (h : session.Recalls start history) (step : Act) :
    (session.act step).2.Recalls start ((step, (session.act step).1) :: history) := by
  have frame := h.frame
  cases step with
  | authenticate batch =>
    rcases cases_of_batch session.description batch with
      all | ⟨before, name, credential, after, rfl, first, undeclared⟩
    · simp only [Session.act, authenticate_of_declared all]
      refine ⟨by rw [frame], h.ascending.extendSorted batch, ?_, ?_, h.ascendingVariables,
        h.serverVariables⟩
      · intro name
        rw [Entries.get?_extendSorted, h.credentials name, ← Entries.get?_append]
        rfl
      · intro scheme member
        rcases Entries.mem_keys_of_extendSorted member with earlier | ⟨pair, own, rfl⟩
        · exact h.declared scheme earlier
        · exact all pair own
    · simp only [Session.act, authenticate_of_undeclared first undeclared]
      exact ⟨frame, h.ascending, h.credentials, h.declared, h.ascendingVariables, h.serverVariables⟩
  | resetAuthentication =>
    refine ⟨?_, Entries.ascending_nil, fun _ => rfl, fun _ member => (nomatch member),
      h.ascendingVariables, h.serverVariables⟩
    simp only [Session.act, resetAuthentication]
    rw [frame]
  | setServerVariables values =>
    refine ⟨?_, h.ascending, h.credentials, h.declared, h.ascendingVariables.extendSorted values, ?_⟩
    · simp only [Session.act, setServerVariables]
      rw [frame]
    · intro name
      refine (Entries.get?_extendSorted name session.serverVariables values).trans ?_
      rw [h.serverVariables name, ← Entries.get?_append]
      rfl
  | call transport key supplied payload =>
    rw [act_call]
    exact ⟨frame, h.ascending, h.credentials, h.declared, h.ascendingVariables, h.serverVariables⟩

theorem Recalls.runFrom (h : session.Recalls start history) (acts : List Act) :
    (Session.runFrom (history, session) acts).2.Recalls start
      (Session.runFrom (history, session) acts).1 := by
  induction acts generalizing session history with
  | nil => exact h
  | cons step rest ih => exact ih (h.act step)

/-- Where all credentials are of declared schemes, no request fails for a scheme that is not. -/
theorem prepare_ne_unknownSecurityScheme
    (declared : ∀ scheme ∈ session.credentials.keys, session.description.Declares scheme)
    (operation : Operation) (supplied : Entries Value) (payload : Option Payload) (scheme : String) :
    (session.prepare operation supplied payload).1 ≠ .error (.unknownSecurityScheme scheme) := by
  intro h
  rw [prepare_fst] at h
  rcases cases_of_bind_eq_error h with unfit | ⟨parameters, -, h⟩
  · exact isOfParameters_of_encodeSupplied unfit
  rcases cases_of_bind_eq_error h with unsecured | ⟨applied, -, h⟩
  · rw [applySecurity_eq] at unsecured
    split at unsecured
    · next e refused =>
      cases unsecured
      rcases error_of_negotiated refused with ⟨names, absurd⟩ | ⟨attempted, provided, absurd⟩
      · cases absurd
      · cases absurd
    · cases unsecured
    · next requirement taken =>
      have held := (chooses_of_negotiated taken).satisfies
      obtain ⟨name, problem, absurd⟩ := error_of_applySchemes
        (fun name member => declared name (held name member)) held unsecured
      cases absurd
  rcases cases_of_assemble_eq_error h with ⟨field, -, -, absurd⟩ | rest | ⟨-, -, absurd⟩
  · cases absurd
  · exact isOfRest_of_encodeRest rest
  · cases absurd

/-- After any acts a session on a description recalls what these have brought. A batch of credentials
is taken if all their schemes are declared, and otherwise refused without a trace; calls leave no
trace either; and no request ever fails for an undeclared scheme. -/
theorem recalls_run (reading : Description.Reading) (options : SessionOptions)
    (authenticator : Option Authenticator) (acts : List Act) :
    let start := ofReading reading options authenticator
    let history := (start.run acts).1
    let session := (start.run acts).2
    session.Recalls start history ∧
      (∀ credentials, (∀ pair ∈ credentials, reading.description.Declares pair.1) →
        (session.act (.authenticate credentials)).1 = .done) ∧
      (∀ before name credential after, (∀ pair ∈ before, reading.description.Declares pair.1) →
        ¬ reading.description.Declares name →
          session.act (.authenticate (before ++ (name, credential) :: after)) =
            (.refused (.unknownSecurityScheme name), session)) ∧
      (∀ transport key supplied payload,
        (session.act (.call transport key supplied payload)).2 = session) ∧
      ∀ operation supplied payload scheme,
        (session.prepare operation supplied payload).1 ≠ .error (.unknownSecurityScheme scheme) := by
  intro start history session
  have fresh : start.Recalls start [] :=
    ⟨rfl, Entries.ascending_nil, fun _ => rfl, List.forall_mem_nil _, Entries.ascending_nil,
      fun _ => rfl⟩
  have recalls : session.Recalls start history := fresh.runFrom acts
  have same : session.description = reading.description := congrArg description recalls.frame
  rw [← same]
  refine ⟨recalls, ?accepts, ?refuses, act_call, prepare_ne_unknownSecurityScheme recalls.declared⟩
  case accepts =>
    intro credentials all
    rw [act, authenticate_of_declared all]
  case refuses =>
    intro before name credential after first undeclared
    rw [act, authenticate_of_undeclared first undeclared]

end Session

end ApiContract
