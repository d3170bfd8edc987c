import ApiContract.Proofs.Entries
import ApiContract.Proofs.Except
import ApiContract.Session.Security
/-!
# The security of a call

Which of an operation's alternatives a session takes is a matter of the names that it has credentials
for (`Session.Chooses`), and the credentials of the schemes in it are all that is applied.
-/

namespace ApiContract

/-- Whether a scheme answers challenges. -/
def SecurityScheme.isDigest : SecurityScheme → Bool
  | http .digest _ => true
  | _ => false

namespace AppliedSecurity

variable (applied : AppliedSecurity) (name value : String) (location : ParameterLocation)

@[simp] theorem digest_addAuthorization :
    (applied.addAuthorization value).digest = applied.digest := rfl

@[simp] theorem digest_addKey : (applied.addKey name location value).digest = applied.digest := by
  cases location <;> rfl

end AppliedSecurity

namespace Session

variable {session : Session} {operation : Operation} {requirement : SecurityRequirement}
  {e : CallError} {applied after : AppliedSecurity}

/-! ### The choice -/

/-- The session has a credential for every scheme of a requirement. -/
def Satisfies (session : Session) (requirement : SecurityRequirement) : Prop :=
  ∀ scheme ∈ requirement.keys, scheme ∈ session.credentials.keys

/-- A requirement is the first of an operation's alternatives that the session satisfies. -/
def Chooses (session : Session) (operation : Operation) (requirement : SecurityRequirement) : Prop :=
  ∃ before after, session.description.securityFor operation = before ++ requirement :: after ∧
    session.Satisfies requirement ∧ ∀ earlier ∈ before, ¬ session.Satisfies earlier

theorem all_has_iff : (requirement.keys.all fun name => Entries.has name session.credentials) = true ↔
    session.Satisfies requirement := by
  simp only [List.all_eq_true, Entries.has_eq_true_iff, Satisfies]

theorem chooses_iff : session.Chooses operation requirement ↔
    (session.description.securityFor operation).find? (fun requirement =>
      requirement.keys.all fun name => Entries.has name session.credentials) = some requirement := by
  rw [List.find?_eq_some_iff_append, all_has_iff]
  constructor
  · rintro ⟨before, after, split, satisfied, earlier⟩
    refine ⟨satisfied, before, after, split, ?_⟩
    intro other member
    rw [Bool.not_eq_true', ← Bool.not_eq_true, all_has_iff]
    exact earlier other member
  · rintro ⟨satisfied, before, after, split, earlier⟩
    refine ⟨before, after, split, satisfied, ?_⟩
    intro other member
    have unsatisfied := earlier other member
    rwa [Bool.not_eq_true', ← Bool.not_eq_true, all_has_iff] at unsatisfied

theorem Chooses.unique {other : SecurityRequirement} (h : session.Chooses operation requirement)
    (h' : session.Chooses operation other) : requirement = other :=
  Option.some.inj ((chooses_iff.mp h).symm.trans (chooses_iff.mp h'))

theorem Chooses.satisfies (h : session.Chooses operation requirement) :
    session.Satisfies requirement := by
  obtain ⟨_, _, _, satisfied, _⟩ := h
  exact satisfied

/-- The alternative that a session takes for an operation, none where there are no alternatives. -/
def negotiated (session : Session) (operation : Operation) :
    Except CallError (Option SecurityRequirement) :=
  (checkUnexpected operation.label (session.description.securityFor operation)
    session.description.security session.credentials).bind fun _ =>
      negotiate (session.description.securityFor operation) session.credentials

theorem applySecurity_eq (session : Session) (operation : Operation) :
    session.applySecurity operation =
      match session.negotiated operation with
      | .error e => (.error e, [])
      | .ok none => (.ok .none, [])
      | .ok (some requirement) => session.applySchemes requirement.keys .none := rfl

theorem chooses_of_negotiated (h : session.negotiated operation = .ok (some requirement)) :
    session.Chooses operation requirement := by
  obtain ⟨_, -, chosen⟩ := exists_of_bind_eq_ok h
  simp only [negotiate] at chosen
  split at chosen
  · cases chosen
  · split at chosen
    · next found =>
      cases chosen
      exact chooses_iff.mpr found
    · cases chosen

theorem securityFor_of_negotiated (h : session.negotiated operation = .ok none) :
    session.description.securityFor operation = [] := by
  obtain ⟨_, -, chosen⟩ := exists_of_bind_eq_ok h
  simp only [negotiate] at chosen
  split at chosen
  · next none => exact List.isEmpty_iff.mp none
  · split at chosen <;> cases chosen

theorem error_of_negotiated (h : session.negotiated operation = .error e) :
    (∃ names, e = .unexpectedSecurity operation.label names) ∨
      ∃ attempted provided, e = .noSecuritySatisfied attempted provided := by
  rcases cases_of_bind_eq_error h with unexpected | ⟨_, -, unsatisfied⟩
  · simp only [checkUnexpected] at unexpected
    split at unexpected
    · cases unexpected
    · cases unexpected
      exact .inl ⟨_, rfl⟩
  · simp only [negotiate] at unsatisfied
    split at unsatisfied
    · cases unsatisfied
    · split at unsatisfied
      · cases unsatisfied
      · cases unsatisfied
        exact .inr ⟨_, _, rfl⟩

/-- The choice depends on the names of the credentials alone. -/
theorem negotiated_congr {other : Session} (same : other.description = session.description)
    (names : session.credentials.keys = other.credentials.keys) :
    session.negotiated operation = other.negotiated operation := by
  have has : (fun name => Entries.has name session.credentials) =
      fun name => Entries.has name other.credentials := by
    funext name
    exact Entries.has_eq_of_keys_eq names
  simp only [negotiated, checkUnexpected, negotiate, same, names, has]

/-! ### What is applied -/

theorem digest_applyCredential {name : String} {scheme : SecurityScheme} {credential : Credential}
    (h : applyCredential name scheme credential applied = .ok after) :
    after.digest = if scheme.isDigest then some name else applied.digest := by
  unfold applyCredential at h
  split at h
  · obtain ⟨secret, -, rfl⟩ := exists_of_map_eq_ok h
    simp [SecurityScheme.isDigest]
  · cases h
    simp [SecurityScheme.isDigest]
  · obtain ⟨secret, -, rfl⟩ := exists_of_map_eq_ok h
    simp [SecurityScheme.isDigest]
  · cases h
    simp [SecurityScheme.isDigest]
  · obtain ⟨secret, -, rfl⟩ := exists_of_map_eq_ok h
    simp [SecurityScheme.isDigest]
  all_goals
    cases h
    simp [SecurityScheme.isDigest]

theorem digest_applyScheme {authenticator : Option Authenticator} {name : String}
    {scheme : SecurityScheme} {credential : Credential}
    (h : (applyScheme authenticator name scheme credential applied).1 = .ok after) :
    after.digest = if scheme.isDigest then some name else applied.digest := by
  unfold applyScheme at h
  split at h
  · obtain ⟨token, -, rfl⟩ := exists_of_map_eq_ok h
    simp [SecurityScheme.isDigest]
  · obtain ⟨token, -, rfl⟩ := exists_of_map_eq_ok h
    simp [SecurityScheme.isDigest]
  · exact digest_applyCredential h

theorem error_of_secretOf {name : String} {credential : Credential}
    (h : secretOf name credential = .error e) : ∃ problem, e = .authentication name problem := by
  cases credential with
  | secret text => cases h
  | userPassword user password =>
    cases h
    exact ⟨_, rfl⟩

theorem error_of_applyCredential {name : String} {scheme : SecurityScheme} {credential : Credential}
    (h : applyCredential name scheme credential applied = .error e) :
    ∃ problem, e = .authentication name problem := by
  unfold applyCredential at h
  split at h
  · exact error_of_secretOf (eq_error_of_map_eq_error h)
  · cases h
  · exact error_of_secretOf (eq_error_of_map_eq_error h)
  · cases h
  · exact error_of_secretOf (eq_error_of_map_eq_error h)
  all_goals cases h

theorem error_of_tokenOf {authenticator : Option Authenticator} {name : String}
    {scheme : SecurityScheme} {credential : Credential}
    (h : (tokenOf authenticator name scheme credential).1 = .error e) :
    ∃ problem, e = .authentication name problem := by
  unfold tokenOf at h
  split at h
  · exact error_of_secretOf h
  · split at h
    · cases h
    · cases h
      exact ⟨_, rfl⟩

theorem error_of_applyScheme {authenticator : Option Authenticator} {name : String}
    {scheme : SecurityScheme} {credential : Credential}
    (h : (applyScheme authenticator name scheme credential applied).1 = .error e) :
    ∃ problem, e = .authentication name problem := by
  unfold applyScheme at h
  split at h
  · exact error_of_tokenOf (eq_error_of_map_eq_error h)
  · exact error_of_tokenOf (eq_error_of_map_eq_error h)
  · exact error_of_applyCredential h

/-- Where all schemes are declared and there are credentials for them, nothing but one of the
credentials, or a token for it, can be at fault. -/
theorem error_of_applySchemes {names : List String}
    (declared : ∀ name ∈ names, Entries.has name session.description.securitySchemes = true)
    (held : ∀ name ∈ names, name ∈ session.credentials.keys)
    (h : (session.applySchemes names applied).1 = .error e) :
    ∃ name problem, e = .authentication name problem := by
  induction names generalizing applied with
  | nil => cases h
  | cons name rest ih =>
    obtain ⟨scheme, found⟩ := Option.isSome_iff_exists.mp (declared name List.mem_cons_self)
    obtain ⟨credential, own⟩ :=
      Option.isSome_iff_exists.mp (Entries.get?_isSome_iff.mpr (held name List.mem_cons_self))
    simp only [applySchemes, found, own] at h
    split at h
    · next failed asked step =>
      cases h
      exact ⟨name, error_of_applyScheme (congrArg Prod.fst step)⟩
    · exact ih (fun other member => declared other (List.mem_cons_of_mem _ member))
        (fun other member => held other (List.mem_cons_of_mem _ member)) h

/-- Whether a declared scheme answers challenges. -/
def declaresDigest (session : Session) (name : String) : Bool :=
  (Entries.get? name session.description.securitySchemes).any SecurityScheme.isDigest

/-- The scheme of a requirement whose challenges are answered: the last one that answers any. -/
def digestOf (session : Session) (requirement : SecurityRequirement) : Option String :=
  (requirement.keys.filter session.declaresDigest).getLast?

theorem digest_applySchemes {names : List String}
    (h : (session.applySchemes names applied).1 = .ok after) :
    after.digest = (names.filter session.declaresDigest).getLast?.or applied.digest := by
  induction names generalizing applied with
  | nil =>
    cases h
    rfl
  | cons name rest ih =>
    rw [applySchemes] at h
    split at h
    · next scheme credential declared held =>
      split at h
      · cases h
      · next between asked step =>
        have here := digest_applyScheme (congrArg Prod.fst step)
        have own : session.declaresDigest name = scheme.isDigest := by
          simp [declaresDigest, declared]
        rw [ih h, here, List.filter_cons, own]
        cases scheme.isDigest <;> simp [List.getLast?_cons]
    · cases h

/-- Security that is applied tells the last scheme with challenges of the alternative that is taken. -/
theorem digest_applySecurity (h : (session.applySecurity operation).1 = .ok applied)
    (scheme : String) : applied.digest = some scheme ↔
      ∃ requirement, session.Chooses operation requirement ∧
        session.digestOf requirement = some scheme := by
  rw [applySecurity_eq] at h
  split at h
  · cases h
  · next none =>
    cases h
    constructor
    · intro some
      cases some
    · rintro ⟨requirement, ⟨before, after, split, -⟩, -⟩
      rw [securityFor_of_negotiated none] at split
      simp at split
  · next requirement taken =>
    have chosen := chooses_of_negotiated taken
    have last : applied.digest = session.digestOf requirement :=
      (digest_applySchemes h).trans Option.or_none
    rw [last]
    constructor
    · intro own
      exact ⟨requirement, chosen, own⟩
    · rintro ⟨other, alternative, own⟩
      rw [chosen.unique alternative]
      exact own

end Session

end ApiContract
