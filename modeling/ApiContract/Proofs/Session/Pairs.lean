import ApiContract.Proofs.Session.Preparation
import ApiContract.Proofs.Session.Security
import ApiContract.Proofs.Session.Target
import Mathlib.Data.List.Forall2
/-!
# The pairs of a request

Queries and cookies consist of pairs of a name and a text. `Session.Carries` says which ones a call
comes with: in the order of declaration, those of each parameter of the location that is supplied, as
the parameter writes them, and behind them the keys that the chosen security puts there. Preparing a
request gathers exactly these (`carries_of_prepare`).
-/

namespace ApiContract

open Json (Value)

/-- The locations whose parameters are pairs. -/
def ParameterLocation.HasPairs (location : ParameterLocation) : Prop :=
  location = .query ∨ location = .cookie

/-- The pairs that are to travel in a location. -/
def EncodedParameters.pairsIn (location : ParameterLocation) (parameters : EncodedParameters) :
    List (String × String) :=
  match location with
  | .query => parameters.query
  | .cookie => parameters.cookies
  | .path | .header => []

/-- The pairs that are added in a location. -/
def AppliedSecurity.pairsIn (location : ParameterLocation) (applied : AppliedSecurity) :
    List (String × String) :=
  match location with
  | .query => applied.query
  | .cookie => applied.cookies
  | .path | .header => []

/-- The parameters of a location that are supplied. -/
def Operation.suppliedIn (operation : Operation) (location : ParameterLocation)
    (supplied : Entries Value) : List Parameter :=
  operation.parameters.filter fun p => p.location = location && Entries.has p.name supplied

/-- The pairs are those that a parameter writes for the value that is supplied for it. -/
def Parameter.WritesPairs (supplied : Entries Value) (parameter : Parameter)
    (pairs : List (String × String)) : Prop :=
  ∃ value ∈ Entries.get? parameter.name supplied, parameter.encode value = .ok (.pairs pairs)

namespace Session

/-- Whether a declared scheme is a key in a location. -/
def declaresKeyIn (session : Session) (location : ParameterLocation) (name : String) : Bool :=
  match Entries.get? name session.description.securitySchemes with
  | some (.apiKey _ own) => own = location
  | _ => false

/-- The pair is a scheme's key with the secret that the session has for it. -/
def WritesKey (session : Session) (location : ParameterLocation) (name : String)
    (pair : String × String) : Prop :=
  Entries.get? name session.description.securitySchemes = some (.apiKey pair.1 location) ∧
    Entries.get? name session.credentials = some (.secret pair.2)

/-- The pairs are the keys in a location of the alternative that the session takes for an operation,
in the order of that alternative. There are none where the operation has no alternatives. -/
def AddsKeys (session : Session) (operation : Operation) (location : ParameterLocation)
    (keys : List (String × String)) : Prop :=
  session.description.securityFor operation = [] ∧ keys = [] ∨
    ∃ requirement, session.Chooses operation requirement ∧
      List.Forall₂ (session.WritesKey location)
        (requirement.keys.filter (session.declaresKeyIn location)) keys

/-- The pairs are those of a call in a location: what each parameter there that is supplied writes, in
the order of declaration, and the keys of the chosen security behind. -/
def Carries (session : Session) (operation : Operation) (supplied : Entries Value)
    (location : ParameterLocation) (pairs : List (String × String)) : Prop :=
  ∃ chunks keys,
    List.Forall₂ (Parameter.WritesPairs supplied) (operation.suppliedIn location supplied) chunks ∧
      session.AddsKeys operation location keys ∧ pairs = chunks.flatten ++ keys

variable {session : Session} {operation : Operation} {supplied : Entries Value}
  {payload : Option Payload} {parameter : Parameter} {parameters : List Parameter} {value : Value}
  {location : ParameterLocation} {sofar after encoded : EncodedParameters}
  {applied applied' : AppliedSecurity}

/-! ### Parameters -/

/-- A value travels as pairs exactly where its parameter has these. -/
theorem exists_of_encode {encoded : EncodedValue} (h : parameter.encode value = .ok encoded) :
    (parameter.location.HasPairs → ∃ pairs, encoded = .pairs pairs) ∧
      (¬ parameter.location.HasPairs → ∃ text, encoded = .text text) := by
  unfold Parameter.encode at h
  split at h
  · cases h
    unfold Parameter.encodeContent ParameterLocation.HasPairs
    cases parameter.location <;> simp
  · unfold ParameterLocation.HasPairs
    split at h
    all_goals
      next travels =>
      obtain ⟨_, -, rfl⟩ := exists_of_map_eq_ok h
      simp [travels]

theorem pairsIn_place_pairs {pairs : List (String × String)}
    (h : place parameter (.pairs pairs) sofar = .ok after) (hasPairs : parameter.location.HasPairs) :
    after.pairsIn parameter.location = sofar.pairsIn parameter.location ++ pairs ∧
      ∀ other, other ≠ parameter.location → after.pairsIn other = sofar.pairsIn other := by
  unfold place at h
  rcases hasPairs with travels | travels
  all_goals
    rw [travels] at h ⊢
    cases h
    refine ⟨rfl, fun other apart => ?_⟩
    cases other <;> first | rfl | exact absurd rfl apart

theorem pairsIn_place_text {text : String} (h : place parameter (.text text) sofar = .ok after)
    (noPairs : ¬ parameter.location.HasPairs) (location : ParameterLocation) :
    after.pairsIn location = sofar.pairsIn location := by
  unfold place at h
  cases travels : parameter.location with
  | path =>
    rw [travels] at h
    cases h
    cases location <;> rfl
  | header =>
    rw [travels] at h
    obtain ⟨headers, -, rfl⟩ := exists_of_map_eq_ok h
    cases location <;> rfl
  | query => exact absurd (.inl travels) noPairs
  | cookie => exact absurd (.inr travels) noPairs

/-- A parameter adds its pairs where it travels, and none elsewhere. -/
theorem pairsIn_encodeParameter (hasPairs : location.HasPairs)
    (h : session.encodeParameter parameter value sofar = .ok after) :
    (parameter.location = location → ∃ pairs, parameter.encode value = .ok (.pairs pairs) ∧
      after.pairsIn location = sofar.pairsIn location ++ pairs) ∧
    (parameter.location ≠ location → after.pairsIn location = sofar.pairsIn location) := by
  obtain ⟨_, -, written⟩ := exists_of_bind_eq_ok h
  cases own : parameter.encode value with
  | error cause => simp [own] at written
  | ok encoded =>
    simp only [own] at written
    obtain ⟨asPairs, asText⟩ := exists_of_encode own
    by_cases paired : parameter.location.HasPairs
    · obtain ⟨pairs, rfl⟩ := asPairs paired
      obtain ⟨here, elsewhere⟩ := pairsIn_place_pairs written paired
      exact ⟨fun travels => ⟨pairs, rfl, travels ▸ here⟩, fun apart => elsewhere _ apart.symm⟩
    · obtain ⟨text, rfl⟩ := asText paired
      have kept := pairsIn_place_text written paired location
      exact ⟨fun travels => absurd (travels ▸ hasPairs) paired, fun _ => kept⟩

/-- The parameters add their pairs one after the other. -/
theorem pairsIn_encodeParameters (hasPairs : location.HasPairs)
    (h : session.encodeParameters supplied parameters sofar = .ok encoded) :
    ∃ chunks, List.Forall₂ (Parameter.WritesPairs supplied)
        (parameters.filter fun p => p.location = location && Entries.has p.name supplied) chunks ∧
      encoded.pairsIn location = sofar.pairsIn location ++ chunks.flatten := by
  induction parameters generalizing sofar with
  | nil =>
    cases h
    exact ⟨[], .nil, by simp⟩
  | cons parameter rest ih =>
    rw [encodeParameters] at h
    split at h
    · next missing =>
      have unsupplied : Entries.has parameter.name supplied = false := by simp [Entries.has, missing]
      rw [List.filter_cons_of_neg (by simp [unsupplied])]
      exact ih h
    · next value given =>
      have has : Entries.has parameter.name supplied = true := by simp [Entries.has, given]
      split at h
      · cases h
      next between step =>
      obtain ⟨chunks, written, rest⟩ := ih h
      obtain ⟨adds, keeps⟩ := pairsIn_encodeParameter hasPairs step
      by_cases travels : parameter.location = location
      · obtain ⟨pairs, own, added⟩ := adds travels
        rw [List.filter_cons_of_pos (by simp [travels, has])]
        refine ⟨pairs :: chunks, .cons ⟨value, given, own⟩ written, ?_⟩
        rw [rest, added, List.flatten_cons, List.append_assoc]
      · rw [List.filter_cons_of_neg (by simp [travels])]
        exact ⟨chunks, written, by rw [rest, keeps travels]⟩

/-! ### Keys -/

theorem pairsIn_addKey (applied : AppliedSecurity) (name value : String)
    (own : ParameterLocation) (hasPairs : location.HasPairs) :
    (applied.addKey name own value).pairsIn location =
      applied.pairsIn location ++ if own = location then [(name, value)] else [] := by
  rcases hasPairs with rfl | rfl <;> cases own <;> simp [AppliedSecurity.pairsIn,
    AppliedSecurity.addKey, AppliedSecurity.addHeader]

theorem pairsIn_addAuthorization (applied : AppliedSecurity) (value : String)
    (location : ParameterLocation) :
    (applied.addAuthorization value).pairsIn location = applied.pairsIn location := by
  cases location <;> rfl

theorem eq_of_secretOf {name text : String} {credential : Credential}
    (h : secretOf name credential = .ok text) : credential = .secret text := by
  cases credential with
  | secret own =>
    cases h
    rfl
  | userPassword user password => cases h

/-- A key adds itself where it travels, and other schemes add no pairs. -/
theorem pairsIn_applyScheme {authenticator : Option Authenticator} {name : String}
    {scheme : SecurityScheme} {credential : Credential}
    (h : (applyScheme authenticator name scheme credential applied).1 = .ok applied') :
    (∃ key own text, scheme = .apiKey key own ∧ credential = .secret text ∧
      applied' = applied.addKey key own text) ∨
    (∀ key own, scheme ≠ .apiKey key own) ∧
      ∀ location, applied'.pairsIn location = applied.pairsIn location := by
  cases scheme with
  | apiKey key own =>
    obtain ⟨text, secret, rfl⟩ := exists_of_map_eq_ok h
    exact .inl ⟨key, own, text, rfl, eq_of_secretOf secret, rfl⟩
  | oauth2 | openIdConnect =>
    obtain ⟨token, -, rfl⟩ := exists_of_map_eq_ok h
    exact .inr ⟨by simp, pairsIn_addAuthorization applied _⟩
  | mutualTls =>
    cases h
    exact .inr ⟨by simp, fun _ => rfl⟩
  | http scheme format =>
    refine .inr ⟨by simp, ?_⟩
    cases scheme with
    | basic =>
      cases h
      exact pairsIn_addAuthorization applied _
    | digest =>
      cases h
      intro location
      cases location <;> rfl
    | bearer | other =>
      obtain ⟨secret, -, rfl⟩ := exists_of_map_eq_ok h
      exact pairsIn_addAuthorization applied _

/-- The schemes of an alternative add their keys one after the other. -/
theorem pairsIn_applySchemes {names : List String} (hasPairs : location.HasPairs)
    (h : (session.applySchemes names applied).1 = .ok applied') :
    ∃ keys, List.Forall₂ (session.WritesKey location)
        (names.filter (session.declaresKeyIn location)) keys ∧
      applied'.pairsIn location = applied.pairsIn location ++ keys := by
  induction names generalizing applied with
  | nil =>
    cases h
    exact ⟨[], .nil, by simp⟩
  | cons name rest ih =>
    rw [applySchemes] at h
    split at h
    · next scheme credential declared held =>
      split at h
      · cases h
      next between asked step =>
      obtain ⟨keys, written, added⟩ := ih h
      rcases pairsIn_applyScheme (congrArg Prod.fst step) with
        ⟨key, own, text, rfl, rfl, rfl⟩ | ⟨other, kept⟩
      · rw [pairsIn_addKey _ _ _ _ hasPairs] at added
        by_cases travels : own = location
        · have keyed : session.declaresKeyIn location name = true := by
            simp [declaresKeyIn, declared, travels]
          rw [List.filter_cons_of_pos keyed]
          refine ⟨(key, text) :: keys, .cons ⟨travels ▸ declared, held⟩ written, ?_⟩
          rw [added, if_pos travels, List.append_assoc, List.singleton_append]
        · have keyless : ¬ session.declaresKeyIn location name = true := by
            simp [declaresKeyIn, declared, travels]
          rw [List.filter_cons_of_neg keyless]
          exact ⟨keys, written, by rw [added, if_neg travels, List.append_nil]⟩
      · have keyless : ¬ session.declaresKeyIn location name = true := by
          unfold declaresKeyIn
          rw [declared]
          split
          · next key own same => exact absurd (Option.some.inj same) (other key own)
          · simp
        rw [List.filter_cons_of_neg keyless]
        exact ⟨keys, written, by rw [added, kept]⟩
    · cases h

/-- Applying security adds the keys of the alternative that is taken. -/
theorem addsKeys_of_applySecurity (hasPairs : location.HasPairs)
    (h : (session.applySecurity operation).1 = .ok applied) :
    session.AddsKeys operation location (applied.pairsIn location) := by
  have nothing : AppliedSecurity.none.pairsIn location = [] := by cases location <;> rfl
  rw [applySecurity_eq] at h
  split at h
  · cases h
  · next none =>
    cases h
    exact .inl ⟨securityFor_of_negotiated none, nothing⟩
  · next requirement taken =>
    obtain ⟨keys, written, added⟩ := pairsIn_applySchemes hasPairs h
    rw [nothing, List.nil_append] at added
    exact .inr ⟨requirement, chooses_of_negotiated taken, added ▸ written⟩

/-! ### The pairs of a call -/

/-- A call carries certain pairs in a location, and no others. -/
theorem Carries.unique {pairs pairs' : List (String × String)}
    (h : session.Carries operation supplied location pairs)
    (h' : session.Carries operation supplied location pairs') : pairs = pairs' := by
  obtain ⟨chunks, keys, written, added, rfl⟩ := h
  obtain ⟨chunks', keys', written', added', rfl⟩ := h'
  have sameChunks : chunks = chunks' := by
    refine List.right_unique_forall₂' ?_ written written'
    rintro parameter own own' ⟨value, given, encoded⟩ ⟨value', given', encoded'⟩
    obtain rfl := Option.some.inj (given.symm.trans given')
    exact EncodedValue.pairs.inj (Except.ok.inj (encoded.symm.trans encoded'))
  have sameKeys : keys = keys' := by
    rcases added with ⟨none, rfl⟩ | ⟨requirement, chosen, written⟩
    · rcases added' with ⟨-, rfl⟩ | ⟨requirement, ⟨before, later, split, -⟩, -⟩
      · rfl
      · rw [none] at split
        simp at split
    · rcases added' with ⟨none, -⟩ | ⟨requirement', chosen', written'⟩
      · obtain ⟨before, later, split, -⟩ := chosen
        rw [none] at split
        simp at split
      · obtain rfl := chosen.unique chosen'
        refine List.right_unique_forall₂' ?_ written written'
        rintro name ⟨key, text⟩ ⟨key', text'⟩ ⟨declared, held⟩ ⟨declared', held'⟩
        cases Option.some.inj (declared.symm.trans declared')
        cases Option.some.inj (held.symm.trans held')
        rfl
  rw [sameChunks, sameKeys]

/-- The pairs of a request are those that the call carries. -/
theorem carries_of_prepare {parameters : EncodedParameters} (hasPairs : location.HasPairs)
    (encoding : session.encodeSupplied operation supplied = .ok parameters)
    (secured : (session.applySecurity operation).1 = .ok applied) :
    session.Carries operation supplied location
      (parameters.pairsIn location ++ applied.pairsIn location) := by
  obtain ⟨chunks, written, gathered⟩ :=
    pairsIn_encodeParameters hasPairs (encodeParameters_of_encodeSupplied encoding)
  have nothing : EncodedParameters.pairsIn location ⟨[], [], [], []⟩ = [] := by cases location <;> rfl
  rw [nothing, List.nil_append] at gathered
  exact ⟨chunks, _, written, addsKeys_of_applySecurity hasPairs secured, by rw [gathered]⟩

end Session

end ApiContract
