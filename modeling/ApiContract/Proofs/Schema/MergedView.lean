import ApiContract.Proofs.Except
import ApiContract.Proofs.Schema.Agreement
import ApiContract.Proofs.Schema.Passing
import ApiContract.Proofs.Description.Fidelity
/-!
# The merged view

What the merged object of a schema says holds of the objects that pass validation against the schema.
Merging and validation cut cycles of composition in different places, merging where a walk comes
back to a schema, validation where a schema comes up again for the same part of the value. But each
schema that is comprised is the end of a route that meets no schema twice, and along such a route
validation leaves nothing out (`Passes.meets_of_route`).
-/

namespace ApiContract

open Json (Value)

namespace Catalog

variable {catalog : Catalog} {strict : Bool} {fuel : Nat} {visiting pending members : List SchemaId}
  {id part p : SchemaId} {name location : String} {value : Value} {merged sofar : MergedObject}
  {visit : SchemaId → Except DefinitionError MergedObject}

/-- An object that passes a schema meets each schema to which a route leads, and its parts pass what
this one asks of them. -/
theorem Passes.meets_of_route {object : Entries Value}
    (passes : catalog.Passes strict pending id (.object object))
    (route : Route catalog.Includes pending id part) :
    ∃ accepts, (catalog.descriptor part).Meets catalog strict accepts (.object object) ∧
      ∀ schema below, below.nodes < (Value.object object).nodes → accepts schema below →
        catalog.Passes strict [] schema below := by
  induction route with
  | stay fresh =>
    rw [Passes] at passes
    obtain ⟨-, meets⟩ := passes.resolve_left fresh
    refine ⟨_, meets.resolve_left (by simp), ?_⟩
    rintro schema below smaller ⟨-, passes⟩
    rwa [pendingBelow_of_lt smaller] at passes
  | go fresh included _ ih =>
    rw [Passes] at passes
    obtain ⟨-, meets⟩ := passes.resolve_left fresh
    obtain ⟨-, passes⟩ := (meets.resolve_left (by simp)).allOf _ included
    rw [pendingBelow_self] at passes
    exact ih passes

theorem get?_addProperties {whole rest all : Entries SchemaId}
    (h : catalog.addProperties whole rest = .ok all) (name : String) :
    Entries.get? name all = (Entries.get? name whole).or (Entries.get? name rest) := by
  induction rest generalizing whole with
  | nil =>
    cases h
    simp [Entries.get?]
  | cons entry rest ih =>
    obtain ⟨key, q⟩ := entry
    rw [addProperties] at h
    split at h
    · next existing found =>
      split at h
      · rw [ih h, Entries.get?]
        split
        · next same => simp [← same, found]
        · rfl
      · cases h
    · next missing =>
      rw [ih h, Entries.get?_append, Option.or_assoc]
      by_cases same : key = name <;> simp [Entries.get?, same]

/-- After merging members a property has the schema that it had before, or else that of the first
member that has one for it. -/
theorem get?_mergeMembers {find : SchemaId → Option SchemaId}
    (h : catalog.mergeMembers location visit sofar members = .ok merged)
    (visited : ∀ member ∈ members, ∀ part, visit member = .ok part →
      find member = Entries.get? name part.properties) :
    Entries.get? name merged.properties =
      (Entries.get? name sofar.properties).or (members.findSome? find) := by
  induction members generalizing sofar with
  | nil =>
    cases h
    simp
  | cons member rest ih =>
    obtain ⟨own, others⟩ := List.forall_mem_cons.mp visited
    rw [mergeMembers] at h
    split at h
    · cases h
    next part merges =>
    split at h
    · cases h
    next properties added =>
    rw [ih h others, get?_addProperties added, ← own part merges, Option.or_assoc]
    cases first : find member <;> simp [first]

/-- The schema of a property of a merged object is that which a schema that is comprised has for
it. -/
theorem exists_get?_of_merge (h : catalog.merge fuel visiting id = .ok merged)
    (found : Entries.get? name merged.properties = some p) :
    ∃ part, catalog.Comprises id part ∧
      Entries.get? name (catalog.descriptor part).properties = some p := by
  induction fuel generalizing visiting id merged with
  | zero =>
    cases h
    cases found
  | succ fuel ih =>
    by_cases known : id ∈ visiting
    · simp only [merge, List.contains_iff_mem, known, if_true] at h
      cases h
      cases found
    rw [merge_succ known] at h
    have first : Entries.get? name merged.properties =
        (Entries.get? name (catalog.descriptor id).properties).or
          ((catalog.descriptor id).allOf.findSome? fun member =>
            (catalog.merge fuel (id :: visiting) member).toOption.bind fun part =>
              Entries.get? name part.properties) :=
      get?_mergeMembers h fun member _ part merges => by rw [merges]; rfl
    rw [first, Option.or_eq_some_iff] at found
    rcases found with own | ⟨-, later⟩
    · exact ⟨id, .refl, own⟩
    · obtain ⟨member, included, found⟩ := List.exists_of_findSome?_eq_some later
      obtain ⟨part, merges, found⟩ := Option.bind_eq_some_iff.mp found
      obtain ⟨other, comprised, found⟩ := ih (toOption_eq_some_iff.mp merges) found
      exact ⟨other, .head included comprised, found⟩

/-- An object that passes a schema has what merging the schema comes to. -/
theorem Passes.of_mergeAll {object : Entries Value}
    (passes : catalog.Passes strict [] id (.object object)) (h : catalog.mergeAll id = .ok merged) :
    (∀ name ∈ merged.required, Entries.has name object = true) ∧
      ∀ name p, Entries.get? name merged.properties = some p → ∀ value, (name, value) ∈ object →
        catalog.Passes strict [] p value := by
  have meets (part : SchemaId) (comprised : catalog.Comprises id part) :=
    passes.meets_of_route (.of_reflTransGen comprised)
  constructor
  · intro name required
    obtain ⟨part, comprised, listed⟩ := (declared_of_merge h).2 name required
    obtain ⟨_, meets, -⟩ := meets part comprised
    exact meets.kind.required name listed
  · intro name p found value member
    obtain ⟨part, comprised, listed⟩ := exists_get?_of_merge h found
    obtain ⟨_, meets, below⟩ := meets part comprised
    refine below p value ?_ (meets.properties _ rfl _ member p ?_)
    · rw [Value.nodes]
      exact Nat.lt_succ_of_le (Value.nodes_le_nodesOfMembers member)
    · simp [Descriptor.schemaOf?, listed]

end Catalog

namespace Description

/-- The merged object that a schema has in a description is what merging comes to. -/
theorem mergeAll_of_read {loader : Loader} {base : Url} {document : Value} {reading : Reading}
    (h : read loader base document = .ok reading) (id : SchemaId) :
    reading.catalog.mergeAll id = .ok (reading.catalog.merged id) := by
  obtain ⟨dialect, state, root, completed, -⟩ := readRoot_of_read h
  obtain ⟨sound, -, -⟩ := ensures_readRoot loader dialect base [] _ _ _ root
    (Construction.sound_empty _)
  obtain ⟨same, -⟩ := Catalog.unmerged_complete completed
  rw [Catalog.mergeAll_of_sameUnmerged same]
  exact Catalog.mergeAll_of_complete sound.unmerged completed id

/-- An object that passes validation against a schema has all properties that the merged object of
the schema requires, and each of its properties that the merged object has a schema for passes
validation against that schema by itself. -/
theorem merged_of_validate {loader : Loader} {base : Url} {document : Value} {reading : Reading}
    (h : read loader base document = .ok reading) {strict : Bool} {id : SchemaId}
    {object : Entries Value}
    (valid : ∃ warnings, reading.catalog.validate strict id (.object object) = .ok warnings) :
    (∀ name ∈ (reading.catalog.merged id).required, Entries.has name object = true) ∧
      ∀ name p, Entries.get? name (reading.catalog.merged id).properties = some p →
        ∀ value, (name, value) ∈ object →
          ∃ warnings, reading.catalog.validate strict p value = .ok warnings := by
  obtain ⟨-, _, -, completed, -⟩ := readRoot_of_read h
  have selects := Catalog.selectsMembers_of_complete completed
  obtain ⟨required, properties⟩ :=
    ((Catalog.validate_ok_iff_passes selects).mp valid).of_mergeAll (mergeAll_of_read h id)
  refine ⟨required, fun name p found value member => ?_⟩
  exact (Catalog.validate_ok_iff_passes selects).mpr (properties name p found value member)

/-- A description of entries of a ledger: what is booked is dated and what is dated is booked, so that
either schema is composed of the other. -/
def ledgerDocument : Value :=
  let reference (name : String) := Value.object [("$ref", .string ("#/components/schemas/" ++ name))]
  let schema (other name type : String) := Value.object [
    ("allOf", .array [reference other]),
    ("properties", .object [(name, .object [("type", .string type)])]),
    ("required", .array [.string name])]
  .object [
    ("openapi", .string "3.1.0"),
    ("components", .object [("schemas", .object [
      ("Booked", schema "Dated" "amount" "integer"),
      ("Dated", schema "Booked" "day" "string")])]),
    ("paths", .object [])]

theorem merged_ledgerDocument :
    ∃ reading, read noLoader treeBase ledgerDocument = .ok reading ∧
      (reading.catalog.merged 0).required = ["amount", "day"] ∧
      ∃ day, Entries.get? "day" (reading.catalog.merged 0).properties = some day ∧
        ∃ warnings, reading.catalog.validate true day (.string "Monday") = .ok warnings := by
  let entry : Entries Value := [("amount", .ofInt 5), ("day", .string "Monday")]
  obtain ⟨reading, h, facts⟩ := @exists_of_any_read noLoader treeBase ledgerDocument
    (fun reading => decide ((reading.catalog.merged 0).required = ["amount", "day"] ∧
      (Entries.get? "day" (reading.catalog.merged 0).properties).isSome ∧
      (reading.catalog.report true 0 (.object entry)).isOk = true))
    (by decide +kernel)
  obtain ⟨required, listed, ok⟩ := of_decide_eq_true facts
  obtain ⟨day, found⟩ := Option.isSome_iff_exists.mp listed
  obtain ⟨-, properties⟩ := merged_of_validate h ((Catalog.validate_ok_iff ..).mpr ok)
  exact ⟨reading, h, required, day, found, properties "day" day found _ (by simp [entry])⟩

end Description

end ApiContract
