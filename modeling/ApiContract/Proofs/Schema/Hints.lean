import ApiContract.Schema.Hint
import ApiContract.Proofs.Schema.Denial
import ApiContract.Proofs.Schema.MergedView
/-!
# Hints of composed schemas

The schema of a property is looked for twice: a hint searches the schemas that a schema is composed of
when a text is read, down to a fixed level, and merging has gone through them before. Both meet the
schemas in one order, each before those that it names, and keep the first one that lists the property
(`findIn_eq_of_merge`). So they come to the same schema where the search ends by itself: the schemas
name others by `allOf` alone, have no schema for properties that they do not list, and no chain of
them goes deeper than the search (`property_hint`).
-/

namespace ApiContract

open Json (Value)

namespace Descriptor

/-- A schema says of properties what it lists and what its `allOf` says, and nothing else. -/
structure ListsOnly (d : Descriptor) : Prop where
  oneOf : d.oneOf = []
  anyOf : d.anyOf = []
  additional : ∀ extra, d.additional ≠ .schema extra

theorem listsOnly_iff {d : Descriptor} :
    d.ListsOnly ↔ d.oneOf = [] ∧ d.anyOf = [] ∧ (d.additional = .allowed ∨ d.additional = .forbidden) := by
  constructor
  · rintro ⟨oneOf, anyOf, additional⟩
    refine ⟨oneOf, anyOf, ?_⟩
    cases kind : d.additional with
    | allowed => exact .inl rfl
    | forbidden => exact .inr rfl
    | schema extra => exact absurd kind (additional extra)
  · rintro ⟨oneOf, anyOf, plain⟩
    exact ⟨oneOf, anyOf, fun extra kind => by simp [kind] at plain⟩

instance (d : Descriptor) : Decidable d.ListsOnly := decidable_of_iff _ listsOnly_iff.symm

theorem ListsOnly.propertyOf? {d : Descriptor} (h : d.ListsOnly) (name : String) :
    Hint.propertyOf? name d = Entries.get? name d.properties := by
  unfold Hint.propertyOf?
  split
  · next extra kind => exact absurd kind (h.additional extra)
  all_goals simp

end Descriptor

namespace Catalog

/-- No chain of `allOf` from a schema has more than so many steps; so none comes back to a schema. -/
def WithinLevels (catalog : Catalog) (levels : Nat) (id : SchemaId) : Prop :=
  ∀ chain, List.IsChain catalog.Includes (id :: chain) → chain.length ≤ levels

variable {catalog : Catalog} {levels fuel : Nat} {visiting : List SchemaId} {id : SchemaId}
  {name : String} {merged : MergedObject}

theorem withinLevels_zero_iff : catalog.WithinLevels 0 id ↔ (catalog.descriptor id).allOf = [] := by
  constructor
  · intro h
    refine List.eq_nil_iff_forall_not_mem.mpr fun part included => ?_
    exact absurd (h [part] (.cons_cons included (.singleton part))) (by simp)
  · intro leaf chain along
    cases chain with
    | nil => exact Nat.le_refl _
    | cons part rest =>
      have included : part ∈ (catalog.descriptor id).allOf := (List.isChain_cons_cons.mp along).1
      rw [leaf] at included
      cases included

theorem withinLevels_succ_iff :
    catalog.WithinLevels (levels + 1) id ↔
      ∀ part ∈ (catalog.descriptor id).allOf, catalog.WithinLevels levels part := by
  constructor
  · intro h part included chain along
    exact Nat.le_of_succ_le_succ (h (part :: chain) (.cons_cons included along))
  · intro below chain along
    cases chain with
    | nil => exact Nat.zero_le _
    | cons part rest =>
      obtain ⟨included, along⟩ := List.isChain_cons_cons.mp along
      exact Nat.succ_le_succ (below part included rest along)

instance decidableWithinLevels :
    (levels : Nat) → (id : SchemaId) → Decidable (catalog.WithinLevels levels id)
  | 0, _ => decidable_of_iff _ withinLevels_zero_iff.symm
  | levels + 1, _ =>
    have := decidableWithinLevels levels
    decidable_of_iff _ withinLevels_succ_iff.symm

/-- Where chains are bounded, no schema is composed of itself. -/
theorem WithinLevels.not_transGen (h : catalog.WithinLevels levels id) :
    ¬ Relation.TransGen catalog.Includes id id := by
  intro cycle
  obtain ⟨part, included, back⟩ := Relation.TransGen.head'_iff.mp cycle
  induction levels generalizing id part with
  | zero =>
    rw [Includes, withinLevels_zero_iff.mp h] at included
    cases included
  | succ levels ih =>
    have around : Relation.TransGen catalog.Includes part part := .tail' back included
    obtain ⟨next, onward, back'⟩ := Relation.TransGen.head'_iff.mp around
    exact ih (withinLevels_succ_iff.mp h part included) around next onward back'

/-- One step of the search beside one of merging: they agree on a schema if they do on each of its
`allOf`. -/
theorem findIn_succ_of_merge (lists : (catalog.descriptor id).ListsOnly) (fresh : id ∉ visiting)
    (h : catalog.merge (fuel + 1) visiting id = .ok merged)
    (below : ∀ member ∈ (catalog.descriptor id).allOf, ∀ part,
      catalog.merge fuel (id :: visiting) member = .ok part →
        Hint.findIn catalog (Hint.propertyOf? name) levels member =
          Entries.get? name part.properties) :
    Hint.findIn catalog (Hint.propertyOf? name) (levels + 1) id =
      Entries.get? name merged.properties := by
  rw [merge_succ fresh] at h
  rw [get?_mergeMembers h below, Hint.findIn, lists.propertyOf?, lists.oneOf, lists.anyOf,
    Option.orElse_eq_or, List.append_nil, List.append_nil]
  rfl

/-- A search that goes as deep as the chains of `allOf` finds what merging comes to. -/
theorem findIn_eq_of_merge (within : catalog.WithinLevels levels id)
    (lists : ∀ part, catalog.Comprises id part → (catalog.descriptor part).ListsOnly)
    (room : catalog.Room fuel visiting)
    (above : ∀ other ∈ visiting, Relation.TransGen catalog.Includes other id)
    (h : catalog.merge fuel visiting id = .ok merged) :
    Hint.findIn catalog (Hint.propertyOf? name) (levels + 1) id =
      Entries.get? name merged.properties := by
  -- Merging cuts no chain short here, as a schema that it has come through would be on a cycle.
  have fresh : id ∉ visiting := fun member => within.not_transGen (above id member)
  obtain ⟨fuel, rfl⟩ := Nat.exists_eq_add_one.mpr room.fuel_pos
  induction levels generalizing fuel visiting id merged with
  | zero =>
    refine findIn_succ_of_merge (lists id .refl) fresh h fun member included => ?_
    rw [withinLevels_zero_iff.mp within] at included
    cases included
  | succ levels ih =>
    refine findIn_succ_of_merge (lists id .refl) fresh h fun member included part merges => ?_
    have within' := withinLevels_succ_iff.mp within member included
    have above' : ∀ other ∈ id :: visiting, Relation.TransGen catalog.Includes other member :=
      List.forall_mem_cons.mpr ⟨.single included, fun other listed => (above other listed).tail included⟩
    have room' := room.step fresh included
    obtain ⟨rest, rfl⟩ := Nat.exists_eq_add_one.mpr room'.fuel_pos
    exact ih within' (fun other comprised => lists other (.head included comprised)) above'
      (fun listed => within'.not_transGen (above' member listed)) rest room' merges

end Catalog

namespace Description

open Catalog

/-- What a hint expects of a property is the schema that the merged object has for it, and no schema
where it has none, if no chain of `allOf` is longer than the search is deep and none of the schemas on
them is a union or has a schema for further properties. -/
theorem property_hint {loader : Loader} {base : Url} {document : Value} {reading : Reading}
    (h : read loader base document = .ok reading) {id : SchemaId}
    (within : reading.catalog.WithinLevels 8 id)
    (lists : ∀ part, reading.catalog.Comprises id part → (reading.catalog.descriptor part).ListsOnly)
    (name : String) :
    (reading.catalog.hint id).property name =
      ⟨reading.catalog, Entries.get? name (reading.catalog.merged id).properties⟩ := by
  have found : Hint.findIn reading.catalog (Hint.propertyOf? name) Hint.searchDepth id =
      Entries.get? name (reading.catalog.merged id).properties :=
    findIn_eq_of_merge within lists (.start _) nofun (mergeAll_of_read h id)
  rw [Hint.property, Hint.find?, hint, Option.bind_some, found]

/-- A schema that is composed of one schema, which is composed of one again, and so on down to the given
one. -/
def nested : (levels : Nat) → Value → Value
  | 0, schema => schema
  | levels + 1, schema => .object [("allOf", .array [nested levels schema])]

/-- A description of species, which have a name by a schema eight levels down and by another one that
comes after it. -/
def speciesDocument : Value :=
  let named := Value.object [
    ("properties", .object [("name", .object [("type", .string "string")])])]
  schemasDocument [("Species", .object [("allOf", .array [nested 7 named, named])])]

/-- The schema for the name is the one at the last level that is searched, as it comes first. -/
theorem property_hint_speciesDocument :
    ∃ reading, read noLoader treeBase speciesDocument = .ok reading ∧
      (reading.catalog.WithinLevels 8 0 ∧ ¬ reading.catalog.WithinLevels 7 0) ∧
      (∀ part, reading.catalog.Comprises 0 part → (reading.catalog.descriptor part).ListsOnly) ∧
      ∃ deep near, deep ≠ near ∧
        Entries.get? "name" (reading.catalog.descriptor 8).properties = some deep ∧
        Entries.get? "name" (reading.catalog.descriptor 10).properties = some near ∧
        (reading.catalog.hint 0).property "name" = ⟨reading.catalog, some deep⟩ ∧
        (reading.catalog.hint 0).property "colour" = ⟨reading.catalog, none⟩ := by
  obtain ⟨reading, h, facts⟩ := @exists_of_any_read noLoader treeBase speciesDocument
    (fun reading => decide (
      (reading.catalog.WithinLevels 8 0 ∧ ¬ reading.catalog.WithinLevels 7 0) ∧
      (∀ d ∈ reading.catalog.descriptors.toList, d.ListsOnly) ∧
      Entries.get? "name" (reading.catalog.descriptor 8).properties = some 9 ∧
      Entries.get? "name" (reading.catalog.descriptor 10).properties = some 11 ∧
      Entries.get? "name" (reading.catalog.merged 0).properties = some 9 ∧
      Entries.get? "colour" (reading.catalog.merged 0).properties = none))
    (by decide +kernel)
  obtain ⟨within, all, first, second, name, colour⟩ := of_decide_eq_true facts
  have lists (part : SchemaId) : (reading.catalog.descriptor part).ListsOnly :=
    forall_descriptor (by decide) all part
  refine ⟨reading, h, within, fun part _ => lists part, 9, 11, by decide, first, second, ?_, ?_⟩
  · rw [property_hint h within.1 (fun part _ => lists part) "name", name]
  · rw [property_hint h within.1 (fun part _ => lists part) "colour", colour]

end Description

end ApiContract
