import ApiContract.Proofs.Description.WellFormed
import ApiContract.Proofs.Schema.Agreement
import ApiContract.Proofs.Schema.Denial
import ApiContract.Proofs.Schema.Likeness
/-!
# What compatible schemas admit

The schemas that two are composed of, or refer to otherwise, are compared place by place until one
schema meets itself. Compatible schemas admit the same values if wherever the comparison sets two
different schemas beside each other, these choose alike among the members of their unions and do not
deny themselves (`passes_iff_of_sameConstraints`).
-/

namespace ApiContract

open Json (Value)

theorem mem_zip_comm {α β : Type} {xs : List α} {ys : List β} {x : α} {y : β} :
    (x, y) ∈ xs.zip ys ↔ (y, x) ∈ ys.zip xs := by
  simp only [List.mem_iff_getElem?, List.getElem?_zip_eq_some]
  exact exists_congr fun i => and_comm

theorem rel_symm {α β : Type} {r : α → β → Prop} {x : Option α} {y : Option β}
    (h : Option.Rel r x y) : Option.Rel (fun b a => r a b) y x := by
  cases h with
  | none => exact .none
  | some related => exact .some related

theorem rel_imp {α β : Type} {r s : α → β → Prop} {x : Option α} {y : Option β}
    (h : Option.Rel r x y) (weaker : ∀ a b, r a b → s a b) : Option.Rel s x y := by
  cases h with
  | none => exact .none
  | some related => exact .some (weaker _ _ related)

/-- A pattern keeps the text that it is compiled from. -/
theorem Pattern.source_of_compile? {source : String} {pattern : Pattern}
    (h : compile? source = some pattern) : pattern.source = source := by
  obtain ⟨_, -, h⟩ := Option.bind_eq_some_iff.mp h
  simp only at h
  split at h
  · split at h
    · cases h
      rfl
    · cases h
  · obtain ⟨_, -, rfl⟩ := Option.map_eq_some_iff.mp h
    rfl

theorem Json.Pointer.hasDistinctNames_of_follow? {value node : Value} {tokens : List String}
    (h : follow? value tokens = some node) (distinct : value.hasDistinctNames = true) :
    node.hasDistinctNames = true := by
  induction tokens generalizing value with
  | nil =>
    cases h
    exact distinct
  | cons token rest ih =>
    obtain ⟨next, step, further⟩ := Option.bind_eq_some_iff.mp h
    refine ih further ?_
    cases value with
    | object members =>
      exact (Value.hasDistinctNames_object.mp distinct).2 _ (Entries.mem_of_get? step)
    | array items =>
      obtain ⟨i, -, found⟩ := Option.bind_eq_some_iff.mp step
      exact Value.hasDistinctNames_array.mp distinct _ (List.mem_of_getElem? found)
    | _ => cases step

namespace Descriptor

variable {catalog : Catalog} {d e : Descriptor} {p q : SchemaId}

theorem besides_comm : (p, q) ∈ d.besides e ↔ (q, p) ∈ e.besides d := by
  simp only [mem_besides_iff, @mem_zip_comm _ _ d.allOf, @mem_zip_comm _ _ d.oneOf,
    @mem_zip_comm _ _ d.anyOf, and_comm]

theorem ChoosesAlike.symm (h : ChoosesAlike catalog d e) : ChoosesAlike catalog e d :=
  rel_imp (rel_symm h) fun _ _ ⟨property, selected⟩ => ⟨property.symm, fun tag =>
    rel_imp (rel_symm (selected tag)) fun _ _ => mem_zip_comm.mp⟩

/-- Unions of the same members with the same discriminator choose alike. -/
theorem choosesAlike_of_eq (selects : d.SelectsMembers catalog)
    (discriminator : d.discriminator = e.discriminator) (oneOf : d.oneOf = e.oneOf)
    (anyOf : d.anyOf = e.anyOf) : ChoosesAlike catalog d e := by
  have members : e.members = d.members := by rw [members, members, oneOf, anyOf]
  have same : e.dispatcher? = d.dispatcher? := by
    rw [dispatcher?, dispatcher?, isUnion, isUnion, discriminator, oneOf, anyOf]
  unfold ChoosesAlike
  rw [same, members]
  cases chosen : d.dispatcher? with
  | none => exact .none
  | some discriminator =>
    refine .some ⟨rfl, fun tag => ?_⟩
    have selected : e.selected? catalog discriminator tag = d.selected? catalog discriminator tag := by
      rw [selected?, selected?, members]
    rw [selected]
    cases picked : d.selected? catalog discriminator tag with
    | none => exact .none
    | some part =>
      obtain ⟨union, tagged⟩ := Option.ite_none_right_eq_some.mp chosen
      have member := selects union discriminator tagged tag part picked
      obtain ⟨i, found⟩ := List.mem_iff_getElem?.mp member
      exact .some (List.mem_iff_getElem?.mpr ⟨i, List.getElem?_zip_eq_some.mpr ⟨found, found⟩⟩)

variable {located : Location → SchemaId → Prop} {location : Location}

theorem PatternOf.compiled {node : Option Value} {pattern : Option Pattern}
    (h : PatternOf node pattern) : ∀ compiled ∈ pattern, Pattern.compile? compiled.source = some compiled := by
  unfold PatternOf at h
  split at h
  · obtain ⟨compiled, rfl, found⟩ := h
    rintro _ ⟨⟩
    rwa [Pattern.source_of_compile? found]
  · rw [h]
    nofun

/-- What a descriptor transcribes from a node is regular, if the names of each object in the node are
different. -/
theorem Describes.regular {node : Value} (h : Describes located location node d)
    (distinct : node.hasDistinctNames = true) : d.Regular := by
  unfold Describes at h
  split at h
  · rw [h]
    exact ⟨⟨List.nodup_nil, nofun, nofun⟩, nofun⟩
  · next members =>
    have inside {keyword : String} {value : Value}
        (found : Entries.get? keyword members = some value) : value.hasDistinctNames = true :=
      (Value.hasDistinctNames_object.mp distinct).2 _ (Entries.mem_of_get? found)
    refine ⟨⟨?_, ?_, ?_⟩, h.pattern.compiled⟩
    · rw [h.properties.1]
      exact Description.nodup_namesIn distinct "properties"
    · intro values given value member
      rw [h.enumeration] at given
      obtain ⟨node, found, items⟩ := Option.bind_eq_some_iff.mp given
      cases node with
      | array listed =>
        cases items
        exact Value.hasDistinctNames_array.mp (inside found) value member
      | _ => cases items
    · rw [h.constant]
      exact fun value => inside
  · exact h.elim

end Descriptor

namespace Catalog

variable {catalog : Catalog} {a b x y : SchemaId}

/-- The comparison of two different schemas sets others beside each other. -/
def SetsBeside (catalog : Catalog) (pair next : SchemaId × SchemaId) : Prop :=
  pair.1 ≠ pair.2 ∧ next ∈ (catalog.descriptor pair.1).besides (catalog.descriptor pair.2)

/-- Comparing two schemas, through those that they refer to or at once, comes to two others. -/
def Compared (catalog : Catalog) (a b x y : SchemaId) : Prop :=
  Relation.ReflTransGen catalog.SetsBeside (a, b) (x, y)

theorem compared_of_besides_eq {x y : SchemaId}
    (meet : ∀ pair ∈ (catalog.descriptor a).besides (catalog.descriptor b), pair.1 = pair.2)
    (h : catalog.Compared a b x y) (different : x ≠ y) : x = a ∧ y = b := by
  rcases Relation.ReflTransGen.cases_head h with same | ⟨next, step, further⟩
  · cases same
    exact ⟨rfl, rfl⟩
  · have equal := meet next step.2
    rcases Relation.ReflTransGen.cases_head further with rfl | ⟨_, step, -⟩
    · exact absurd equal different
    · exact absurd equal step.1

/-- Schemas that pass the comparison accept the same values, wherever different ones that it comes to
choose alike and do not deny themselves. -/
theorem passes_iff_of_sameConstraints
    (selects : ∀ id, (catalog.descriptor id).SelectsMembers catalog)
    (regular : ∀ id, (catalog.descriptor id).Regular)
    {depth : Nat} (same : catalog.sameConstraints depth a b = true)
    (chooses : ∀ x y, catalog.Compared a b x y → x ≠ y →
      Descriptor.ChoosesAlike catalog (catalog.descriptor x) (catalog.descriptor y))
    (settled : ∀ x y, catalog.Compared a b x y → x ≠ y →
      ¬ catalog.DeniesItself x ∧ ¬ catalog.DeniesItself y) {strict : Bool} {value : Value} :
    catalog.Passes strict [] a value ↔ catalog.Passes strict [] b value := by
  by_cases equal : a = b
  · rw [equal]
  induction depth generalizing a b value with
  | zero => exact absurd (eq_of_beq same) equal
  | succ depth ih =>
    have alike := (Bool.or_eq_true_iff.mp same).resolve_left (by simpa using equal)
    obtain ⟨one, other⟩ := settled a b .refl equal
    have choose := chooses a b .refl equal
    -- What is set beside each other admits the same, by the comparison one level less deep.
    have agree (p q : SchemaId)
        (h : (p, q) ∈ (catalog.descriptor a).besides (catalog.descriptor b) ∧
          catalog.sameConstraints depth p q = true) (value : Value) :
        catalog.Passes strict [] p value ↔ catalog.Passes strict [] q value := by
      by_cases meets : p = q
      · rw [meets]
      have step : catalog.SetsBeside (a, b) (p, q) := ⟨equal, h.1⟩
      exact ih h.2 (fun x y further => chooses x y (.head step further))
        (fun x y further => settled x y (.head step further)) meets
    rw [passes_iff_accepts selects one, passes_iff_accepts selects other]
    constructor
    · exact (alike_of_sameDescriptor alike (regular a) (regular b)).accepts_of_accepts agree choose
    · have proper (id : SchemaId) : (catalog.descriptor id).Proper := (regular id).toProper
      have back := equivalenceAt_sameConstraints proper depth
      have alike := (equivalenceAt_sameDescriptor back _).symm _ (proper a) (proper b) alike
      refine (alike_of_sameDescriptor alike (regular b) (regular a)).accepts_of_accepts ?_ choose.symm
      rintro q p ⟨beside, same⟩ value
      exact (agree p q ⟨Descriptor.besides_comm.mp beside,
        (back q).symm p trivial trivial same⟩ value).symm

end Catalog

namespace Description

/-- No object in the documents of a description that is read has a name twice, as is so of documents
that are parsed. -/
def Reading.HasDistinctNames (reading : Reading) : Prop :=
  ∀ entry ∈ reading.library.documents, entry.2.hasDistinctNames = true

theorem regular_of_read {loader : Loader} {base : Url} {document : Value} {reading : Reading}
    (h : read loader base document = .ok reading) (distinct : reading.HasDistinctNames)
    (id : SchemaId) : (reading.catalog.descriptor id).Regular := by
  obtain ⟨dialect, state, root, completed, library⟩ := readRoot_of_read h
  obtain ⟨sound, -, -⟩ := ensures_readRoot loader dialect base [] _ _ _ root
    (Construction.sound_empty _)
  obtain ⟨same, -⟩ := Catalog.unmerged_complete completed
  rcases Nat.lt_or_ge id reading.catalog.size with inside | outside
  · rw [same.size] at inside
    obtain ⟨location, indexed⟩ := sound.exists_location inside
    obtain ⟨node, there, describes⟩ := sound.describes_completed same indexed
    obtain ⟨document, loaded, followed⟩ := Option.bind_eq_some_iff.mp there
    rw [library] at loaded
    obtain ⟨entry, first, rfl⟩ := Option.map_eq_some_iff.mp loaded
    exact describes.regular (Json.Pointer.hasDistinctNames_of_follow? followed
      (distinct entry (List.mem_of_find?_eq_some first)))
  · rw [Catalog.descriptor_of_size_le outside]
    exact ⟨⟨List.nodup_nil, nofun, nofun⟩, nofun⟩

/-- Compatible schemas of a description admit the same values, if wherever comparing them sets two
different schemas beside each other, these choose alike among the members of their unions and do not
come up again under denials of their own. -/
theorem validate_iff_of_compatible {loader : Loader} {base : Url} {document : Value}
    {reading : Reading} (h : read loader base document = .ok reading)
    (distinct : reading.HasDistinctNames) {a b : SchemaId}
    (compatible : reading.catalog.compatible a b = true)
    (chooses : ∀ x y, reading.catalog.Compared a b x y → x ≠ y →
      Descriptor.ChoosesAlike reading.catalog (reading.catalog.descriptor x)
        (reading.catalog.descriptor y))
    (settled : ∀ x y, reading.catalog.Compared a b x y → x ≠ y →
      ¬ reading.catalog.DeniesItself x ∧ ¬ reading.catalog.DeniesItself y)
    (strict : Bool) (value : Value) :
    (∃ warnings, reading.catalog.validate strict a value = .ok warnings) ↔
      ∃ warnings, reading.catalog.validate strict b value = .ok warnings := by
  obtain ⟨-, _, -, completed, -⟩ := readRoot_of_read h
  have selects := Catalog.selectsMembers_of_complete completed
  rw [Catalog.validate_ok_iff_passes selects, Catalog.validate_ok_iff_passes selects]
  exact Catalog.passes_iff_of_sameConstraints selects (regular_of_read h distinct) compatible chooses
    settled

/-- A description of the pets that keepers and walkers have. Owners are both, so that their pets are
described twice. -/
def ownerDocument : Value :=
  let pet := Value.object [
    ("oneOf", .array [componentReference "Cat", componentReference "Dog"]),
    ("discriminator", .object [("propertyName", .string "kind")])]
  let having := Value.object [("properties", .object [("pet", pet)])]
  schemasDocument [
    ("Cat", .object [("type", .string "object")]),
    ("Dog", .object [("type", .string "object"), ("required", .array [.string "bark"])]),
    ("Keeper", having),
    ("Walker", having),
    ("Owner", .object [("allOf", .array [componentReference "Keeper", componentReference "Walker"])])]

theorem validate_iff_ownerDocument :
    ∃ reading, read noLoader treeBase ownerDocument = .ok reading ∧ reading.HasDistinctNames ∧
      reading.catalog.compatible 3 5 = true ∧
      (∀ x y, reading.catalog.Compared 3 5 x y → x ≠ y →
        Descriptor.ChoosesAlike reading.catalog (reading.catalog.descriptor x)
          (reading.catalog.descriptor y)) ∧
      (∀ x y, reading.catalog.Compared 3 5 x y → x ≠ y →
        ¬ reading.catalog.DeniesItself x ∧ ¬ reading.catalog.DeniesItself y) ∧
      ∀ strict value, (∃ warnings, reading.catalog.validate strict 3 value = .ok warnings) ↔
        ∃ warnings, reading.catalog.validate strict 5 value = .ok warnings := by
  obtain ⟨reading, h, facts⟩ := @exists_of_any_read noLoader treeBase ownerDocument
    (fun reading => decide ((∀ entry ∈ reading.library.documents, entry.2.hasDistinctNames = true) ∧
      reading.catalog.compatible 3 5 = true ∧
      (∀ pair ∈ (reading.catalog.descriptor 3).besides (reading.catalog.descriptor 5),
        pair.1 = pair.2) ∧
      ((reading.catalog.descriptor 3).discriminator = (reading.catalog.descriptor 5).discriminator ∧
        (reading.catalog.descriptor 3).oneOf = (reading.catalog.descriptor 5).oneOf ∧
        (reading.catalog.descriptor 3).anyOf = (reading.catalog.descriptor 5).anyOf) ∧
      ∀ whole < reading.catalog.size,
        (∀ part ∈ (reading.catalog.descriptor whole).parts, part ≤ whole) ∧
        ∀ part ∈ (reading.catalog.descriptor whole).denials, part < whole))
    (by decide +kernel)
  obtain ⟨distinct, compatible, meet, ⟨discriminator, oneOf, anyOf⟩, descends⟩ :=
    of_decide_eq_true facts
  obtain ⟨-, _, -, completed, -⟩ := readRoot_of_read h
  have chooses : ∀ x y, reading.catalog.Compared 3 5 x y → x ≠ y →
      Descriptor.ChoosesAlike reading.catalog (reading.catalog.descriptor x)
        (reading.catalog.descriptor y) := by
    intro x y compared different
    obtain ⟨rfl, rfl⟩ := Catalog.compared_of_besides_eq meet compared different
    exact Descriptor.choosesAlike_of_eq (Catalog.selectsMembers_of_complete completed 3)
      discriminator oneOf anyOf
  have settled (id : SchemaId) : ¬ reading.catalog.DeniesItself id :=
    Catalog.not_deniesItself_of_level (fun id => id) descends
  exact ⟨reading, h, distinct, compatible, chooses, fun x y _ _ => ⟨settled x, settled y⟩,
    validate_iff_of_compatible h distinct compatible chooses fun x y _ _ => ⟨settled x, settled y⟩⟩

/-- A description of pets, which are told apart by their kind or are not; and of two schemas that deny
the first of the two. -/
def petDocument : Value :=
  let pets := Value.array [componentReference "Cat", componentReference "Dog"]
  schemasDocument [
    ("Cat", .object [("type", .string "object")]),
    ("Dog", .object [("type", .string "object"), ("required", .array [.string "bark"])]),
    ("Pet", .object [("oneOf", pets)]),
    ("KnownPet", .object [
      ("oneOf", pets), ("discriminator", .object [("propertyName", .string "kind")])]),
    ("Never", .object [("not", componentReference "Never")]),
    ("Always", .object [("not", componentReference "Never")])]

/-- Discriminators are not compared, nor is what becomes of schemas that deny themselves. -/
theorem compatible_differ :
    ∃ reading, read noLoader treeBase petDocument = .ok reading ∧
      (reading.catalog.compatible 2 3 = true ∧
        (∃ warnings, reading.catalog.validate true 2 (.object [("kind", .string "Dog")]) =
          .ok warnings) ∧
        ¬ ∃ warnings, reading.catalog.validate true 3 (.object [("kind", .string "Dog")]) =
          .ok warnings) ∧
      reading.catalog.compatible 4 5 = true ∧
        (¬ ∃ warnings, reading.catalog.validate true 4 .null = .ok warnings) ∧
        ∃ warnings, reading.catalog.validate true 5 .null = .ok warnings := by
  simp only [Catalog.validate_ok_iff]
  obtain ⟨reading, h, facts⟩ := @exists_of_any_read noLoader treeBase petDocument
    (fun reading => decide ((reading.catalog.compatible 2 3 = true ∧
        (reading.catalog.report true 2 (.object [("kind", .string "Dog")])).isOk = true ∧
        ¬ (reading.catalog.report true 3 (.object [("kind", .string "Dog")])).isOk = true) ∧
      reading.catalog.compatible 4 5 = true ∧
        ¬ (reading.catalog.report true 4 .null).isOk = true ∧
        (reading.catalog.report true 5 .null).isOk = true))
    (by decide +kernel)
  exact ⟨reading, h, of_decide_eq_true facts⟩

end Description

end ApiContract
