import ApiContract.Proofs.Schema.Agreement
import ApiContract.Proofs.Schema.Denial
/-!
# Dispatch by discriminators

A union with a discriminator goes by one of its members, which the value's tag selects. The last checks
of a catalog make sure that this depends on the set of the members alone: tags are mapped to members,
and no two members share a name (`distinctlyNamed_of_sharedName?`). What the union adds to a report is
then the report of that member, whatever the others are (`Catalog.Dispatches`).
-/

namespace ApiContract

open Json (Value)

/-- A tag selects a member among those of a union: the one that it is mapped to, or else the one with
that name. -/
def Discriminator.Selects (discriminator : Discriminator) (catalog : Catalog) (members : List SchemaId)
    (tag : String) (member : SchemaId) : Prop :=
  Entries.get? tag discriminator.mapping = some member ∨
    Entries.get? tag discriminator.mapping = none ∧ member ∈ members ∧
      (catalog.descriptor member).name = some tag

namespace Catalog

variable {catalog completed : Catalog} {members others : List SchemaId} {id : SchemaId}

/-- Among several schemas, no two have the same name. -/
def DistinctlyNamed (catalog : Catalog) (members : List SchemaId) : Prop :=
  ∀ one ∈ members, ∀ other ∈ members, ∀ name, (catalog.descriptor one).name = some name →
    (catalog.descriptor other).name = some name → one = other

/-- Where no shared name is found, each name has one owner, which is the schema that is listed for it
if there is one. -/
theorem exists_owner_of_sharedName? {named : Entries SchemaId}
    (h : catalog.sharedName? named members = none) (name : String) :
    ∃ owner, (∀ other ∈ Entries.get? name named, other = owner) ∧
      ∀ member ∈ members, (catalog.descriptor member).name = some name → member = owner := by
  induction members generalizing named with
  | nil =>
    refine ⟨(Entries.get? name named).getD 0, fun other listed => ?_, by simp⟩
    rw [Option.mem_def.mp listed, Option.getD_some]
  | cons first rest ih =>
    simp only [sharedName?] at h
    cases called : (catalog.descriptor first).name with
    | none =>
      simp only [called] at h
      obtain ⟨owner, listed, owned⟩ := ih h
      exact ⟨owner, listed, List.forall_mem_cons.mpr ⟨by simp [called], owned⟩⟩
    | some key =>
      simp only [called] at h
      cases known : Entries.get? key named with
      | some other =>
        simp only [known] at h
        split at h
        · next same =>
          obtain ⟨owner, listed, owned⟩ := ih h
          refine ⟨owner, listed, List.forall_mem_cons.mpr ⟨fun own => ?_, owned⟩⟩
          rw [called, Option.some.injEq] at own
          exact listed first (by rw [← own, known, same]; rfl)
        · cases h
      | none =>
        -- The first member comes to be listed under its name, so it is the owner of that name.
        simp only [known] at h
        obtain ⟨owner, listed, owned⟩ := ih h
        simp only [Entries.get?_put] at listed
        by_cases own : name = key
        · subst own
          have isFirst : first = owner := listed first (by simp)
          exact ⟨owner, by simp [known], List.forall_mem_cons.mpr ⟨fun _ => isFirst, owned⟩⟩
        · simp only [own, if_false] at listed
          refine ⟨owner, listed, List.forall_mem_cons.mpr ⟨fun equal => ?_, owned⟩⟩
          rw [called, Option.some.injEq] at equal
          exact absurd equal.symm own

theorem distinctlyNamed_of_sharedName? (h : catalog.sharedName? [] members = none) :
    catalog.DistinctlyNamed members := by
  intro one there other there' name called called'
  obtain ⟨owner, -, owned⟩ := exists_owner_of_sharedName? h name
  rw [owned one there called, owned other there' called']

/-- What the last checks of a catalog make sure of in a union with a discriminator. -/
theorem distinctlyNamed_of_complete (h : catalog.complete = .ok completed)
    {discriminator : Discriminator}
    (tagged : (completed.descriptor id).discriminator = some discriminator)
    (union : (completed.descriptor id).isUnion = true) :
    completed.DistinctlyNamed (completed.descriptor id).members := by
  obtain ⟨same, sound⟩ := unmerged_complete h
  have inside : id < catalog.size := by
    rw [← same.size]
    by_contra outside
    rw [descriptor_of_size_le (Nat.le_of_not_lt outside)] at tagged
    cases tagged
  obtain ⟨_, unmerged⟩ := same.descriptor id
  have names (id : SchemaId) : (completed.descriptor id).name = (catalog.descriptor id).name := by
    obtain ⟨_, unmerged⟩ := same.descriptor id
    rw [unmerged]
  rw [unmerged] at tagged union ⊢
  have unshared := (discriminatorError?_eq_none_iff.mp (sound _ (descriptor_mem inside)))
    discriminator tagged union
  intro one there other there' name called called'
  rw [names] at called called'
  exact distinctlyNamed_of_sharedName? unshared.2 one there other there' name called called'

end Catalog

namespace Descriptor

variable {catalog : Catalog} {strict : Bool} {d other : Descriptor} {discriminator : Discriminator}
  {tag : String} {member : SchemaId} {visit : Visit} {members : Entries Value} {path : ValuePath}

/-- Among members with different names, it does not depend on their order which one is selected. -/
theorem selected?_eq_some_iff (distinct : catalog.DistinctlyNamed d.members) :
    d.selected? catalog discriminator tag = some member ↔
      discriminator.Selects catalog d.members tag member := by
  unfold selected? Discriminator.Selects
  cases Entries.get? tag discriminator.mapping with
  | some target => simp
  | none =>
    simp only [Option.orElse_none, reduceCtorEq, true_and, false_or]
    constructor
    · intro found
      exact ⟨List.mem_of_find?_eq_some found, by simpa using List.find?_some found⟩
    · rintro ⟨there, called⟩
      cases found : d.members.find? fun member => (catalog.descriptor member).name == some tag with
      | none =>
        have := List.find?_eq_none.mp found member there
        simp [called] at this
      | some first =>
        have called' : (catalog.descriptor first).name = some tag := by
          simpa using List.find?_some found
        rw [distinct first (List.mem_of_find?_eq_some found) member there tag called' called]

theorem selected?_eq_of_perm (distinct : catalog.DistinctlyNamed d.members)
    (perm : other.members.Perm d.members) (tag : String) :
    other.selected? catalog discriminator tag = d.selected? catalog discriminator tag := by
  have distinct' : catalog.DistinctlyNamed other.members :=
    fun one there two there' => distinct one (perm.mem_iff.mp there) two (perm.mem_iff.mp there')
  refine Option.ext fun member => ?_
  rw [selected?_eq_some_iff distinct, selected?_eq_some_iff distinct', Discriminator.Selects,
    Discriminator.Selects, perm.mem_iff]

/-- What a tag adds to a report: that of the member which it selects, and otherwise that it is
unknown. -/
def routed (strict : Bool) (visit : Visit) (value : Value) (path : ValuePath) (tag : String) :
    Option SchemaId → Report
  | some member => visit member value path
  | none => if strict then .fault path (.unknownTag tag) else ⟨[], [⟨path, tag⟩]⟩

/-- A union with a discriminator adds to the report about an object with a tag what the tag does. -/
theorem checkUnion_of_tag (tagged : d.discriminator = some discriminator) (union : d.isUnion = true)
    (there : Entries.get? discriminator.property members = some (.string tag)) :
    d.checkUnion catalog strict visit (.object members) path =
      routed strict visit (.object members) path tag (d.selected? catalog discriminator tag) := by
  simp only [checkUnion, tagged, union, dispatch, there]
  cases d.selected? catalog discriminator tag <;> rfl

/-- The union of other members. -/
def withMembers (d : Descriptor) (oneOf anyOf : List SchemaId) : Descriptor :=
  { d with oneOf := oneOf, anyOf := anyOf }

/-- With other members of which the tag selects the same one, the whole report stays. -/
theorem check_withMembers (tagged : d.discriminator = some discriminator) (union : d.isUnion = true)
    (there : Entries.get? discriminator.property members = some (.string tag))
    {oneOf anyOf : List SchemaId} (some : oneOf ++ anyOf ≠ [])
    (same : (d.withMembers oneOf anyOf).selected? catalog discriminator tag =
      d.selected? catalog discriminator tag) :
    (d.withMembers oneOf anyOf).check catalog strict visit (.object members) path =
      d.check catalog strict visit (.object members) path := by
  have isUnion : (d.withMembers oneOf anyOf).isUnion = true := by
    cases oneOf <;> cases anyOf <;> simp_all [Descriptor.isUnion, withMembers]
  have unions : (d.withMembers oneOf anyOf).checkUnion catalog strict visit (.object members) path =
      d.checkUnion catalog strict visit (.object members) path := by
    rw [checkUnion_of_tag (d := d.withMembers oneOf anyOf) tagged isUnion there,
      checkUnion_of_tag tagged union there, same]
  unfold check
  rw [unions]
  rfl

end Descriptor

namespace Catalog

/-- A schema that is a union with a discriminator goes by the one member that the tag of an object
selects. Which member that is depends on the set of the members alone. It is one of them, and what the
union adds to a report is what checking the object against it comes to at the same path; where no
member is selected, it is a single violation or, unless the check is strict, a single warning. The
other members could be any, and any number. -/
structure Dispatches (catalog : Catalog) (strict : Bool) (id : SchemaId)
    (discriminator : Discriminator) : Prop where
  selected_iff : ∀ tag member,
    (catalog.descriptor id).selected? catalog discriminator tag = some member ↔
      discriminator.Selects catalog (catalog.descriptor id).members tag member
  member : ∀ tag member, discriminator.Selects catalog (catalog.descriptor id).members tag member →
    member ∈ (catalog.descriptor id).members
  order : ∀ other : Descriptor, other.members.Perm (catalog.descriptor id).members → ∀ tag,
    other.selected? catalog discriminator tag =
      (catalog.descriptor id).selected? catalog discriminator tag
  routes : ∀ (visit : Visit) (members : Entries Value) path tag,
    Entries.get? discriminator.property members = some (.string tag) → ∀ member,
    discriminator.Selects catalog (catalog.descriptor id).members tag member →
      (catalog.descriptor id).checkUnion catalog strict visit (.object members) path =
        visit member (.object members) path
  unrouted : ∀ (visit : Visit) (members : Entries Value) path tag,
    Entries.get? discriminator.property members = some (.string tag) →
    (∀ member, ¬ discriminator.Selects catalog (catalog.descriptor id).members tag member) →
      (catalog.descriptor id).checkUnion catalog strict visit (.object members) path =
        if strict then ⟨[⟨path, .unknownTag tag⟩], []⟩ else ⟨[], [⟨path, tag⟩]⟩
  exclusive : ∀ (oneOf anyOf : List SchemaId) (visit : Visit) (members : Entries Value) path tag,
    Entries.get? discriminator.property members = some (.string tag) → oneOf ++ anyOf ≠ [] →
    ((catalog.descriptor id).withMembers oneOf anyOf).selected? catalog discriminator tag =
      (catalog.descriptor id).selected? catalog discriminator tag →
    ((catalog.descriptor id).withMembers oneOf anyOf).check catalog strict visit (.object members)
        path =
      (catalog.descriptor id).check catalog strict visit (.object members) path
  report : ∀ fuel active (members : Entries Value) path tag,
    Entries.get? discriminator.property members = some (.string tag) → (id, path) ∉ active →
    (catalog.descriptor id).never = false →
    (catalog.descriptor id).admitsType (.object members) = true →
      catalog.check strict (fuel + 1) active id (.object members) path =
        let visit := catalog.check strict fuel ((id, path) :: active)
        (catalog.descriptor id).checkFixed (.object members) path
          ++ (catalog.descriptor id).checkKind visit (.object members) path
          ++ Report.concat ((catalog.descriptor id).allOf.map fun part =>
            visit part (.object members) path)
          ++ Descriptor.routed strict visit (.object members) path tag
            ((catalog.descriptor id).selected? catalog discriminator tag)
          ++ (catalog.descriptor id).checkNot visit (.object members) path

end Catalog

namespace Description

/-- In a description that is read, unions with discriminators go by the member that a tag selects. -/
theorem dispatches_of_read {loader : Loader} {base : Url} {document : Value} {reading : Reading}
    (h : read loader base document = .ok reading) {id : SchemaId} {discriminator : Discriminator}
    (tagged : (reading.catalog.descriptor id).discriminator = some discriminator)
    (union : (reading.catalog.descriptor id).isUnion = true) (strict : Bool) :
    reading.catalog.Dispatches strict id discriminator := by
  obtain ⟨-, _, -, completed, -⟩ := readRoot_of_read h
  have distinct := Catalog.distinctlyNamed_of_complete completed tagged union
  have selected (tag : String) (member : SchemaId) :
      (reading.catalog.descriptor id).selected? reading.catalog discriminator tag = some member ↔
        discriminator.Selects reading.catalog (reading.catalog.descriptor id).members tag member :=
    Descriptor.selected?_eq_some_iff distinct
  refine ⟨selected, ?member, ?order, ?routes, ?unrouted, ?exclusive, ?report⟩
  case member =>
    intro tag member selects
    exact Catalog.selectsMembers_of_complete completed id union discriminator tagged tag member
      ((selected tag member).mpr selects)
  case order => exact fun other perm tag => Descriptor.selected?_eq_of_perm distinct perm tag
  case routes =>
    intro visit members path tag there member selects
    rw [Descriptor.checkUnion_of_tag tagged union there, (selected tag member).mpr selects]
    rfl
  case unrouted =>
    intro visit members path tag there selectsNone
    have none : (reading.catalog.descriptor id).selected? reading.catalog discriminator tag = none :=
      Option.eq_none_iff_forall_ne_some.mpr fun member found =>
        selectsNone member ((selected tag member).mp found)
    rw [Descriptor.checkUnion_of_tag tagged union there, none]
    rfl
  case exclusive =>
    exact fun _ _ _ _ _ _ there some same => Descriptor.check_withMembers tagged union there some same
  case report =>
    intro fuel active members path tag there fresh never admitted
    have plain : ¬ (Value.object members = .null ∧
        (reading.catalog.descriptor id).admitsNull = true) := by simp
    rw [Catalog.check, if_neg (by simpa using fresh), Descriptor.check_of_not_null never plain,
      admitted, Descriptor.checkUnion_of_tag tagged union there]
    rfl

/-- A description of pets by their kind, where dogs are also known as hounds. -/
def kennelDocument : Value :=
  schemasDocument [
    ("Cat", .object [("type", .string "object")]),
    ("Dog", .object [("type", .string "object"), ("required", .array [.string "bark"])]),
    ("Pet", .object [
      ("oneOf", .array [componentReference "Cat", componentReference "Dog"]),
      ("discriminator", .object [
        ("propertyName", .string "kind"),
        ("mapping", .object [("hound", .string "Dog")])])])]

theorem dispatches_kennelDocument :
    ∃ reading, read noLoader treeBase kennelDocument = .ok reading ∧
      (reading.catalog.descriptor 2).discriminator = some ⟨"kind", [("hound", 1)]⟩ ∧
      (reading.catalog.descriptor 2).isUnion = true ∧
      ∀ strict, reading.catalog.Dispatches strict 2 ⟨"kind", [("hound", 1)]⟩ := by
  obtain ⟨reading, h, facts⟩ := @exists_of_any_read noLoader treeBase kennelDocument
    (fun reading => decide (
      (reading.catalog.descriptor 2).discriminator = some ⟨"kind", [("hound", 1)]⟩ ∧
      (reading.catalog.descriptor 2).isUnion = true))
    (by decide +kernel)
  obtain ⟨tagged, union⟩ := of_decide_eq_true facts
  exact ⟨reading, h, tagged, union, dispatches_of_read h tagged union⟩

end Description

end ApiContract
