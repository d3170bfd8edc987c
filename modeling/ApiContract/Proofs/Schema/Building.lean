import ApiContract.Proofs.RelatedLists
import ApiContract.Proofs.Schema.Construction
/-!
# Building schemas

What the steps that describe a schema ensure: each part of a descriptor transcribes the keyword that
it is read from, if the schemas below are built at their locations. `ensures_buildWith` closes the
circle by induction on how deep schemas stand in one another: a schema is built, or has been given a
position before, at the location to which its own leads.
-/

namespace ApiContract

open Json (Value)

namespace Schema

open Build (Ensures)
open Descriptor (TypesOf PatternOf ItemsOf PropertiesOf AdditionalOf MembersOf NestedOf
  DiscriminatorOf Describes MapsTo TagsOf Records)

variable {visit : Location → Build SchemaId} {location : Location}

theorem ensures_typeNamed (location : Location) (name : String) :
    Ensures (typeNamed location name) fun type _ => name = type.name := by
  unfold typeNamed
  cases found : SchemaType.ofName? name with
  | none => exact .fail _
  | some type =>
    have named : type.name = name := by simpa using List.find?_some found
    exact .pure fun _ => named.symm

theorem ensures_readTypes (location : Location) (node : Option Value) :
    Ensures (readTypes location node) fun types _ => TypesOf node types := by
  unfold readTypes
  split
  · exact .pure fun _ => rfl
  · next name =>
    refine .bind (ensures_typeNamed location name) fun type => ?_
    exact .pure fun _ named => ⟨type, rfl, named⟩
  · next names =>
    refine (Ensures.mapM (R := fun value type _ => value = .string type.name) ?_).mono ?_
    · intro value member
      split
      · next name =>
        exact (ensures_typeNamed location name).mono fun type _ named => congrArg Value.string named
      · exact .fail _
    · intro types _ same
      rw [← List.forall₂_map_right_iff, List.forall₂_eq_eq_eq] at same
      exact same
  · exact .fail _

theorem ensures_readPattern (location : Location) (node : Option Value) :
    Ensures (readPattern location node) fun pattern _ => PatternOf node pattern := by
  unfold readPattern
  split
  · next source =>
    split
    · next compiled found => exact .pure fun _ => ⟨compiled, rfl, found⟩
    · exact .fail _
  · next other =>
    refine .pure fun _ => ?_
    unfold PatternOf
    split
    · next source => exact absurd rfl (other source)
    · rfl

theorem ensures_mappedLocation (loader : Loader) (location : Location) (target : String) :
    Ensures (mappedLocation loader location target) fun mapped s =>
      MapsTo s.library location target mapped := by
  unfold mappedLocation MapsTo
  split
  · exact .resolve loader _ _
  · exact .pure fun _ => rfl

section Visits

variable (visits : ∀ location, Ensures (visit location) fun id s => s.Located location id)
include visits

theorem ensures_readItems (location : Location) (node : Option Value) :
    Ensures (readItems visit location node) fun items s => ItemsOf s.Located location node items := by
  unfold readItems
  split
  · refine .bind (visits _) fun id => ?_
    exact .pure fun _ there => ⟨id, rfl, there⟩
  · refine .bind (visits _) fun id => ?_
    exact .pure fun _ there => ⟨id, rfl, there⟩
  · next notObject notBool =>
    refine .pure fun _ => ?_
    unfold ItemsOf
    split
    · next members => exact absurd rfl (notObject members)
    · next b => exact absurd rfl (notBool b)
    · rfl

theorem ensures_readProperties (location : Location) (node : Option Value) :
    Ensures (readProperties visit location node) fun properties s =>
      PropertiesOf s.Located location node properties := by
  unfold readProperties
  refine (Ensures.mapM (R := fun entry result s => result.1 = entry.1 ∧
    s.Located ((location.child "properties").child result.1) result.2) ?_).mono ?_
  · rintro ⟨name, _⟩ -
    simp only
    split
    · exact .fail _
    · refine .bind (visits _) fun id => ?_
      exact .pure fun _ there => ⟨rfl, there⟩
  · intro properties _ read
    exact Entries.keys_of_forall₂ read

theorem ensures_readAdditional (location : Location) (node : Option Value) :
    Ensures (readAdditional visit location node) fun additional s =>
      AdditionalOf s.Located location node additional := by
  unfold readAdditional
  split
  · exact .pure fun _ => rfl
  · refine .bind (visits _) fun id => ?_
    exact .pure fun _ there => ⟨id, rfl, there⟩
  · next notFalse notObject =>
    refine .pure fun _ => ?_
    unfold AdditionalOf
    split
    · exact absurd rfl notFalse
    · next members => exact absurd rfl (notObject members)
    · rfl

theorem ensures_readMembers (location : Location) (keyword : String) (node : Option Value) :
    Ensures (readMembers visit location keyword node) fun members s =>
      MembersOf s.Located location keyword node members := by
  unfold readMembers
  split
  · exact .pure fun _ => rfl
  · next items =>
    refine (Ensures.mapM (R := fun (i : Nat) id s =>
      s.Located ((location.child keyword).child (Decimal.integerText i)) id)
      fun i _ => visits _).mono ?_
    intro members _ read
    obtain ⟨length, each⟩ := List.forall₂_iff_get.mp read
    rw [List.length_range] at length
    refine ⟨length.symm, ?_⟩
    intro i id found
    obtain ⟨inside, rfl⟩ := List.getElem?_eq_some_iff.mp found
    have own := each i (by rw [List.length_range, length]; exact inside) inside
    simpa using own
  · exact .fail _

theorem ensures_readNested (location : Location) (keyword : String) (node : Option Value) :
    Ensures (readNested visit location keyword node) fun schema s =>
      NestedOf s.Located location keyword node schema := by
  unfold readNested
  split
  · refine .bind (visits _) fun id => ?_
    exact .pure fun _ there => ⟨id, rfl, there⟩
  · exact .pure fun _ => rfl

theorem ensures_readDiscriminator (loader : Loader) (location : Location) (node : Option Value) :
    Ensures (readDiscriminator loader visit location node) fun discriminator s =>
      DiscriminatorOf s.Located node discriminator ∧
        TagsOf s.library s.Located location node discriminator := by
  unfold readDiscriminator
  split
  · next members =>
    split
    · next property named =>
      refine .bind (Ensures.mapM (R := fun entry result s => result.1 = entry.1 ∧ ∃ text mapped,
        (result.1, .string text) ∈
            ((Entries.get? "mapping" members).bind Value.members?).getD [] ∧
          MapsTo s.library location text mapped ∧ s.Located mapped result.2) ?_) fun mapping => ?_
      · rintro ⟨tag, target⟩ written
        simp only
        split
        · next target =>
          refine .bind (ensures_mappedLocation loader location target) fun mapped => ?_
          refine .bind (visits mapped) fun id => ?_
          exact .pure fun _ there maps => ⟨rfl, target, mapped, written, maps, there⟩
        · exact .fail _
      · refine .pure fun _ read => ?_
        obtain ⟨keys, each⟩ := Entries.keys_of_forall₂ read
        constructor
        · refine ⟨property, mapping, rfl, named, keys, ?_⟩
          intro entry member
          obtain ⟨_, mapped, -, -, there⟩ := each entry member
          exact ⟨mapped, there⟩
        · intro given tagged
          cases tagged
          exact each
    · exact .fail _
  · next other =>
    refine .pure fun _ => ⟨?_, fun given tagged => nomatch tagged⟩
    unfold DiscriminatorOf
    split
    · next members => exact absurd rfl (other members)
    · rfl

/-- The descriptor of an object schema transcribes it. -/
theorem ensures_describe (loader : Loader) (location : Location) (members : Entries Value) :
    Ensures (describe loader visit location members) fun d s =>
      d.merged = none ∧ Records s.library s.Located location (.object members) d := by
  simp only [describe]
  refine .bind (ensures_readTypes location _) fun types => ?_
  refine .bind (ensures_readPattern location _) fun pattern => ?_
  refine .bind (ensures_readItems visits location _) fun items => ?_
  refine .bind (ensures_readProperties visits location _) fun properties => ?_
  refine .bind (ensures_readAdditional visits location _) fun additional => ?_
  refine .bind (ensures_readMembers visits location "allOf" _) fun allOf => ?_
  refine .bind (ensures_readMembers visits location "oneOf" _) fun oneOf => ?_
  refine .bind (ensures_readMembers visits location "anyOf" _) fun anyOf => ?_
  refine .bind (ensures_readNested visits location "not" _) fun not => ?_
  refine .bind (ensures_readDiscriminator visits loader location _) fun discriminator => ?_
  refine .pure fun s discriminatorOf notOf anyOf' oneOf' allOf' additionalOf propertiesOf itemsOf
    patternOf typesOf => ⟨rfl, ?_, discriminatorOf.2⟩
  exact {
    stands := rfl, name := rfl, never := rfl, types := typesOf, format := rfl, nullable := rfl
    enumeration := rfl, constant := rfl, default := rfl, sample := rfl, lower := rfl, upper := rfl
    multipleOf := rfl, minLength := rfl, maxLength := rfl, pattern := patternOf, items := itemsOf
    minItems := rfl, maxItems := rfl, uniqueItems := rfl, properties := propertiesOf
    required := rfl, additional := additionalOf, minProperties := rfl, maxProperties := rfl
    allOf := allOf', oneOf := oneOf', anyOf := anyOf', not := notOf
    discriminator := discriminatorOf.1 }

/-- The descriptor of a schema says what its node says. -/
theorem ensures_describeNode (loader : Loader) (location : Location) (node : Value) :
    Ensures (describeNode loader visit location node) fun d s =>
      d.merged = none ∧ Records s.library s.Located location node d := by
  unfold describeNode
  split
  · exact .pure fun _ => ⟨rfl, rfl, fun given tagged => nomatch tagged⟩
  · next members => exact ensures_describe visits loader location members
  · exact .fail _

end Visits

/-- What building the schema at a location comes to: the location leads to one that has a position
already, or to one whose schema is given the next position and described. -/
theorem cases_of_buildWith {loader : Loader} {fuel : Nat} {s later : Construction} {id : SchemaId}
    (h : buildWith loader (fuel + 1) location s = .ok (id, later)) :
    ∃ target library, s.library.dereference loader location = (.ok target, library) ∧
      (s.catalog.find? target = some id ∧ later = ⟨library, s.catalog⟩ ∨
        s.catalog.find? target = none ∧ id = s.catalog.size ∧
          ∃ node d described, library.node? target = some node ∧
            describeNode loader (buildWith loader fuel) target node
              ⟨library, s.catalog.reserve target⟩ = .ok (d, described) ∧
            later = ⟨described.library, described.catalog.set id d⟩) := by
  rw [buildWith] at h
  obtain ⟨target, _, followed, h⟩ := Build.exists_of_bind_eq_ok h
  obtain ⟨library, leads, rfl⟩ := Build.exists_of_withLibrary_eq_ok followed
  refine ⟨target, library, leads, ?_⟩
  obtain ⟨position, _, found, h⟩ := Build.exists_of_bind_eq_ok h
  cases found
  cases known : s.catalog.find? target with
  | some other =>
    simp only [known] at h
    cases h
    exact .inl ⟨rfl, rfl⟩
  | none =>
    simp only [known] at h
    obtain ⟨there, _, looked, h⟩ := Build.exists_of_bind_eq_ok h
    cases looked
    cases node : library.node? target with
    | none =>
      simp only [node] at h
      cases h
    | some value =>
      simp only [node] at h
      obtain ⟨_, _, reserved, h⟩ := Build.exists_of_bind_eq_ok h
      cases reserved
      obtain ⟨d, described, steps, h⟩ := Build.exists_of_bind_eq_ok h
      obtain ⟨_, _, assigned, h⟩ := Build.exists_of_bind_eq_ok h
      cases assigned
      cases h
      exact .inr ⟨rfl, rfl, value, d, described, rfl, steps, rfl⟩

/-- Building the schema at a location gives the position of the schema to which the location
leads. -/
theorem ensures_buildWith (loader : Loader) (fuel : Nat) (location : Location) :
    Ensures (buildWith loader fuel location) fun id s => s.Located location id := by
  induction fuel generalizing location with
  | zero => exact .fail _
  | succ fuel ih =>
    intro pending s id later run sound
    obtain ⟨target, library, followed, ends⟩ := cases_of_buildWith run
    obtain ⟨growth, leads⟩ := Library.dereference_spec followed
    have grows : s.Grows ⟨library, s.catalog⟩ := ⟨growth, List.Subset.refl _⟩
    have sound := sound.withLibrary growth
    rcases ends with ⟨known, rfl⟩ | ⟨fresh, rfl, node, d, described, there, steps, rfl⟩
    · have indexed := sound.find?_eq_some_iff.mp known
      refine ⟨sound, grows, ?_⟩
      intro last after
      exact after.located ⟨target, leads (sound.nodes _ indexed), indexed⟩
    · have found : (library.node? target).isSome = true := by rw [there]; rfl
      -- The schema is pending while those that it refers to are built.
      obtain ⟨done, further, holds⟩ := ensures_describeNode ih loader target node _ _ _ _ steps
        (sound.reserve fresh found)
      have indexed : (target, s.catalog.size) ∈ described.catalog.index :=
        further.index List.mem_cons_self
      obtain ⟨unmerged, records⟩ := holds described (.refl described)
      have whole := (grows.trans (Construction.Sound.grows_reserve _ target)).trans further
      refine ⟨done.set indexed (further.library.node? there) records unmerged,
        ⟨whole.library, whole.index⟩, ?_⟩
      intro last after
      have leads := (leads found).mono (further.library.trans after.library)
      exact ⟨target, leads, after.index indexed⟩

/-- Building the schema at a location gives the position of the schema to which the location
leads. -/
theorem ensures_buildSchema (loader : Loader) (location : Location) :
    Ensures (buildSchema loader location) fun id s => s.Located location id := by
  intro pending s id later run sound
  exact ensures_buildWith loader _ location pending s id later run sound

end Schema

end ApiContract
