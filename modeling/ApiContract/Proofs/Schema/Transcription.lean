import ApiContract.Schema.Builder
import ApiContract.Proofs.Schema.Verdict
/-!
# Transcriptions

What it means that a descriptor says what the node at a location says. The schemas that a node refers
to are given by locations in the documents, those of a descriptor by positions; which position
belongs to which location is a parameter, `located`. `Descriptor.Describes.mono` says that a
descriptor stays a transcription when more positions become known.
-/

namespace ApiContract

open Json (Value)

namespace Descriptor

variable {located known : Location → SchemaId → Prop} {location : Location}

/-- The types are those that a keyword names, by a string or by an array of strings. -/
def TypesOf : Option Value → List SchemaType → Prop
  | none, types => types = []
  | some (.string name), types => ∃ type, types = [type] ∧ name = type.name
  | some (.array names), types => names = types.map fun type => .string type.name
  | some _, _ => False

/-- The pattern is what a string at the keyword is compiled to. -/
def PatternOf : Option Value → Option Pattern → Prop
  | some (.string source), pattern => ∃ compiled, pattern = some compiled ∧
      Pattern.compile? source = some compiled
  | _, pattern => pattern = none

/-- The schema of the items is the one at the keyword, if that holds an object or a truth value. -/
def ItemsOf (located : Location → SchemaId → Prop) (location : Location) :
    Option Value → Option SchemaId → Prop
  | some (.object _), items | some (.bool _), items =>
    ∃ id, items = some id ∧ located (location.child "items") id
  | _, items => items = none

/-- The properties are the members of the object at the keyword, each with the schema there. -/
def PropertiesOf (located : Location → SchemaId → Prop) (location : Location)
    (node : Option Value) (properties : Entries SchemaId) : Prop :=
  properties.keys = Entries.keys ((node.bind Value.members?).getD []) ∧
    ∀ entry ∈ properties, located ((location.child "properties").child entry.1) entry.2

/-- What is said of other properties is what the keyword says: a schema or that there are none. -/
def AdditionalOf (located : Location → SchemaId → Prop) (location : Location) :
    Option Value → Additional → Prop
  | some (.bool false), additional => additional = .forbidden
  | some (.object _), additional =>
    ∃ id, additional = .schema id ∧ located (location.child "additionalProperties") id
  | _, additional => additional = .allowed

/-- The schemas are those of the array at a keyword, in order. -/
def MembersOf (located : Location → SchemaId → Prop) (location : Location) (keyword : String) :
    Option Value → List SchemaId → Prop
  | none, members => members = []
  | some (.array items), members =>
    members.length = items.length ∧ ∀ (i : Nat) id, members[i]? = some id →
      located ((location.child keyword).child (Decimal.integerText i)) id
  | some _, _ => False

/-- The schema is the one at a keyword, whatever stands there. -/
def NestedOf (located : Location → SchemaId → Prop) (location : Location) (keyword : String) :
    Option Value → Option SchemaId → Prop
  | some _, schema => ∃ id, schema = some id ∧ located (location.child keyword) id
  | none, schema => schema = none

/-- The discriminator has the property and the tags of the object at the keyword, and its tags select
schemas that stand somewhere. -/
def DiscriminatorOf (located : Location → SchemaId → Prop) :
    Option Value → Option Discriminator → Prop
  | some (.object members), discriminator =>
    ∃ property mapping, discriminator = some ⟨property, mapping⟩ ∧
      Entries.get? "propertyName" members = some (.string property) ∧
      mapping.keys =
        Entries.keys (((Entries.get? "mapping" members).bind Value.members?).getD []) ∧
      ∀ entry ∈ mapping, ∃ target, located target entry.2
  | _, discriminator => discriminator = none

/-- A descriptor says what the members of an object at a location say. -/
structure Transcribes (located : Location → SchemaId → Prop) (location : Location)
    (members : Entries Value) (d : Descriptor) : Prop where
  stands : d.location = location.text
  name : d.name = Schema.componentName location
  never : d.never = false
  types : TypesOf (Entries.get? "type" members) d.types
  format : d.format = (Entries.get? "format" members).bind Value.text?
  nullable : d.nullable = Schema.flag (Entries.get? "nullable" members)
  enumeration : d.enumeration = (Entries.get? "enum" members).bind Value.items?
  constant : d.constant = Entries.get? "const" members
  default : d.default = Entries.get? "default" members
  sample : d.sample = Entries.get? "example" members
  lower : (d.minimum, d.exclusiveMinimum) =
    Schema.readBound (Entries.get? "minimum" members) (Entries.get? "exclusiveMinimum" members)
  upper : (d.maximum, d.exclusiveMaximum) =
    Schema.readBound (Entries.get? "maximum" members) (Entries.get? "exclusiveMaximum" members)
  multipleOf : d.multipleOf = (Entries.get? "multipleOf" members).bind Value.real?
  minLength : d.minLength = (Entries.get? "minLength" members).bind Value.natural?
  maxLength : d.maxLength = (Entries.get? "maxLength" members).bind Value.natural?
  pattern : PatternOf (Entries.get? "pattern" members) d.pattern
  items : ItemsOf located location (Entries.get? "items" members) d.items
  minItems : d.minItems = (Entries.get? "minItems" members).bind Value.natural?
  maxItems : d.maxItems = (Entries.get? "maxItems" members).bind Value.natural?
  uniqueItems : d.uniqueItems = Schema.flag (Entries.get? "uniqueItems" members)
  properties : PropertiesOf located location (Entries.get? "properties" members) d.properties
  required : d.required = Schema.strings (Entries.get? "required" members)
  additional : AdditionalOf located location (Entries.get? "additionalProperties" members)
    d.additional
  minProperties : d.minProperties = (Entries.get? "minProperties" members).bind Value.natural?
  maxProperties : d.maxProperties = (Entries.get? "maxProperties" members).bind Value.natural?
  allOf : MembersOf located location "allOf" (Entries.get? "allOf" members) d.allOf
  oneOf : MembersOf located location "oneOf" (Entries.get? "oneOf" members) d.oneOf
  anyOf : MembersOf located location "anyOf" (Entries.get? "anyOf" members) d.anyOf
  not : NestedOf located location "not" (Entries.get? "not" members) d.not
  discriminator : DiscriminatorOf located (Entries.get? "discriminator" members) d.discriminator

/-- A text at a schema is mapped to a location: to the one to which it has been found to lead, if it is
a reference, and otherwise to that of the component it names. -/
def MapsTo (library : Library) (location : Location) (text : String) (mapped : Location) : Prop :=
  if text.toList.contains '#' || text.toList.contains '/' then
    ∃ absolute, location.document.join text = .ok absolute ∧
      Entries.get? absolute.text library.resolved = some mapped
  else
    mapped = (((Location.root location.document).child "components").child "schemas").child text

/-- The tags of a discriminator select the schemas at the locations to which their texts are mapped. -/
def TagsOf (library : Library) (located : Location → SchemaId → Prop) (location : Location)
    (node : Option Value) (discriminator : Option Discriminator) : Prop :=
  ∀ given ∈ discriminator, ∀ entry ∈ given.mapping, ∃ text mapped,
    (entry.1, .string text) ∈ ((node.bind (Value.member? "mapping")).bind Value.members?).getD [] ∧
      MapsTo library location text mapped ∧ located mapped entry.2

/-- A descriptor says what the node at a location says, up to what is found out about composed
schemas later: that everything is admitted, or nothing, or what an object's members say. -/
def Describes (located : Location → SchemaId → Prop) (location : Location) :
    Value → Descriptor → Prop
  | .bool admitted, d =>
    d = { unrestricted location.text none with never := !admitted, merged := d.merged }
  | .object members, d => d.Transcribes located location members
  | _, _ => False

/-- A descriptor says what the node at a location says, and its tags select what they are mapped to. -/
structure Records (library : Library) (located : Location → SchemaId → Prop) (location : Location)
    (node : Value) (d : Descriptor) : Prop where
  describes : Describes located location node d
  tags : TagsOf library located location (node.member? "discriminator") d.discriminator

section Mono

variable (wider : ∀ target id, located target id → known target id)
include wider

theorem ItemsOf.mono {node : Option Value} {items : Option SchemaId}
    (h : ItemsOf located location node items) : ItemsOf known location node items := by
  unfold ItemsOf at *
  split at h
  · obtain ⟨id, rfl, there⟩ := h
    exact ⟨id, rfl, wider _ _ there⟩
  · obtain ⟨id, rfl, there⟩ := h
    exact ⟨id, rfl, wider _ _ there⟩
  · exact h

theorem PropertiesOf.mono {node : Option Value} {properties : Entries SchemaId}
    (h : PropertiesOf located location node properties) :
    PropertiesOf known location node properties :=
  ⟨h.1, fun entry member => wider _ _ (h.2 entry member)⟩

theorem AdditionalOf.mono {node : Option Value} {additional : Additional}
    (h : AdditionalOf located location node additional) :
    AdditionalOf known location node additional := by
  unfold AdditionalOf at *
  split at h
  · exact h
  · obtain ⟨id, rfl, there⟩ := h
    exact ⟨id, rfl, wider _ _ there⟩
  · exact h

theorem MembersOf.mono {keyword : String} {node : Option Value} {members : List SchemaId}
    (h : MembersOf located location keyword node members) :
    MembersOf known location keyword node members := by
  unfold MembersOf at *
  split at h
  · exact h
  · exact ⟨h.1, fun i id found => wider _ _ (h.2 i id found)⟩
  · exact h

theorem NestedOf.mono {keyword : String} {node : Option Value} {schema : Option SchemaId}
    (h : NestedOf located location keyword node schema) :
    NestedOf known location keyword node schema := by
  unfold NestedOf at *
  split at h
  · obtain ⟨id, rfl, there⟩ := h
    exact ⟨id, rfl, wider _ _ there⟩
  · exact h

theorem DiscriminatorOf.mono {node : Option Value} {discriminator : Option Discriminator}
    (h : DiscriminatorOf located node discriminator) : DiscriminatorOf known node discriminator := by
  unfold DiscriminatorOf at *
  split at h
  · obtain ⟨property, mapping, same, named, keys, there⟩ := h
    refine ⟨property, mapping, same, named, keys, ?_⟩
    intro entry member
    obtain ⟨target, located⟩ := there entry member
    exact ⟨target, wider _ _ located⟩
  · exact h

theorem Describes.mono {node : Value} {d : Descriptor} (h : Describes located location node d) :
    Describes known location node d := by
  unfold Describes at *
  split at h
  · exact h
  · exact { h with
      items := h.items.mono wider
      properties := h.properties.mono wider
      additional := h.additional.mono wider
      allOf := h.allOf.mono wider
      oneOf := h.oneOf.mono wider
      anyOf := h.anyOf.mono wider
      not := h.not.mono wider
      discriminator := h.discriminator.mono wider }
  · exact h

theorem Records.mono {library later : Library} {node : Value} {d : Descriptor}
    (h : Records library located location node d)
    (resolved : ∀ key target, Entries.get? key library.resolved = some target →
      Entries.get? key later.resolved = some target) : Records later known location node d where
  describes := h.describes.mono wider
  tags given tagged entry member := by
    obtain ⟨text, mapped, written, maps, there⟩ := h.tags given tagged entry member
    refine ⟨text, mapped, written, ?_, wider _ _ there⟩
    unfold MapsTo at *
    split
    · next marked =>
      rw [if_pos marked] at maps
      obtain ⟨absolute, joined, leads⟩ := maps
      exact ⟨absolute, joined, resolved _ _ leads⟩
    · next plain =>
      rw [if_neg plain] at maps
      exact maps

end Mono

/-- What is found out about composed schemas later does not bear on what a descriptor transcribes. -/
theorem Describes.withMerged {node : Value} {d : Descriptor} (merged : Option MergedObject)
    (h : Describes located location node d) :
    Describes located location node { d with merged := merged } := by
  unfold Describes at *
  split at h
  · rw [h]
  · exact { h with }
  · exact h

theorem Records.withMerged {library : Library} {node : Value} {d : Descriptor}
    (merged : Option MergedObject) (h : Records library located location node d) :
    Records library located location node { d with merged := merged } :=
  ⟨h.describes.withMerged merged, h.tags⟩

/-- The schemas that a descriptor refers to. -/
def references (d : Descriptor) : List SchemaId :=
  d.items.toList ++ d.properties.values
    ++ (match d.additional with
      | .schema id => [id]
      | .allowed | .forbidden => [])
    ++ d.parts ++ (d.discriminator.elim [] fun discriminator => discriminator.mapping.values)

theorem ItemsOf.located_of_mem {node : Option Value} {items : Option SchemaId} {id : SchemaId}
    (h : ItemsOf located location node items) (member : id ∈ items) :
    ∃ target, located target id := by
  unfold ItemsOf at h
  split at h
  · obtain ⟨_, rfl, there⟩ := h
    cases member
    exact ⟨_, there⟩
  · obtain ⟨_, rfl, there⟩ := h
    cases member
    exact ⟨_, there⟩
  · rw [h] at member
    cases member

theorem AdditionalOf.located_of_schema {node : Option Value} {id : SchemaId}
    (h : AdditionalOf located location node (.schema id)) : ∃ target, located target id := by
  unfold AdditionalOf at h
  split at h
  · cases h
  · obtain ⟨_, same, there⟩ := h
    cases same
    exact ⟨_, there⟩
  · cases h

theorem MembersOf.located_of_mem {keyword : String} {node : Option Value} {members : List SchemaId}
    {id : SchemaId} (h : MembersOf located location keyword node members) (member : id ∈ members) :
    ∃ target, located target id := by
  unfold MembersOf at h
  split at h
  · rw [h] at member
    cases member
  · obtain ⟨i, found⟩ := List.getElem?_of_mem member
    exact ⟨_, h.2 i id found⟩
  · exact h.elim

theorem NestedOf.located_of_mem {keyword : String} {node : Option Value} {schema : Option SchemaId}
    {id : SchemaId} (h : NestedOf located location keyword node schema) (member : id ∈ schema) :
    ∃ target, located target id := by
  unfold NestedOf at h
  split at h
  · obtain ⟨_, rfl, there⟩ := h
    cases member
    exact ⟨_, there⟩
  · rw [h] at member
    cases member

theorem DiscriminatorOf.located_of_mem {node : Option Value} {discriminator : Discriminator}
    {id : SchemaId} (h : DiscriminatorOf located node (some discriminator))
    (member : id ∈ discriminator.mapping.values) : ∃ target, located target id := by
  unfold DiscriminatorOf at h
  split at h
  · obtain ⟨_, _, same, -, -, there⟩ := h
    cases same
    obtain ⟨entry, present, rfl⟩ := List.mem_map.mp member
    exact there entry present
  · cases h

/-- Each schema that a transcription refers to stands somewhere. -/
theorem Describes.located_of_mem_references {node : Value} {d : Descriptor} {id : SchemaId}
    (h : Describes located location node d) (member : id ∈ d.references) :
    ∃ target, located target id := by
  unfold Describes at h
  split at h
  · rw [h] at member
    simp [references, parts, unrestricted, Entries.values] at member
  · simp only [references, List.mem_append, Option.mem_toList, mem_parts_iff] at member
    rcases member with (((items | properties) | additional) | allOf | oneOf | anyOf | not) | mapping
    · exact h.items.located_of_mem items
    · obtain ⟨entry, present, rfl⟩ := List.mem_map.mp properties
      exact ⟨_, h.properties.2 entry present⟩
    · have said := h.additional
      split at additional
      · next other found =>
        rw [found] at said
        rw [List.mem_singleton.mp additional]
        exact said.located_of_schema
      · cases additional
      · cases additional
    · exact h.allOf.located_of_mem allOf
    · exact h.oneOf.located_of_mem oneOf
    · exact h.anyOf.located_of_mem anyOf
    · exact h.not.located_of_mem not
    · have said := h.discriminator
      cases found : d.discriminator with
      | none =>
        rw [found] at mapping
        cases mapping
      | some discriminator =>
        rw [found] at said mapping
        exact said.located_of_mem mapping
  · exact h.elim

end Descriptor

end ApiContract
