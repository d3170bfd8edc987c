import ApiContract.Schema.Catalog
import ApiContract.Reference.Library
import ApiContract.DefinitionError
/-!
# Building a catalog

`buildSchema` gives the schema at a location its position in the catalog, and first those it refers
to. References are followed, so that each schema is described once, at the location where it stands.
A position is given out before the schema is described, which is what makes recursive schemas end.
-/

namespace ApiContract

open Json (Value)

/-- The documents of a description and the schemas described so far. -/
structure Construction where
  library : Library
  catalog : Catalog

/-- A step of building a description, which may find a mistake in it. -/
abbrev Build := StateT Construction (Except DefinitionError)

namespace Build

/-- End with an error. -/
def fail {α : Type} (error : DefinitionError) : Build α := fun _ => .error error

/-- End with the error that a node is not what it has to be. -/
def malformed {α : Type} (location : Location) (problem : String) : Build α :=
  fail (.malformed location.text problem)

/-- An operation on the library as a step. -/
def withLibrary {α : Type} (operation : Library → Except ReferenceError α × Library) : Build α :=
  fun state =>
    match operation state.library with
    | (.ok value, library) => .ok (value, { state with library := library })
    | (.error cause, _) => .error (.reference cause)

/-- The location that a reference in the document at `base` leads to. -/
def resolve (loader : Loader) (base : Url) (reference : String) : Build Location :=
  withLibrary fun library => library.resolve loader base reference

/-- The location itself, or where it leads if a reference stands there. -/
def dereference (loader : Loader) (location : Location) : Build Location :=
  withLibrary fun library => library.dereference loader location

/-- The node at a location. -/
def node? (location : Location) : Build (Option Value) := fun state =>
  .ok (state.library.node? location, state)

/-- The members of the object at a location. -/
def object (location : Location) : Build (Entries Value) :=
  withLibrary fun library => (library.object location, library)

/-- The position of the schema at a location, if it has one. -/
def findSchema? (location : Location) : Build (Option SchemaId) := fun state =>
  .ok (state.catalog.find? location, state)

/-- Give out a position for the schema at a location. -/
def reserveSchema (location : Location) : Build SchemaId := fun state =>
  .ok (state.catalog.size, { state with catalog := state.catalog.reserve location })

/-- Describe the schema at a position. -/
def setSchema (id : SchemaId) (d : Descriptor) : Build Unit := fun state =>
  .ok ((), { state with catalog := state.catalog.set id d })

end Build

namespace Schema

/-- The name that a location among the components gives. -/
def componentName (location : Location) : Option String :=
  match location.tokens with
  | ["components", "schemas", name] => some name
  | _ => none

/-- The type of a name in the schema at a location. -/
def typeNamed (location : Location) (name : String) : Build SchemaType :=
  match SchemaType.ofName? name with
  | some type => pure type
  | none => Build.malformed location ("unknown type " ++ Text.quoted name)

/-- The types that a schema names, by a string or an array of strings. -/
def readTypes (location : Location) : Option Value → Build (List SchemaType)
  | none => pure []
  | some (.string name) => return [← typeNamed location name]
  | some (.array names) =>
    names.mapM fun name =>
      match name with
      | .string name => typeNamed location name
      | _ => Build.malformed location "type entries must be strings"
  | some _ => Build.malformed location "type must be a string or array"

/-- A lower or upper bound and the exclusive one. A flag makes the bound itself exclusive. -/
def readBound (inclusive exclusive : Option Value) :
    Option Decimal.Binary64 × Option Decimal.Binary64 :=
  let bound := inclusive.bind Value.real?
  match exclusive with
  | some (.bool true) => (none, bound)
  | some (.number n) => (bound, some n.toBinary64)
  | _ => (bound, none)

/-- The pattern of a schema. -/
def readPattern (location : Location) : Option Value → Build (Option Pattern)
  | some (.string source) =>
    match Pattern.compile? source with
    | some pattern => pure (some pattern)
    | none => Build.fail (.invalidPattern location.text source)
  | _ => pure none

/-- The strings of an array. -/
def strings (value : Option Value) : List String :=
  ((value.bind Value.items?).getD []).filterMap Value.text?

/-- Whether a flag is there and set. -/
def flag (value : Option Value) : Bool := (value.bind Value.bool?).getD false

/-- The schema of the items, if the node at the keyword is one. -/
def readItems (visit : Location → Build SchemaId) (location : Location) :
    Option Value → Build (Option SchemaId)
  | some (.object _) | some (.bool _) => return some (← visit (location.child "items"))
  | _ => pure none

/-- The schemas of the properties. -/
def readProperties (visit : Location → Build SchemaId) (location : Location)
    (properties : Option Value) : Build (Entries SchemaId) :=
  ((properties.bind Value.members?).getD []).mapM fun (name, _) => do
    if name = "" then Build.fail (.emptyPropertyName location.text)
    else return (name, ← visit ((location.child "properties").child name))

/-- What the schema says of other properties. -/
def readAdditional (visit : Location → Build SchemaId) (location : Location) :
    Option Value → Build Additional
  | some (.bool false) => pure .forbidden
  | some (.object _) => return .schema (← visit (location.child "additionalProperties"))
  | _ => pure .allowed

/-- The schemas of an array of them. -/
def readMembers (visit : Location → Build SchemaId) (location : Location) (keyword : String) :
    Option Value → Build (List SchemaId)
  | none => pure []
  | some (.array items) =>
    (List.range items.length).mapM fun (i : Nat) =>
      visit ((location.child keyword).child (Decimal.integerText i))
  | some _ => Build.malformed location (keyword ++ " must be an array")

/-- The location of the member that a tag is mapped to: a reference, or the name of a component. -/
def mappedLocation (loader : Loader) (location : Location) (target : String) : Build Location :=
  if target.toList.contains '#' || target.toList.contains '/' then
    Build.resolve loader location.document target
  else
    pure ((((Location.root location.document).child "components").child "schemas").child target)

/-- The discriminator of a union. -/
def readDiscriminator (loader : Loader) (visit : Location → Build SchemaId) (location : Location) :
    Option Value → Build (Option Discriminator)
  | some (.object members) => do
    match Entries.get? "propertyName" members with
    | some (.string property) =>
      let entries := ((Entries.get? "mapping" members).bind Value.members?).getD []
      let mapping ← entries.mapM fun (tag, target) => do
        match target with
        | .string target => return (tag, ← visit (← mappedLocation loader location target))
        | _ => Build.malformed location "discriminator mapping values must be strings"
      return some ⟨property, mapping⟩
    | _ => Build.malformed location "discriminator requires propertyName"
  | _ => pure none

/-- The schema that a keyword holds, whatever stands there. -/
def readNested (visit : Location → Build SchemaId) (location : Location) (keyword : String) :
    Option Value → Build (Option SchemaId)
  | some _ => return some (← visit (location.child keyword))
  | none => pure none

/-- The descriptor of the object schema at a location, where `visit` builds the schemas that it
refers to. -/
def describe (loader : Loader) (visit : Location → Build SchemaId) (location : Location)
    (members : Entries Value) : Build Descriptor := do
  let at? (keyword : String) : Option Value := Entries.get? keyword members
  let natural? (keyword : String) : Option Nat := (at? keyword).bind Value.natural?
  let types ← readTypes location (at? "type")
  let pattern ← readPattern location (at? "pattern")
  let items ← readItems visit location (at? "items")
  let properties ← readProperties visit location (at? "properties")
  let additional ← readAdditional visit location (at? "additionalProperties")
  let allOf ← readMembers visit location "allOf" (at? "allOf")
  let oneOf ← readMembers visit location "oneOf" (at? "oneOf")
  let anyOf ← readMembers visit location "anyOf" (at? "anyOf")
  let not ← readNested visit location "not" (at? "not")
  let discriminator ← readDiscriminator loader visit location (at? "discriminator")
  let (minimum, exclusiveMinimum) := readBound (at? "minimum") (at? "exclusiveMinimum")
  let (maximum, exclusiveMaximum) := readBound (at? "maximum") (at? "exclusiveMaximum")
  return {
    location := location.text
    name := componentName location
    types := types
    format := (at? "format").bind Value.text?
    nullable := flag (at? "nullable")
    never := false
    enumeration := (at? "enum").bind Value.items?
    constant := at? "const"
    default := at? "default"
    sample := at? "example"
    minimum := minimum
    maximum := maximum
    exclusiveMinimum := exclusiveMinimum
    exclusiveMaximum := exclusiveMaximum
    multipleOf := (at? "multipleOf").bind Value.real?
    minLength := natural? "minLength"
    maxLength := natural? "maxLength"
    pattern := pattern
    items := items
    minItems := natural? "minItems"
    maxItems := natural? "maxItems"
    uniqueItems := flag (at? "uniqueItems")
    properties := properties
    required := strings (at? "required")
    additional := additional
    minProperties := natural? "minProperties"
    maxProperties := natural? "maxProperties"
    allOf := allOf
    oneOf := oneOf
    anyOf := anyOf
    not := not
    discriminator := discriminator
    merged := none }

/-- The descriptor of the schema that a node is. -/
def describeNode (loader : Loader) (visit : Location → Build SchemaId) (location : Location) :
    Value → Build Descriptor
  | .bool admitted => pure { Descriptor.unrestricted location.text none with never := !admitted }
  | .object members => describe loader visit location members
  | other => Build.fail (.reference (.incompatible location.text "schema" other.typeName))

/-- The position of the schema at a location, which is built unless it has been. `fuel` bounds how
deep schemas stand in one another. -/
def buildWith (loader : Loader) : (fuel : Nat) → Location → Build SchemaId
  | 0, location => Build.fail (.reference (.endless location.text))
  | fuel + 1, location => do
    let location ← Build.dereference loader location
    match ← Build.findSchema? location with
    | some id => return id
    | none =>
      match ← Build.node? location with
      | none => Build.fail (.reference (.unresolved location.text))
      | some node =>
        let id ← Build.reserveSchema location
        let d ← describeNode loader (buildWith loader fuel) location node
        Build.setSchema id d
        return id

end Schema

/-- How deep schemas can stand in one another before one comes up twice: a location is a node below
one to which a reference leads, and references are nodes themselves. -/
def Library.depthLimit (library : Library) (loader : Loader) : Nat :=
  Nat.pow (library.size + loader.capacity + 2) 2

/-- The position of the schema at a location, which is built unless it has been. -/
def buildSchema (loader : Loader) (location : Location) : Build SchemaId := fun state =>
  Schema.buildWith loader (state.library.depthLimit loader) location state

end ApiContract
