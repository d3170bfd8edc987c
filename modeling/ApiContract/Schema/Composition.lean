import ApiContract.Schema.Builder
/-!
# Composition

The checks that need all schemas of a catalog: the tags of a union tell its members apart, and the
schemas that one is composed of do not ask different things of a property. `Catalog.complete` makes
them and records what each composed schema asks of objects.
-/

namespace ApiContract

open Json (Value)

namespace Catalog

/-- The first tag whose target is not a member. -/
def strayTag? (d : Descriptor) (discriminator : Discriminator) : Option (String × SchemaId) :=
  discriminator.mapping.find? fun entry => !d.members.contains entry.2

/-- The first name that two different members share, where `named` holds the members before. -/
def sharedName? (catalog : Catalog) : (named : Entries SchemaId) → List SchemaId → Option String
  | _, [] => none
  | named, id :: rest =>
    match (catalog.descriptor id).name with
    | none => sharedName? catalog named rest
    | some name =>
      match Entries.get? name named with
      | some other => if other = id then sharedName? catalog named rest else some name
      | none => sharedName? catalog (Entries.put name id named) rest

/-- The mistake in the discriminator of a union, if there is one. -/
def discriminatorError? (catalog : Catalog) (d : Descriptor) : Option DefinitionError :=
  match d.discriminator with
  | none => none
  | some discriminator =>
    if !d.isUnion then none
    else
      match strayTag? d discriminator with
      | some (tag, target) =>
        some (.ambiguousDiscriminator d.location
          ("tag " ++ Text.quoted tag ++ " maps to " ++ (catalog.descriptor target).location
            ++ " which is not a member of the union"))
      | none =>
        (sharedName? catalog [] d.members).map fun name =>
          .ambiguousDiscriminator d.location ("several members are named " ++ Text.quoted name)

/-- How deep two schemas are compared; beyond that only a schema itself is compatible with it. -/
def comparisonDepth : Nat := 8

/-- Whether two optional values are the same or both missing. -/
def sameOption {α : Type} (same : α → α → Bool) : Option α → Option α → Bool
  | some x, some y => same x y
  | none, none => true
  | _, _ => false

/-- Whether two lists are the same, item by item. -/
def sameList {α : Type} (same : α → α → Bool) : List α → List α → Bool
  | [], [] => true
  | x :: xs, y :: ys => same x y && sameList same xs ys
  | _, _ => false

/-- Names in ascending order. -/
def sorted (names : List String) : List String := names.mergeSort fun a b => !(b < a)

/-- Whether two descriptors put the same constraints on values, given what `same` says of the
schemas they refer to. Annotations do not count. -/
def sameDescriptor (same : SchemaId → SchemaId → Bool) (x y : Descriptor) : Bool :=
  let sameReal := sameOption Decimal.Binary64.same
  x.types == y.types
    && x.format == y.format
    && x.nullable == y.nullable
    && x.never == y.never
    && sameOption (sameList Value.same) x.enumeration y.enumeration
    && sameOption Value.same x.constant y.constant
    && sameReal x.minimum y.minimum
    && sameReal x.maximum y.maximum
    && sameReal x.exclusiveMinimum y.exclusiveMinimum
    && sameReal x.exclusiveMaximum y.exclusiveMaximum
    && sameReal x.multipleOf y.multipleOf
    && x.minLength == y.minLength
    && x.maxLength == y.maxLength
    && x.pattern.map Pattern.source == y.pattern.map Pattern.source
    && sameOption same x.items y.items
    && x.minItems == y.minItems
    && x.maxItems == y.maxItems
    && x.uniqueItems == y.uniqueItems
    && x.properties.length == y.properties.length
    && x.properties.all (fun entry =>
      match Entries.get? entry.1 y.properties with
      | some other => same entry.2 other
      | none => false)
    && sorted x.required == sorted y.required
    && (match x.additional, y.additional with
      | .schema p, .schema q => same p q
      | p, q => p == q)
    && x.minProperties == y.minProperties
    && x.maxProperties == y.maxProperties
    && sameList same x.allOf y.allOf
    && sameList same x.oneOf y.oneOf
    && sameList same x.anyOf y.anyOf
    && sameOption same x.not y.not

/-- Whether two schemas put the same constraints on values, compared so many levels deep. -/
def sameConstraints (catalog : Catalog) : (depth : Nat) → SchemaId → SchemaId → Bool
  | 0, a, b => a == b
  | depth + 1, a, b =>
    a == b
      || sameDescriptor (fun x y => sameConstraints catalog depth x y) (catalog.descriptor a)
        (catalog.descriptor b)

/-- Whether two schemas may both be those of one property. -/
def compatible (catalog : Catalog) (a b : SchemaId) : Bool :=
  sameConstraints catalog comparisonDepth a b

/-- The properties of a part added to those of the whole; the first property that is defined in
different ways is the error. -/
def addProperties (catalog : Catalog) : Entries SchemaId → Entries SchemaId →
    Except String (Entries SchemaId)
  | whole, [] => .ok whole
  | whole, (name, id) :: rest =>
    match Entries.get? name whole with
    | some existing =>
      if catalog.compatible existing id then addProperties catalog whole rest else .error name
    | none => addProperties catalog (whole ++ [(name, id)]) rest

/-- The names of a part added to those of the whole. -/
def addRequired (whole part : List String) : List String :=
  part.foldl (fun names name => if names.contains name then names else names ++ [name]) whole

/-- What several schemas ask of an object, added one after the other to what the schema at
`location` asks by itself. -/
def mergeMembers (catalog : Catalog) (location : String)
    (visit : SchemaId → Except DefinitionError MergedObject) :
    MergedObject → List SchemaId → Except DefinitionError MergedObject
  | merged, [] => .ok merged
  | merged, member :: rest =>
    match visit member with
    | .error e => .error e
    | .ok part =>
      match addProperties catalog merged.properties part.properties with
      | .error name => .error (.conflictingProperty location name)
      | .ok properties =>
        mergeMembers catalog location visit ⟨properties, addRequired merged.required part.required⟩
          rest

/-- What a schema and those it is composed of ask of an object. A schema that is being merged adds
nothing again; `fuel` bounds how many can be. -/
def merge (catalog : Catalog) :
    (fuel : Nat) → (visiting : List SchemaId) → SchemaId → Except DefinitionError MergedObject
  | 0, _, _ => .ok ⟨[], []⟩
  | fuel + 1, visiting, id =>
    if visiting.contains id then .ok ⟨[], []⟩
    else
      let d := catalog.descriptor id
      mergeMembers catalog d.location (merge catalog fuel (id :: visiting)) d.ownObject d.allOf

/-- What a schema and those it is composed of ask of an object. -/
def mergeAll (catalog : Catalog) (id : SchemaId) : Except DefinitionError MergedObject :=
  merge catalog (catalog.size + 1) [] id

/-- Record what composed schemas ask of objects. -/
def recordMerged (catalog : Catalog) : List SchemaId → Except DefinitionError Catalog
  | [] => .ok catalog
  | id :: rest =>
    let d := catalog.descriptor id
    if d.allOf.isEmpty then recordMerged catalog rest
    else
      match catalog.mergeAll id with
      | .error e => .error e
      | .ok merged => recordMerged (catalog.set id { d with merged := some merged }) rest

/-- The catalog after all checks, with what composed schemas ask of objects. -/
def complete (catalog : Catalog) : Except DefinitionError Catalog :=
  match catalog.descriptors.toList.findSome? (discriminatorError? catalog) with
  | some e => .error e
  | none => recordMerged catalog (List.range catalog.size)

end Catalog

end ApiContract
