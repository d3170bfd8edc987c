import ApiContract.Schema.Catalog
import ApiContract.Decimal.Reader
/-!
# Hints

A text does not say whether it writes a number or a string. A `Hint` says what a schema expects, and
leads on to what it expects of items and properties. What a schema does not say by itself is looked
for in the schemas that it is composed of.
-/

namespace ApiContract

open Json (Value)

/-- A scalar type of texts. -/
inductive Primitive where
  | string
  | integer
  | number
  | boolean
deriving DecidableEq, Repr, Inhabited

/-- The kind of value that a schema expects. -/
inductive ValueKind where
  | scalar (type : Primitive)
  | array
  | object
deriving DecidableEq, Repr, Inhabited

/-- A schema of a catalog as an expectation; no schema expects strings. -/
structure Hint where
  catalog : Catalog
  schema : Option SchemaId
deriving Inhabited

namespace Hint

/-- The hint that expects strings. -/
def untyped : Hint := ⟨.empty, none⟩

/-- How many levels of composed schemas are searched. -/
def searchDepth : Nat := 9

/-- The first answer of a schema or of those it is composed of, so many levels deep. -/
def findIn {α : Type} (catalog : Catalog) (answer? : Descriptor → Option α) :
    (levels : Nat) → SchemaId → Option α
  | 0, _ => none
  | levels + 1, id =>
    let d := catalog.descriptor id
    (answer? d).orElse fun _ =>
      (d.allOf ++ d.oneOf ++ d.anyOf).findSome? fun member => findIn catalog answer? levels member

/-- The first answer of the schema or of those it is composed of. -/
def find? {α : Type} (hint : Hint) (answer? : Descriptor → Option α) : Option α :=
  hint.schema.bind fun id => findIn hint.catalog answer? searchDepth id

/-- The type that a schema names or implies. -/
def typeOf? (d : Descriptor) : Option SchemaType :=
  (d.types.find? fun type => type != .null).orElse fun _ =>
    if !d.properties.isEmpty then some .object
    else if d.items.isSome then some .array
    else none

/-- The kind of value that is expected. -/
def kind (hint : Hint) : ValueKind :=
  match hint.find? typeOf? with
  | some .array => .array
  | some .object => .object
  | some .integer => .scalar .integer
  | some .number => .scalar .number
  | some .boolean => .scalar .boolean
  | _ => .scalar .string

/-- What is expected of items. -/
def items (hint : Hint) : Hint := { hint with schema := hint.find? Descriptor.items }

/-- The schema of a property, listed or not. -/
def propertyOf? (name : String) (d : Descriptor) : Option SchemaId :=
  (Entries.get? name d.properties).orElse fun _ =>
    match d.additional with
    | .schema id => some id
    | .allowed | .forbidden => none

/-- What is expected of a property. -/
def property (hint : Hint) (name : String) : Hint :=
  { hint with schema := hint.find? (propertyOf? name) }

/-- The number that a text writes, an integer of 64 bits if possible; no text is null, and any other
text is itself. -/
def coerceNumber (text : String) : Value :=
  let cs := text.toList
  match (Decimal.readInteger? 10 cs).filter Decimal.isSigned64 with
  | some n => .ofInt n
  | none =>
    match Decimal.readReal? cs with
    | some x => .number (.real x)
    | none => if text = "" then .null else .string text

/-- The truth value that a text writes; no text is null, and any other text is itself. -/
def coerceBoolean : String → Value
  | "true" => .bool true
  | "false" => .bool false
  | "" => .null
  | other => .string other

/-- The scalar that a text writes where this is expected. -/
def coerce (hint : Hint) (text : String) : Value :=
  match hint.kind with
  | .scalar .integer | .scalar .number => coerceNumber text
  | .scalar .boolean => coerceBoolean text
  | .scalar .string | .array | .object => .string text

end Hint

namespace Catalog

/-- A schema as an expectation. -/
def hint (catalog : Catalog) (id : SchemaId) : Hint := ⟨catalog, some id⟩

end Catalog

end ApiContract
