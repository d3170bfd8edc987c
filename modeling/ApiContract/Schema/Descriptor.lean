import ApiContract.Json.Value
import ApiContract.Pattern.Basic
/-!
# Schema descriptors

What a schema says about values, with the schemas it refers to given by their positions in a
catalog. Positions make recursive schemas plain data.
-/

namespace ApiContract

open Json (Value)
open Decimal (Binary64)

/-- The types that a schema can name. -/
inductive SchemaType where
  | null
  | boolean
  | integer
  | number
  | string
  | array
  | object
deriving DecidableEq, Repr, Inhabited

namespace SchemaType

/-- All types. -/
def all : List SchemaType := [null, boolean, integer, number, string, array, object]

/-- The name of a type in a schema. -/
def name : SchemaType → String
  | null => "null"
  | boolean => "boolean"
  | integer => "integer"
  | number => "number"
  | string => "string"
  | array => "array"
  | object => "object"

/-- The type of a name. -/
def ofName? (s : String) : Option SchemaType := all.find? fun type => type.name = s

/-- Whether a value is of a type. Integers are numbers, and a number without a fraction is an
integer, so `1.0` is one. -/
def includes : SchemaType → Value → Bool
  | null, .null => true
  | boolean, .bool _ => true
  | integer, .number n => n.toInt?.isSome
  | number, .number _ => true
  | string, .string _ => true
  | array, .array _ => true
  | object, .object _ => true
  | _, _ => false

theorem ofName?_name (type : SchemaType) : ofName? type.name = some type := by
  cases type <;> decide

end SchemaType

/-- The position of a schema in a catalog. -/
abbrev SchemaId := Nat

/-- What a schema says of properties that it does not list. -/
inductive Additional where
  | allowed
  | forbidden
  | schema (id : SchemaId)
deriving DecidableEq, Repr, Inhabited

/-- How the members of a union are told apart: by the text of one property. -/
structure Discriminator where
  property : String
  /-- The members of tags that are not the members' names. -/
  mapping : Entries SchemaId
deriving DecidableEq, Repr, Inhabited

/-- The properties that a schema and the schemas it is composed of ask of an object. -/
structure MergedObject where
  properties : Entries SchemaId
  required : List String
deriving DecidableEq, Repr, Inhabited

/-- What a schema says. -/
structure Descriptor where
  /-- The text of the schema's location. -/
  location : String
  /-- The name among the components, which is also the schema's tag in a union. -/
  name : Option String
  /-- The types of which one is needed; no types mean any. -/
  types : List SchemaType
  format : Option String
  nullable : Bool
  /-- Whether no value at all is admitted. -/
  never : Bool
  enumeration : Option (List Value)
  constant : Option Value
  default : Option Value
  sample : Option Value
  minimum : Option Binary64
  maximum : Option Binary64
  exclusiveMinimum : Option Binary64
  exclusiveMaximum : Option Binary64
  multipleOf : Option Binary64
  minLength : Option Nat
  maxLength : Option Nat
  pattern : Option Pattern
  items : Option SchemaId
  minItems : Option Nat
  maxItems : Option Nat
  uniqueItems : Bool
  properties : Entries SchemaId
  required : List String
  additional : Additional
  minProperties : Option Nat
  maxProperties : Option Nat
  allOf : List SchemaId
  oneOf : List SchemaId
  anyOf : List SchemaId
  not : Option SchemaId
  discriminator : Option Discriminator
  /-- What the schema and those it is composed of ask of an object, where it has `allOf`. -/
  merged : Option MergedObject
deriving Inhabited

namespace Descriptor

/-- The descriptor that admits every value. -/
def unrestricted (location : String) (name : Option String) : Descriptor :=
  { location := location
    name := name
    types := []
    format := none
    nullable := false
    never := false
    enumeration := none
    constant := none
    default := none
    sample := none
    minimum := none
    maximum := none
    exclusiveMinimum := none
    exclusiveMaximum := none
    multipleOf := none
    minLength := none
    maxLength := none
    pattern := none
    items := none
    minItems := none
    maxItems := none
    uniqueItems := false
    properties := []
    required := []
    additional := .allowed
    minProperties := none
    maxProperties := none
    allOf := []
    oneOf := []
    anyOf := []
    not := none
    discriminator := none
    merged := none }

/-- Whether null is admitted whatever else the schema says. -/
def admitsNull (d : Descriptor) : Bool := d.nullable || d.types.contains .null

/-- The members of the union that the schema is, if it is one. -/
def members (d : Descriptor) : List SchemaId := d.oneOf ++ d.anyOf

/-- Whether the schema is a union. -/
def isUnion (d : Descriptor) : Bool := !d.oneOf.isEmpty || !d.anyOf.isEmpty

/-- What the schema by itself asks of an object. -/
def ownObject (d : Descriptor) : MergedObject := ⟨d.properties, d.required⟩

end Descriptor

end ApiContract
