import ApiContract.Schema.Descriptor
import ApiContract.Decimal.Layout
import ApiContract.Json.Pointer
import ApiContract.Json.Printer
import ApiContract.Text.Quoted
/-!
# Violations

What can be wrong with a value, in which part of it, and how that is worded.
-/

namespace ApiContract

open Json (Value Number)
open Decimal (Binary64 integerText)
open Text (quoted)

/-- The tokens that lead from a value to a part of it. -/
abbrev ValuePath := List String

/-- What is wrong with a value. -/
inductive Fault where
  | neverAllowed
  | wrongType (expected : List SchemaType) (actual : Value)
  | notListed (value : Value)
  | notConstant (constant : Value)
  | belowMinimum (value bound : Binary64)
  | aboveMaximum (value bound : Binary64)
  | notAboveMinimum (value bound : Binary64)
  | notBelowMaximum (value bound : Binary64)
  | notMultiple (value step : Binary64)
  | notInt32 (value : Number)
  | tooShort (length least : Nat)
  | tooLong (length most : Nat)
  | unmatched (text pattern : String)
  /-- The search for a match was given up. -/
  | undecided (text pattern : String)
  | tooFewItems (count least : Nat)
  | tooManyItems (count most : Nat)
  | repeatedItems
  | missingProperty (name : String)
  | unexpectedProperty (name : String)
  | tooFewProperties (count least : Nat)
  | tooManyProperties (count most : Nat)
  | noAlternative (exclusive : Bool) (alternatives : Nat)
  | severalAlternatives (matching alternatives : Nat)
  | untaggedValue (property : String) (value : Value)
  | tagNotText (tag : Value)
  | missingTag (property : String)
  | unknownTag (tag : String)
  | disallowed
deriving Inhabited

namespace Fault

/-- The keyword of a schema that a fault offends against. -/
def keyword : Fault → String
  | neverAllowed => "false"
  | wrongType .. => "type"
  | notListed _ => "enum"
  | notConstant _ => "const"
  | belowMinimum .. => "minimum"
  | aboveMaximum .. => "maximum"
  | notAboveMinimum .. => "exclusiveMinimum"
  | notBelowMaximum .. => "exclusiveMaximum"
  | notMultiple .. => "multipleOf"
  | notInt32 _ => "format"
  | tooShort .. => "minLength"
  | tooLong .. => "maxLength"
  | unmatched .. | undecided .. => "pattern"
  | tooFewItems .. => "minItems"
  | tooManyItems .. => "maxItems"
  | repeatedItems => "uniqueItems"
  | missingProperty _ => "required"
  | unexpectedProperty _ => "additionalProperties"
  | tooFewProperties .. => "minProperties"
  | tooManyProperties .. => "maxProperties"
  | noAlternative true _ | severalAlternatives .. => "oneOf"
  | noAlternative false _ => "anyOf"
  | untaggedValue .. | tagNotText _ | missingTag _ | unknownTag _ => "discriminator"
  | disallowed => "not"

/-- The text of a bound or of a number that is compared with one. -/
def boundText (x : Binary64) : String := Decimal.Layout.plain.write x

/-- The text of a count. -/
def countText (n : Nat) : String := integerText n

/-- The wording of a tag that selects no member. -/
def unknownTagText (tag : String) : String :=
  "discriminator value " ++ quoted tag ++ " does not select any member"

/-- The wording of a fault. -/
def message : Fault → String
  | neverAllowed => "no value is allowed here"
  | wrongType expected actual =>
    "expected " ++ " or ".intercalate (expected.map SchemaType.name) ++ ", got " ++ actual.typeName
  | notListed value => value.render ++ " is not one of the allowed values"
  | notConstant constant => "expected " ++ constant.render
  | belowMinimum value bound => boundText value ++ " is less than " ++ boundText bound
  | aboveMaximum value bound => boundText value ++ " is greater than " ++ boundText bound
  | notAboveMinimum value bound => boundText value ++ " is not greater than " ++ boundText bound
  | notBelowMaximum value bound => boundText value ++ " is not less than " ++ boundText bound
  | notMultiple value step => boundText value ++ " is not a multiple of " ++ boundText step
  | notInt32 value => value.render ++ " is not a valid int32"
  | tooShort length least =>
    "length " ++ countText length ++ " is shorter than " ++ countText least
  | tooLong length most => "length " ++ countText length ++ " is longer than " ++ countText most
  | unmatched text pattern => quoted text ++ " does not match " ++ quoted pattern
  | undecided text pattern =>
    quoted text ++ " could not be matched against " ++ quoted pattern ++ ": " ++ Pattern.givenUp
  | tooFewItems count least =>
    countText count ++ " items, at least " ++ countText least ++ " required"
  | tooManyItems count most => countText count ++ " items, at most " ++ countText most ++ " allowed"
  | repeatedItems => "items are not unique"
  | missingProperty name => "missing required property " ++ quoted name
  | unexpectedProperty name => "unexpected property " ++ quoted name
  | tooFewProperties count least =>
    countText count ++ " properties, at least " ++ countText least ++ " required"
  | tooManyProperties count most =>
    countText count ++ " properties, at most " ++ countText most ++ " allowed"
  | noAlternative _ alternatives =>
    "value matches none of " ++ countText alternatives ++ " alternatives"
  | severalAlternatives matching alternatives =>
    "value matches " ++ countText matching ++ " of " ++ countText alternatives
      ++ " alternatives, exactly one expected"
  | untaggedValue property value =>
    "expected object with " ++ quoted property ++ ", got " ++ value.typeName
  | tagNotText tag => "discriminator must be a string, got " ++ tag.typeName
  | missingTag property => "missing discriminator property " ++ quoted property
  | unknownTag tag => unknownTagText tag
  | disallowed => "value matches a disallowed schema"

end Fault

/-- A fault in a part of a value. -/
structure Violation where
  path : ValuePath
  fault : Fault
deriving Inhabited

namespace Violation

/-- The pointer to the part. -/
def pointer (violation : Violation) : String := Json.Pointer.ofTokens violation.path

/-- The text of a violation. -/
def text (violation : Violation) : String :=
  (if violation.path.isEmpty then "/" else violation.pointer) ++ ": " ++ violation.fault.message

end Violation

/-- A finding that does not make a value invalid: a tag that selects no member of a union. -/
structure Warning where
  path : ValuePath
  tag : String
deriving DecidableEq, Repr, Inhabited

namespace Warning

/-- The pointer to the part. -/
def pointer (warning : Warning) : String := Json.Pointer.ofTokens warning.path

/-- The wording of a warning. -/
def message (warning : Warning) : String := Fault.unknownTagText warning.tag

end Warning

end ApiContract
