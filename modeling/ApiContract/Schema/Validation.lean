import ApiContract.Schema.Catalog
import ApiContract.Schema.Violation
/-!
# Validation

Whether a value is what a schema asks for. `Catalog.check` collects all violations and warnings in
the order of the keywords. A schema that comes up again for the same part of the value while that
part is still being checked against it adds nothing, so that schemas may refer to themselves.
-/

namespace ApiContract

open Json (Value Number)
open Decimal (Binary64)

/-- What a check has found. -/
structure Report where
  errors : List Violation
  warnings : List Warning
deriving Inhabited

namespace Report

/-- Nothing found. -/
def clean : Report := ⟨[], []⟩

/-- One fault. -/
def fault (path : ValuePath) (fault : Fault) : Report := ⟨[⟨path, fault⟩], []⟩

/-- A fault if a condition holds. -/
def faultIf (condition : Bool) (path : ValuePath) (fault : Fault) : Report :=
  if condition then Report.fault path fault else clean

/-- One report after the other. -/
def append (a b : Report) : Report := ⟨a.errors ++ b.errors, a.warnings ++ b.warnings⟩

instance : Append Report := ⟨append⟩

/-- Several reports, one after the other. -/
def concat (reports : List Report) : Report := reports.foldr append clean

/-- Whether no violation was found. -/
def isOk (report : Report) : Bool := report.errors.isEmpty

theorem errors_append (a b : Report) : (a ++ b).errors = a.errors ++ b.errors := rfl

theorem warnings_append (a b : Report) : (a ++ b).warnings = a.warnings ++ b.warnings := rfl

end Report

/-- How a part of a value is checked against a schema. -/
abbrev Visit := SchemaId → Value → ValuePath → Report

namespace Descriptor

/-- The report on an optional bound. -/
def bounded {α : Type} (path : ValuePath) (bound : Option α) (offends : α → Bool)
    (fault : α → Fault) : Report :=
  match bound with
  | some bound => Report.faultIf (offends bound) path (fault bound)
  | none => .clean

/-- The number from which on the distance of a quotient to a whole number counts. -/
def multipleTolerance : Binary64 := (Binary64.ofDecimal false 1 (-9)).getD (Binary64.zero false)

/-- Whether a number is no multiple of a positive step. A quotient too large for a number counts as
whole. -/
def missesMultiple (value step : Binary64) : Bool :=
  (Binary64.zero false).lt step &&
    match value.div step with
    | some quotient => multipleTolerance.lt quotient.distanceToInt
    | none => false

/-- Whether a number is an integer of 32 bits. -/
def isInt32 (n : Number) : Bool :=
  match n.toInt? with
  | some i => -(Int.pow 2 31) ≤ i && i < Int.pow 2 31
  | none => false

/-- The report on a number. -/
def checkNumber (d : Descriptor) (n : Number) (path : ValuePath) : Report :=
  let x := n.toBinary64
  bounded path d.minimum (fun bound => x.lt bound) (.belowMinimum x)
    ++ bounded path d.maximum (fun bound => bound.lt x) (.aboveMaximum x)
    ++ bounded path d.exclusiveMinimum (fun bound => x.le bound) (.notAboveMinimum x)
    ++ bounded path d.exclusiveMaximum (fun bound => bound.le x) (.notBelowMaximum x)
    ++ bounded path d.multipleOf (missesMultiple x) (.notMultiple x)
    ++ Report.faultIf (d.format == some "int32" && !isInt32 n) path (.notInt32 n)

/-- The report on a text against a pattern. -/
def checkPattern (pattern : Pattern) (s : String) (path : ValuePath) : Report :=
  match pattern.isMatch? s with
  | some true => .clean
  | some false => .fault path (.unmatched s pattern.source)
  | none => .fault path (.undecided s pattern.source)

/-- The report on a string. -/
def checkString (d : Descriptor) (s : String) (path : ValuePath) : Report :=
  bounded path d.minLength (fun least => s.length < least) (.tooShort s.length)
    ++ bounded path d.maxLength (fun most => most < s.length) (.tooLong s.length)
    ++ (match d.pattern with
      | some pattern => checkPattern pattern s path
      | none => .clean)

/-- Whether a value comes up twice in a list. -/
def hasRepetition : List Value → Bool
  | [] => false
  | x :: rest => rest.any (Value.same x) || hasRepetition rest

/-- The path to the item at a position. -/
def itemPath (path : ValuePath) (i : Nat) : ValuePath := path ++ [Decimal.integerText i]

/-- The reports on items from a position on. -/
def checkItems (visit : Visit) (schema : SchemaId) (path : ValuePath) :
    (position : Nat) → List Value → Report
  | _, [] => .clean
  | i, item :: rest =>
    visit schema item (itemPath path i) ++ checkItems visit schema path (i + 1) rest

/-- The report on an array. -/
def checkArray (d : Descriptor) (visit : Visit) (items : List Value) (path : ValuePath) : Report :=
  bounded path d.minItems (fun least => items.length < least) (.tooFewItems items.length)
    ++ bounded path d.maxItems (fun most => most < items.length) (.tooManyItems items.length)
    ++ Report.faultIf (d.uniqueItems && hasRepetition items) path .repeatedItems
    ++ (match d.items with
      | some schema => checkItems visit schema path 0 items
      | none => .clean)

/-- The report on a property: by the schema listed for it, or by what is said of others. -/
def checkProperty (d : Descriptor) (visit : Visit) (path : ValuePath) (name : String)
    (value : Value) : Report :=
  match Entries.get? name d.properties with
  | some schema => visit schema value (path ++ [name])
  | none =>
    match d.additional with
    | .allowed => .clean
    | .forbidden => .fault (path ++ [name]) (.unexpectedProperty name)
    | .schema schema => visit schema value (path ++ [name])

/-- The report on an object. -/
def checkObject (d : Descriptor) (visit : Visit) (members : Entries Value) (path : ValuePath) :
    Report :=
  Report.concat (d.required.map fun name =>
      Report.faultIf (!Entries.has name members) path (.missingProperty name))
    ++ Report.concat (members.map fun (name, value) => d.checkProperty visit path name value)
    ++ bounded path d.minProperties (fun least => members.length < least)
      (.tooFewProperties members.length)
    ++ bounded path d.maxProperties (fun most => most < members.length)
      (.tooManyProperties members.length)

/-- The report on the keywords of the value's own kind. -/
def checkKind (d : Descriptor) (visit : Visit) (value : Value) (path : ValuePath) : Report :=
  match value with
  | .number n => d.checkNumber n path
  | .string s => d.checkString s path
  | .array items => d.checkArray visit items path
  | .object members => d.checkObject visit members path
  | .null | .bool _ => .clean

/-- The report on alternatives of which one has to match, or exactly one. The warnings are those of
the first that matches. -/
def checkAlternatives (visit : Visit) (exclusive : Bool) (members : List SchemaId) (value : Value)
    (path : ValuePath) : Report :=
  match (members.map fun member => visit member value path).filter Report.isOk with
  | [] => .fault path (.noAlternative exclusive members.length)
  | first :: others =>
    if exclusive && !others.isEmpty then
      .fault path (.severalAlternatives (others.length + 1) members.length)
    else ⟨[], first.warnings⟩

/-- The member of a union that a tag selects: the one it is mapped to, or the one of that name. -/
def selected? (catalog : Catalog) (d : Descriptor) (discriminator : Discriminator) (tag : String) :
    Option SchemaId :=
  (Entries.get? tag discriminator.mapping).orElse fun _ =>
    d.members.find? fun member => (catalog.descriptor member).name == some tag

/-- The report on a value by the one member of a union that its tag selects. -/
def dispatch (catalog : Catalog) (strict : Bool) (d : Descriptor) (discriminator : Discriminator)
    (visit : Visit) (value : Value) (path : ValuePath) : Report :=
  match value with
  | .object members =>
    match Entries.get? discriminator.property members with
    | some (.string tag) =>
      match d.selected? catalog discriminator tag with
      | some member => visit member value path
      | none => if strict then .fault path (.unknownTag tag) else ⟨[], [⟨path, tag⟩]⟩
    | some other => .fault (path ++ [discriminator.property]) (.tagNotText other)
    | none => .fault path (.missingTag discriminator.property)
  | _ => .fault path (.untaggedValue discriminator.property value)

/-- The report on the union that the schema is, if it is one. -/
def checkUnion (catalog : Catalog) (strict : Bool) (d : Descriptor) (visit : Visit) (value : Value)
    (path : ValuePath) : Report :=
  match d.discriminator, d.isUnion with
  | some discriminator, true => d.dispatch catalog strict discriminator visit value path
  | _, _ =>
    (if d.oneOf.isEmpty then .clean else checkAlternatives visit true d.oneOf value path)
      ++ (if d.anyOf.isEmpty then .clean else checkAlternatives visit false d.anyOf value path)

/-- The report on the schema that must not match. -/
def checkNot (d : Descriptor) (visit : Visit) (value : Value) (path : ValuePath) : Report :=
  match d.not with
  | some schema => Report.faultIf (visit schema value path).isOk path .disallowed
  | none => .clean

/-- Whether a value is of one of the types, if there are any. -/
def admitsType (d : Descriptor) (value : Value) : Bool :=
  d.types.isEmpty || d.types.any fun type => type.includes value

/-- The report on a value that is listed, or is the constant. -/
def checkFixed (d : Descriptor) (value : Value) (path : ValuePath) : Report :=
  bounded path d.enumeration (fun values => !values.any (value.same ·)) (fun _ => .notListed value)
    ++ bounded path d.constant (fun constant => !constant.same value) .notConstant

/-- The report on a value, where `visit` checks against the schemas referred to. -/
def check (catalog : Catalog) (strict : Bool) (d : Descriptor) (visit : Visit) (value : Value)
    (path : ValuePath) : Report :=
  if d.never then .fault path .neverAllowed
  else if value matches .null && d.admitsNull then .clean
  else if !d.admitsType value then .fault path (.wrongType d.types value)
  else
    d.checkFixed value path
      ++ d.checkKind visit value path
      ++ Report.concat (d.allOf.map fun member => visit member value path)
      ++ d.checkUnion catalog strict visit value path
      ++ d.checkNot visit value path

end Descriptor

namespace Catalog

/-- The report on a part of a value. `active` holds the checks that are under way; `fuel` bounds how
many can be. -/
def check (catalog : Catalog) (strict : Bool) :
    (fuel : Nat) → (active : List (SchemaId × ValuePath)) → Visit
  | 0, _, _, _, _ => .clean
  | fuel + 1, active, id, value, path =>
    if active.contains (id, path) then .clean
    else
      (catalog.descriptor id).check catalog strict
        (check catalog strict fuel ((id, path) :: active)) value path

/-- How many checks of different schemas or different parts of a value there can be. -/
def checkLimit (catalog : Catalog) (value : Value) : Nat := catalog.size * value.nodes + 1

/-- The report on a whole value. -/
def report (catalog : Catalog) (strict : Bool) (id : SchemaId) (value : Value) : Report :=
  catalog.check strict (catalog.checkLimit value) [] id value []

/-- The warnings on a value, or its violations. -/
def validate (catalog : Catalog) (strict : Bool) (id : SchemaId) (value : Value) :
    Except (List Violation) (List Warning) :=
  let report := catalog.report strict id value
  if report.isOk then .ok report.warnings else .error report.errors

end Catalog

end ApiContract
