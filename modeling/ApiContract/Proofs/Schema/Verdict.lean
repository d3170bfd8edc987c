import ApiContract.Schema.Validation
/-!
# Verdicts

Whether a report is free of violations, keyword by keyword. `Descriptor.Accepts` says what one
schema asks of a value in terms of which schemas below it accept which values, with no word about
reports, paths or fuel; `isOk_check_iff` says that a check finds no violation exactly then.
-/

namespace ApiContract

open Json (Value Number)
open Decimal (Binary64)

namespace Report

@[simp] theorem isOk_clean : clean.isOk = true := rfl

@[simp] theorem isOk_fault (path : ValuePath) (f : Fault) : (fault path f).isOk = false := rfl

@[simp] theorem isOk_append (a b : Report) : (a ++ b).isOk = (a.isOk && b.isOk) := by
  simp only [isOk, errors_append]
  cases a.errors <;> simp

@[simp] theorem isOk_faultIf (condition : Bool) (path : ValuePath) (f : Fault) :
    (faultIf condition path f).isOk = !condition := by
  cases condition <;> rfl

@[simp] theorem isOk_concat (reports : List Report) : (concat reports).isOk = reports.all isOk := by
  induction reports with
  | nil => rfl
  | cons report rest ih =>
    rw [List.all_cons, ← ih]
    exact isOk_append report (concat rest)

end Report

/-- Exactly one place of a list holds an element with a property. -/
def ExactlyOne {α : Type} (p : α → Prop) (l : List α) : Prop :=
  ∃ before one after, l = before ++ one :: after ∧ p one ∧ ∀ other ∈ before ++ after, ¬ p other

theorem exactlyOne_cons_iff {α : Type} {p : α → Prop} {x : α} {l : List α} :
    ExactlyOne p (x :: l) ↔ (p x ∧ ∀ y ∈ l, ¬ p y) ∨ (¬ p x ∧ ExactlyOne p l) := by
  constructor
  · rintro ⟨before, one, after, split, holds, others⟩
    cases before with
    | nil =>
      obtain ⟨rfl, rfl⟩ := List.cons.inj split
      exact .inl ⟨holds, others⟩
    | cons first before =>
      obtain ⟨rfl, rfl⟩ := List.cons.inj split
      refine .inr ⟨others x (by simp), before, one, after, rfl, holds, ?_⟩
      intro other member
      exact others other (List.mem_cons_of_mem _ member)
  · rintro (⟨holds, others⟩ | ⟨fails, before, one, after, rfl, holds, others⟩)
    · exact ⟨[], x, l, rfl, holds, others⟩
    · refine ⟨x :: before, one, after, rfl, holds, ?_⟩
      intro other member
      rcases List.mem_cons.mp member with rfl | member
      · exact fails
      · exact others other member

theorem length_filter_eq_one_iff {α : Type} (p : α → Bool) (l : List α) :
    (l.filter p).length = 1 ↔ ExactlyOne (fun x => p x = true) l := by
  induction l with
  | nil => simp [ExactlyOne]
  | cons x l ih =>
    rw [exactlyOne_cons_iff]
    by_cases holds : p x = true
    · simp [holds, List.filter_eq_nil_iff]
    · simp [holds, ih]

theorem ExactlyOne.congr {α : Type} {p q : α → Prop} {l : List α} (h : ∀ x ∈ l, (p x ↔ q x)) :
    ExactlyOne p l ↔ ExactlyOne q l := by
  induction l with
  | nil => simp [ExactlyOne]
  | cons x l ih =>
    have head := h x (by simp)
    have tail : ∀ y ∈ l, (p y ↔ q y) := fun y member => h y (List.mem_cons_of_mem _ member)
    rw [exactlyOne_cons_iff, exactlyOne_cons_iff, ih tail, head]
    have none : (∀ y ∈ l, ¬ p y) ↔ ∀ y ∈ l, ¬ q y :=
      forall₂_congr fun y member => not_congr (tail y member)
    rw [none]

namespace Descriptor

/-- What a schema asks of a number. -/
structure AdmitsNumber (d : Descriptor) (n : Number) : Prop where
  minimum : ∀ bound ∈ d.minimum, n.toBinary64.lt bound = false
  maximum : ∀ bound ∈ d.maximum, bound.lt n.toBinary64 = false
  exclusiveMinimum : ∀ bound ∈ d.exclusiveMinimum, n.toBinary64.le bound = false
  exclusiveMaximum : ∀ bound ∈ d.exclusiveMaximum, bound.le n.toBinary64 = false
  multipleOf : ∀ step ∈ d.multipleOf, missesMultiple n.toBinary64 step = false
  int32 : d.format = some "int32" → isInt32 n = true

/-- What a schema asks of a string. -/
structure AdmitsString (d : Descriptor) (s : String) : Prop where
  minLength : ∀ least ∈ d.minLength, least ≤ s.length
  maxLength : ∀ most ∈ d.maxLength, s.length ≤ most
  pattern : ∀ pattern ∈ d.pattern, pattern.isMatch? s = some true

/-- What a schema asks of an array, whatever its items are. -/
structure AdmitsItems (d : Descriptor) (items : List Value) : Prop where
  minItems : ∀ least ∈ d.minItems, least ≤ items.length
  maxItems : ∀ most ∈ d.maxItems, items.length ≤ most
  uniqueItems : d.uniqueItems = true → items.Pairwise fun x y => x.same y = false

/-- What a schema asks of an object, whatever its members' values are. -/
structure AdmitsMembers (d : Descriptor) (members : Entries Value) : Prop where
  required : ∀ name ∈ d.required, Entries.has name members = true
  listed : d.additional = .forbidden → ∀ member ∈ members, Entries.has member.1 d.properties = true
  minProperties : ∀ least ∈ d.minProperties, least ≤ members.length
  maxProperties : ∀ most ∈ d.maxProperties, members.length ≤ most

/-- What a schema asks of a value of each kind without asking other schemas. -/
def AdmitsKind (d : Descriptor) : Value → Prop
  | .number n => d.AdmitsNumber n
  | .string s => d.AdmitsString s
  | .array items => d.AdmitsItems items
  | .object members => d.AdmitsMembers members
  | .null | .bool _ => True

/-- The schema of a property: the one listed for it, or that of all others. -/
def schemaOf? (d : Descriptor) (name : String) : Option SchemaId :=
  (Entries.get? name d.properties).orElse fun _ =>
    match d.additional with
    | .schema schema => some schema
    | .allowed | .forbidden => none

/-- What a union asks of a value, where `accepts` says which schemas accept which values. With a
discriminator the value is an object whose tag selects a member that accepts it; a tag that selects
none will do unless the check is strict. Without one, exactly one member of `oneOf` accepts the
value and some member of `anyOf` does. -/
def UnionAccepts (catalog : Catalog) (strict : Bool) (accepts : SchemaId → Value → Prop)
    (d : Descriptor) (value : Value) : Prop :=
  match d.discriminator, d.isUnion with
  | some discriminator, true =>
    ∃ tag, value.member? discriminator.property = some (.string tag) ∧
      ((∃ part ∈ d.members, d.selected? catalog discriminator tag = some part ∧ accepts part value) ∨
        strict = false ∧ d.selected? catalog discriminator tag = none)
  | _, _ =>
    (d.oneOf = [] ∨ ExactlyOne (fun part => accepts part value) d.oneOf) ∧
      (d.anyOf = [] ∨ ∃ part ∈ d.anyOf, accepts part value)

/-- What the keywords of a schema ask of a value, where `accepts` says which schemas accept which
values. -/
structure Meets (catalog : Catalog) (strict : Bool) (accepts : SchemaId → Value → Prop)
    (d : Descriptor) (value : Value) : Prop where
  types : d.types = [] ∨ ∃ type ∈ d.types, type.includes value = true
  enumeration : ∀ values ∈ d.enumeration, ∃ listed ∈ values, value.same listed = true
  constant : ∀ constant ∈ d.constant, constant.same value = true
  kind : d.AdmitsKind value
  items : ∀ items, value = .array items → ∀ schema ∈ d.items, ∀ item ∈ items, accepts schema item
  properties : ∀ members, value = .object members → ∀ member ∈ members,
    ∀ schema ∈ d.schemaOf? member.1, accepts schema member.2
  allOf : ∀ part ∈ d.allOf, accepts part value
  union : d.UnionAccepts catalog strict accepts value
  not : ∀ part ∈ d.not, ¬ accepts part value

/-- What a schema asks of a value, where `accepts` says which schemas accept which values: it is not
the schema that admits nothing, and the value is a null that is admitted as such, or meets the
keywords. -/
def Accepts (catalog : Catalog) (strict : Bool) (accepts : SchemaId → Value → Prop)
    (d : Descriptor) (value : Value) : Prop :=
  d.never = false ∧
    (value = .null ∧ d.admitsNull = true ∨ d.Meets catalog strict accepts value)

/-- The discriminator that is asked which member of the union counts, if the schema is a union that has
one. -/
def dispatcher? (d : Descriptor) : Option Discriminator := if d.isUnion then d.discriminator else none

section Union

variable {catalog : Catalog} {strict : Bool} {accepts : SchemaId → Value → Prop} {d : Descriptor}
  {value : Value}

theorem unionAccepts_of_dispatcher {discriminator : Discriminator}
    (h : d.dispatcher? = some discriminator) :
    d.UnionAccepts catalog strict accepts value ↔
      ∃ tag, value.member? discriminator.property = some (.string tag) ∧
        ((∃ part ∈ d.members, d.selected? catalog discriminator tag = some part ∧
          accepts part value) ∨
        strict = false ∧ d.selected? catalog discriminator tag = none) := by
  unfold dispatcher? at h
  split at h
  · next union => simp only [UnionAccepts, h, union]
  · cases h

theorem unionAccepts_of_undispatched (h : d.dispatcher? = none) :
    d.UnionAccepts catalog strict accepts value ↔
      (d.oneOf = [] ∨ ExactlyOne (fun part => accepts part value) d.oneOf) ∧
        (d.anyOf = [] ∨ ∃ part ∈ d.anyOf, accepts part value) := by
  unfold dispatcher? at h
  unfold UnionAccepts
  split
  · next discriminator tagged union => simp [tagged, union] at h
  · rfl

end Union

theorem isOk_bounded {α : Type} (path : ValuePath) (bound : Option α) (offends : α → Bool)
    (fault : α → Fault) :
    (bounded path bound offends fault).isOk = true ↔ ∀ b ∈ bound, offends b = false := by
  cases bound with
  | none => simp [bounded]
  | some b => simp [bounded]

theorem isOk_checkNumber (d : Descriptor) (n : Number) (path : ValuePath) :
    (d.checkNumber n path).isOk = true ↔ d.AdmitsNumber n := by
  simp only [checkNumber, Report.isOk_append, Bool.and_eq_true, isOk_bounded, Report.isOk_faultIf]
  constructor
  · rintro ⟨⟨⟨⟨⟨minimum, maximum⟩, exclusiveMinimum⟩, exclusiveMaximum⟩, multipleOf⟩, int32⟩
    refine ⟨minimum, maximum, exclusiveMinimum, exclusiveMaximum, multipleOf, ?_⟩
    intro format
    simpa [format] using int32
  · intro h
    refine ⟨⟨⟨⟨⟨h.minimum, h.maximum⟩, h.exclusiveMinimum⟩, h.exclusiveMaximum⟩, h.multipleOf⟩, ?_⟩
    by_cases format : d.format = some "int32"
    · simp [h.int32 format]
    · simp [format]

theorem isOk_checkPattern (pattern : Pattern) (s : String) (path : ValuePath) :
    (checkPattern pattern s path).isOk = true ↔ pattern.isMatch? s = some true := by
  unfold checkPattern
  split <;> simp_all

theorem isOk_checkString (d : Descriptor) (s : String) (path : ValuePath) :
    (d.checkString s path).isOk = true ↔ d.AdmitsString s := by
  simp only [checkString, Report.isOk_append, Bool.and_eq_true, isOk_bounded,
    decide_eq_false_iff_not, Nat.not_lt]
  constructor
  · rintro ⟨⟨minLength, maxLength⟩, matched⟩
    refine ⟨minLength, maxLength, ?_⟩
    intro pattern given
    rw [Option.mem_def.mp given] at matched
    exact (isOk_checkPattern pattern s path).mp matched
  · intro h
    refine ⟨⟨h.minLength, h.maxLength⟩, ?_⟩
    cases given : d.pattern with
    | none => rfl
    | some pattern => exact (isOk_checkPattern pattern s path).mpr (h.pattern pattern given)

theorem hasRepetition_eq_false_iff (items : List Value) :
    hasRepetition items = false ↔ items.Pairwise fun x y => x.same y = false := by
  induction items with
  | nil => simp [hasRepetition]
  | cons x rest ih => simp [hasRepetition, ih]

/-- The schemas that a schema is composed of: it checks the same value against them. -/
def parts (d : Descriptor) : List SchemaId := d.allOf ++ d.oneOf ++ d.anyOf ++ d.not.toList

/-- The schemas against which a schema checks which parts of a value, and the tokens that lead from
the value to the part. -/
inductive Visits (catalog : Catalog) (d : Descriptor) :
    Value → SchemaId → Value → ValuePath → Prop
  | part {value : Value} {id : SchemaId} :
      id ∈ d.parts → Visits catalog d value id value []
  | selected {value : Value} {id : SchemaId} {discriminator : Discriminator} {tag : String} :
      d.isUnion = true → d.discriminator = some discriminator →
      d.selected? catalog discriminator tag = some id → Visits catalog d value id value []
  | item {items : List Value} {id : SchemaId} {i : Nat} {item : Value} :
      d.items = some id → items[i]? = some item →
      Visits catalog d (.array items) id item [Decimal.integerText i]
  | property {members : Entries Value} {id : SchemaId} {name : String} {value : Value} :
      d.schemaOf? name = some id → (name, value) ∈ members →
      Visits catalog d (.object members) id value [name]

/-- Whether a tag of a union selects one of its members, whichever tag it is. -/
def SelectsMembers (catalog : Catalog) (d : Descriptor) : Prop :=
  d.isUnion = true → ∀ discriminator ∈ d.discriminator, ∀ tag,
    ∀ part ∈ d.selected? catalog discriminator tag, part ∈ d.members

theorem mem_parts_iff {d : Descriptor} {id : SchemaId} :
    id ∈ d.parts ↔ id ∈ d.allOf ∨ id ∈ d.oneOf ∨ id ∈ d.anyOf ∨ id ∈ d.not := by
  simp [parts]

theorem mem_parts_of_members {d : Descriptor} {id : SchemaId} (h : id ∈ d.members) :
    id ∈ d.parts := by
  rw [mem_parts_iff]
  rcases List.mem_append.mp h with one | any
  · exact .inr (.inl one)
  · exact .inr (.inr (.inl any))

section Check

variable {catalog : Catalog} {strict : Bool} {d : Descriptor} {visit : Visit} {value : Value}
  {path : ValuePath} {accepts : SchemaId → Value → Prop}

/-- Items are checked one by one, each with its position in the path. -/
theorem checkItems_eq_concat (schema : SchemaId) (items : List Value) (position : Nat) :
    checkItems visit schema path position items =
      Report.concat ((items.zipIdx position).map fun entry =>
        visit schema entry.1 (itemPath path entry.2)) := by
  induction items generalizing position with
  | nil => rfl
  | cons item rest ih =>
    rw [checkItems, ih]
    rfl

theorem isOk_checkItems (schema : SchemaId) (items : List Value)
    (agree : ∀ i item, items[i]? = some item →
      ((visit schema item (itemPath path i)).isOk = true ↔ accepts schema item)) :
    (checkItems visit schema path 0 items).isOk = true ↔ ∀ item ∈ items, accepts schema item := by
  rw [checkItems_eq_concat, Report.isOk_concat, List.all_map, List.all_eq_true]
  constructor
  · intro ok item member
    obtain ⟨i, found⟩ := List.mem_iff_getElem?.mp member
    exact (agree i item found).mp (ok (item, i) (List.mem_zipIdx_iff_getElem?.mpr found))
  · rintro accepted ⟨item, i⟩ member
    have found := List.mem_zipIdx_iff_getElem?.mp member
    exact (agree i item found).mpr (accepted item (List.mem_of_getElem? found))

theorem isOk_checkArray (items : List Value)
    (agree : ∀ schema part step, d.Visits catalog (.array items) schema part step →
      ((visit schema part (path ++ step)).isOk = true ↔ accepts schema part)) :
    (d.checkArray visit items path).isOk = true ↔
      d.AdmitsItems items ∧ ∀ schema ∈ d.items, ∀ item ∈ items, accepts schema item := by
  have each : ∀ schema ∈ d.items, ((checkItems visit schema path 0 items).isOk = true ↔
      ∀ item ∈ items, accepts schema item) := by
    intro schema given
    refine isOk_checkItems schema items ?_
    intro i item at_
    simpa [itemPath] using agree schema item _ (.item given at_)
  simp only [checkArray, Report.isOk_append, Bool.and_eq_true, isOk_bounded, Report.isOk_faultIf,
    decide_eq_false_iff_not, Nat.not_lt]
  constructor
  · rintro ⟨⟨⟨minItems, maxItems⟩, unique⟩, checked⟩
    refine ⟨⟨minItems, maxItems, ?_⟩, ?_⟩
    · intro flag
      rw [← hasRepetition_eq_false_iff]
      simpa [flag] using unique
    · intro schema given
      rw [Option.mem_def.mp given] at checked
      exact (each schema given).mp checked
  · rintro ⟨own, accepted⟩
    refine ⟨⟨⟨own.minItems, own.maxItems⟩, ?_⟩, ?_⟩
    · by_cases flag : d.uniqueItems = true
      · simp [hasRepetition_eq_false_iff, own.uniqueItems flag]
      · simp [flag]
    · cases given : d.items with
      | none => rfl
      | some schema => exact (each schema given).mpr (accepted schema given)

theorem isOk_checkProperty (name : String)
    (agree : ∀ schema ∈ d.schemaOf? name,
      ((visit schema value (path ++ [name])).isOk = true ↔ accepts schema value)) :
    (d.checkProperty visit path name value).isOk = true ↔
      (d.additional = .forbidden → Entries.has name d.properties = true) ∧
        ∀ schema ∈ d.schemaOf? name, accepts schema value := by
  unfold checkProperty schemaOf? Entries.has at *
  cases listed : Entries.get? name d.properties with
  | some schema => simpa [listed] using agree schema
  | none =>
    cases additional : d.additional with
    | allowed => simp
    | forbidden => simp
    | schema schema => simpa [listed, additional] using agree schema

theorem isOk_checkObject (members : Entries Value)
    (agree : ∀ schema part step, d.Visits catalog (.object members) schema part step →
      ((visit schema part (path ++ step)).isOk = true ↔ accepts schema part)) :
    (d.checkObject visit members path).isOk = true ↔
      d.AdmitsMembers members ∧
        ∀ member ∈ members, ∀ schema ∈ d.schemaOf? member.1, accepts schema member.2 := by
  have each : ∀ member ∈ members, ((d.checkProperty visit path member.1 member.2).isOk = true ↔
      (d.additional = .forbidden → Entries.has member.1 d.properties = true) ∧
        ∀ schema ∈ d.schemaOf? member.1, accepts schema member.2) := fun member present =>
    isOk_checkProperty member.1 fun schema found => agree schema member.2 _ (.property found present)
  simp only [checkObject, Report.isOk_append, Bool.and_eq_true, isOk_bounded, Report.isOk_concat,
    List.all_map, List.all_eq_true, Function.comp, Report.isOk_faultIf, decide_eq_false_iff_not,
    Nat.not_lt, Bool.not_not]
  constructor
  · rintro ⟨⟨⟨required, properties⟩, minProperties⟩, maxProperties⟩
    have split := fun member present => (each member present).mp (properties member present)
    exact ⟨⟨required, fun forbidden member present => (split member present).1 forbidden,
      minProperties, maxProperties⟩, fun member present => (split member present).2⟩
  · rintro ⟨own, properties⟩
    refine ⟨⟨⟨own.required, ?_⟩, own.minProperties⟩, own.maxProperties⟩
    intro member present
    exact (each member present).mpr
      ⟨fun forbidden => own.listed forbidden member present, properties member present⟩

theorem isOk_checkKind
    (agree : ∀ schema part step, d.Visits catalog value schema part step →
      ((visit schema part (path ++ step)).isOk = true ↔ accepts schema part)) :
    (d.checkKind visit value path).isOk = true ↔
      d.AdmitsKind value ∧
        (∀ items, value = .array items → ∀ schema ∈ d.items, ∀ item ∈ items, accepts schema item) ∧
        ∀ members, value = .object members → ∀ member ∈ members,
          ∀ schema ∈ d.schemaOf? member.1, accepts schema member.2 := by
  cases value with
  | null => simp [checkKind, AdmitsKind]
  | bool b => simp [checkKind, AdmitsKind]
  | number n => simp [checkKind, AdmitsKind, isOk_checkNumber]
  | string s => simp [checkKind, AdmitsKind, isOk_checkString]
  | array items => simp [checkKind, AdmitsKind, isOk_checkArray items agree]
  | object members =>
    rw [checkKind, isOk_checkObject members agree]
    simp [AdmitsKind]

theorem isOk_checkFixed :
    (d.checkFixed value path).isOk = true ↔
      (∀ values ∈ d.enumeration, ∃ listed ∈ values, value.same listed = true) ∧
        ∀ constant ∈ d.constant, constant.same value = true := by
  simp [checkFixed, isOk_bounded]

/-- Alternatives are faulted as a whole, or pass with the warnings of one that matches. -/
theorem checkAlternatives_cases (exclusive : Bool) (members : List SchemaId) :
    (∃ fault, checkAlternatives visit exclusive members value path = .fault path fault) ∨
      ∃ part ∈ members,
        checkAlternatives visit exclusive members value path = ⟨[], (visit part value path).warnings⟩ := by
  unfold checkAlternatives
  split
  · exact .inl ⟨_, rfl⟩
  · next first others matching =>
    have kept : first ∈ (members.map fun part => visit part value path).filter Report.isOk := by
      rw [matching]
      exact List.mem_cons_self
    obtain ⟨part, member, rfl⟩ := List.mem_map.mp (List.mem_filter.mp kept).1
    split
    · exact .inl ⟨_, rfl⟩
    · exact .inr ⟨part, member, rfl⟩

/-- The alternatives that match are those that accept the value, and the verdict depends on their
number alone. -/
theorem isOk_checkAlternatives (exclusive : Bool) (members : List SchemaId)
    (agree : ∀ part ∈ members, ((visit part value path).isOk = true ↔ accepts part value)) :
    (checkAlternatives visit exclusive members value path).isOk = true ↔
      if exclusive = true then ExactlyOne (fun part => accepts part value) members
      else ∃ part ∈ members, accepts part value := by
  have one : ExactlyOne (fun part => accepts part value) members ↔
      ((members.map fun part => visit part value path).filter Report.isOk).length = 1 := by
    rw [List.filter_map, List.length_map, length_filter_eq_one_iff]
    exact ExactlyOne.congr fun part member => (agree part member).symm
  have any : (∃ part ∈ members, accepts part value) ↔
      (members.map fun part => visit part value path).filter Report.isOk ≠ [] := by
    constructor
    · rintro ⟨part, member, accepted⟩
      exact List.ne_nil_of_mem (List.mem_filter.mpr
        ⟨List.mem_map_of_mem member, (agree part member).mpr accepted⟩)
    · intro nonempty
      obtain ⟨report, kept⟩ := List.exists_mem_of_ne_nil _ nonempty
      obtain ⟨present, ok⟩ := List.mem_filter.mp kept
      obtain ⟨part, member, rfl⟩ := List.mem_map.mp present
      exact ⟨part, member, (agree part member).mp ok⟩
  rw [one, any]
  unfold checkAlternatives
  cases (members.map fun part => visit part value path).filter Report.isOk with
  | nil => simp
  | cons first others =>
    cases exclusive with
    | false => simp [Report.isOk]
    | true => cases others <;> simp [Report.isOk, Report.fault]

theorem isOk_dispatch {discriminator : Discriminator} (union : d.isUnion = true)
    (tagged : d.discriminator = some discriminator) (selects : d.SelectsMembers catalog)
    (agree : ∀ schema part step, d.Visits catalog value schema part step →
      ((visit schema part (path ++ step)).isOk = true ↔ accepts schema part)) :
    (d.dispatch catalog strict discriminator visit value path).isOk = true ↔
      ∃ tag, value.member? discriminator.property = some (.string tag) ∧
        ((∃ part ∈ d.members, d.selected? catalog discriminator tag = some part ∧
            accepts part value) ∨
          strict = false ∧ d.selected? catalog discriminator tag = none) := by
  cases value with
  | object members =>
    simp only [dispatch, Value.member?, Value.members?, Option.bind_some]
    cases Entries.get? discriminator.property members with
    | none => simp
    | some found =>
      cases found with
      | string tag =>
        simp only [Option.some.injEq, Value.string.injEq, exists_eq_left']
        cases selected : d.selected? catalog discriminator tag with
        | none => cases strict <;> simp [Report.isOk, Report.fault]
        | some part =>
          have member := selects union discriminator tagged tag part selected
          have := agree part _ [] (.selected union tagged selected)
          constructor
          · intro ok
            exact .inl ⟨part, member, rfl, (by simpa using this : _ ↔ _).mp ok⟩
          · rintro (⟨other, -, equal, accepted⟩ | ⟨-, equal⟩)
            · cases equal
              exact (by simpa using this : _ ↔ _).mpr accepted
            · cases equal
      | _ => simp
  | _ => simp [dispatch, Value.member?, Value.members?]

theorem isOk_checkUnion (selects : d.SelectsMembers catalog)
    (agree : ∀ schema part step, d.Visits catalog value schema part step →
      ((visit schema part (path ++ step)).isOk = true ↔ accepts schema part)) :
    (d.checkUnion catalog strict visit value path).isOk = true ↔
      d.UnionAccepts catalog strict accepts value := by
  have parts : ∀ part ∈ d.parts, ((visit part value path).isOk = true ↔ accepts part value) :=
    fun part member => by simpa using agree part value [] (.part member)
  have one := isOk_checkAlternatives true d.oneOf fun part member =>
    parts part (mem_parts_iff.mpr (.inr (.inl member)))
  have any := isOk_checkAlternatives false d.anyOf fun part member =>
    parts part (mem_parts_iff.mpr (.inr (.inr (.inl member))))
  have untagged : ((if d.oneOf.isEmpty = true then Report.clean
        else checkAlternatives visit true d.oneOf value path) ++
      (if d.anyOf.isEmpty = true then Report.clean
        else checkAlternatives visit false d.anyOf value path)).isOk = true ↔
      (d.oneOf = [] ∨ ExactlyOne (fun part => accepts part value) d.oneOf) ∧
        (d.anyOf = [] ∨ ∃ part ∈ d.anyOf, accepts part value) := by
    rw [Report.isOk_append, Bool.and_eq_true]
    refine and_congr ?_ ?_
    · cases h : d.oneOf with
      | nil => simp
      | cons part rest => simpa [h] using one
    · cases h : d.anyOf with
      | nil => simp
      | cons part rest => simpa [h] using any
  unfold checkUnion UnionAccepts
  cases tagged : d.discriminator with
  | none => exact untagged
  | some discriminator =>
    cases union : d.isUnion with
    | false => exact untagged
    | true => exact isOk_dispatch union tagged selects agree

theorem isOk_checkNot
    (agree : ∀ part ∈ d.not, ((visit part value path).isOk = true ↔ accepts part value)) :
    (d.checkNot visit value path).isOk = true ↔ ∀ part ∈ d.not, ¬ accepts part value := by
  unfold checkNot
  cases h : d.not with
  | none => simp
  | some part =>
    have := agree part h
    simp [← this]

theorem check_of_null (never : d.never = false) (null : value = .null ∧ d.admitsNull = true) :
    d.check catalog strict visit value path = .clean := by
  obtain ⟨rfl, admits⟩ := null
  simp [check, never, admits]

theorem check_of_not_null (never : d.never = false)
    (null : ¬ (value = .null ∧ d.admitsNull = true)) :
    d.check catalog strict visit value path =
      if !d.admitsType value then .fault path (.wrongType d.types value)
      else
        d.checkFixed value path
          ++ d.checkKind visit value path
          ++ Report.concat (d.allOf.map fun part => visit part value path)
          ++ d.checkUnion catalog strict visit value path
          ++ d.checkNot visit value path := by
  unfold check
  cases value <;> simp_all

/-- A check finds no violation exactly when the schema accepts the value, if the checks that it
calls for do so exactly when their schemas accept their parts of it. -/
theorem isOk_check_iff (selects : d.SelectsMembers catalog)
    (agree : ∀ schema part step, d.Visits catalog value schema part step →
      ((visit schema part (path ++ step)).isOk = true ↔ accepts schema part)) :
    (d.check catalog strict visit value path).isOk = true ↔
      d.Accepts catalog strict accepts value := by
  have parts : ∀ part ∈ d.parts, ((visit part value path).isOk = true ↔ accepts part value) :=
    fun part member => by simpa using agree part value [] (.part member)
  have all : (Report.concat (d.allOf.map fun part => visit part value path)).isOk = true ↔
      ∀ part ∈ d.allOf, accepts part value := by
    rw [Report.isOk_concat, List.all_map, List.all_eq_true]
    exact forall₂_congr fun part member => parts part (mem_parts_iff.mpr (.inl member))
  have not : (d.checkNot visit value path).isOk = true ↔ ∀ part ∈ d.not, ¬ accepts part value :=
    isOk_checkNot fun part member => parts part (mem_parts_iff.mpr (.inr (.inr (.inr member))))
  have type : d.admitsType value = true ↔
      d.types = [] ∨ ∃ type ∈ d.types, type.includes value = true := by
    simp [admitsType]
  have meets : (d.checkFixed value path ++ d.checkKind visit value path
        ++ Report.concat (d.allOf.map fun part => visit part value path)
        ++ d.checkUnion catalog strict visit value path
        ++ d.checkNot visit value path).isOk = true ∧ d.admitsType value = true ↔
      d.Meets catalog strict accepts value := by
    simp only [Report.isOk_append, Bool.and_eq_true, isOk_checkFixed, isOk_checkKind agree, all,
      isOk_checkUnion selects agree, not, type]
    constructor
    · rintro ⟨⟨⟨⟨⟨⟨enumeration, constant⟩, kind, items, properties⟩, allOf⟩, union⟩, not⟩, types⟩
      exact ⟨types, enumeration, constant, kind, items, properties, allOf, union, not⟩
    · intro h
      exact ⟨⟨⟨⟨⟨⟨h.enumeration, h.constant⟩, h.kind, h.items, h.properties⟩, h.allOf⟩, h.union⟩,
        h.not⟩, h.types⟩
  rw [Accepts, ← meets]
  by_cases never : d.never = true
  · simp [check, never]
  by_cases null : value = .null ∧ d.admitsNull = true
  · rw [check_of_null (by simpa using never) null]
    simp [never, null]
  · rw [check_of_not_null (by simpa using never) null]
    by_cases admitted : d.admitsType value = true
    · simp [never, null, admitted]
    · simp [never, null, admitted]

open Classical in
/-- Of the schemas below it, a schema depends on the verdicts alone, and on those alone that it asks
for. -/
theorem Accepts.congr {p q : SchemaId → Value → Prop} (selects : d.SelectsMembers catalog)
    (agree : ∀ schema part step, d.Visits catalog value schema part step →
      (p schema part ↔ q schema part)) :
    d.Accepts catalog strict p value ↔ d.Accepts catalog strict q value := by
  -- A check whose sub-checks fail exactly where `p` does decides both sides.
  let visit : Visit := fun schema part path => .faultIf (¬ p schema part) path .disallowed
  have verdict : ∀ schema part path, (visit schema part path).isOk = true ↔ p schema part := by
    intro schema part path
    simp [visit]
  have first : (d.check catalog strict visit value []).isOk = true ↔
      d.Accepts catalog strict p value :=
    isOk_check_iff selects fun schema part _ _ => verdict schema part _
  have second : (d.check catalog strict visit value []).isOk = true ↔
      d.Accepts catalog strict q value :=
    isOk_check_iff selects fun schema part step visits =>
      (verdict schema part _).trans (agree schema part step visits)
  exact first.symm.trans second

end Check

end Descriptor

end ApiContract
