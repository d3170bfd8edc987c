import ApiContract.Proofs.Schema.Denial
import Mathlib.Logic.Relation
/-!
# Strictness

What a strict check makes of the findings of a lenient one. Tags that select no member of a union are
violations to the one and warnings to the other, and otherwise the two go the same way, unless a
schema asks for no more than the verdict of another one: then a verdict that changes may change what
is found. Where none does (`Catalog.Unprobed`), the violations of the lenient check and its warnings
are, each in their order, the violations of the strict one (`Report.Tightens`), so the strict check
fails with nothing but the warnings if the lenient one passes (`strictens_of_unprobed`).
-/

namespace ApiContract

open Json (Value Number)

namespace Warning

/-- The violation that a strict check finds in place of a warning. -/
def violation (warning : Warning) : Violation := ⟨warning.path, .unknownTag warning.tag⟩

/-- The violation is one of the discriminator, at the same place and worded alike. -/
theorem violation_shown (warning : Warning) :
    warning.violation.pointer = warning.pointer ∧
      warning.violation.fault.keyword = "discriminator" ∧
      warning.violation.fault.message = warning.message :=
  ⟨rfl, rfl, rfl⟩

end Warning

namespace Report

/-- A relation of reports under which each report without warnings is its own counterpart, and that
may be shown of one piece of a report after the other. -/
structure Piecewise (R : Report → Report → Prop) : Prop where
  quiet : ∀ report, report.warnings = [] → R report report
  append : ∀ {a b c d}, R a b → R c d → R (a ++ c) (b ++ d)

theorem Piecewise.concat_map {R : Report → Report → Prop} (pieces : Piecewise R) {α : Type}
    {f g : α → Report} {l : List α} (each : ∀ x ∈ l, R (f x) (g x)) :
    R (concat (l.map f)) (concat (l.map g)) := by
  induction l with
  | nil => exact pieces.quiet clean rfl
  | cons x rest ih =>
    have tail := ih fun y member => each y (List.mem_cons_of_mem _ member)
    exact pieces.append (each x List.mem_cons_self) tail

/-- The strict report has the violations of the lenient one and a violation for each of its warnings,
either in their order, and no others. -/
structure Tightens (lenient strict : Report) : Prop where
  errors : lenient.errors.Sublist strict.errors
  warnings : (lenient.warnings.map Warning.violation).Sublist strict.errors
  count : strict.errors.length = lenient.errors.length + lenient.warnings.length

theorem piecewise_tightens : Piecewise Tightens where
  quiet report none := ⟨.refl _, by simp [none], by simp [none]⟩
  append := by
    intro a b c d first second
    refine ⟨first.errors.append second.errors, ?_, ?_⟩
    · rw [warnings_append, List.map_append]
      exact first.warnings.append second.warnings
    · simp only [errors_append, warnings_append, List.length_append, first.count, second.count]
      omega

namespace Tightens

variable {lenient strict : Report}

theorem errors_eq_of_isOk (h : lenient.Tightens strict) (ok : lenient.isOk = true) :
    strict.errors = lenient.warnings.map Warning.violation := by
  have none : lenient.errors = [] := List.isEmpty_iff.mp ok
  refine (h.warnings.eq_of_length ?_).symm
  rw [h.count, none, List.length_map]
  exact (Nat.zero_add _).symm

theorem not_isOk (h : lenient.Tightens strict) (failed : lenient.isOk = false) :
    strict.isOk = false := by
  rw [isOk, List.isEmpty_eq_false_iff] at failed ⊢
  intro none
  exact failed (List.sublist_nil.mp (none ▸ h.errors))

end Tightens

/-- Nothing but violations are in a strict report. -/
theorem piecewise_quiet : Piecewise fun _ strict => strict.warnings = [] where
  quiet _ none := none
  append := by
    intro a b c d first second
    rw [warnings_append, first, second, List.append_nil]

section Quiet

variable {path : ValuePath}

@[simp] theorem warnings_clean : clean.warnings = [] := rfl

@[simp] theorem warnings_faultIf (condition : Bool) (f : Fault) :
    (faultIf condition path f).warnings = [] := by
  cases condition <;> rfl

@[simp] theorem warnings_bounded {α : Type} (bound : Option α) (offends : α → Bool)
    (fault : α → Fault) : (Descriptor.bounded path bound offends fault).warnings = [] := by
  cases bound with
  | none => rfl
  | some bound => exact warnings_faultIf _ _

theorem warnings_checkNumber (d : Descriptor) (n : Number) :
    (d.checkNumber n path).warnings = [] := by
  simp [Descriptor.checkNumber, warnings_append]

theorem warnings_checkString (d : Descriptor) (s : String) :
    (d.checkString s path).warnings = [] := by
  cases given : d.pattern with
  | none => simp [Descriptor.checkString, warnings_append, given]
  | some pattern =>
    have quiet : (Descriptor.checkPattern pattern s path).warnings = [] := by
      unfold Descriptor.checkPattern
      split <;> rfl
    simp [Descriptor.checkString, warnings_append, given, quiet]

theorem warnings_checkFixed (d : Descriptor) (value : Value) (path : ValuePath) :
    (d.checkFixed value path).warnings = [] := by
  simp [Descriptor.checkFixed, warnings_append]

end Quiet

end Report

namespace Descriptor

/-- The schema asks for the findings of the schemas that it is composed of, not for their verdicts
alone: it denies none, and has a discriminator if it is a union. -/
def Probeless (d : Descriptor) : Prop :=
  d.not = none ∧ (d.isUnion = true → d.discriminator.isSome = true)

instance (d : Descriptor) : Decidable d.Probeless :=
  inferInstanceAs (Decidable (_ ∧ (_ → _)))

section Pieces

variable {R : Report → Report → Prop} {catalog : Catalog} {d : Descriptor} {lenient strict : Visit}
  {value : Value} {path : ValuePath}

theorem related_checkArray (pieces : Report.Piecewise R) (items : List Value)
    (agree : ∀ schema part step, d.Visits catalog (.array items) schema part step →
      R (lenient schema part (path ++ step)) (strict schema part (path ++ step))) :
    R (d.checkArray lenient items path) (d.checkArray strict items path) := by
  unfold checkArray
  cases given : d.items with
  | none => exact pieces.quiet _ (by simp [Report.warnings_append])
  | some schema =>
    simp only [checkItems_eq_concat]
    refine pieces.append (pieces.quiet _ (by simp [Report.warnings_append])) (pieces.concat_map ?_)
    rintro ⟨item, i⟩ found
    exact agree schema item _ (.item given (List.mem_zipIdx_iff_getElem?.mp found))

theorem related_checkProperty (pieces : Report.Piecewise R) (name : String)
    (agree : ∀ schema ∈ d.schemaOf? name,
      R (lenient schema value (path ++ [name])) (strict schema value (path ++ [name]))) :
    R (d.checkProperty lenient path name value) (d.checkProperty strict path name value) := by
  unfold checkProperty schemaOf? at *
  cases listed : Entries.get? name d.properties with
  | some schema => exact agree schema (by simp [listed])
  | none =>
    cases additional : d.additional with
    | allowed => exact pieces.quiet _ rfl
    | forbidden => exact pieces.quiet _ rfl
    | schema schema => exact agree schema (by simp [listed, additional])

theorem related_checkObject (pieces : Report.Piecewise R) (members : Entries Value)
    (agree : ∀ schema part step, d.Visits catalog (.object members) schema part step →
      R (lenient schema part (path ++ step)) (strict schema part (path ++ step))) :
    R (d.checkObject lenient members path) (d.checkObject strict members path) := by
  have quiet (report : Report) (none : report.warnings = []) : R report report :=
    pieces.quiet report none
  have required := pieces.concat_map fun name (_ : name ∈ d.required) =>
    quiet (.faultIf (!Entries.has name members) path (.missingProperty name)) (by simp)
  have properties := pieces.concat_map fun member (present : member ∈ members) =>
    related_checkProperty pieces member.1 fun schema found =>
      agree schema member.2 _ (.property found present)
  exact pieces.append (pieces.append (pieces.append required properties) (quiet _ (by simp)))
    (quiet _ (by simp))

theorem related_checkKind (pieces : Report.Piecewise R)
    (agree : ∀ schema part step, d.Visits catalog value schema part step →
      R (lenient schema part (path ++ step)) (strict schema part (path ++ step))) :
    R (d.checkKind lenient value path) (d.checkKind strict value path) := by
  cases value with
  | null => exact pieces.quiet _ rfl
  | bool _ => exact pieces.quiet _ rfl
  | number n => exact pieces.quiet _ (Report.warnings_checkNumber d n)
  | string s => exact pieces.quiet _ (Report.warnings_checkString d s)
  | array items => exact related_checkArray pieces items agree
  | object members => exact related_checkObject pieces members agree

/-- The reports of a lenient and of a strict check are related piece by piece, if those of the checks
that they call for are, and what they make of unions and denied schemas is. -/
theorem related_check (lenient : Visit) (pieces : Report.Piecewise R)
    (agree : ∀ schema part step, d.Visits catalog value schema part step →
      R (lenient schema part (path ++ step)) (strict schema part (path ++ step)))
    (union : R (d.checkUnion catalog false lenient value path)
      (d.checkUnion catalog true strict value path))
    (not : R (d.checkNot lenient value path) (d.checkNot strict value path)) :
    R (d.check catalog false lenient value path) (d.check catalog true strict value path) := by
  have all : R (Report.concat (d.allOf.map fun part => lenient part value path))
      (Report.concat (d.allOf.map fun part => strict part value path)) := by
    refine pieces.concat_map ?_
    intro part member
    simpa using agree part value [] (.part (mem_parts_iff.mpr (.inl member)))
  by_cases never : d.never = true
  · simp only [check, never, if_true]
    exact pieces.quiet _ rfl
  replace never : d.never = false := by simpa using never
  by_cases null : value = .null ∧ d.admitsNull = true
  · rw [check_of_null never null, check_of_null never null]
    exact pieces.quiet _ rfl
  rw [check_of_not_null never null, check_of_not_null never null]
  split
  · exact pieces.quiet _ rfl
  · have fixed := pieces.quiet _ (Report.warnings_checkFixed d value path)
    exact pieces.append (pieces.append (pieces.append (pieces.append fixed
      (related_checkKind pieces agree)) all) union) not

theorem tightens_dispatch {discriminator : Discriminator} (union : d.isUnion = true)
    (tagged : d.discriminator = some discriminator)
    (agree : ∀ schema part step, d.Visits catalog value schema part step →
      (lenient schema part (path ++ step)).Tightens (strict schema part (path ++ step))) :
    (d.dispatch catalog false discriminator lenient value path).Tightens
      (d.dispatch catalog true discriminator strict value path) := by
  have quiet (f : Fault) (place : ValuePath) :
      (Report.fault place f).Tightens (Report.fault place f) :=
    Report.piecewise_tightens.quiet _ rfl
  cases value with
  | object members =>
    simp only [dispatch]
    cases Entries.get? discriminator.property members with
    | none => exact quiet _ _
    | some found =>
      cases found with
      | string tag =>
        cases selected : d.selected? catalog discriminator tag with
        | none =>
          simp only [selected]
          exact ⟨List.nil_sublist _, .refl _, rfl⟩
        | some part => simpa [selected] using agree part _ [] (.selected union tagged selected)
      | _ => exact quiet _ _
  | _ => exact quiet _ _

theorem checkUnion_of_not_isUnion {mode : Bool} {visit : Visit} (h : d.isUnion = false) :
    d.checkUnion catalog mode visit value path = .clean := by
  obtain ⟨one, any⟩ : d.oneOf = [] ∧ d.anyOf = [] := by simpa [isUnion] using h
  simp only [checkUnion, h, one, any]
  cases d.discriminator <;> rfl

theorem tightens_checkUnion (probeless : d.Probeless)
    (agree : ∀ schema part step, d.Visits catalog value schema part step →
      (lenient schema part (path ++ step)).Tightens (strict schema part (path ++ step))) :
    (d.checkUnion catalog false lenient value path).Tightens
      (d.checkUnion catalog true strict value path) := by
  cases union : d.isUnion with
  | true =>
    obtain ⟨discriminator, tagged⟩ := Option.isSome_iff_exists.mp (probeless.2 union)
    simp only [checkUnion, tagged, union]
    exact tightens_dispatch union tagged agree
  | false =>
    rw [checkUnion_of_not_isUnion union, checkUnion_of_not_isUnion union]
    exact Report.piecewise_tightens.quiet _ rfl

theorem tightens_check (probeless : d.Probeless)
    (agree : ∀ schema part step, d.Visits catalog value schema part step →
      (lenient schema part (path ++ step)).Tightens (strict schema part (path ++ step))) :
    (d.check catalog false lenient value path).Tightens (d.check catalog true strict value path) := by
  refine related_check lenient Report.piecewise_tightens agree (tightens_checkUnion probeless agree) ?_
  simp only [checkNot, probeless.1]
  exact Report.piecewise_tightens.quiet _ rfl

theorem warnings_checkAlternatives {exclusive : Bool} {members : List SchemaId}
    (agree : ∀ part ∈ members, (strict part value path).warnings = []) :
    (checkAlternatives strict exclusive members value path).warnings = [] := by
  rcases checkAlternatives_cases exclusive members with ⟨fault, failed⟩ | ⟨part, member, passed⟩
  · rw [failed]
    rfl
  · rw [passed]
    exact agree part member

theorem warnings_checkUnion
    (agree : ∀ schema part step, d.Visits catalog value schema part step →
      (strict schema part (path ++ step)).warnings = []) :
    (d.checkUnion catalog true strict value path).warnings = [] := by
  have parts : ∀ part ∈ d.parts, (strict part value path).warnings = [] :=
    fun part member => by simpa using agree part value [] (.part member)
  have one : (checkAlternatives strict true d.oneOf value path).warnings = [] :=
    warnings_checkAlternatives fun part member => parts part (mem_parts_iff.mpr (.inr (.inl member)))
  have any : (checkAlternatives strict false d.anyOf value path).warnings = [] :=
    warnings_checkAlternatives fun part member =>
      parts part (mem_parts_iff.mpr (.inr (.inr (.inl member))))
  unfold checkUnion
  split
  · next discriminator tagged union =>
    unfold dispatch
    split
    · split
      · split
        · next part selected => simpa using agree part _ [] (.selected union tagged selected)
        · rfl
      · rfl
      · rfl
    · rfl
  · rw [Report.warnings_append]
    split <;> split <;> simp [one, any]

theorem warnings_check
    (agree : ∀ schema part step, d.Visits catalog value schema part step →
      (strict schema part (path ++ step)).warnings = []) :
    (d.check catalog true strict value path).warnings = [] := by
  refine related_check strict Report.piecewise_quiet agree (warnings_checkUnion agree) ?_
  unfold checkNot
  split <;> simp

end Pieces

end Descriptor

namespace Catalog

/-- A schema refers to another one: some value makes it check a part of the value against that one. -/
def Refers (catalog : Catalog) (whole part : SchemaId) : Prop :=
  ∃ value child step, (catalog.descriptor whole).Visits catalog value part child step

/-- No schema that a schema leads to asks for a verdict alone. -/
def Unprobed (catalog : Catalog) (id : SchemaId) : Prop :=
  ∀ other, Relation.ReflTransGen catalog.Refers id other → (catalog.descriptor other).Probeless

variable {catalog : Catalog} {id part : SchemaId} {value : Value}

theorem Unprobed.probeless (h : catalog.Unprobed id) : (catalog.descriptor id).Probeless :=
  h id .refl

theorem Unprobed.refers (h : catalog.Unprobed id) (refers : catalog.Refers id part) :
    catalog.Unprobed part :=
  fun other leads => h other (.head refers leads)

theorem unprobed_of_forall (h : ∀ id < catalog.size, (catalog.descriptor id).Probeless) :
    catalog.Unprobed id := by
  intro other _
  rcases Nat.lt_or_ge other catalog.size with inside | outside
  · exact h other inside
  · rw [descriptor_of_size_le outside]
    exact ⟨rfl, fun union => by simp [Descriptor.isUnion, Descriptor.unrestricted] at union⟩

theorem tightens_check {fuel : Nat} {active : List (SchemaId × ValuePath)} {path : ValuePath}
    (unprobed : catalog.Unprobed id) :
    (catalog.check false fuel active id value path).Tightens
      (catalog.check true fuel active id value path) := by
  induction fuel generalizing active id value path with
  | zero => exact Report.piecewise_tightens.quiet _ rfl
  | succ fuel ih =>
    rw [check, check]
    split
    · exact Report.piecewise_tightens.quiet _ rfl
    · refine Descriptor.tightens_check unprobed.probeless ?_
      intro schema part step visits
      exact ih (unprobed.refers ⟨value, part, step, visits⟩)

theorem warnings_check {fuel : Nat} {active : List (SchemaId × ValuePath)} {path : ValuePath} :
    (catalog.check true fuel active id value path).warnings = [] := by
  induction fuel generalizing active id value path with
  | zero => rfl
  | succ fuel ih =>
    rw [check]
    split
    · rfl
    · exact Descriptor.warnings_check fun schema part step _ => ih

theorem warnings_report : (catalog.report true id value).warnings = [] := warnings_check

/-- How a strict validation follows from a lenient one: the warnings become violations, and the
violations remain. -/
structure Strictens (catalog : Catalog) (id : SchemaId) (value : Value) : Prop where
  passing : ∀ warnings, catalog.validate false id value = .ok warnings →
    catalog.validate true id value =
      if warnings = [] then .ok [] else .error (warnings.map Warning.violation)
  failing : ∀ violations, catalog.validate false id value = .error violations →
    ∃ others, catalog.validate true id value = .error others ∧ violations.Sublist others

theorem strictens_of_tightens
    (h : (catalog.report false id value).Tightens (catalog.report true id value)) :
    catalog.Strictens id value := by
  constructor
  · intro warnings passed
    unfold validate at *
    simp only at *
    split at passed
    · next ok =>
      cases passed
      have errors := h.errors_eq_of_isOk ok
      cases none : (catalog.report false id value).warnings with
      | nil => simp [Report.isOk, errors, none, warnings_report]
      | cons warning rest => simp [Report.isOk, errors, none]
    · cases passed
  · intro violations failed
    unfold validate at *
    simp only at *
    split at failed
    · cases failed
    · next ok =>
      cases failed
      refine ⟨(catalog.report true id value).errors, ?_, h.errors⟩
      rw [h.not_isOk (by simpa using ok)]
      rfl

/-- A strict validation differs from a lenient one in that warnings become violations, where no schema
asks for the verdict of another one alone. It never passes with warnings. -/
theorem strictens_of_unprobed (catalog : Catalog) (id : SchemaId) (value : Value) :
    (catalog.Unprobed id → catalog.Strictens id value) ∧
      (∀ warning : Warning, warning.violation.pointer = warning.pointer ∧
        warning.violation.fault.keyword = "discriminator" ∧
        warning.violation.fault.message = warning.message) ∧
      ∀ warnings, catalog.validate true id value = .ok warnings → warnings = [] := by
  refine ⟨?_, Warning.violation_shown, ?_⟩
  · intro unprobed
    exact strictens_of_tightens (tightens_check unprobed)
  · intro warnings passed
    unfold validate at passed
    simp only at passed
    split at passed
    · cases passed
      exact warnings_check
    · cases passed

end Catalog

namespace Description

/-- A description of a kennel, where all pets are dogs. -/
def boardingDocument : Value :=
  schemasDocument [
    ("Dog", .object [("required", .array [.string "bark"])]),
    ("Pet", .object [
      ("oneOf", .array [componentReference "Dog"]),
      ("discriminator", .object [("propertyName", .string "kind")])]),
    ("Kennel", .object [("items", componentReference "Pet")])]

/-- A bird, a dog and a fish, where it is said what the dog has besides its kind. -/
def boarders (dog : Entries Value) : Value :=
  .array [
    .object [("kind", .string "bird")],
    .object (("kind", .string "Dog") :: dog),
    .object [("kind", .string "fish")]]

theorem strictens_boardingDocument :
    ∃ reading, read noLoader treeBase boardingDocument = .ok reading ∧
      reading.catalog.Unprobed 2 ∧
      (reading.catalog.validate false 2 (boarders [("bark", .string "loud")]) =
          .ok [⟨["0"], "bird"⟩, ⟨["2"], "fish"⟩] ∧
        reading.catalog.validate true 2 (boarders [("bark", .string "loud")]) =
          .error [⟨["0"], .unknownTag "bird"⟩, ⟨["2"], .unknownTag "fish"⟩]) ∧
      ∃ violations, reading.catalog.validate false 2 (boarders []) = .error violations ∧
        violations.map Violation.pointer = ["/1"] ∧
        ∃ others, reading.catalog.validate true 2 (boarders []) = .error others ∧
          violations.Sublist others := by
  obtain ⟨reading, h, facts⟩ := @exists_of_any_read noLoader treeBase boardingDocument
    (fun reading => decide ((∀ id < reading.catalog.size,
        (reading.catalog.descriptor id).Probeless) ∧
      (reading.catalog.report false 2 (boarders [("bark", .string "loud")])).isOk = true ∧
      (reading.catalog.report false 2 (boarders [("bark", .string "loud")])).warnings =
        [⟨["0"], "bird"⟩, ⟨["2"], "fish"⟩] ∧
      (reading.catalog.report false 2 (boarders [])).isOk = false ∧
      (reading.catalog.report false 2 (boarders [])).errors.map Violation.pointer = ["/1"]))
    (by decide +kernel)
  obtain ⟨probeless, ok, warnings, failed, pointers⟩ := of_decide_eq_true facts
  have unprobed : reading.catalog.Unprobed 2 := Catalog.unprobed_of_forall probeless
  have passed : reading.catalog.validate false 2 (boarders [("bark", .string "loud")]) =
      .ok [⟨["0"], "bird"⟩, ⟨["2"], "fish"⟩] := by
    simp [Catalog.validate, ok, warnings]
  have refused : reading.catalog.validate false 2 (boarders []) =
      .error (reading.catalog.report false 2 (boarders [])).errors := by
    simp [Catalog.validate, failed]
  refine ⟨reading, h, unprobed, ⟨passed, ?_⟩, _, refused, pointers, ?_⟩
  · exact ((Catalog.strictens_of_unprobed reading.catalog 2 _).1 unprobed).passing _ passed
  · exact ((Catalog.strictens_of_unprobed reading.catalog 2 _).1 unprobed).failing _ refused

end Description

end ApiContract
