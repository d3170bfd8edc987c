import ApiContract.Proofs.Json.Position
import ApiContract.Proofs.Schema.Verdict
/-!
# Findings

Where a check finds something. What a schema says of a value itself is found at the path of the value,
or at that of a member which should not be there or is no tag; everything else was found by a check
that it called for (`finds_of_mem_paths`). The path of a finding therefore leads from the value to one of
its nodes, and the text of the path is a pointer that addresses this node, whatever characters the
names of the members have (`addressed_of_validate`).
-/

namespace ApiContract

open Json (Value Number)

namespace Report

/-- The paths of all findings. -/
def paths (report : Report) : List ValuePath :=
  report.errors.map Violation.path ++ report.warnings.map Warning.path

variable {path p : ValuePath} {f : Fault}

@[simp] theorem not_mem_paths_clean : p ∉ clean.paths := by
  simp [paths, clean]

@[simp] theorem mem_paths_fault : p ∈ (fault path f).paths ↔ p = path := by
  simp [paths, fault]

@[simp] theorem mem_paths_append {a b : Report} : p ∈ (a ++ b).paths ↔ p ∈ a.paths ∨ p ∈ b.paths := by
  simp only [paths, errors_append, warnings_append, List.map_append, List.mem_append]
  exact or_or_or_comm

@[simp] theorem mem_paths_concat {reports : List Report} :
    p ∈ (concat reports).paths ↔ ∃ report ∈ reports, p ∈ report.paths := by
  induction reports with
  | nil => simp [concat]
  | cons report rest ih =>
    rw [List.exists_mem_cons_iff, ← ih]
    exact mem_paths_append

theorem eq_of_mem_paths_faultIf {condition : Bool} (h : p ∈ (faultIf condition path f).paths) :
    p = path := by
  cases condition with
  | false => exact absurd h not_mem_paths_clean
  | true => exact mem_paths_fault.mp h

end Report

namespace Descriptor

/-- Where a check finds something: in the value itself, in a node right below it, or where a check that
it calls for does. -/
inductive Finds (catalog : Catalog) (d : Descriptor) (visit : Visit) (value : Value)
    (path : ValuePath) : ValuePath → Prop
  | here : Finds catalog d visit value path path
  | child {token : String} {node : Value} :
      (token, node) ∈ value.children → Finds catalog d visit value path (path ++ [token])
  | below {schema : SchemaId} {part : Value} {step p : ValuePath} :
      d.Visits catalog value schema part step → p ∈ (visit schema part (path ++ step)).paths →
      Finds catalog d visit value path p

section Own

variable {path p : ValuePath}

theorem eq_of_mem_paths_bounded {α : Type} {bound : Option α} {offends : α → Bool}
    {fault : α → Fault} (h : p ∈ (bounded path bound offends fault).paths) : p = path := by
  cases bound with
  | none => exact absurd h Report.not_mem_paths_clean
  | some bound => exact Report.eq_of_mem_paths_faultIf h

theorem eq_of_mem_paths_checkNumber {d : Descriptor} {n : Number}
    (h : p ∈ (d.checkNumber n path).paths) : p = path := by
  simp only [checkNumber, Report.mem_paths_append, or_assoc] at h
  rcases h with h | h | h | h | h | h
  · exact eq_of_mem_paths_bounded h
  · exact eq_of_mem_paths_bounded h
  · exact eq_of_mem_paths_bounded h
  · exact eq_of_mem_paths_bounded h
  · exact eq_of_mem_paths_bounded h
  · exact Report.eq_of_mem_paths_faultIf h

theorem eq_of_mem_paths_checkPattern {pattern : Pattern} {s : String}
    (h : p ∈ (checkPattern pattern s path).paths) : p = path := by
  unfold checkPattern at h
  split at h
  · exact absurd h Report.not_mem_paths_clean
  · exact Report.mem_paths_fault.mp h
  · exact Report.mem_paths_fault.mp h

theorem eq_of_mem_paths_checkString {d : Descriptor} {s : String}
    (h : p ∈ (d.checkString s path).paths) : p = path := by
  simp only [checkString, Report.mem_paths_append, or_assoc] at h
  rcases h with h | h | h
  · exact eq_of_mem_paths_bounded h
  · exact eq_of_mem_paths_bounded h
  · cases given : d.pattern with
    | none => simp [given] at h
    | some pattern =>
      simp only [given] at h
      exact eq_of_mem_paths_checkPattern h

theorem eq_of_mem_paths_checkFixed {d : Descriptor} {value : Value}
    (h : p ∈ (d.checkFixed value path).paths) : p = path := by
  rcases Report.mem_paths_append.mp h with h | h
  · exact eq_of_mem_paths_bounded h
  · exact eq_of_mem_paths_bounded h

end Own

section Below

variable {catalog : Catalog} {strict : Bool} {d : Descriptor} {visit : Visit} {value : Value}
  {path p : ValuePath}

theorem finds_of_mem_paths_checkArray {items : List Value}
    (h : p ∈ (d.checkArray visit items path).paths) : d.Finds catalog visit (.array items) path p := by
  simp only [checkArray, Report.mem_paths_append, or_assoc] at h
  rcases h with h | h | h | h
  · rw [eq_of_mem_paths_bounded h]
    exact .here
  · rw [eq_of_mem_paths_bounded h]
    exact .here
  · rw [Report.eq_of_mem_paths_faultIf h]
    exact .here
  · cases given : d.items with
    | none => simp [given] at h
    | some schema =>
      simp only [given, checkItems_eq_concat, Report.mem_paths_concat] at h
      obtain ⟨report, among, there⟩ := h
      obtain ⟨⟨item, i⟩, found, rfl⟩ := List.mem_map.mp among
      exact .below (.item given (List.mem_zipIdx_iff_getElem?.mp found)) there

theorem finds_of_mem_paths_checkProperty {members : Entries Value} {name : String}
    (present : (name, value) ∈ members) (h : p ∈ (d.checkProperty visit path name value).paths) :
    d.Finds catalog visit (.object members) path p := by
  unfold checkProperty at h
  cases listed : Entries.get? name d.properties with
  | some schema =>
    simp only [listed] at h
    exact .below (.property (by simp [schemaOf?, listed]) present) h
  | none =>
    simp only [listed] at h
    cases additional : d.additional with
    | allowed => simp [additional] at h
    | forbidden =>
      simp only [additional, Report.mem_paths_fault] at h
      rw [h]
      have below : (name, value) ∈ (Value.object members).children := present
      exact .child below
    | schema schema =>
      simp only [additional] at h
      exact .below (.property (by simp [schemaOf?, listed, additional]) present) h

theorem finds_of_mem_paths_checkObject {members : Entries Value}
    (h : p ∈ (d.checkObject visit members path).paths) :
    d.Finds catalog visit (.object members) path p := by
  simp only [checkObject, Report.mem_paths_append, Report.mem_paths_concat, or_assoc] at h
  rcases h with ⟨report, among, h⟩ | ⟨report, among, h⟩ | h | h
  · obtain ⟨name, -, rfl⟩ := List.mem_map.mp among
    rw [Report.eq_of_mem_paths_faultIf h]
    exact .here
  · obtain ⟨⟨name, value⟩, present, rfl⟩ := List.mem_map.mp among
    exact finds_of_mem_paths_checkProperty present h
  · rw [eq_of_mem_paths_bounded h]
    exact .here
  · rw [eq_of_mem_paths_bounded h]
    exact .here

theorem finds_of_mem_paths_checkKind (h : p ∈ (d.checkKind visit value path).paths) :
    d.Finds catalog visit value path p := by
  cases value with
  | null => exact absurd h Report.not_mem_paths_clean
  | bool _ => exact absurd h Report.not_mem_paths_clean
  | number n =>
    rw [eq_of_mem_paths_checkNumber h]
    exact .here
  | string s =>
    rw [eq_of_mem_paths_checkString h]
    exact .here
  | array items => exact finds_of_mem_paths_checkArray h
  | object members => exact finds_of_mem_paths_checkObject h

/-- What alternatives find is found in the value, or by one of them. -/
theorem mem_paths_checkAlternatives {exclusive : Bool} {members : List SchemaId}
    (h : p ∈ (checkAlternatives visit exclusive members value path).paths) :
    p = path ∨ ∃ part ∈ members, p ∈ (visit part value path).paths := by
  rcases checkAlternatives_cases exclusive members with ⟨fault, failed⟩ | ⟨part, member, passed⟩
  · rw [failed] at h
    exact .inl (Report.mem_paths_fault.mp h)
  · rw [passed] at h
    exact .inr ⟨part, member, List.mem_append_right _ (by simpa [Report.paths] using h)⟩

theorem finds_of_mem_paths_dispatch {discriminator : Discriminator} (union : d.isUnion = true)
    (tagged : d.discriminator = some discriminator)
    (h : p ∈ (d.dispatch catalog strict discriminator visit value path).paths) :
    d.Finds catalog visit value path p := by
  unfold dispatch at h
  split at h
  · next members =>
    split at h
    · next tag there =>
      split at h
      · next part selected =>
        refine .below (.selected union tagged selected) ?_
        rwa [List.append_nil]
      · have same : p = path := by cases strict <;> simpa [Report.paths, Report.fault] using h
        rw [same]
        exact .here
    · next other _ there =>
      rw [Report.mem_paths_fault.mp h]
      exact .child (Value.mem_children_object_iff.mpr (Entries.mem_of_get? there))
    · rw [Report.mem_paths_fault.mp h]
      exact .here
  · rw [Report.mem_paths_fault.mp h]
    exact .here

theorem finds_of_mem_paths_checkUnion
    (h : p ∈ (d.checkUnion catalog strict visit value path).paths) :
    d.Finds catalog visit value path p := by
  have alternatives {exclusive : Bool} {members : List SchemaId} (among : members ⊆ d.parts)
      (h : p ∈ (if members.isEmpty then Report.clean
        else checkAlternatives visit exclusive members value path).paths) :
      d.Finds catalog visit value path p := by
    split at h
    · exact absurd h Report.not_mem_paths_clean
    · rcases mem_paths_checkAlternatives h with rfl | ⟨part, member, there⟩
      · exact .here
      · refine .below (.part (among member)) ?_
        rwa [List.append_nil]
  unfold checkUnion at h
  split at h
  · next discriminator tagged union => exact finds_of_mem_paths_dispatch union tagged h
  · rcases Report.mem_paths_append.mp h with h | h
    · exact alternatives (fun part member => mem_parts_iff.mpr (.inr (.inl member))) h
    · exact alternatives (fun part member => mem_parts_iff.mpr (.inr (.inr (.inl member)))) h

theorem eq_of_mem_paths_checkNot (h : p ∈ (d.checkNot visit value path).paths) : p = path := by
  unfold checkNot at h
  split at h
  · exact Report.eq_of_mem_paths_faultIf h
  · exact absurd h Report.not_mem_paths_clean

/-- Whatever a check finds, it finds in the value, right below it, or through a check that it calls
for. -/
theorem finds_of_mem_paths (h : p ∈ (d.check catalog strict visit value path).paths) :
    d.Finds catalog visit value path p := by
  by_cases never : d.never = true
  · simp only [check, never, if_true, Report.mem_paths_fault] at h
    rw [h]
    exact .here
  replace never : d.never = false := by simpa using never
  by_cases null : value = .null ∧ d.admitsNull = true
  · rw [check_of_null never null] at h
    exact absurd h Report.not_mem_paths_clean
  rw [check_of_not_null never null] at h
  split at h
  · rw [Report.mem_paths_fault.mp h]
    exact .here
  simp only [Report.mem_paths_append, Report.mem_paths_concat, or_assoc] at h
  rcases h with fixed | kind | ⟨report, among, there⟩ | union | not
  · rw [eq_of_mem_paths_checkFixed fixed]
    exact .here
  · exact finds_of_mem_paths_checkKind kind
  · obtain ⟨part, member, rfl⟩ := List.mem_map.mp among
    refine .below (.part (mem_parts_iff.mpr (.inl member))) ?_
    rwa [List.append_nil]
  · exact finds_of_mem_paths_checkUnion union
  · rw [eq_of_mem_paths_checkNot not]
    exact .here

/-- A check calls for checks of the same value, or of a node right below it. -/
theorem Visits.same_or_child {schema : SchemaId} {part : Value} {step : ValuePath}
    (h : d.Visits catalog value schema part step) :
    step = [] ∧ part = value ∨ ∃ token, step = [token] ∧ (token, part) ∈ value.children := by
  cases h with
  | part _ => exact .inl ⟨rfl, rfl⟩
  | selected _ _ _ => exact .inl ⟨rfl, rfl⟩
  | item _ found => exact .inr ⟨_, rfl, Value.mem_children_array_iff.mpr ⟨_, found, rfl⟩⟩
  | property _ member => exact .inr ⟨_, rfl, member⟩

end Below

end Descriptor

namespace Json.Value

/-- A pointer addresses a node of a value, which is the value itself if the pointer is empty, and only
then. -/
def Addressed (value : Value) (pointer : String) : Prop :=
  ∃ position node, value.at? position = some node ∧ Pointer.navigate? value pointer = some node ∧
    (pointer = "" ↔ position = [])

theorem addressed_of_follow? {value node : Value} {path : ValuePath}
    (h : Pointer.follow? value path = some node) : value.Addressed (Pointer.ofTokens path) := by
  rw [Pointer.follow?_eq] at h
  obtain ⟨position, leads, found⟩ := Option.bind_eq_some_iff.mp h
  refine ⟨position, node, found, ?_, ?_⟩
  · rw [Pointer.navigate?, Pointer.tokens_ofTokens, Pointer.follow?_eq, leads]
    exact found
  · have length := Pointer.length_position? leads
    rw [show "" = Pointer.ofTokens [] from rfl, Pointer.ofTokens_inj, ← List.length_eq_zero_iff,
      ← length, List.length_eq_zero_iff]

end Json.Value

namespace Catalog

variable {catalog : Catalog} {strict : Bool} {fuel : Nat} {active : List (SchemaId × ValuePath)}
  {id : SchemaId} {part value : Value} {path p : ValuePath}

/-- The path of a finding leads on from the path of the value, to one of its nodes. -/
theorem follow?_of_mem_paths (distinct : part.hasDistinctNames = true) (indexed : part.Indexed)
    (h : p ∈ (catalog.check strict fuel active id part path).paths) :
    ∃ rest node, p = path ++ rest ∧ Json.Pointer.follow? part rest = some node := by
  induction fuel generalizing active id part path with
  | zero => exact absurd h Report.not_mem_paths_clean
  | succ fuel ih =>
    rw [check] at h
    split at h
    · exact absurd h Report.not_mem_paths_clean
    cases Descriptor.finds_of_mem_paths h with
    | here => exact ⟨[], part, (List.append_nil _).symm, rfl⟩
    | @child token node below =>
      refine ⟨[token], node, rfl, ?_⟩
      simp [Json.Pointer.follow?, Json.Pointer.step?_of_mem_children distinct indexed below]
    | @below schema part step _ visits found =>
      rcases visits.same_or_child with ⟨rfl, rfl⟩ | ⟨token, rfl, below⟩
      · rw [List.append_nil] at found
        exact ih distinct indexed found
      · obtain ⟨rest, node, rfl, leads⟩ :=
          ih (Value.hasDistinctNames_of_mem_children distinct below) (indexed.below below) found
        refine ⟨token :: rest, node, by simp, ?_⟩
        simp [Json.Pointer.follow?, Json.Pointer.step?_of_mem_children distinct indexed below, leads]

theorem addressed_of_mem_paths (distinct : value.hasDistinctNames = true) (indexed : value.Indexed)
    (h : p ∈ (catalog.report strict id value).paths) :
    value.Addressed (Json.Pointer.ofTokens p) := by
  obtain ⟨rest, node, rfl, leads⟩ := follow?_of_mem_paths distinct indexed h
  exact Value.addressed_of_follow? leads

/-- The pointers of all violations and warnings address nodes of the value. -/
theorem addressed_of_validate (catalog : Catalog) (strict : Bool) (id : SchemaId)
    (distinct : value.hasDistinctNames = true) (indexed : value.Indexed) :
    (∀ violations, catalog.validate strict id value = .error violations →
      ∀ violation ∈ violations, value.Addressed violation.pointer) ∧
    ∀ warnings, catalog.validate strict id value = .ok warnings →
      ∀ warning ∈ warnings, value.Addressed warning.pointer := by
  unfold validate
  constructor
  · intro violations failed violation member
    simp only at failed
    split at failed
    · cases failed
    · cases failed
      exact addressed_of_mem_paths distinct indexed
        (List.mem_append_left _ (List.mem_map_of_mem member))
  · intro warnings passed warning member
    simp only at passed
    split at passed
    · cases passed
      exact addressed_of_mem_paths distinct indexed
        (List.mem_append_right _ (List.mem_map_of_mem member))
    · cases passed

/-- A shelf has boxes under any names, and a box has labels, whose tags select nothing. -/
def shelf : Catalog where
  descriptors := #[
    { Descriptor.unrestricted "shelf" none with additional := .schema 1 },
    { Descriptor.unrestricted "box" none with items := some 2 },
    { Descriptor.unrestricted "label" none with
      oneOf := [0], discriminator := some ⟨"kind", []⟩ }]
  index := []

/-- A shelf with a box, in which there is one label, under each name that a pointer has to escape or
could take for an escape. -/
def fragileShelf : Value :=
  .object (["", "/", "~", "~0", "~1"].map fun name =>
    (name, .array [.object [("kind", .string "fragile")]]))

theorem addressed_fragileShelf :
    fragileShelf.hasDistinctNames = true ∧ fragileShelf.Indexed ∧
    (∃ violations, shelf.validate true 0 fragileShelf = .error violations ∧
      violations.map Violation.pointer = ["//0", "/~1/0", "/~0/0", "/~00/0", "/~01/0"] ∧
      ∀ violation ∈ violations, fragileShelf.Addressed violation.pointer) ∧
    ∃ warnings, shelf.validate false 0 fragileShelf = .ok warnings ∧
      warnings.map Warning.pointer = ["//0", "/~1/0", "/~0/0", "/~00/0", "/~01/0"] ∧
      ∀ warning ∈ warnings, fragileShelf.Addressed warning.pointer := by
  have distinct : fragileShelf.hasDistinctNames = true := by decide +kernel
  have indexed : fragileShelf.Indexed := by decide +kernel
  refine ⟨distinct, indexed, ⟨_, rfl, by decide +kernel, ?_⟩, ⟨_, rfl, by decide +kernel, ?_⟩⟩
  · exact (addressed_of_validate shelf true 0 distinct indexed).1 _ rfl
  · exact (addressed_of_validate shelf false 0 distinct indexed).2 _ rfl

end Catalog

end ApiContract
