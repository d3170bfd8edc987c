import ApiContract.Proofs.Schema.Nesting
/-!
# Validations that accumulate

`Catalog.check` gives the report of one check. The same checks can be made one after the other in a
`Validation`, which holds the checks under way and what has been found: `Catalog.enter` puts a check
among those under way, adds what is found to what was found before, and takes the check off again.
Both ways come to the same (`Catalog.enter_follows`).

Checks that are under way elsewhere do not matter. A check comes up again only at the path of one that
is under way, and all checks below a part of the value have paths that go on from that of the part. So
a check finds what it finds in a validation of its own, with the path of the part in front
(`Catalog.check_under`). In the run of a validation this is so of every check of a node that comes up
for the first time: the fuel that is left is as much as a validation of the node takes
(`Catalog.Underway.enter_first`).
-/

namespace ApiContract

open Json (Value)
open Json.Pointer (GoesOn ofTokens ofTokens_append goesOn_ofTokens_iff)

namespace Report

theorem append_assoc (a b c : Report) : a ++ b ++ c = a ++ (b ++ c) :=
  congrArg₂ Report.mk (List.append_assoc _ _ _) (List.append_assoc _ _ _)

@[simp] theorem append_clean (a : Report) : a ++ clean = a :=
  congrArg₂ Report.mk (List.append_nil _) (List.append_nil _)

@[simp] theorem clean_append (a : Report) : clean ++ a = a := rfl

end Report

/-- A validation: the checks that are under way, and what has been found so far. -/
structure Validation where
  frames : List (SchemaId × ValuePath)
  found : Report

namespace Validation

/-- A check of a part of a value as a step of a validation. -/
abbrev Step := SchemaId → Value → ValuePath → Validation → Validation

/-- A validation that has found more. -/
def add (v : Validation) (report : Report) : Validation := { v with found := v.found ++ report }

/-- What a step finds by itself, with the same checks under way. -/
def probe (v : Validation) (step : Step) : Visit := fun id value path =>
  (step id value path ⟨v.frames, .clean⟩).found

/-- A step does nothing but add the report of a check. -/
def Follows (step : Step) (visit : List (SchemaId × ValuePath) → Visit) : Prop :=
  ∀ id value path v, step id value path v = v.add (visit v.frames id value path)

variable {v : Validation} {step : Step} {visit : List (SchemaId × ValuePath) → Visit}

@[simp] theorem frames_add (report : Report) : (v.add report).frames = v.frames := rfl

@[simp] theorem add_clean : v.add .clean = v :=
  congrArg (Validation.mk v.frames) (Report.append_clean v.found)

@[simp] theorem add_add (a b : Report) : (v.add a).add b = v.add (a ++ b) :=
  congrArg (Validation.mk v.frames) (Report.append_assoc v.found a b)

theorem Follows.probe_eq (follows : Follows step visit) : v.probe step = visit v.frames := by
  funext id value path
  exact congrArg Validation.found (follows id value path ⟨v.frames, .clean⟩)

/-- One addition after the other. -/
theorem foldl_eq_add {α : Type} {f : Validation → α → Validation}
    (report : List (SchemaId × ValuePath) → α → Report)
    (adds : ∀ v x, f v x = v.add (report v.frames x)) (l : List α) (v : Validation) :
    l.foldl f v = v.add (.concat (l.map (report v.frames))) := by
  induction l generalizing v with
  | nil => exact add_clean.symm
  | cons x rest ih => rw [List.foldl_cons, ih, adds, add_add]; rfl

end Validation

namespace Descriptor

open Validation (Step Follows)

/-- Check items from a position on. -/
def runItems (step : Step) (schema : SchemaId) (path : ValuePath) :
    (position : Nat) → List Value → Validation → Validation
  | _, [], v => v
  | i, item :: rest, v =>
    runItems step schema path (i + 1) rest (step schema item (itemPath path i) v)

/-- Check an array. -/
def runArray (d : Descriptor) (step : Step) (items : List Value) (path : ValuePath)
    (v : Validation) : Validation :=
  let v := v.add (bounded path d.minItems (fun least => items.length < least)
    (.tooFewItems items.length))
  let v := v.add (bounded path d.maxItems (fun most => most < items.length)
    (.tooManyItems items.length))
  let v := v.add (.faultIf (d.uniqueItems && hasRepetition items) path .repeatedItems)
  match d.items with
  | some schema => runItems step schema path 0 items v
  | none => v

/-- Check a property. -/
def runProperty (d : Descriptor) (step : Step) (path : ValuePath) (v : Validation)
    (member : String × Value) : Validation :=
  match Entries.get? member.1 d.properties with
  | some schema => step schema member.2 (path ++ [member.1]) v
  | none =>
    match d.additional with
    | .allowed => v
    | .forbidden => v.add (.fault (path ++ [member.1]) (.unexpectedProperty member.1))
    | .schema schema => step schema member.2 (path ++ [member.1]) v

/-- Check an object. -/
def runObject (d : Descriptor) (step : Step) (members : Entries Value) (path : ValuePath)
    (v : Validation) : Validation :=
  let v := d.required.foldl
    (fun v name => v.add (.faultIf (!Entries.has name members) path (.missingProperty name))) v
  let v := members.foldl (d.runProperty step path) v
  let v := v.add (bounded path d.minProperties (fun least => members.length < least)
    (.tooFewProperties members.length))
  v.add (bounded path d.maxProperties (fun most => most < members.length)
    (.tooManyProperties members.length))

/-- Check the keywords of the value's own kind. -/
def runKind (d : Descriptor) (step : Step) (value : Value) (path : ValuePath) (v : Validation) :
    Validation :=
  match value with
  | .number n => v.add (d.checkNumber n path)
  | .string s => v.add (d.checkString s path)
  | .array items => d.runArray step items path v
  | .object members => d.runObject step members path v
  | .null | .bool _ => v

/-- Check a value by the one member of a union that its tag selects. -/
def runDispatch (catalog : Catalog) (strict : Bool) (d : Descriptor) (discriminator : Discriminator)
    (step : Step) (value : Value) (path : ValuePath) (v : Validation) : Validation :=
  match value with
  | .object members =>
    match Entries.get? discriminator.property members with
    | some (.string tag) =>
      match d.selected? catalog discriminator tag with
      | some member => step member value path v
      | none => v.add (if strict then .fault path (.unknownTag tag) else ⟨[], [⟨path, tag⟩]⟩)
    | some other => v.add (.fault (path ++ [discriminator.property]) (.tagNotText other))
    | none => v.add (.fault path (.missingTag discriminator.property))
  | _ => v.add (.fault path (.untaggedValue discriminator.property value))

/-- Check the alternatives, each of which is tried by itself. -/
def runAlternatives (d : Descriptor) (step : Step) (value : Value) (path : ValuePath)
    (v : Validation) : Validation :=
  let v := if d.oneOf.isEmpty then v
    else v.add (checkAlternatives (v.probe step) true d.oneOf value path)
  if d.anyOf.isEmpty then v else v.add (checkAlternatives (v.probe step) false d.anyOf value path)

/-- Check the union that the schema is, if it is one. -/
def runUnion (catalog : Catalog) (strict : Bool) (d : Descriptor) (step : Step) (value : Value)
    (path : ValuePath) (v : Validation) : Validation :=
  match d.discriminator, d.isUnion with
  | some discriminator, true => d.runDispatch catalog strict discriminator step value path v
  | _, _ => d.runAlternatives step value path v

/-- Check a value, where `step` checks against the schemas referred to. -/
def run (catalog : Catalog) (strict : Bool) (d : Descriptor) (step : Step) (value : Value)
    (path : ValuePath) (v : Validation) : Validation :=
  if d.never then v.add (.fault path .neverAllowed)
  else if value matches .null && d.admitsNull then v
  else if !d.admitsType value then v.add (.fault path (.wrongType d.types value))
  else
    let v := v.add (d.checkFixed value path)
    let v := d.runKind step value path v
    let v := d.allOf.foldl (fun v member => step member value path v) v
    let v := d.runUnion catalog strict step value path v
    v.add (d.checkNot (v.probe step) value path)

section Following

variable {catalog : Catalog} {strict : Bool} {step : Step}
  {visit : List (SchemaId × ValuePath) → Visit} {value : Value} {path : ValuePath}

theorem runItems_eq (follows : Follows step visit) (schema : SchemaId) (i : Nat) (items : List Value)
    (v : Validation) : runItems step schema path i items v =
      v.add (checkItems (visit v.frames) schema path i items) := by
  induction items generalizing i v with
  | nil => exact Validation.add_clean.symm
  | cons item rest ih => rw [runItems, ih, follows, Validation.add_add]; rfl

theorem runArray_eq (follows : Follows step visit) (d : Descriptor) (items : List Value)
    (v : Validation) : d.runArray step items path v =
      v.add (d.checkArray (visit v.frames) items path) := by
  cases given : d.items with
  | none => simp [runArray, checkArray, given]
  | some schema => simp [runArray, checkArray, given, runItems_eq follows]

theorem runProperty_eq (follows : Follows step visit) (d : Descriptor) (v : Validation)
    (member : String × Value) : d.runProperty step path v member =
      v.add (d.checkProperty (visit v.frames) path member.1 member.2) := by
  unfold runProperty checkProperty
  cases Entries.get? member.1 d.properties with
  | some schema => exact follows _ _ _ _
  | none =>
    cases d.additional with
    | allowed => exact Validation.add_clean.symm
    | forbidden => rfl
    | schema schema => exact follows _ _ _ _

theorem runObject_eq (follows : Follows step visit) (d : Descriptor) (members : Entries Value)
    (v : Validation) : d.runObject step members path v =
      v.add (d.checkObject (visit v.frames) members path) := by
  have required := Validation.foldl_eq_add (f := fun v name =>
      v.add (.faultIf (!Entries.has name members) path (.missingProperty name)))
    (fun _ name => .faultIf (!Entries.has name members) path (.missingProperty name))
    (fun _ _ => rfl) d.required
  have properties := Validation.foldl_eq_add
    (fun frames member => d.checkProperty (visit frames) path member.1 member.2)
    (runProperty_eq follows d) members
  simp [runObject, checkObject, required, properties]

theorem runKind_eq (follows : Follows step visit) (d : Descriptor) (v : Validation) :
    d.runKind step value path v = v.add (d.checkKind (visit v.frames) value path) := by
  cases value with
  | null => exact Validation.add_clean.symm
  | bool _ => exact Validation.add_clean.symm
  | number n => rfl
  | string s => rfl
  | array items => exact runArray_eq follows d items v
  | object members => exact runObject_eq follows d members v

theorem runDispatch_eq (follows : Follows step visit) (d : Descriptor) (discriminator : Discriminator)
    (v : Validation) : d.runDispatch catalog strict discriminator step value path v =
      v.add (d.dispatch catalog strict discriminator (visit v.frames) value path) := by
  cases value with
  | object members =>
    simp only [runDispatch, dispatch]
    cases Entries.get? discriminator.property members with
    | none => rfl
    | some found =>
      cases found with
      | string tag =>
        cases selected : d.selected? catalog discriminator tag with
        | none => simp [selected]
        | some member => simpa [selected] using follows member _ path v
      | _ => rfl
  | _ => rfl

theorem runAlternatives_eq (follows : Follows step visit) (d : Descriptor) (v : Validation) :
    d.runAlternatives step value path v = v.add
      ((if d.oneOf.isEmpty then .clean
          else checkAlternatives (visit v.frames) true d.oneOf value path)
        ++ (if d.anyOf.isEmpty then .clean
          else checkAlternatives (visit v.frames) false d.anyOf value path)) := by
  simp only [runAlternatives, follows.probe_eq]
  cases d.oneOf.isEmpty <;> cases d.anyOf.isEmpty <;> simp

theorem runUnion_eq (follows : Follows step visit) (d : Descriptor) (v : Validation) :
    d.runUnion catalog strict step value path v =
      v.add (d.checkUnion catalog strict (visit v.frames) value path) := by
  unfold runUnion checkUnion
  cases d.discriminator with
  | none => exact runAlternatives_eq follows d v
  | some discriminator =>
    cases d.isUnion with
    | false => exact runAlternatives_eq follows d v
    | true => exact runDispatch_eq follows d discriminator v

/-- Checking step by step adds the report of the check. -/
theorem run_eq (follows : Follows step visit) (d : Descriptor) (v : Validation) :
    d.run catalog strict step value path v =
      v.add (d.check catalog strict (visit v.frames) value path) := by
  have all := Validation.foldl_eq_add (f := fun v member => step member value path v)
    (fun frames member => visit frames member value path)
    (fun v member => follows member value path v) d.allOf
  unfold run check
  rw [apply_ite v.add, apply_ite v.add, apply_ite v.add, Validation.add_clean]
  refine if_congr Iff.rfl rfl (if_congr Iff.rfl rfl (if_congr Iff.rfl rfl ?_))
  simp only [runKind_eq follows, all, runUnion_eq follows, follows.probe_eq, Validation.frames_add,
    Validation.add_add]

end Following

end Descriptor

namespace Catalog

/-- Make a check of a part of a value, unless it is under way. `fuel` bounds how many can be. -/
def enter (catalog : Catalog) (strict : Bool) : (fuel : Nat) → Validation.Step
  | 0, _, _, _, v => v
  | fuel + 1, id, value, path, v =>
    if v.frames.contains (id, path) then v
    else
      let later := (catalog.descriptor id).run catalog strict (enter catalog strict fuel) value path
        { v with frames := (id, path) :: v.frames }
      { later with frames := later.frames.erase (id, path) }

variable {catalog : Catalog} {strict : Bool} {limit fuel : Nat} {value part : Value}
  {path inner : ValuePath} {id : SchemaId} {frames outer : List (SchemaId × ValuePath)}

/-- Making checks one after the other adds the report of the check, and leaves those that are under
way as they were. -/
theorem enter_follows (catalog : Catalog) (strict : Bool) (fuel : Nat) :
    Validation.Follows (catalog.enter strict fuel) (catalog.check strict fuel) := by
  induction fuel with
  | zero => exact fun _ _ _ _ => Validation.add_clean.symm
  | succ fuel ih =>
    intro id value path v
    rw [enter, check]
    split
    · exact Validation.add_clean.symm
    · rw [Descriptor.run_eq ih]
      exact congrArg₂ Validation.mk (List.erase_cons_head _ _) rfl

/-! ### Checks that are under way elsewhere -/

/-- Checks elsewhere do not matter for a part of a value: the report is that of the check in a
validation of its own, with the path of the part in front. -/
theorem check_under (strict : Bool) (id : SchemaId) (apart : ∀ frame ∈ outer, ¬ path <+: frame.2)
    (live : catalog.Live limit fuel frames part inner) (extra : Nat) :
    catalog.check strict (fuel + extra)
        (frames.map (fun frame => (frame.1, path ++ frame.2)) ++ outer) id part (path ++ inner) =
      (catalog.check strict fuel frames id part inner).under path := by
  induction fuel generalizing frames part inner id with
  | zero => exact absurd live.fuel_pos (Nat.lt_irrefl 0)
  | succ fuel ih =>
    have known : (id, path ++ inner) ∈ frames.map (fun frame => (frame.1, path ++ frame.2)) ++ outer ↔
        (id, inner) ∈ frames := by
      rw [List.mem_append, List.mem_map]
      constructor
      · rintro (⟨⟨other, deeper⟩, member, same⟩ | elsewhere)
        · obtain ⟨rfl, below⟩ := Prod.mk.inj same
          rwa [← List.append_cancel_left below]
        · exact absurd (List.prefix_append path inner) (apart _ elsewhere)
      · exact fun member => .inl ⟨(id, inner), member, rfl⟩
    rw [Nat.add_right_comm, check, check]
    simp only [List.contains_iff_mem, known]
    split
    · rfl
    · next fresh =>
      refine Descriptor.check_relocated ?_
      intro schema part step visits
      exact ih schema (live.visit fresh visits)

/-- A part of a value that is not under way yet leaves as much fuel as a validation of its own has. -/
theorem Live.checkLimit_le (live : catalog.Live limit fuel frames part path)
    (apart : ∀ frame ∈ frames, ¬ path <+: frame.2) : catalog.checkLimit part ≤ fuel := by
  -- All checks of the part may be under way beside those that are.
  let whole := frames ++ (List.range catalog.size).map fun id => (id, path)
  have own : ∀ frame ∈ whole, frame.1 < catalog.size ∧ frame.2 <+: path := by
    intro frame member
    rcases List.mem_append.mp member with member | own
    · exact ⟨live.ids frame member, live.paths frame member⟩
    · obtain ⟨id, inside, rfl⟩ := List.mem_map.mp own
      exact ⟨List.mem_range.mp inside, List.prefix_refl _⟩
  have distinct : whole.Nodup := by
    refine live.nodup.append (List.nodup_range.map fun _ _ same => (Prod.mk.inj same).1) ?_
    intro frame member own
    obtain ⟨id, -, rfl⟩ := List.mem_map.mp own
    exact apart _ member (List.prefix_refl _)
  have few := length_le_of_frames distinct (fun frame member => (own frame member).1)
    fun frame member => (own frame member).2
  rw [List.length_append, List.length_map, List.length_range, Nat.mul_add, Nat.mul_one] at few
  have room := live.room
  rw [Nat.mul_add] at room
  have := live.length
  unfold checkLimit
  omega

theorem check_apart (strict : Bool) (id : SchemaId) (apart : ∀ frame ∈ outer, ¬ path <+: frame.2)
    (enough : catalog.checkLimit value ≤ fuel) :
    catalog.check strict fuel outer id value path = (catalog.report strict id value).under path := by
  have moved := check_under strict id apart (live_checkLimit catalog value)
    (fuel - catalog.checkLimit value)
  rw [Nat.add_sub_cancel' enough, List.append_nil] at moved
  exact moved

/-- A part of a value that comes up for the first time adds the report on it by itself. -/
theorem Live.check_eq_report (live : catalog.Live limit fuel frames part path) (strict : Bool)
    (id : SchemaId) (apart : ∀ frame ∈ frames, ¬ path <+: frame.2) :
    catalog.check strict fuel frames id part path = (catalog.report strict id part).under path :=
  check_apart strict id apart (live.checkLimit_le apart)

/-- No check is under way at the path of a node that comes up for the first time, or below. -/
theorem Underway.apart {checks : List Frame} {current : Frame}
    (h : catalog.Underway (.whole id value) checks current)
    (first : current.position ∉ checks.map Frame.position) :
    ∀ frame ∈ checks.map Frame.entry, ¬ current.path <+: frame.2 := by
  intro entry member below
  obtain ⟨frame, earlier, rfl⟩ := List.mem_map.mp member
  have listed : frame ∈ current :: checks := .tail _ earlier
  have own : current ∈ current :: checks := List.mem_cons_self
  have same : frame.path = current.path :=
    (h.above frame listed).path.eq_of_length_le below.length_le
  have here := (Frame.path_eq_iff (h.placed frame listed) (h.placed current own)
    (h.above frame listed) (h.above current own)).mp same
  exact first (here ▸ List.mem_map_of_mem earlier)

/-- A run on a value consists of runs on its nodes. A check of a node that comes up for the first time
ends in one report only, which is the report on the node by itself, with the path in front; and with
the fuel that is left, it adds this report to what has been found. -/
theorem Underway.enter_first {checks : List Frame} {current : Frame} (strict : Bool)
    (h : catalog.Underway (.whole id value) checks current)
    (first : current.position ∉ checks.map Frame.position)
    (left : checks.length + fuel = catalog.checkLimit value) (found : Report) :
    let own := (catalog.report strict current.schema current.part).under current.path
    let before : Validation := ⟨checks.map Frame.entry, found⟩
    (∀ report, (∃ depth, catalog.Checks strict depth checks current report) ↔ report = own) ∧
      catalog.enter strict fuel current.schema current.part current.path before =
        before.add own := by
  intro own before
  have apart := h.apart first
  have check_eq : catalog.check strict fuel (checks.map Frame.entry) current.schema current.part
      current.path = own := by
    obtain ⟨fuel', live⟩ := h.live
    obtain rfl : fuel = fuel' := by
      have length := live.length
      rw [List.length_map] at length
      omega
    exact live.check_eq_report strict current.schema apart
  have ends : catalog.Checks strict fuel checks current own := check_eq ▸ h.checks left
  refine ⟨fun report => ⟨?_, ?_⟩, ?_⟩
  · rintro ⟨depth, other⟩
    exact other.unique ends
  · rintro rfl
    exact ⟨fuel, ends⟩
  · rw [← check_eq]
    exact enter_follows catalog strict fuel current.schema current.part current.path before

/-- A validation consists of validations of parts. Where no check is under way at a path or below, a
check at the path finds what it finds in a validation of its own, with the path in front of every
finding; and it leaves the checks that are under way and the earlier findings as they were. The fuel
that this takes is there whenever a node comes up for the first time (`Underway.enter_first`). -/
theorem enter_apart (catalog : Catalog) (strict : Bool) (id : SchemaId) (value : Value)
    (path : ValuePath) (v : Validation)
    (apart : ∀ frame ∈ v.frames, ¬ GoesOn (ofTokens path) (ofTokens frame.2))
    (fuel : Nat) (enough : catalog.checkLimit value ≤ fuel) :
    let own := catalog.report strict id value
    let later := catalog.enter strict fuel id value path v
    catalog.check strict fuel v.frames id value path = own.under path ∧
    later.frames = v.frames ∧
    later.found.errors = v.found.errors ++
      own.errors.map (fun violation => ⟨path ++ violation.path, violation.fault⟩) ∧
    later.found.warnings = v.found.warnings ++
      own.warnings.map (fun warning => ⟨path ++ warning.path, warning.tag⟩) ∧
    later.found.errors.map Violation.pointer = v.found.errors.map Violation.pointer ++
      own.errors.map (fun violation => ofTokens path ++ violation.pointer) ∧
    later.found.warnings.map Warning.pointer = v.found.warnings.map Warning.pointer ++
      own.warnings.map (fun warning => ofTokens path ++ warning.pointer) := by
  intro own later
  have found : catalog.check strict fuel v.frames id value path = own.under path :=
    check_apart strict id (fun frame member => goesOn_ofTokens_iff.not.mp (apart frame member)) enough
  have after : later = v.add (own.under path) := by
    rw [← found]
    exact enter_follows catalog strict fuel id value path v
  refine ⟨found, ?_⟩
  rw [after]
  refine ⟨rfl, rfl, rfl, ?_, ?_⟩
  · simp [Validation.add, Report.errors_append, Report.under, Violation.pointer, ofTokens_append]
  · simp [Validation.add, Report.warnings_append, Report.under, Warning.pointer, ofTokens_append]

/-- A catalog of lists of lists. -/
def nests : Catalog where
  descriptors := #[{ Descriptor.unrestricted "nest" none with types := [.array], items := some 0 }]
  index := []

/-- A validation of such a list in which the second item has been found wrong. The text of one of its
paths begins with `/0`, but does not go on from there after a slash. -/
def nestsUnderWay : Validation :=
  ⟨[(0, []), (0, ["00"]), (0, ["1", "0"])], .fault ["1"] .repeatedItems⟩

theorem enter_apart_nests :
    let value := Value.array [.array [], .array [.null]]
    let later := nests.enter true 5 0 value ["0"] nestsUnderWay
    (∀ frame ∈ nestsUnderWay.frames, ¬ GoesOn (ofTokens ["0"]) (ofTokens frame.2)) ∧
    nests.checkLimit value ≤ 5 ∧ later.frames = nestsUnderWay.frames ∧
    later.found.errors.map Violation.pointer = ["/1", "/0/1/0"] := by
  intro value later
  have apart : ∀ frame ∈ nestsUnderWay.frames, ¬ GoesOn (ofTokens ["0"]) (ofTokens frame.2) := by
    simp only [goesOn_ofTokens_iff]
    decide
  have enough : nests.checkLimit value ≤ 5 := by decide
  obtain ⟨-, same, -, -, pointers, -⟩ :=
    enter_apart nests true 0 value ["0"] nestsUnderWay apart 5 enough
  have own : (nests.report true 0 value).errors.map
      (fun violation => ofTokens ["0"] ++ violation.pointer) = ["/0/1/0"] := by
    decide +kernel
  refine ⟨apart, enough, same, pointers.trans ?_⟩
  rw [own]
  decide +kernel

end Catalog

end ApiContract
