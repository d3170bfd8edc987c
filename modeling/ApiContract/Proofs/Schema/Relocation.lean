import ApiContract.Proofs.Schema.Verdict
/-!
# Relocation

What the report of a check owes to the path of the value and to the checks it calls for. A check
looks at the path in no other way than to put it into its findings, and it asks the checks below it
for nothing but the parts of the value that `Descriptor.Visits` lists. So putting a path in front of
a value's path puts it in front of every finding (`check_relocated`), and checks that agree on those
parts lead to the same report (`check_congr`).
-/

namespace ApiContract

open Json (Value Number)

namespace Report

/-- The same findings for a value that stands at a path. -/
def under (front : ValuePath) (report : Report) : Report :=
  ⟨report.errors.map fun violation => { violation with path := front ++ violation.path },
    report.warnings.map fun warning => { warning with path := front ++ warning.path }⟩

variable {front path : ValuePath}

@[simp] theorem under_clean : clean.under front = clean := rfl

@[simp] theorem under_fault (f : Fault) : (fault path f).under front = fault (front ++ path) f := rfl

@[simp] theorem under_faultIf (condition : Bool) (f : Fault) :
    (faultIf condition path f).under front = faultIf condition (front ++ path) f := by
  cases condition <;> rfl

@[simp] theorem under_append (a b : Report) :
    (a ++ b).under front = a.under front ++ b.under front := by
  simp only [under, errors_append, warnings_append, List.map_append]
  rfl

@[simp] theorem under_concat (reports : List Report) :
    (concat reports).under front = concat (reports.map (under front)) := by
  induction reports with
  | nil => rfl
  | cons report rest ih =>
    have tail : (report ++ concat rest).under front =
        report.under front ++ concat (rest.map (under front)) := by
      rw [under_append, ih]
    exact tail

@[simp] theorem isOk_under (report : Report) : (report.under front).isOk = report.isOk := by
  simp [isOk, under]

@[simp] theorem under_nil (report : Report) : report.under [] = report := by
  simp [under]

end Report

namespace Descriptor

section Own

variable {front path : ValuePath}

@[simp] theorem bounded_relocated {α : Type} (bound : Option α) (offends : α → Bool)
    (fault : α → Fault) :
    bounded (front ++ path) bound offends fault = (bounded path bound offends fault).under front := by
  cases bound with
  | none => rfl
  | some bound => simp [bounded]

theorem checkNumber_relocated (d : Descriptor) (n : Number) :
    d.checkNumber n (front ++ path) = (d.checkNumber n path).under front := by
  simp [checkNumber]

theorem checkPattern_relocated (pattern : Pattern) (s : String) :
    checkPattern pattern s (front ++ path) = (checkPattern pattern s path).under front := by
  unfold checkPattern
  cases pattern.isMatch? s with
  | none => rfl
  | some found => cases found <;> rfl

theorem checkString_relocated (d : Descriptor) (s : String) :
    d.checkString s (front ++ path) = (d.checkString s path).under front := by
  cases given : d.pattern with
  | none => simp [checkString, given]
  | some pattern => simp [checkString, given, checkPattern_relocated]

theorem checkFixed_relocated (d : Descriptor) (value : Value) :
    d.checkFixed value (front ++ path) = (d.checkFixed value path).under front := by
  simp [checkFixed]

end Own

section Below

variable {catalog : Catalog} {strict : Bool} {d : Descriptor} {outer inner : Visit} {value : Value}
  {front path : ValuePath}

theorem checkItems_relocated (schema : SchemaId) (items : List Value)
    (agree : ∀ i item, items[i]? = some item →
      outer schema item (front ++ itemPath path i) =
        (inner schema item (itemPath path i)).under front) :
    checkItems outer schema (front ++ path) 0 items =
      (checkItems inner schema path 0 items).under front := by
  rw [checkItems_eq_concat, checkItems_eq_concat, Report.under_concat, List.map_map]
  congr 1
  refine List.map_congr_left ?_
  rintro ⟨item, i⟩ member
  rw [itemPath, List.append_assoc]
  exact agree i item (List.mem_zipIdx_iff_getElem?.mp member)

theorem checkArray_relocated (items : List Value)
    (agree : ∀ schema part step, d.Visits catalog (.array items) schema part step →
      outer schema part (front ++ (path ++ step)) =
        (inner schema part (path ++ step)).under front) :
    d.checkArray outer items (front ++ path) = (d.checkArray inner items path).under front := by
  cases given : d.items with
  | none => simp [checkArray, given]
  | some schema =>
    have each : checkItems outer schema (front ++ path) 0 items =
        (checkItems inner schema path 0 items).under front := by
      refine checkItems_relocated schema items ?_
      intro i item found
      simpa [itemPath] using agree schema item _ (.item given found)
    simp [checkArray, given, each]

theorem checkProperty_relocated (name : String)
    (agree : ∀ schema ∈ d.schemaOf? name,
      outer schema value (front ++ (path ++ [name])) =
        (inner schema value (path ++ [name])).under front) :
    d.checkProperty outer (front ++ path) name value =
      (d.checkProperty inner path name value).under front := by
  unfold checkProperty schemaOf? at *
  cases listed : Entries.get? name d.properties with
  | some schema => simpa [listed] using agree schema
  | none =>
    cases additional : d.additional with
    | allowed => rfl
    | forbidden => simp
    | schema schema => simpa [listed, additional] using agree schema

theorem checkObject_relocated (members : Entries Value)
    (agree : ∀ schema part step, d.Visits catalog (.object members) schema part step →
      outer schema part (front ++ (path ++ step)) =
        (inner schema part (path ++ step)).under front) :
    d.checkObject outer members (front ++ path) = (d.checkObject inner members path).under front := by
  have each : members.map (fun member =>
      d.checkProperty outer (front ++ path) member.1 member.2) = members.map fun member =>
        (d.checkProperty inner path member.1 member.2).under front := by
    refine List.map_congr_left ?_
    intro member present
    exact checkProperty_relocated member.1 fun schema found =>
      agree schema member.2 _ (.property found present)
  simp [checkObject, each, Function.comp_def]

theorem checkKind_relocated
    (agree : ∀ schema part step, d.Visits catalog value schema part step →
      outer schema part (front ++ (path ++ step)) =
        (inner schema part (path ++ step)).under front) :
    d.checkKind outer value (front ++ path) = (d.checkKind inner value path).under front := by
  cases value with
  | null => rfl
  | bool _ => rfl
  | number n => exact checkNumber_relocated d n
  | string s => exact checkString_relocated d s
  | array items => exact checkArray_relocated items agree
  | object members => exact checkObject_relocated members agree

theorem checkAlternatives_relocated (exclusive : Bool) (members : List SchemaId)
    (agree : ∀ part ∈ members,
      outer part value (front ++ path) = (inner part value path).under front) :
    checkAlternatives outer exclusive members value (front ++ path) =
      (checkAlternatives inner exclusive members value path).under front := by
  have matching : (members.map fun part => outer part value (front ++ path)).filter Report.isOk =
      ((members.map fun part => inner part value path).filter Report.isOk).map
        (Report.under front) := by
    have ok : Report.isOk ∘ Report.under front = Report.isOk := funext Report.isOk_under
    have mapped : members.map (fun part => outer part value (front ++ path)) =
        (members.map fun part => inner part value path).map (Report.under front) := by
      rw [List.map_map]
      exact List.map_congr_left agree
    rw [mapped, List.filter_map, ok]
  unfold checkAlternatives
  rw [matching]
  cases (members.map fun part => inner part value path).filter Report.isOk with
  | nil => rfl
  | cons first others => cases exclusive <;> cases others <;> simp [Report.under, Report.fault]

theorem dispatch_relocated {discriminator : Discriminator} (union : d.isUnion = true)
    (tagged : d.discriminator = some discriminator)
    (agree : ∀ schema part step, d.Visits catalog value schema part step →
      outer schema part (front ++ (path ++ step)) =
        (inner schema part (path ++ step)).under front) :
    d.dispatch catalog strict discriminator outer value (front ++ path) =
      (d.dispatch catalog strict discriminator inner value path).under front := by
  cases value with
  | object members =>
    simp only [dispatch]
    cases Entries.get? discriminator.property members with
    | none => rfl
    | some found =>
      cases found with
      | string tag =>
        cases selected : d.selected? catalog discriminator tag with
        | none =>
          simp only [selected]
          cases strict <;> rfl
        | some part => simpa [selected] using agree part _ [] (.selected union tagged selected)
      | _ => simp
  | _ => rfl

theorem checkUnion_relocated
    (agree : ∀ schema part step, d.Visits catalog value schema part step →
      outer schema part (front ++ (path ++ step)) =
        (inner schema part (path ++ step)).under front) :
    d.checkUnion catalog strict outer value (front ++ path) =
      (d.checkUnion catalog strict inner value path).under front := by
  have parts : ∀ part ∈ d.parts,
      outer part value (front ++ path) = (inner part value path).under front :=
    fun part member => by simpa using agree part value [] (.part member)
  have one := checkAlternatives_relocated true d.oneOf fun part member =>
    parts part (mem_parts_iff.mpr (.inr (.inl member)))
  have any := checkAlternatives_relocated false d.anyOf fun part member =>
    parts part (mem_parts_iff.mpr (.inr (.inr (.inl member))))
  have untagged : ((if d.oneOf.isEmpty then Report.clean
        else checkAlternatives outer true d.oneOf value (front ++ path)) ++
      (if d.anyOf.isEmpty then Report.clean
        else checkAlternatives outer false d.anyOf value (front ++ path))) =
      ((if d.oneOf.isEmpty then Report.clean
        else checkAlternatives inner true d.oneOf value path) ++
      (if d.anyOf.isEmpty then Report.clean
        else checkAlternatives inner false d.anyOf value path)).under front := by
    rw [one, any, Report.under_append, apply_ite (Report.under front), apply_ite (Report.under front)]
    rfl
  unfold checkUnion
  cases tagged : d.discriminator with
  | none => exact untagged
  | some discriminator =>
    cases union : d.isUnion with
    | false => exact untagged
    | true => exact dispatch_relocated union tagged agree

theorem checkNot_relocated
    (agree : ∀ part ∈ d.not, outer part value (front ++ path) = (inner part value path).under front) :
    d.checkNot outer value (front ++ path) = (d.checkNot inner value path).under front := by
  unfold checkNot
  cases given : d.not with
  | none => rfl
  | some part => simp [agree part given]

/-- The report on a value that stands below a path is the report on the value by itself with the
path in front of every finding, if that is so of the checks that it calls for. -/
theorem check_relocated
    (agree : ∀ schema part step, d.Visits catalog value schema part step →
      outer schema part (front ++ (path ++ step)) =
        (inner schema part (path ++ step)).under front) :
    d.check catalog strict outer value (front ++ path) =
      (d.check catalog strict inner value path).under front := by
  have parts : ∀ part ∈ d.parts,
      outer part value (front ++ path) = (inner part value path).under front :=
    fun part member => by simpa using agree part value [] (.part member)
  have all : d.allOf.map (fun part => outer part value (front ++ path)) =
      d.allOf.map fun part => (inner part value path).under front :=
    List.map_congr_left fun part member => parts part (mem_parts_iff.mpr (.inl member))
  have not := checkNot_relocated fun part member =>
    parts part (mem_parts_iff.mpr (.inr (.inr (.inr member))))
  by_cases never : d.never = true
  · simp [check, never]
  by_cases null : value = .null ∧ d.admitsNull = true
  · rw [check_of_null (by simpa using never) null, check_of_null (by simpa using never) null]
    rfl
  · rw [check_of_not_null (by simpa using never) null, check_of_not_null (by simpa using never) null]
    cases d.admitsType value with
    | false => rfl
    | true =>
      simp [checkFixed_relocated, checkKind_relocated agree, all, checkUnion_relocated agree, not,
        Function.comp_def]

/-- Of the checks below it, a check depends on those alone that it calls for. -/
theorem check_congr (agree : ∀ schema part step, d.Visits catalog value schema part step →
      outer schema part (path ++ step) = inner schema part (path ++ step)) :
    d.check catalog strict outer value path = d.check catalog strict inner value path := by
  have relocated : d.check catalog strict outer value ([] ++ path) =
      (d.check catalog strict inner value path).under [] := by
    refine check_relocated ?_
    intro schema part step visits
    simpa using agree schema part step visits
  simpa using relocated

end Below

end Descriptor

end ApiContract
