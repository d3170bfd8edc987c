import ApiContract.Proofs.Entries
import ApiContract.Proofs.Json.Reordering
import ApiContract.Proofs.Schema.Verdict
/-!
# Member order

The order of members has no part in a verdict. Members are checked in their order, and so are the
findings, but what is found where does not depend on it: a check of two values that differ in the
order of members alone finds as many faults against each keyword in each place (`Report.Alike`), if
the checks that it calls for do (`alike_check`). Verdicts on alternatives and on what is denied then
agree, and the recursion has as far to go, as the values have as many nodes.
-/

namespace ApiContract

open Json (Value Number)

namespace Violation

/-- The place of a violation, and the keyword that it offends against. -/
def place (violation : Violation) : String × String := (violation.pointer, violation.fault.keyword)

end Violation

namespace Report

/-- Two reports find as much: as many violations of each keyword in each place, and each warning as
often. -/
structure Alike (a b : Report) : Prop where
  errors : (a.errors.map Violation.place).Perm (b.errors.map Violation.place)
  warnings : a.warnings.Perm b.warnings

namespace Alike

variable {a b c d : Report}

theorem refl (report : Report) : report.Alike report := ⟨.refl _, .refl _⟩

theorem trans (h : a.Alike b) (h' : b.Alike c) : a.Alike c :=
  ⟨h.errors.trans h'.errors, h.warnings.trans h'.warnings⟩

theorem append (h : a.Alike b) (h' : c.Alike d) : (a ++ c).Alike (b ++ d) := by
  constructor
  · simp only [errors_append, List.map_append]
    exact h.errors.append h'.errors
  · exact h.warnings.append h'.warnings

theorem isOk_eq (h : a.Alike b) : a.isOk = b.isOk := by
  have length := h.errors.length_eq
  rw [List.length_map, List.length_map] at length
  rw [isOk, isOk, Bool.eq_iff_iff, List.isEmpty_iff_length_eq_zero, List.isEmpty_iff_length_eq_zero,
    length]

end Alike

variable {path : ValuePath}

theorem alike_fault {f g : Fault} (same : f.keyword = g.keyword) :
    (fault path f).Alike (fault path g) := by
  constructor
  · simp [fault, Violation.place, Violation.pointer, same]
  · exact .refl _

theorem alike_faultIf {one other : Bool} {f g : Fault} (agree : one = other)
    (same : f.keyword = g.keyword) : (faultIf one path f).Alike (faultIf other path g) := by
  subst agree
  cases one with
  | false => exact .refl _
  | true => exact alike_fault same

theorem alike_bounded {α : Type} {bound : Option α} {one other : α → Bool} {f g : α → Fault}
    (agree : ∀ b ∈ bound, one b = other b) (same : ∀ b, (f b).keyword = (g b).keyword) :
    (Descriptor.bounded path bound one f).Alike (Descriptor.bounded path bound other g) := by
  cases bound with
  | none => exact .refl _
  | some b => exact alike_faultIf (agree b rfl) (same b)

theorem alike_concat {reports others : List Report} (h : List.Forall₂ Alike reports others) :
    (concat reports).Alike (concat others) := by
  induction h with
  | nil => exact .refl _
  | cons head _ ih => exact head.append ih

theorem errors_concat (reports : List Report) :
    (concat reports).errors = reports.flatMap Report.errors := by
  induction reports with
  | nil => rfl
  | cons report rest ih =>
    rw [List.flatMap_cons, ← ih]
    exact errors_append report (concat rest)

theorem warnings_concat (reports : List Report) :
    (concat reports).warnings = reports.flatMap Report.warnings := by
  induction reports with
  | nil => rfl
  | cons report rest ih =>
    rw [List.flatMap_cons, ← ih]
    exact warnings_append report (concat rest)

/-- Reports may be put together in any order. -/
theorem alike_concat_of_perm {reports others : List Report} (h : reports.Perm others) :
    (concat reports).Alike (concat others) := by
  constructor
  · rw [errors_concat, errors_concat]
    exact (h.flatMap_right _).map _
  · rw [warnings_concat, warnings_concat]
    exact h.flatMap_right _

end Report

/-- A way to check finds as much in a value as in one that has its members in another order. -/
def Visit.Steady (visit : Visit) : Prop :=
  ∀ schema value other path, value.hasDistinctNames = true → value.Reorders other →
    (visit schema value path).Alike (visit schema other path)

namespace Descriptor

variable {catalog : Catalog} {strict : Bool} {d : Descriptor} {visit : Visit} {value other : Value}
  {path : ValuePath}

theorem alike_checkFixed (distinct : value.hasDistinctNames = true) (h : value.Reorders other) :
    (d.checkFixed value path).Alike (d.checkFixed other path) := by
  refine .append (Report.alike_bounded ?_ fun _ => rfl) (Report.alike_bounded ?_ fun _ => rfl)
  · intro values _
    simp only [h.same_right distinct]
  · intro constant _
    rw [h.same_left distinct]

theorem any_same_eq {items others : List Value} (own : value.hasDistinctNames = true)
    (h : value.Reorders other) (distinct : ∀ item ∈ items, item.hasDistinctNames = true)
    (each : List.Forall₂ Value.Reorders items others) :
    items.any (value.same ·) = others.any (other.same ·) := by
  induction each with
  | nil => rfl
  | cons head _ ih =>
    obtain ⟨first, distinct⟩ := List.forall_mem_cons.mp distinct
    rw [List.any_cons, List.any_cons, ih distinct, h.same_right own, head.same_left first]

theorem hasRepetition_eq {items others : List Value}
    (distinct : ∀ item ∈ items, item.hasDistinctNames = true)
    (h : List.Forall₂ Value.Reorders items others) : hasRepetition items = hasRepetition others := by
  induction h with
  | nil => rfl
  | cons head tail ih =>
    obtain ⟨own, distinct⟩ := List.forall_mem_cons.mp distinct
    rw [hasRepetition, hasRepetition, ih distinct]
    exact congrArg (· || _) (any_same_eq own head distinct tail)

theorem alike_checkItems (steady : Visit.Steady visit) (schema : SchemaId) {items others : List Value}
    (position : Nat) (distinct : ∀ item ∈ items, item.hasDistinctNames = true)
    (h : List.Forall₂ Value.Reorders items others) :
    (checkItems visit schema path position items).Alike
      (checkItems visit schema path position others) := by
  induction h generalizing position with
  | nil => exact .refl _
  | cons head _ ih =>
    obtain ⟨own, distinct⟩ := List.forall_mem_cons.mp distinct
    exact .append (steady schema _ _ _ own head) (ih (position + 1) distinct)

theorem alike_checkArray (steady : Visit.Steady visit) {items others : List Value}
    (distinct : ∀ item ∈ items, item.hasDistinctNames = true)
    (h : List.Forall₂ Value.Reorders items others) :
    (d.checkArray visit items path).Alike (d.checkArray visit others path) := by
  have length : items.length = others.length := h.length_eq
  refine .append (.append (.append ?_ ?_) ?_) ?_
  · exact Report.alike_bounded (fun _ _ => by rw [length]) fun _ => rfl
  · exact Report.alike_bounded (fun _ _ => by rw [length]) fun _ => rfl
  · exact Report.alike_faultIf (by rw [hasRepetition_eq distinct h]) rfl
  · cases d.items with
    | none => exact .refl _
    | some schema => exact alike_checkItems steady schema 0 distinct h

theorem alike_checkProperty (steady : Visit.Steady visit) (name : String)
    (distinct : value.hasDistinctNames = true) (h : value.Reorders other) :
    (d.checkProperty visit path name value).Alike (d.checkProperty visit path name other) := by
  unfold checkProperty
  split
  · exact steady _ _ _ _ distinct h
  · split
    · exact .refl _
    · exact .refl _
    · exact steady _ _ _ _ distinct h

theorem alike_checkObject (steady : Visit.Steady visit) {xs ys zs : Entries Value}
    (distinct : ∀ member ∈ xs, member.2.hasDistinctNames = true)
    (keys : xs.keys = ys.keys) (values : List.Forall₂ Value.Reorders xs.values ys.values)
    (perm : ys.Perm zs) : (d.checkObject visit xs path).Alike (d.checkObject visit zs path) := by
  have paired := Entries.forall₂_of_keys_eq keys values
  have length : xs.length = zs.length := paired.length_eq.trans perm.length_eq
  have has (name : String) : Entries.has name xs = Entries.has name zs := by
    rw [Bool.eq_iff_iff, Entries.has_eq_true_iff, Entries.has_eq_true_iff, keys]
    exact (perm.map Prod.fst).mem_iff
  have each : List.Forall₂ Report.Alike
      (xs.map fun member => d.checkProperty visit path member.1 member.2)
      (ys.map fun member => d.checkProperty visit path member.1 member.2) := by
    rw [List.forall₂_map_left_iff, List.forall₂_map_right_iff]
    refine forall₂_of_forall_mem distinct (paired.imp ?_)
    rintro ⟨name, value⟩ ⟨_, other⟩ ⟨rfl, reorders⟩ own
    exact alike_checkProperty steady name own reorders
  refine .append (.append (.append ?_ ?_) ?_) ?_
  · simp only [has]
    exact .refl _
  · exact (Report.alike_concat each).trans (Report.alike_concat_of_perm (perm.map _))
  · exact Report.alike_bounded (fun _ _ => by rw [length]) fun _ => rfl
  · exact Report.alike_bounded (fun _ _ => by rw [length]) fun _ => rfl

theorem alike_checkKind (steady : Visit.Steady visit) (distinct : value.hasDistinctNames = true)
    (h : value.Reorders other) : (d.checkKind visit value path).Alike (d.checkKind visit other path) := by
  cases h with
  | refl => exact .refl _
  | array items => exact alike_checkArray steady (Value.hasDistinctNames_array.mp distinct) items
  | object keys values perm =>
    exact alike_checkObject steady (Value.hasDistinctNames_object.mp distinct).2 keys values perm

theorem alike_checkAlternatives (steady : Visit.Steady visit) (exclusive : Bool)
    (members : List SchemaId) (distinct : value.hasDistinctNames = true) (h : value.Reorders other) :
    (checkAlternatives visit exclusive members value path).Alike
      (checkAlternatives visit exclusive members other path) := by
  have agree (part : SchemaId) : (visit part value path).Alike (visit part other path) :=
    steady part value other path distinct h
  have verdicts : (Report.isOk ∘ fun part => visit part value path) =
      Report.isOk ∘ fun part => visit part other path :=
    funext fun part => (agree part).isOk_eq
  unfold checkAlternatives
  rw [List.filter_map, List.filter_map, verdicts]
  cases members.filter (Report.isOk ∘ fun part => visit part other path) with
  | nil => exact .refl _
  | cons first others =>
    simp only [List.map_cons, List.isEmpty_map, List.length_map]
    split
    · exact .refl _
    · exact ⟨.refl _, (agree first).warnings⟩

theorem alike_dispatch (steady : Visit.Steady visit) (discriminator : Discriminator)
    (distinct : value.hasDistinctNames = true) (h : value.Reorders other) :
    (d.dispatch catalog strict discriminator visit value path).Alike
      (d.dispatch catalog strict discriminator visit other path) := by
  have again := h
  cases h with
  | refl => exact .refl _
  | array items => exact Report.alike_fault rfl
  | @object xs ys zs keys values perm =>
    have names : (Entries.keys ys).Nodup := keys ▸ (Value.hasDistinctNames_object.mp distinct).1
    have there := Entries.rel_get? discriminator.property (Entries.forall₂_of_keys_eq keys values)
    rw [Entries.get?_eq_of_perm names perm] at there
    simp only [dispatch]
    revert there
    generalize Entries.get? discriminator.property xs = one
    generalize Entries.get? discriminator.property zs = two
    intro there
    cases there with
    | none => exact .refl _
    | @some tag _ alike =>
      cases alike with
      | refl =>
        cases tag with
        | string tag =>
          cases selected : d.selected? catalog discriminator tag with
          | none =>
            simp only [selected]
            exact .refl _
          | some part =>
            simp only [selected]
            exact steady part _ _ path distinct again
        | _ => exact .refl _
      | array _ => exact Report.alike_fault rfl
      | object _ _ _ => exact Report.alike_fault rfl

theorem alike_checkUnion (steady : Visit.Steady visit) (distinct : value.hasDistinctNames = true)
    (h : value.Reorders other) :
    (d.checkUnion catalog strict visit value path).Alike
      (d.checkUnion catalog strict visit other path) := by
  unfold checkUnion
  split
  · exact alike_dispatch steady _ distinct h
  · refine .append ?_ ?_
    · split
      · exact .refl _
      · exact alike_checkAlternatives steady true d.oneOf distinct h
    · split
      · exact .refl _
      · exact alike_checkAlternatives steady false d.anyOf distinct h

theorem alike_checkNot (steady : Visit.Steady visit) (distinct : value.hasDistinctNames = true)
    (h : value.Reorders other) : (d.checkNot visit value path).Alike (d.checkNot visit other path) := by
  unfold checkNot
  split
  · next part _ =>
    exact Report.alike_faultIf (steady part _ _ path distinct h).isOk_eq rfl
  · exact .refl _

theorem admitsType_eq (h : value.Reorders other) : d.admitsType value = d.admitsType other := by
  have includes (type : SchemaType) : type.includes value = type.includes other := by
    cases h with
    | refl => rfl
    | array _ => cases type <;> rfl
    | object _ _ _ => cases type <;> rfl
  simp only [admitsType, includes]

/-- A check finds as much in a value as in one that has its members in another order, if the checks
that it calls for do. -/
theorem alike_check (steady : Visit.Steady visit) (distinct : value.hasDistinctNames = true)
    (h : value.Reorders other) :
    (d.check catalog strict visit value path).Alike (d.check catalog strict visit other path) := by
  have all : (Report.concat (d.allOf.map fun part => visit part value path)).Alike
      (Report.concat (d.allOf.map fun part => visit part other path)) := by
    refine Report.alike_concat ?_
    rw [List.forall₂_map_left_iff, List.forall₂_map_right_iff, List.forall₂_same]
    exact fun part _ => steady part value other path distinct h
  have isNull : value = .null ↔ other = .null := by cases h <;> simp
  by_cases never : d.never = true
  · simp only [check, never, if_true]
    exact .refl _
  replace never : d.never = false := by simpa using never
  by_cases null : value = .null ∧ d.admitsNull = true
  · rw [check_of_null never null, check_of_null never (by rwa [← isNull])]
    exact .refl _
  rw [check_of_not_null never null, check_of_not_null never (by rwa [← isNull]), admitsType_eq h]
  split
  · exact Report.alike_fault rfl
  · exact .append (.append (.append (.append (alike_checkFixed distinct h)
      (alike_checkKind steady distinct h)) all) (alike_checkUnion steady distinct h))
      (alike_checkNot steady distinct h)

end Descriptor

namespace Catalog

variable {catalog : Catalog} {strict : Bool} {id : SchemaId} {value other : Value}

theorem steady_check (fuel : Nat) (active : List (SchemaId × ValuePath)) :
    Visit.Steady (catalog.check strict fuel active) := by
  induction fuel generalizing active with
  | zero => exact fun _ _ _ _ _ _ => .refl _
  | succ fuel ih =>
    intro id value other path distinct h
    rw [check, check]
    split
    · exact .refl _
    · exact Descriptor.alike_check (ih _) distinct h

/-- Two validations pass with the same warnings or fail with as many violations of each keyword in each
place. -/
inductive SameOutcome :
    Except (List Violation) (List Warning) → Except (List Violation) (List Warning) → Prop
  | passed {warnings others : List Warning} :
      warnings.Perm others → SameOutcome (.ok warnings) (.ok others)
  | failed {violations others : List Violation} :
      (violations.map Violation.place).Perm (others.map Violation.place) →
      SameOutcome (.error violations) (.error others)

/-- The order of members does not decide what a validation comes to. -/
theorem sameOutcome_of_reorders (catalog : Catalog) (strict : Bool) (id : SchemaId)
    (distinct : value.hasDistinctNames = true) (h : value.Reorders other) :
    SameOutcome (catalog.validate strict id value) (catalog.validate strict id other) := by
  have alike : (catalog.report strict id value).Alike (catalog.report strict id other) := by
    rw [report, report, checkLimit, checkLimit, h.nodes_eq]
    exact steady_check _ _ id value other [] distinct h
  unfold validate
  simp only [alike.isOk_eq]
  split
  · exact .passed alike.warnings
  · exact .failed alike.errors

/-- A parcel has sides, all different, of which only the length may be given. -/
def parcels : Catalog where
  descriptors := #[
    { Descriptor.unrestricted "parcel" none with properties := [("sides", 1)], required := ["to"] },
    { Descriptor.unrestricted "sides" none with items := some 2, uniqueItems := true },
    { Descriptor.unrestricted "side" none with
      properties := [("length", 3)], additional := .forbidden },
    Descriptor.unrestricted "length" none]
  index := []

/-- A parcel with the same side twice, written in two ways. -/
def parcel : Value :=
  .object [
    ("from", .null),
    ("sides", .array [
      .object [("width", .ofInt 2), ("height", .ofInt 3)],
      .object [("height", .ofInt 3), ("width", .ofInt 2)]])]

/-- The same parcel, with the members of each object turned around. -/
def turnedParcel : Value :=
  .object [
    ("sides", .array [
      .object [("height", .ofInt 3), ("width", .ofInt 2)],
      .object [("width", .ofInt 2), ("height", .ofInt 3)]]),
    ("from", .null)]

theorem reorders_turnedParcel : parcel.Reorders turnedParcel := by
  have sides : List.Forall₂ Value.Reorders
      [.object [("width", .ofInt 2), ("height", .ofInt 3)],
        .object [("height", .ofInt 3), ("width", .ofInt 2)]]
      [.object [("height", .ofInt 3), ("width", .ofInt 2)],
        .object [("width", .ofInt 2), ("height", .ofInt 3)]] := by
    refine .cons ?_ (.cons ?_ .nil)
    · exact .object rfl (.cons (.refl _) (.cons (.refl _) .nil)) (.swap _ _ _)
    · exact .object rfl (.cons (.refl _) (.cons (.refl _) .nil)) (.swap _ _ _)
  refine .object ?keys ?values (.swap _ _ _)
  case keys => rfl
  case values => exact .cons (.refl _) (.cons (.array sides) .nil)

theorem sameOutcome_turnedParcel :
    parcel.hasDistinctNames = true ∧ parcel.Reorders turnedParcel ∧
      ∃ violations others, parcels.validate true 0 parcel = .error violations ∧
        parcels.validate true 0 turnedParcel = .error others ∧
        violations.map Violation.place = [("", "required"), ("/sides", "uniqueItems"),
          ("/sides/0/width", "additionalProperties"), ("/sides/0/height", "additionalProperties"),
          ("/sides/1/height", "additionalProperties"), ("/sides/1/width", "additionalProperties")] ∧
        others.map Violation.place = [("", "required"), ("/sides", "uniqueItems"),
          ("/sides/0/height", "additionalProperties"), ("/sides/0/width", "additionalProperties"),
          ("/sides/1/width", "additionalProperties"), ("/sides/1/height", "additionalProperties")] ∧
        SameOutcome (.error violations) (.error others) := by
  have distinct : parcel.hasDistinctNames = true := by decide +kernel
  refine ⟨distinct, reorders_turnedParcel, _, _, rfl, rfl, by decide +kernel, by decide +kernel, ?_⟩
  exact sameOutcome_of_reorders parcels true 0 distinct reorders_turnedParcel

end Catalog

end ApiContract
