import ApiContract.Proofs.Schema.Passing
import ApiContract.Proofs.Schema.Satisfaction
/-!
# Schemas that deny themselves

Where schemas may be composed of themselves, a check that is already under way counts as passed. This
is of no consequence as long as it is asked of a value to pass, but it is where a value must not pass:
under `not`, or where exactly one of several schemas may match. A schema that does not come up again
under such a denial of its own has the verdict of its keywords, where the schemas that it refers to
have theirs (`passes_iff_accepts`).
-/

namespace ApiContract

open Json (Value)

namespace Descriptor

/-- The schemas of which a schema may ask that a value does not pass them. -/
def denials (d : Descriptor) : List SchemaId :=
  (if d.dispatcher?.isSome then [] else d.oneOf) ++ d.not.toList

variable {catalog : Catalog} {strict : Bool} {d : Descriptor} {value : Value} {part : SchemaId}

theorem mem_denials_iff : part ∈ d.denials ↔
    d.dispatcher? = none ∧ part ∈ d.oneOf ∨ part ∈ d.not := by
  cases tagged : d.dispatcher? <;> simp [denials, tagged]

theorem mem_parts_of_denials (h : part ∈ d.denials) : part ∈ d.parts := by
  rw [mem_parts_iff]
  rcases mem_denials_iff.mp h with ⟨-, one⟩ | not
  · exact .inr (.inl one)
  · exact .inr (.inr (.inr not))

variable {p q : SchemaId → Value → Prop}

theorem UnionAccepts.mono (up : ∀ part ∈ d.parts, p part value → q part value)
    (down : ∀ part ∈ d.denials, q part value → p part value)
    (h : d.UnionAccepts catalog strict p value) : d.UnionAccepts catalog strict q value := by
  cases tagged : d.dispatcher? with
  | none =>
    rw [unionAccepts_of_undispatched tagged] at h ⊢
    refine h.imp (Or.imp_right fun one => ?_) (Or.imp_right fun any => ?_)
    · refine (ExactlyOne.congr fun part member => ?_).mp one
      exact ⟨up part (mem_parts_iff.mpr (.inr (.inl member))),
        down part (mem_denials_iff.mpr (.inl ⟨tagged, member⟩))⟩
    · obtain ⟨part, member, passes⟩ := any
      exact ⟨part, member, up part (mem_parts_iff.mpr (.inr (.inr (.inl member)))) passes⟩
  | some discriminator =>
    rw [unionAccepts_of_dispatcher tagged] at h ⊢
    obtain ⟨tag, there, ⟨part, member, selected, passes⟩ | lenient⟩ := h
    · exact ⟨tag, there, .inl ⟨part, member, selected,
        up part (mem_parts_of_members member) passes⟩⟩
    · exact ⟨tag, there, .inr lenient⟩

/-- Where more values pass the schemas that a schema asks, and no more those that it denies, it accepts
more values. -/
theorem Accepts.mono
    (up : ∀ schema part step, d.Visits catalog value schema part step →
      p schema part → q schema part)
    (down : ∀ part ∈ d.denials, q part value → p part value)
    (h : d.Accepts catalog strict p value) : d.Accepts catalog strict q value := by
  have parts : ∀ part ∈ d.parts, p part value → q part value :=
    fun part member => up part value [] (.part member)
  refine ⟨h.1, h.2.imp_right fun meets => ?_⟩
  exact
    { types := meets.types
      enumeration := meets.enumeration
      constant := meets.constant
      kind := meets.kind
      items := by
        rintro items rfl schema given item member
        obtain ⟨i, found⟩ := List.mem_iff_getElem?.mp member
        exact up schema item _ (.item given found) (meets.items items rfl schema given item member)
      properties := by
        rintro members rfl member present schema given
        exact up schema member.2 _ (.property given present)
          (meets.properties members rfl member present schema given)
      allOf := fun part member =>
        parts part (mem_parts_iff.mpr (.inl member)) (meets.allOf part member)
      union := meets.union.mono parts down
      not := fun part member passes =>
        meets.not part member (down part (mem_denials_iff.mpr (.inr member)) passes) }

end Descriptor

namespace Catalog

variable {catalog : Catalog} {strict : Bool} {pending wider : List SchemaId} {value : Value}
  {id schema whole part : SchemaId}

/-- A schema is another one, or among those that it is composed of. -/
def Within (catalog : Catalog) : SchemaId → SchemaId → Prop := Relation.ReflTransGen catalog.IsPart

/-- A schema comes up again under a denial: one of those that it is composed of, or the schema itself,
denies a schema that it is within. -/
def DeniesItself (catalog : Catalog) (id : SchemaId) : Prop :=
  ∃ whole, catalog.Within whole id ∧
    ∃ part ∈ (catalog.descriptor whole).denials, catalog.Within id part

theorem within_of_denials (h : part ∈ (catalog.descriptor id).denials) : catalog.Within part id :=
  .single (Descriptor.mem_parts_of_denials h)

/-- Schemas that come at levels, where none is above one that it is part of and those that are denied
are below, do not deny themselves. -/
theorem not_deniesItself_of_level (level : SchemaId → Nat)
    (descends : ∀ whole < catalog.size,
      (∀ part ∈ (catalog.descriptor whole).parts, level part ≤ level whole) ∧
      ∀ part ∈ (catalog.descriptor whole).denials, level part < level whole) :
    ¬ catalog.DeniesItself id := by
  have below {part whole : SchemaId} (within : catalog.Within part whole) :
      level part ≤ level whole := by
    induction within with
    | refl => exact Nat.le_refl _
    | tail _ edge ih => exact ih.trans ((descends _ edge.lt_size).1 _ edge)
  rintro ⟨whole, inside, part, denied, within⟩
  have edge : catalog.IsPart part whole := Descriptor.mem_parts_of_denials denied
  exact Nat.lt_irrefl _
    (((below within).trans_lt ((descends whole edge.lt_size).2 part denied)).trans_le (below inside))

/-- How many schemas are not pending. -/
def vacancies (catalog : Catalog) (pending : List SchemaId) : Nat :=
  (Finset.range catalog.size \ pending.toFinset).card

theorem vacancies_lt (kept : pending ⊆ wider) (fresh : id ∉ pending) (there : id ∈ wider)
    (inside : id < catalog.size) : catalog.vacancies wider < catalog.vacancies pending := by
  refine Finset.card_lt_card (Finset.ssubset_iff_of_subset ?_ |>.mpr ⟨id, ?_, ?_⟩)
  · refine Finset.sdiff_subset_sdiff (Finset.Subset.refl _) fun other member => ?_
    exact List.mem_toFinset.mpr (kept (List.mem_toFinset.mp member))
  · simp [fresh, inside]
  · simp [there]

/-- A value passes a schema that is pending, or that accepts it, where the schema is pending itself as
the same value is concerned. -/
theorem passes_iff (selects : ∀ id, (catalog.descriptor id).SelectsMembers catalog) :
    catalog.Passes strict pending id value ↔ id ∈ pending ∨
      (catalog.descriptor id).Accepts catalog strict
        (fun schema part => catalog.Passes strict (pendingBelow pending id value part) schema part)
        value := by
  rw [Passes]
  by_cases fresh : id ∈ pending
  · simp [fresh]
  · refine or_congr_right (Descriptor.Accepts.congr (selects id) fun schema part step visits => ?_)
    have guarded : part.nodes < value.nodes ∨ part = value ∧ id ∉ pending ∧ id < catalog.size :=
      visits.same_or_below.symm.imp (fun below => below.2)
        fun same => ⟨same.2, fresh, lt_size_of_visits visits⟩
    constructor
    · rintro ⟨-, passes⟩
      exact passes
    · exact fun passes => ⟨guarded, passes⟩

/-- Where the verdicts on smaller values stay, those on the same value need to stay as far as it has to
pass parts of the schema or must not pass them. -/
theorem accepts_mono {p q : SchemaId → Value → Prop}
    (selects : (catalog.descriptor id).SelectsMembers catalog)
    (below : ∀ schema part, part.nodes < value.nodes → (p schema part ↔ q schema part))
    (up : ∀ schema, catalog.IsPart schema id → p schema value → q schema value)
    (down : ∀ part ∈ (catalog.descriptor id).denials, q part value → p part value)
    (h : (catalog.descriptor id).Accepts catalog strict p value) :
    (catalog.descriptor id).Accepts catalog strict q value := by
  refine h.mono (fun schema part step visits => ?_) down
  rcases part_or_below_of_visits selects visits with ⟨-, rfl, edge⟩ | ⟨-, smaller⟩
  · exact up schema edge
  · exact (below schema part smaller).mp

theorem passes_below {schema : SchemaId} {part : Value} (smaller : part.nodes < value.nodes) :
    catalog.Passes strict (pendingBelow pending id value part) schema part ↔
      catalog.Passes strict (pendingBelow wider id value part) schema part := by
  rw [pendingBelow_of_lt smaller, pendingBelow_of_lt smaller]

/-- A value passes a schema also where more schemas are pending, if none of those that come up under a
denial are among them. -/
theorem Passes.widen (selects : ∀ id, (catalog.descriptor id).SelectsMembers catalog)
    (more : ∀ other, catalog.Within other id → other ∈ pending → other ∈ wider)
    (kept : ∀ whole, catalog.Within whole id → ∀ part ∈ (catalog.descriptor whole).denials,
      ∀ other, catalog.Within other part → other ∈ wider → other ∈ pending)
    (h : catalog.Passes strict pending id value) : catalog.Passes strict wider id value := by
  -- Under a denial the two lists change places, so the induction is on what is pending in either.
  induction free : catalog.vacancies (pending ++ wider) using Nat.strong_induction_on
    generalizing pending wider id with
  | _ free ih =>
    subst free
    rcases (passes_iff selects).mp h with there | accepts
    · exact (passes_iff selects).mpr (.inl (more id .refl there))
    by_cases there : id ∈ wider
    · exact (passes_iff selects).mpr (.inl there)
    by_cases fresh : id ∈ pending
    · exact absurd (more id .refl fresh) there
    have absent : id ∉ pending ++ wider := by simp [fresh, there]
    refine (passes_iff selects).mpr (.inr (accepts_mono (selects id)
      (fun _ _ smaller => passes_below smaller) ?up ?down accepts))
    case up =>
      intro schema edge passes
      rw [pendingBelow_self] at passes ⊢
      refine ih _ (vacancies_lt ?_ absent (by simp) edge.lt_size) ?_ ?_ passes rfl
      · grind
      · intro other inside
        have := more other (inside.tail edge)
        grind
      · intro whole inside part denied other within
        have := kept whole (inside.tail edge) part denied other within
        grind
    case down =>
      intro part denied passes
      rw [pendingBelow_self] at passes ⊢
      have edge : catalog.IsPart part id := Descriptor.mem_parts_of_denials denied
      refine ih _ (vacancies_lt ?_ absent (by simp) edge.lt_size) ?_ ?_ passes rfl
      · grind
      · intro other inside
        have := kept id .refl part denied other inside
        grind
      · intro whole inside deeper deny other within
        have := more other
          (((within.trans (within_of_denials deny)).trans inside).tail edge)
        grind

/-- A value that passes a part of a schema while the schema is pending passes the part also where it is
not, if the value passes the schema itself, which does not deny itself. -/
theorem Passes.discharge (selects : ∀ id, (catalog.descriptor id).SelectsMembers catalog)
    (settled : ¬ catalog.DeniesItself whole) (inside : catalog.Within id whole)
    (passed : catalog.Passes strict pending whole value)
    (h : catalog.Passes strict (whole :: pending) id value) :
    catalog.Passes strict pending id value := by
  induction free : catalog.vacancies pending using Nat.strong_induction_on
    generalizing pending id with
  | _ free ih =>
    subst free
    by_cases again : catalog.Within whole id
    case neg =>
      refine h.widen selects (fun other within there => ?_) fun _ _ _ _ _ _ there =>
        List.mem_cons_of_mem _ there
      rcases List.mem_cons.mp there with rfl | there
      · exact absurd within again
      · exact there
    rcases (passes_iff selects).mp h with there | accepts
    · rcases List.mem_cons.mp there with rfl | there
      · exact passed
      · exact (passes_iff selects).mpr (.inl there)
    by_cases fresh : id ∈ pending
    · exact (passes_iff selects).mpr (.inl fresh)
    refine (passes_iff selects).mpr (.inr (accepts_mono (selects id)
      (fun _ _ smaller => passes_below smaller) ?up ?down accepts))
    case up =>
      intro schema edge passes
      rw [pendingBelow_self] at passes ⊢
      refine ih _ (vacancies_lt (List.subset_cons_self id pending) fresh (by simp) edge.lt_size)
        (.head edge inside) ?_ ?_ rfl
      · refine passed.widen selects (fun _ _ there => List.mem_cons_of_mem _ there) ?_
        intro other within part denied deeper below there
        rcases List.mem_cons.mp there with rfl | there
        · exact absurd ⟨other, within, part, denied, again.trans below⟩ settled
        · exact there
      · exact passes.widen selects (by grind) (by grind)
    case down =>
      intro part denied passes
      rw [pendingBelow_self] at passes ⊢
      refine passes.widen selects (by grind) ?_
      intro other within deeper deny schema below there
      have comesUp : schema ≠ whole := by
        rintro rfl
        exact settled ⟨id, inside, part, denied,
          (below.trans (within_of_denials deny)).trans within⟩
      grind

/-- The values that pass a schema that does not deny itself are those that it accepts, where each schema
accepts what passes it by itself. -/
theorem passes_iff_accepts (selects : ∀ id, (catalog.descriptor id).SelectsMembers catalog)
    (settled : ¬ catalog.DeniesItself id) :
    catalog.Passes strict [] id value ↔
      (catalog.descriptor id).Accepts catalog strict (catalog.Passes strict []) value := by
  have below (schema : SchemaId) (part : Value) (smaller : part.nodes < value.nodes) :
      catalog.Passes strict (pendingBelow [] id value part) schema part ↔
        catalog.Passes strict [] schema part := by
    rw [pendingBelow_of_lt smaller]
  have alone {other part : SchemaId} (inside : catalog.Within other id)
      (denied : part ∈ (catalog.descriptor other).denials) {schema : SchemaId}
      (within : catalog.Within schema part) : schema ∉ [id] := by
    rintro there
    exact settled ⟨other, inside, part, denied, List.mem_singleton.mp there ▸ within⟩
  have pend {schema : SchemaId} (inside : catalog.Within schema id)
      (passes : catalog.Passes strict [] schema value) :
      catalog.Passes strict [id] schema value :=
    passes.widen selects (by simp) fun _ within _ denied _ below there =>
      absurd there (alone (within.trans inside) denied below)
  constructor
  · intro passed
    have accepted := ((passes_iff selects).mp passed).resolve_left List.not_mem_nil
    refine accepts_mono (selects id) below (fun schema edge passes => ?_)
      (fun part denied passes => ?_) accepted
    · rw [pendingBelow_self] at passes
      exact Passes.discharge selects settled (.single edge) passed passes
    · rw [pendingBelow_self]
      exact pend (within_of_denials denied) passes
  · intro accepts
    refine (passes_iff selects).mpr (.inr (accepts_mono (selects id)
      (fun schema part smaller => (below schema part smaller).symm)
      (fun schema edge passes => ?_) (fun part denied passes => ?_) accepts))
    · rw [pendingBelow_self]
      exact pend (.single edge) passes
    · rw [pendingBelow_self] at passes
      exact passes.widen selects (fun _ within there => absurd there (alone .refl denied within))
        (by simp)

end Catalog

namespace Description

/-- What passes validation against a schema passes validation against each schema that it is composed
of, by itself: unless it is a null that the schema admits as such, and where the schema does not come
up again under a denial of its own. -/
theorem validate_allOf_of_validate {loader : Loader} {base : Url} {document : Value}
    {reading : Reading} (h : read loader base document = .ok reading) {id member : SchemaId}
    (composed : member ∈ (reading.catalog.descriptor id).allOf)
    (settled : ¬ reading.catalog.DeniesItself id) {strict : Bool} {value : Value}
    (plain : ¬ (value = .null ∧ (reading.catalog.descriptor id).admitsNull = true))
    (valid : ∃ warnings, reading.catalog.validate strict id value = .ok warnings) :
    ∃ warnings, reading.catalog.validate strict member value = .ok warnings := by
  obtain ⟨-, _, -, completed, -⟩ := readRoot_of_read h
  have selects := Catalog.selectsMembers_of_complete completed
  rw [Catalog.validate_ok_iff_passes selects] at valid ⊢
  obtain ⟨-, accepted⟩ := (Catalog.passes_iff_accepts selects settled).mp valid
  exact (accepted.resolve_left plain).allOf member composed

/-- A reference to a schema of a description. -/
def componentReference (name : String) : Value :=
  .object [("$ref", .string ("#/components/schemas/" ++ name))]

/-- A description with schemas and nothing else. -/
def schemasDocument (schemas : Entries Value) : Value :=
  .object [
    ("openapi", .string "3.1.0"),
    ("components", .object [("schemas", .object schemas)]),
    ("paths", .object [])]

/-- Booked and dated entries, where either schema is composed of the other. A dated entry is no
draft. -/
def postedDocument : Value :=
  schemasDocument [
    ("Booked", .object [
      ("allOf", .array [componentReference "Dated"]),
      ("required", .array [.string "amount"])]),
    ("Dated", .object [
      ("allOf", .array [componentReference "Booked"]),
      ("not", .object [("required", .array [.string "draft"])])])]

theorem validate_dated_of_booked :
    ∃ reading, read noLoader treeBase postedDocument = .ok reading ∧
      1 ∈ (reading.catalog.descriptor 0).allOf ∧ ¬ reading.catalog.DeniesItself 0 ∧
      ∃ warnings, reading.catalog.validate true 1 (.object [("amount", .ofInt 5)]) =
        .ok warnings := by
  let entry : Value := .object [("amount", .ofInt 5)]
  -- What a dated entry must not be has position 2 and comes below all else.
  let level (id : SchemaId) : Nat := if id = 2 then 0 else 1
  obtain ⟨reading, h, facts⟩ := @exists_of_any_read noLoader treeBase postedDocument
    (fun reading => decide (1 ∈ (reading.catalog.descriptor 0).allOf ∧
      (∀ whole < reading.catalog.size,
        (∀ part ∈ (reading.catalog.descriptor whole).parts, level part ≤ level whole) ∧
        ∀ part ∈ (reading.catalog.descriptor whole).denials, level part < level whole) ∧
      (reading.catalog.report true 0 entry).isOk = true))
    (by decide +kernel)
  obtain ⟨composed, descends, ok⟩ := of_decide_eq_true facts
  have settled : ¬ reading.catalog.DeniesItself 0 :=
    Catalog.not_deniesItself_of_level level descends
  exact ⟨reading, h, composed, settled, validate_allOf_of_validate h composed settled
    (by simp) ((Catalog.validate_ok_iff ..).mpr ok)⟩

/-- A whole that consists of a half and the rest, where the half is part of the whole and the rest is
what is not the half; a pair of which the two are told apart by exclusive alternatives; and a text that
is optional. -/
def wholeDocument : Value :=
  schemasDocument [
    ("Whole", .object [("allOf", .array [componentReference "Half", componentReference "Rest"])]),
    ("Half", .object [
      ("allOf", .array [componentReference "Whole"]),
      ("not", componentReference "Rest")]),
    ("Rest", .object [("not", componentReference "Half")]),
    ("Optional", .object [
      ("nullable", .bool true),
      ("allOf", .array [componentReference "Text"])]),
    ("Text", .object [("type", .string "string")]),
    ("Pair", .object [("allOf", .array [componentReference "Left", componentReference "Right"])]),
    ("Left", .object [
      ("allOf", .array [componentReference "Pair"]),
      ("oneOf", .array [componentReference "Any", componentReference "Right"])]),
    ("Right", .object [
      ("oneOf", .array [componentReference "Any", componentReference "Left"])]),
    ("Any", .object [])]

theorem whole_without_half :
    ∃ reading, read noLoader treeBase wholeDocument = .ok reading ∧
      (1 ∈ (reading.catalog.descriptor 0).allOf ∧
        (∃ warnings, reading.catalog.validate true 0 (.ofInt 1) = .ok warnings) ∧
        ¬ ∃ warnings, reading.catalog.validate true 1 (.ofInt 1) = .ok warnings) ∧
      (4 ∈ (reading.catalog.descriptor 3).allOf ∧
        (∃ warnings, reading.catalog.validate true 3 .null = .ok warnings) ∧
        ¬ ∃ warnings, reading.catalog.validate true 4 .null = .ok warnings) ∧
      6 ∈ (reading.catalog.descriptor 5).allOf ∧
        (∃ warnings, reading.catalog.validate true 5 (.ofInt 1) = .ok warnings) ∧
        ¬ ∃ warnings, reading.catalog.validate true 6 (.ofInt 1) = .ok warnings := by
  simp only [Catalog.validate_ok_iff]
  obtain ⟨reading, h, facts⟩ := @exists_of_any_read noLoader treeBase wholeDocument
    (fun reading => decide ((1 ∈ (reading.catalog.descriptor 0).allOf ∧
        (reading.catalog.report true 0 (.ofInt 1)).isOk = true ∧
        ¬ (reading.catalog.report true 1 (.ofInt 1)).isOk = true) ∧
      (4 ∈ (reading.catalog.descriptor 3).allOf ∧
        (reading.catalog.report true 3 .null).isOk = true ∧
        ¬ (reading.catalog.report true 4 .null).isOk = true) ∧
      6 ∈ (reading.catalog.descriptor 5).allOf ∧
        (reading.catalog.report true 5 (.ofInt 1)).isOk = true ∧
        ¬ (reading.catalog.report true 6 (.ofInt 1)).isOk = true))
    (by decide +kernel)
  exact ⟨reading, h, of_decide_eq_true facts⟩

end Description

end ApiContract
