import ApiContract.Proofs.Description.Fidelity
import ApiContract.Proofs.Schema.Frames
import Mathlib.Data.Set.Card
import Mathlib.Data.Set.Finite.Lattice
import Mathlib.Logic.Relation
/-!
# Satisfaction

What it means that a value satisfies a schema, by plain recursion over the schemas that a schema
refers to, where no schema is composed of itself. Validation leaves out a check that is already
under way. Without cycles of composition it never comes to that: a check that is under way for the
same part of the value belongs to a schema that the present one is a part of (`Clear`). So the
verdicts are those of the plain recursion (`isOk_check_iff_satisfies`).
-/

namespace ApiContract

open Json (Value)

namespace Catalog

/-- A schema is one of those that another is composed of. -/
def IsPart (catalog : Catalog) (part whole : SchemaId) : Prop :=
  part ∈ (catalog.descriptor whole).parts

/-- No schema is composed, through others or not, of itself. -/
def Acyclic (catalog : Catalog) : Prop := ∀ id, ¬ Relation.TransGen catalog.IsPart id id

/-- The schemas that a schema is composed of, through others or not. -/
def components (catalog : Catalog) (id : SchemaId) : Set SchemaId :=
  {part | Relation.TransGen catalog.IsPart part id}

variable {catalog : Catalog} {strict : Bool} {limit fuel : Nat}
  {active : List (SchemaId × ValuePath)} {value part : Value} {path step : ValuePath}
  {id schema whole : SchemaId}

theorem IsPart.lt_size (h : catalog.IsPart schema whole) : whole < catalog.size := by
  by_contra outside
  rw [IsPart, descriptor_of_size_le (Nat.le_of_not_lt outside)] at h
  simp [Descriptor.parts, Descriptor.unrestricted] at h

/-- Schemas that come in an order of composition are not composed of themselves. -/
theorem acyclic_of_rank (rank : SchemaId → Nat)
    (descends : ∀ whole < catalog.size, ∀ part ∈ (catalog.descriptor whole).parts,
      rank part < rank whole) : catalog.Acyclic := by
  have below : ∀ {part whole}, Relation.TransGen catalog.IsPart part whole →
      rank part < rank whole := by
    intro part whole chain
    induction chain with
    | single edge => exact descends _ edge.lt_size _ edge
    | tail _ edge ih => exact ih.trans (descends _ edge.lt_size _ edge)
  intro id cycle
  exact Nat.lt_irrefl _ (below cycle)

theorem finite_components (catalog : Catalog) (id : SchemaId) : (catalog.components id).Finite := by
  have all : (⋃ whole ∈ {whole | whole < catalog.size},
      {part | part ∈ (catalog.descriptor whole).parts}).Finite :=
    (Set.finite_lt_nat catalog.size).biUnion fun whole _ => List.finite_toSet _
  refine all.subset ?_
  intro part chain
  obtain ⟨whole, edge, -⟩ := Relation.TransGen.head'_iff.mp chain
  exact Set.mem_biUnion edge.lt_size edge

/-- How many schemas a schema is composed of, through others or not. -/
noncomputable def rank (catalog : Catalog) (id : SchemaId) : Nat := (catalog.components id).ncard

theorem rank_lt (acyclic : catalog.Acyclic) (h : catalog.IsPart schema whole) :
    catalog.rank schema < catalog.rank whole := by
  refine Set.ncard_lt_ncard ?_ (catalog.finite_components whole)
  refine Set.ssubset_iff_exists.mpr ⟨fun part chain => chain.tail h, schema, .single h, ?_⟩
  exact acyclic schema

/-- A value satisfies a schema when the schema accepts it, where the schemas that it asks accept
what satisfies them. They are its parts, asked of the same value, or any schemas, asked of smaller
values. -/
def Satisfies (catalog : Catalog) (acyclic : catalog.Acyclic) (strict : Bool) (id : SchemaId)
    (value : Value) : Prop :=
  (catalog.descriptor id).Accepts catalog strict
    (fun schema part =>
      ∃ _ : part.nodes < value.nodes ∨ part = value ∧ catalog.IsPart schema id,
        catalog.Satisfies acyclic strict schema part)
    value
termination_by (value.nodes, catalog.rank id)
decreasing_by
  rename_i below
  rcases below with smaller | ⟨rfl, edge⟩
  · exact Prod.Lex.left _ _ smaller
  · exact Prod.Lex.right _ (rank_lt acyclic edge)

/-- A check calls for checks of the same value against the parts of the schema, or of a smaller
value. -/
theorem part_or_below_of_visits (selects : (catalog.descriptor id).SelectsMembers catalog)
    (visits : (catalog.descriptor id).Visits catalog value schema part step) :
    step = [] ∧ part = value ∧ catalog.IsPart schema id ∨
      step.length = 1 ∧ part.nodes < value.nodes := by
  rcases visits.same_or_below with ⟨rfl, rfl⟩ | below
  · refine .inl ⟨rfl, rfl, ?_⟩
    generalize hstep : ([] : ValuePath) = step at visits
    cases visits with
    | part member => exact member
    | selected union tagged selected =>
      exact Descriptor.mem_parts_of_members (selects union _ tagged _ _ selected)
    | item _ _ => cases hstep
    | property _ _ => cases hstep
  · exact .inr below

/-- Satisfaction is what the plain recursion says: a value satisfies a schema when the schema
accepts it, where each schema accepts what satisfies it. -/
theorem satisfies_iff (acyclic : catalog.Acyclic)
    (selects : ∀ id, (catalog.descriptor id).SelectsMembers catalog) (strict : Bool)
    (id : SchemaId) (value : Value) :
    catalog.Satisfies acyclic strict id value ↔
      (catalog.descriptor id).Accepts catalog strict (catalog.Satisfies acyclic strict) value := by
  rw [Satisfies]
  refine Descriptor.Accepts.congr (selects id) ?_
  intro schema part step visits
  have guarded : part.nodes < value.nodes ∨ part = value ∧ catalog.IsPart schema id := by
    rcases part_or_below_of_visits (selects id) visits with ⟨-, same, edge⟩ | ⟨-, smaller⟩
    · exact .inr ⟨same, edge⟩
    · exact .inl smaller
  exact ⟨fun ⟨_, satisfied⟩ => satisfied, fun satisfied => ⟨guarded, satisfied⟩⟩

/-- The schemas that are being checked for the part of the value at a path are composed of the one
that is about to be. -/
def Clear (catalog : Catalog) (active : List (SchemaId × ValuePath)) (id : SchemaId)
    (path : ValuePath) : Prop :=
  ∀ frame ∈ active, frame.2 = path → Relation.TransGen catalog.IsPart id frame.1

namespace Clear

theorem not_mem (acyclic : catalog.Acyclic) (h : catalog.Clear active id path) :
    (id, path) ∉ active := fun member => acyclic id (h _ member rfl)

theorem visit (live : catalog.Live limit fuel active value path)
    (h : catalog.Clear active id path)
    (selects : (catalog.descriptor id).SelectsMembers catalog)
    (visits : (catalog.descriptor id).Visits catalog value schema part step) :
    catalog.Clear ((id, path) :: active) schema (path ++ step) := by
  rcases part_or_below_of_visits selects visits with ⟨rfl, -, edge⟩ | ⟨longer, -⟩
  · intro frame member same
    rw [List.append_nil] at same
    rcases List.mem_cons.mp member with rfl | member
    · exact .single edge
    · exact .head edge (h frame member same)
  · -- The frames stand at or above the path, so none is at the part one token further.
    intro frame member same
    have above : frame.2.length ≤ path.length := by
      rcases List.mem_cons.mp member with rfl | member
      · exact Nat.le_refl _
      · exact (live.paths frame member).length_le
    rw [same, List.length_append] at above
    omega

end Clear

/-- Without cycles of composition, a check finds no violation exactly in the values that satisfy the
schema, whatever else is being checked. -/
theorem isOk_check_iff_satisfies (acyclic : catalog.Acyclic)
    (selects : ∀ id, (catalog.descriptor id).SelectsMembers catalog)
    (live : catalog.Live limit fuel active value path) (clear : catalog.Clear active id path) :
    (catalog.check strict fuel active id value path).isOk = true ↔
      catalog.Satisfies acyclic strict id value := by
  induction fuel generalizing active id value path with
  | zero => exact absurd live.fuel_pos (Nat.lt_irrefl 0)
  | succ fuel ih =>
    have fresh := clear.not_mem acyclic
    have unframed : active.contains (id, path) = false := by simpa using fresh
    rw [check, unframed, if_neg (by decide), satisfies_iff acyclic selects]
    refine Descriptor.isOk_check_iff (selects id) ?_
    intro schema part step visits
    exact ih (live.visit fresh visits) (clear.visit live (selects id) visits)

end Catalog

namespace Description

/-- In a description whose schemas are not composed of themselves, the values that pass validation
are those that satisfy the schema: recursive schemas included, whose cycles lead through properties
or items. -/
theorem validate_iff_satisfies {loader : Loader} {base : Url} {document : Value} {reading : Reading}
    (h : read loader base document = .ok reading) (acyclic : reading.catalog.Acyclic)
    (strict : Bool) :
    (∀ id value, reading.catalog.Satisfies acyclic strict id value ↔
      (reading.catalog.descriptor id).Accepts reading.catalog strict
        (reading.catalog.Satisfies acyclic strict) value) ∧
    ∀ id value, (∃ warnings, reading.catalog.validate strict id value = .ok warnings) ↔
      reading.catalog.Satisfies acyclic strict id value := by
  obtain ⟨-, _, -, completed, -⟩ := readRoot_of_read h
  have selects := Catalog.selectsMembers_of_complete completed
  refine ⟨Catalog.satisfies_iff acyclic selects strict, ?_⟩
  intro id value
  rw [Catalog.validate_ok_iff]
  exact Catalog.isOk_check_iff_satisfies acyclic selects (Catalog.live_checkLimit _ value)
    (by simp [Catalog.Clear])

/-- A tree with one tree below it, whose label is given. -/
def treeOver (label : Value) : Value :=
  .object [("label", .string "root"), ("below", .array [.object [("label", label)]])]

theorem satisfies_treeOver :
    ∃ reading, read noLoader treeBase treeDocument = .ok reading ∧
      ∃ acyclic : reading.catalog.Acyclic,
        reading.catalog.Satisfies acyclic true 0 (treeOver (.ofInt 1)) ∧
          ¬ reading.catalog.Satisfies acyclic true 0 (treeOver (.bool true)) := by
  obtain ⟨reading, h, facts⟩ := @exists_of_any_read noLoader treeBase treeDocument
    (fun reading => decide ((∀ whole < reading.catalog.size,
        ∀ part ∈ (reading.catalog.descriptor whole).parts,
          reading.catalog.size - part < reading.catalog.size - whole) ∧
      (reading.catalog.report true 0 (treeOver (.ofInt 1))).isOk = true ∧
      ¬ (reading.catalog.report true 0 (treeOver (.bool true))).isOk = true))
    (by decide +kernel)
  obtain ⟨descends, admitted, refused⟩ := of_decide_eq_true facts
  have acyclic := Catalog.acyclic_of_rank (fun id => reading.catalog.size - id) descends
  obtain ⟨-, verdict⟩ := validate_iff_satisfies h acyclic true
  refine ⟨reading, h, acyclic, ?_, ?_⟩
  · rw [← verdict, Catalog.validate_ok_iff]
    exact admitted
  · rw [← verdict, Catalog.validate_ok_iff]
    exact refused

end Description

end ApiContract
