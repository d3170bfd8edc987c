import ApiContract.Proofs.Schema.Merging
/-!
# Agreement of composed schemas

When the last checks of a catalog find nothing wrong with composed schemas, and what they record for
these: `complete_iff_agrees`. Which catalog they make of it does not depend on the order in which
schemas are composed, except that the comparison of two schemas goes through their `allOf` in order,
and so what is compatible may (`order_matters`).
-/

namespace ApiContract

namespace Catalog

variable {catalog other completed : Catalog} {id : SchemaId} {ids : List SchemaId}

theorem compatible_of_sameUnmerged (same : catalog.SameUnmerged other) :
    other.compatible = catalog.compatible := by
  have deep (depth : Nat) : other.sameConstraints depth = catalog.sameConstraints depth := by
    induction depth with
    | zero => rfl
    | succ depth ih =>
      funext a b
      obtain ⟨_, first⟩ := same.descriptor a
      obtain ⟨_, second⟩ := same.descriptor b
      simp only [sameConstraints, ih, first, second]
      rfl
  exact deep comparisonDepth

theorem addProperties_of_sameUnmerged (same : catalog.SameUnmerged other) :
    other.addProperties = catalog.addProperties := by
  funext whole part
  induction part generalizing whole with
  | nil => rfl
  | cons entry rest ih => simp only [addProperties, ih, compatible_of_sameUnmerged same]

theorem mergeMembers_of_sameUnmerged (same : catalog.SameUnmerged other) :
    other.mergeMembers = catalog.mergeMembers := by
  funext location visit sofar members
  induction members generalizing sofar with
  | nil => rfl
  | cons member rest ih => simp only [mergeMembers, ih, addProperties_of_sameUnmerged same]

/-- Merging does not look at merged objects. -/
theorem mergeAll_of_sameUnmerged (same : catalog.SameUnmerged other) (id : SchemaId) :
    other.mergeAll id = catalog.mergeAll id := by
  have all (fuel : Nat) (visiting : List SchemaId) (id : SchemaId) :
      other.merge fuel visiting id = catalog.merge fuel visiting id := by
    induction fuel generalizing visiting id with
    | zero => rfl
    | succ fuel ih =>
      obtain ⟨_, unmerged⟩ := same.descriptor id
      have visits : other.merge fuel (id :: visiting) = catalog.merge fuel (id :: visiting) :=
        funext fun member => ih _ member
      simp only [merge, unmerged, visits, mergeMembers_of_sameUnmerged same]
      rfl
  rw [mergeAll, mergeAll, same.size, all]

/-- Recording the merged object of a schema. -/
theorem merged_set (merged : MergedObject) (inside : id < catalog.size) (part : SchemaId) :
    ((catalog.set id { catalog.descriptor id with merged := some merged }).descriptor part).merged =
      if part = id then some merged else (catalog.descriptor part).merged := by
  rw [descriptor_set _ _ _ _ inside]
  split <;> rfl

theorem SameUnmerged.allOf (same : catalog.SameUnmerged other) (id : SchemaId) :
    (other.descriptor id).allOf = (catalog.descriptor id).allOf := by
  obtain ⟨_, unmerged⟩ := same.descriptor id
  rw [unmerged]

/-- Recording merged objects succeeds if there is one for each composed schema. -/
theorem exists_recordMerged
    (merges : ∀ id ∈ ids, (catalog.descriptor id).allOf ≠ [] →
      ∃ merged, catalog.mergeAll id = .ok merged) :
    ∃ completed, catalog.recordMerged ids = .ok completed := by
  induction ids generalizing catalog with
  | nil => exact ⟨catalog, rfl⟩
  | cons id rest ih =>
    obtain ⟨first, others⟩ := List.forall_mem_cons.mp merges
    simp only [recordMerged]
    split
    · exact ih others
    · next composed =>
      obtain ⟨merged, found⟩ := first (by simpa using composed)
      have same := sameUnmerged_set catalog id merged
      simp only [found]
      refine ih fun other member composed => ?_
      rw [same.allOf] at composed
      rw [mergeAll_of_sameUnmerged same]
      exact others other member composed

/-- A completed catalog has the merged object of a schema on record. -/
def Recorded (catalog completed : Catalog) (id : SchemaId) : Prop :=
  ∃ merged, catalog.mergeAll id = .ok merged ∧ (completed.descriptor id).merged = some merged

/-- Each composed schema is recorded with its merged object, and no schema with another one. -/
theorem recordMerged_spec (inside : ∀ id ∈ ids, id < catalog.size)
    (h : catalog.recordMerged ids = .ok completed) :
    (∀ id ∈ ids, (catalog.descriptor id).allOf ≠ [] → catalog.Recorded completed id) ∧
      ∀ id, (completed.descriptor id).merged = (catalog.descriptor id).merged ∨
        catalog.Recorded completed id := by
  induction ids generalizing catalog with
  | nil =>
    cases h
    exact ⟨by simp, fun _ => .inl rfl⟩
  | cons first rest ih =>
    obtain ⟨firstInside, restInside⟩ := List.forall_mem_cons.mp inside
    simp only [recordMerged] at h
    split at h
    · next plain =>
      obtain ⟨recorded, kept⟩ := ih restInside h
      have plain : (catalog.descriptor first).allOf = [] := by simpa using plain
      exact ⟨List.forall_mem_cons.mpr ⟨fun composed => absurd plain composed, recorded⟩, kept⟩
    split at h
    · cases h
    next merged found =>
    have same := sameUnmerged_set catalog first merged
    have step := merged_set merged firstInside
    generalize catalog.set first _ = after at h same step
    obtain ⟨recorded, kept⟩ := ih (by rwa [same.size]) h
    simp only [Recorded, same.allOf, mergeAll_of_sameUnmerged same, step] at recorded kept
    have own : catalog.Recorded completed first := by
      rcases kept first with kept | recorded
      · exact ⟨merged, found, by rw [kept, if_pos rfl]⟩
      · exact recorded
    refine ⟨List.forall_mem_cons.mpr ⟨fun _ => own, recorded⟩, fun id => ?_⟩
    by_cases equal : id = first
    · exact .inr (equal ▸ own)
    · have := kept id
      rwa [if_neg equal] at this

/-- The last checks of a catalog succeed if the unions are sound and each composed schema can be
merged. -/
theorem exists_complete_iff
    (unions : ∀ d ∈ catalog.descriptors.toList, catalog.discriminatorError? d = none) :
    (∃ completed, catalog.complete = .ok completed) ↔
      ∀ id, (catalog.descriptor id).allOf ≠ [] → ∃ merged, catalog.mergeAll id = .ok merged := by
  have complete : catalog.complete = catalog.recordMerged (List.range catalog.size) := by
    rw [Catalog.complete, List.findSome?_eq_none_iff.mpr unions]
  rw [complete]
  constructor
  · rintro ⟨completed, h⟩ id composed
    have spec := recordMerged_spec (fun id member => List.mem_range.mp member) h
    have inside := List.mem_range.mpr (lt_size_of_allOf_ne_nil composed)
    obtain ⟨merged, found, -⟩ := spec.1 id inside composed
    exact ⟨merged, found⟩
  · exact fun merges => exists_recordMerged fun id _ => merges id

theorem mergeAll_of_plain (plain : (catalog.descriptor id).allOf = []) :
    catalog.mergeAll id = .ok (catalog.descriptor id).ownObject := by
  rw [mergeAll, merge_succ List.not_mem_nil, plain]
  rfl

/-- What a completed catalog says that a schema asks of objects is what merging comes to. -/
theorem mergeAll_of_complete (unmerged : ∀ id, (catalog.descriptor id).merged = none)
    (h : catalog.complete = .ok completed) (id : SchemaId) :
    catalog.mergeAll id = .ok (completed.merged id) := by
  obtain ⟨same, unions⟩ := unmerged_complete h
  rw [Catalog.complete, List.findSome?_eq_none_iff.mpr unions] at h
  obtain ⟨recorded, kept⟩ := recordMerged_spec (fun id member => List.mem_range.mp member) h
  have ofRecorded (found : catalog.Recorded completed id) :
      catalog.mergeAll id = .ok (completed.merged id) := by
    obtain ⟨merged, found, there⟩ := found
    rw [found, Catalog.merged, there]
    rfl
  rcases kept id with kept | recorded'
  · by_cases plain : (catalog.descriptor id).allOf = []
    · obtain ⟨_, fields⟩ := same.descriptor id
      rw [mergeAll_of_plain plain, Catalog.merged, kept, unmerged id, fields]
      rfl
    · have inside := List.mem_range.mpr (lt_size_of_allOf_ne_nil plain)
      exact ofRecorded (recorded id inside plain)
  · exact ofRecorded recorded'

/-- Another catalog has the same schemas, of which composed ones name those that they are composed of
in another order. -/
structure Reorders (catalog other : Catalog) : Prop where
  size : other.size = catalog.size
  descriptor : ∀ id, ∃ members, members.Perm (catalog.descriptor id).allOf ∧
    other.descriptor id = { catalog.descriptor id with allOf := members }

theorem forall_descriptor {p : Descriptor → Prop} (missing : p (.unrestricted "" none))
    (listed : ∀ d ∈ catalog.descriptors.toList, p d) (id : SchemaId) : p (catalog.descriptor id) := by
  rcases Nat.lt_or_ge id catalog.size with inside | outside
  · exact listed _ (descriptor_mem inside)
  · rw [descriptor_of_size_le outside]
    exact missing

theorem exists_descriptor_of_mem {d : Descriptor} (h : d ∈ catalog.descriptors.toList) :
    ∃ id < catalog.size, catalog.descriptor id = d := by
  obtain ⟨id, inside, rfl⟩ := List.getElem_of_mem h
  refine ⟨id, by simpa [size] using inside, ?_⟩
  have found : catalog.descriptors[id]? = some catalog.descriptors.toList[id] := by simp
  simp [descriptor, found]

theorem discriminatorError?_eq_none_iff {d : Descriptor} :
    catalog.discriminatorError? d = none ↔ ∀ discriminator ∈ d.discriminator, d.isUnion = true →
      strayTag? d discriminator = none ∧ catalog.sharedName? [] d.members = none := by
  simp only [discriminatorError?]
  cases d.discriminator with
  | none => simp
  | some discriminator =>
    cases d.isUnion with
    | false => simp
    | true =>
      cases stray : strayTag? d discriminator with
      | none => simp [stray]
      | some entry => simp [stray]

namespace Reorders

variable (h : catalog.Reorders other)
include h

theorem proper (proper : ∀ id, (catalog.descriptor id).Proper) (id : SchemaId) :
    (other.descriptor id).Proper := by
  obtain ⟨_, -, same⟩ := h.descriptor id
  rw [same]
  exact ⟨(proper id).properties, (proper id).enumeration, (proper id).constant⟩

theorem includes_iff {whole part : SchemaId} :
    other.Includes whole part ↔ catalog.Includes whole part := by
  obtain ⟨members, perm, same⟩ := h.descriptor whole
  rw [Includes, Includes, same]
  exact perm.mem_iff

theorem declares_iff {id p : SchemaId} {name : String} :
    other.Declares id name p ↔ catalog.Declares id name p := by
  have includes : other.Includes = catalog.Includes := by
    funext whole part
    exact propext h.includes_iff
  refine exists_congr fun part => ?_
  obtain ⟨_, -, same⟩ := h.descriptor part
  rw [Comprises, Comprises, includes, same]

theorem sharedName?_eq (named : Entries SchemaId) (members : List SchemaId) :
    other.sharedName? named members = catalog.sharedName? named members := by
  induction members generalizing named with
  | nil => rfl
  | cons id rest ih =>
    obtain ⟨_, -, same⟩ := h.descriptor id
    simp only [sharedName?, same, ih]

theorem unions (unions : ∀ d ∈ catalog.descriptors.toList, catalog.discriminatorError? d = none) :
    ∀ d ∈ other.descriptors.toList, other.discriminatorError? d = none := by
  intro d member
  obtain ⟨id, inside, rfl⟩ := exists_descriptor_of_mem member
  have sound := discriminatorError?_eq_none_iff.mp (unions _ (descriptor_mem (h.size ▸ inside)))
  obtain ⟨members, -, same⟩ := h.descriptor id
  refine discriminatorError?_eq_none_iff.mpr fun discriminator tagged union => ?_
  rw [same] at tagged union ⊢
  rw [h.sharedName?_eq]
  exact sound discriminator tagged union

/-- Which schemas of properties have to be compatible does not depend on the order in which schemas
are composed. -/
theorem agrees_iff (compatible : other.compatible = catalog.compatible) (id : SchemaId) :
    other.Agrees (other.Declares id) ↔ catalog.Agrees (catalog.Declares id) := by
  simp only [Agrees, h.declares_iff, compatible]

theorem composed_iff (id : SchemaId) :
    (other.descriptor id).allOf ≠ [] ↔ (catalog.descriptor id).allOf ≠ [] := by
  obtain ⟨members, perm, same⟩ := h.descriptor id
  simp only [same, ← List.length_pos_iff, perm.length_eq]

end Reorders

/-- Catalogs are completed exactly if for each composed schema and each property any two schemas that
are declared for it by the schemas comprised are compatible. In whichever order schemas are composed,
this comes to the same as long as the same schemas are compatible. What is recorded is what the
schemas comprised ask together. -/
theorem complete_iff_agrees {catalog : Catalog} (proper : ∀ id, (catalog.descriptor id).Proper)
    (unmerged : ∀ id, (catalog.descriptor id).merged = none)
    (unions : ∀ d ∈ catalog.descriptors.toList, catalog.discriminatorError? d = none) :
    ((∃ completed, catalog.complete = .ok completed) ↔
      ∀ id, (catalog.descriptor id).allOf ≠ [] → catalog.Agrees (catalog.Declares id)) ∧
    (∀ other, catalog.Reorders other → other.compatible = catalog.compatible →
      ((∃ completed, other.complete = .ok completed) ↔
        ∃ completed, catalog.complete = .ok completed)) ∧
    ∀ completed, catalog.complete = .ok completed →
      ∀ id, catalog.Gathers id (completed.merged id) := by
  have agrees : (∃ completed, catalog.complete = .ok completed) ↔
      ∀ id, (catalog.descriptor id).allOf ≠ [] → catalog.Agrees (catalog.Declares id) := by
    rw [exists_complete_iff unions]
    exact forall₂_congr fun id _ => exists_mergeAll_iff proper id
  refine ⟨agrees, fun other reorders compatible => ?_, fun completed h id => ?_⟩
  · rw [agrees, exists_complete_iff (reorders.unions unions)]
    refine forall_congr' fun id => imp_congr (reorders.composed_iff id) ?_
    rw [exists_mergeAll_iff (reorders.proper proper), reorders.agrees_iff compatible]
  · exact gathers_of_mergeAll proper (mergeAll_of_complete unmerged h id)

/-- Two schemas that are composed of the same two others, the first of them in a given order. The
other two have a property of one name, whose schema is the first for the one and the last for the
other. -/
def twins (order : List SchemaId) : Catalog where
  descriptors := #[
    { Descriptor.unrestricted "first" none with allOf := order },
    { Descriptor.unrestricted "left" none with properties := [("x", 0)] },
    { Descriptor.unrestricted "right" none with properties := [("x", 3)] },
    { Descriptor.unrestricted "last" none with allOf := [1, 2] }]
  index := []

theorem proper_twins (order : List SchemaId) (id : SchemaId) :
    ((twins order).descriptor id).Proper := by
  refine forall_descriptor ⟨by decide, nofun, nofun⟩ ?_ id
  simp only [twins, List.forall_mem_cons]
  exact ⟨⟨List.nodup_nil, nofun, nofun⟩, ⟨by decide, nofun, nofun⟩, ⟨by decide, nofun, nofun⟩,
    ⟨List.nodup_nil, nofun, nofun⟩, List.forall_mem_nil _⟩

theorem exists_complete_twins : ∃ completed, (twins [1, 2]).complete = .ok completed := by
  have accepted : ((twins [1, 2]).complete matches .ok _) = true := by decide +kernel
  split at accepted
  · exact ⟨_, ‹_›⟩
  · cases accepted

theorem twins_agree :
    (twins [1, 2]).Agrees ((twins [1, 2]).Declares 0) ∧
      ∃ completed, (twins [1, 2]).complete = .ok completed ∧
        (twins [1, 2]).Gathers 0 (completed.merged 0) := by
  have unmerged : ∀ id, ((twins [1, 2]).descriptor id).merged = none
    | 0 | 1 | 2 | 3 => rfl
    | _ + 4 => rfl
  have unions : ∀ d ∈ (twins [1, 2]).descriptors.toList,
      (twins [1, 2]).discriminatorError? d = none := by
    simp only [twins, List.forall_mem_cons]
    exact ⟨rfl, rfl, rfl, rfl, List.forall_mem_nil _⟩
  obtain ⟨agrees, -, gathers⟩ := complete_iff_agrees (proper_twins _) unmerged unions
  obtain ⟨completed, h⟩ := exists_complete_twins
  exact ⟨agrees.mp ⟨completed, h⟩ 0 (by decide), completed, h, gathers completed h 0⟩

theorem reorders_twins : (twins [1, 2]).Reorders (twins [2, 1]) where
  size := rfl
  descriptor
    | 0 => ⟨[2, 1], .swap 1 2 [], rfl⟩
    | 1 | 2 | 3 => ⟨_, .rfl, rfl⟩
    | _ + 4 => ⟨_, .rfl, rfl⟩

theorem order_matters :
    (twins [1, 2]).Reorders (twins [2, 1]) ∧
      (∃ completed, (twins [1, 2]).complete = .ok completed) ∧
      ¬ ∃ completed, (twins [2, 1]).complete = .ok completed := by
  have refused : ((twins [2, 1]).complete matches .ok _) = false := by decide +kernel
  refine ⟨reorders_twins, exists_complete_twins, ?_⟩
  rintro ⟨completed, h⟩
  simp [h] at refused

end Catalog

end ApiContract
