import ApiContract.Schema.Composition
import ApiContract.Proofs.Schema.Verdict
/-!
# Completed catalogs

What the last checks of a catalog leave as it was, and what they establish. Completing a catalog
records merged objects and changes nothing else (`unmerged_complete`), each property of a merged
object is one that some schema lists (`mergedListed_complete`), and the tags of unions select members
only (`selectsMembers_of_complete`).
-/

namespace ApiContract

namespace Catalog

variable {catalog completed : Catalog}

/-- Two catalogs describe the same schemas, up to the merged objects. -/
structure SameUnmerged (catalog other : Catalog) : Prop where
  size : other.size = catalog.size
  index : other.index = catalog.index
  descriptor : ∀ id, ∃ merged, other.descriptor id = { catalog.descriptor id with merged := merged }

namespace SameUnmerged

theorem refl (catalog : Catalog) : catalog.SameUnmerged catalog :=
  ⟨rfl, rfl, fun id => ⟨(catalog.descriptor id).merged, rfl⟩⟩

theorem trans {a b c : Catalog} (hab : a.SameUnmerged b) (hbc : b.SameUnmerged c) :
    a.SameUnmerged c := by
  refine ⟨hbc.size.trans hab.size, hbc.index.trans hab.index, fun id => ?_⟩
  obtain ⟨_, hb⟩ := hab.descriptor id
  obtain ⟨merged, hc⟩ := hbc.descriptor id
  exact ⟨merged, by rw [hc, hb]⟩

end SameUnmerged

theorem sameUnmerged_set (catalog : Catalog) (id : SchemaId) (merged : MergedObject) :
    catalog.SameUnmerged
      (catalog.set id { catalog.descriptor id with merged := some merged }) := by
  refine ⟨size_set .., rfl, fun other => ?_⟩
  by_cases inside : id < catalog.size
  · rw [descriptor_set _ _ _ _ inside]
    by_cases same : other = id
    · exact ⟨some merged, by rw [if_pos same, same]⟩
    · exact ⟨(catalog.descriptor other).merged, by rw [if_neg same]⟩
  · rw [set_of_size_le _ (Nat.le_of_not_lt inside)]
    exact ⟨(catalog.descriptor other).merged, rfl⟩

theorem sameUnmerged_recordMerged (ids : List SchemaId)
    (h : catalog.recordMerged ids = .ok completed) : catalog.SameUnmerged completed := by
  induction ids generalizing catalog with
  | nil =>
    cases h
    exact .refl _
  | cons id rest ih =>
    simp only [recordMerged] at h
    split at h
    · exact ih h
    · split at h
      · cases h
      · next merged _ => exact (sameUnmerged_set _ id merged).trans (ih h)

/-- The last checks of a catalog have found no mistake in the unions, and change merged objects
alone. -/
theorem unmerged_complete (h : catalog.complete = .ok completed) :
    catalog.SameUnmerged completed ∧
      ∀ d ∈ catalog.descriptors.toList, catalog.discriminatorError? d = none := by
  unfold complete at h
  split at h
  · cases h
  · next sound =>
    exact ⟨sameUnmerged_recordMerged _ h, List.findSome?_eq_none_iff.mp sound⟩

theorem mapped_members_of_discriminatorError? {d : Descriptor} {discriminator : Discriminator}
    (tagged : d.discriminator = some discriminator) (union : d.isUnion = true)
    (sound : catalog.discriminatorError? d = none) :
    ∀ entry ∈ discriminator.mapping, entry.2 ∈ d.members := by
  intro entry member
  unfold discriminatorError? at sound
  rw [tagged] at sound
  simp only [union, Bool.not_true, Bool.false_eq_true, if_false] at sound
  split at sound
  · cases sound
  · next stray =>
    have := List.find?_eq_none.mp stray entry member
    simpa using this

/-- The tags of the unions in a completed catalog select members of these unions. -/
theorem selectsMembers_of_complete (h : catalog.complete = .ok completed) (id : SchemaId) :
    (completed.descriptor id).SelectsMembers completed := by
  intro union discriminator tagged tag part selected
  obtain ⟨same, sound⟩ := unmerged_complete h
  have inside : id < catalog.size := by
    rcases Nat.lt_or_ge id catalog.size with inside | outside
    · exact inside
    · rw [descriptor_of_size_le (same.size ▸ outside)] at union
      simp [Descriptor.isUnion, Descriptor.unrestricted] at union
  obtain ⟨merged, unmerged⟩ := same.descriptor id
  have mapped := mapped_members_of_discriminatorError?
    (d := catalog.descriptor id) (by rw [unmerged] at tagged; exact tagged)
    (by rw [unmerged] at union; exact union) (sound _ (descriptor_mem inside))
  have members : (completed.descriptor id).members = (catalog.descriptor id).members := by
    rw [unmerged]
    rfl
  rw [members]
  unfold Descriptor.selected? at selected
  cases found : Entries.get? tag discriminator.mapping with
  | some target =>
    rw [found] at selected
    cases selected
    exact mapped _ (Entries.mem_of_get? found)
  | none =>
    rw [found, members] at selected
    exact List.mem_of_find?_eq_some selected

/-- Some schema lists the property. -/
def Lists (catalog : Catalog) (entry : String × SchemaId) : Prop :=
  ∃ id, entry ∈ (catalog.descriptor id).properties

theorem SameUnmerged.lists {entry : String × SchemaId} (h : catalog.SameUnmerged completed)
    (listed : catalog.Lists entry) : completed.Lists entry := by
  obtain ⟨id, member⟩ := listed
  obtain ⟨merged, same⟩ := h.descriptor id
  refine ⟨id, ?_⟩
  rw [same]
  exact member

theorem forall_mem_addProperties {p : String × SchemaId → Prop} {whole part all : Entries SchemaId}
    (h : catalog.addProperties whole part = .ok all) (ofWhole : ∀ entry ∈ whole, p entry)
    (ofPart : ∀ entry ∈ part, p entry) : ∀ entry ∈ all, p entry := by
  induction part generalizing whole with
  | nil =>
    cases h
    exact ofWhole
  | cons first rest ih =>
    obtain ⟨own, others⟩ := List.forall_mem_cons.mp ofPart
    rw [addProperties] at h
    split at h
    · split at h
      · exact ih h ofWhole others
      · cases h
    · refine ih h ?_ others
      intro entry member
      rcases List.mem_append.mp member with member | member
      · exact ofWhole entry member
      · rw [List.mem_singleton.mp member]
        exact own

theorem forall_mem_mergeMembers {p : String × SchemaId → Prop} {location : String}
    {visit : SchemaId → Except DefinitionError MergedObject} {sofar merged : MergedObject}
    {members : List SchemaId} (h : catalog.mergeMembers location visit sofar members = .ok merged)
    (visited : ∀ member ∈ members, ∀ part, visit member = .ok part →
      ∀ entry ∈ part.properties, p entry)
    (own : ∀ entry ∈ sofar.properties, p entry) : ∀ entry ∈ merged.properties, p entry := by
  induction members generalizing sofar with
  | nil =>
    cases h
    exact own
  | cons member rest ih =>
    obtain ⟨first, others⟩ := List.forall_mem_cons.mp visited
    rw [mergeMembers] at h
    split at h
    · cases h
    · next part found =>
      split at h
      · cases h
      · next properties added =>
        exact ih h others (forall_mem_addProperties added own (first part found))

/-- What schemas ask of an object together is what one of them asks. -/
theorem lists_of_mem_merge {fuel : Nat} {visiting : List SchemaId} {id : SchemaId}
    {merged : MergedObject} (h : catalog.merge fuel visiting id = .ok merged) :
    ∀ entry ∈ merged.properties, catalog.Lists entry := by
  induction fuel generalizing visiting id merged with
  | zero =>
    cases h
    simp
  | succ fuel ih =>
    rw [merge] at h
    split at h
    · cases h
      simp
    · exact forall_mem_mergeMembers h (fun member _ part found => ih found)
        fun entry member => ⟨id, member⟩

/-- The merged objects of a catalog have properties that its schemas list. -/
def MergedListed (catalog : Catalog) : Prop :=
  ∀ id, ∀ merged ∈ (catalog.descriptor id).merged, ∀ entry ∈ merged.properties, catalog.Lists entry

theorem mergedListed_set {id : SchemaId} {merged : MergedObject} (h : catalog.MergedListed)
    (listed : ∀ entry ∈ merged.properties, catalog.Lists entry) :
    (catalog.set id { catalog.descriptor id with merged := some merged }).MergedListed := by
  intro other found there entry member
  refine (sameUnmerged_set catalog id merged).lists ?_
  rcases Nat.lt_or_ge id catalog.size with inside | outside
  · rw [descriptor_set _ _ _ _ inside] at there
    split at there
    · cases there
      exact listed entry member
    · exact h other found there entry member
  · rw [set_of_size_le _ outside] at there
    exact h other found there entry member

theorem mergedListed_recordMerged (ids : List SchemaId) (h : catalog.MergedListed)
    (recorded : catalog.recordMerged ids = .ok completed) : completed.MergedListed := by
  induction ids generalizing catalog with
  | nil =>
    cases recorded
    exact h
  | cons id rest ih =>
    simp only [recordMerged] at recorded
    split at recorded
    · exact ih h recorded
    · split at recorded
      · cases recorded
      · next merged found => exact ih (mergedListed_set h (lists_of_mem_merge found)) recorded

/-- The merged objects of a completed catalog have properties that its schemas list. -/
theorem mergedListed_complete (h : catalog.complete = .ok completed)
    (unmerged : ∀ id, (catalog.descriptor id).merged = none) : completed.MergedListed := by
  unfold complete at h
  split at h
  · cases h
  · refine mergedListed_recordMerged _ ?_ h
    intro id merged found
    rw [unmerged] at found
    cases found

end Catalog

end ApiContract
