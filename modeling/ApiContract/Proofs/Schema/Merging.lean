import ApiContract.Proofs.Schema.Compatibility
import ApiContract.Proofs.Schema.Completion
import Mathlib.Logic.Relation
/-!
# Merging

What the merged object of a schema consists of. Merging walks the schemas that a schema is composed
of and cuts a walk short where it comes back to a schema that it has come through, so it follows
exactly the routes that meet no schema twice (`Route`). Each schema that can be reached at all can be
reached on such a route, so nothing is left out (`gathers_of_merge`), and as compatibility is an
equivalence it does not matter which of the schemas that are declared for a property the others have
been compared with.
-/

namespace ApiContract

/-- A way along edges that meets no vertex twice, and none of those to be avoided. -/
inductive Route {α : Type} (edge : α → α → Prop) : (avoided : List α) → α → α → Prop
  | stay {avoided : List α} {x : α} : x ∉ avoided → Route edge avoided x x
  | go {avoided : List α} {x y z : α} :
      x ∉ avoided → edge x y → Route edge (x :: avoided) y z → Route edge avoided x z

namespace Route

variable {α : Type} {edge : α → α → Prop} {avoided fewer : List α} {x y z : α}

theorem mono (h : Route edge avoided x z) (subset : fewer ⊆ avoided) : Route edge fewer x z := by
  induction h generalizing fewer with
  | stay fresh => exact .stay fun member => fresh (subset member)
  | go fresh step _ ih =>
    exact .go (fun member => fresh (subset member)) step (ih (List.cons_subset_cons _ subset))

/-- A route avoids a further vertex or leads on from it. -/
theorem avoids_or_passes (h : Route edge avoided y z) (x : α) :
    Route edge (x :: avoided) y z ∨ Route edge avoided x z := by
  induction h with
  | @stay avoided y fresh =>
    by_cases same : y = x
    · exact .inr (same ▸ .stay fresh)
    · exact .inl (.stay (by simp [same, fresh]))
  | @go avoided y next z fresh step rest ih =>
    by_cases same : y = x
    · exact .inr (same ▸ .go fresh step rest)
    · rcases ih with avoids | passes
      · refine .inl (.go (by simp [same, fresh]) step (avoids.mono ?_))
        grind
      · exact .inr (passes.mono (List.subset_cons_self _ _))

/-- Where edges lead at all, there is a route. -/
theorem of_reflTransGen (h : Relation.ReflTransGen edge x z) : Route edge [] x z := by
  induction h using Relation.ReflTransGen.head_induction_on with
  | refl => exact .stay List.not_mem_nil
  | head step _ ih =>
    rcases ih.avoids_or_passes _ with avoids | passes
    · exact .go List.not_mem_nil step avoids
    · exact passes

end Route

namespace Catalog

variable {catalog other completed : Catalog} {fuel : Nat} {visiting ids : List SchemaId}
  {id part p : SchemaId} {name : String} {merged : MergedObject}

/-- A schema names another among those that it is composed of. -/
def Includes (catalog : Catalog) (whole part : SchemaId) : Prop :=
  part ∈ (catalog.descriptor whole).allOf

/-- A schema is another or one of those that the other is composed of, through others or not. -/
def Comprises (catalog : Catalog) : SchemaId → SchemaId → Prop :=
  Relation.ReflTransGen catalog.Includes

/-- A schema that a schema comprises lists a property with a schema for it. -/
def Declares (catalog : Catalog) (id : SchemaId) (name : String) (p : SchemaId) : Prop :=
  ∃ part, catalog.Comprises id part ∧ (name, p) ∈ (catalog.descriptor part).properties

/-- A schema that a schema comprises requires a property. -/
def Requires (catalog : Catalog) (id : SchemaId) (name : String) : Prop :=
  ∃ part, catalog.Comprises id part ∧ name ∈ (catalog.descriptor part).required

theorem lt_size_of_allOf_ne_nil (composed : (catalog.descriptor id).allOf ≠ []) :
    id < catalog.size := by
  by_contra outside
  rw [descriptor_of_size_le (Nat.le_of_not_lt outside)] at composed
  exact composed rfl

theorem Includes.lt_size (h : catalog.Includes id part) : id < catalog.size :=
  lt_size_of_allOf_ne_nil (List.ne_nil_of_mem h)

/-- What holds of the schemas that are being merged when another one is about to be. -/
structure Room (catalog : Catalog) (fuel : Nat) (visiting : List SchemaId) : Prop where
  length : visiting.length + fuel = catalog.size + 1
  nodup : visiting.Nodup
  ids : ∀ id ∈ visiting, id < catalog.size

namespace Room

theorem start (catalog : Catalog) : catalog.Room (catalog.size + 1) [] :=
  ⟨by simp, List.nodup_nil, by simp⟩

theorem fuel_pos (h : catalog.Room fuel visiting) : 0 < fuel := by
  have covered : visiting ⊆ List.range catalog.size := fun id member =>
    List.mem_range.mpr (h.ids id member)
  have := (List.subperm_of_subset h.nodup covered).length_le
  rw [List.length_range] at this
  have := h.length
  omega

theorem step (h : catalog.Room (fuel + 1) visiting) (fresh : id ∉ visiting)
    (included : catalog.Includes id part) : catalog.Room fuel (id :: visiting) where
  length := by
    have := h.length
    simp only [List.length_cons]
    omega
  nodup := List.nodup_cons.mpr ⟨fresh, h.nodup⟩
  ids := List.forall_mem_cons.mpr ⟨included.lt_size, h.ids⟩

end Room

/-- Any two schemas of a property that are declared are compatible. -/
def Agrees (catalog : Catalog) (declared : String → SchemaId → Prop) : Prop :=
  ∀ name p q, declared name p → declared name q → catalog.compatible p q = true

/-- A merged object has the properties of another, each with the schema that it has there, and
requires what the other does. -/
structure Keeps (merged part : MergedObject) : Prop where
  properties : ∀ name p, Entries.get? name part.properties = some p →
    Entries.get? name merged.properties = some p
  required : part.required ⊆ merged.required

/-- A merged object has the properties of another, each with a schema that its own is compatible
with, and requires what the other does. -/
structure Covers (catalog : Catalog) (merged part : MergedObject) : Prop where
  properties : ∀ entry ∈ part.properties, ∃ p, Entries.get? entry.1 merged.properties = some p ∧
    catalog.compatible p entry.2 = true
  required : part.required ⊆ merged.required

section Spec

variable {whole rest all : Entries SchemaId} {sofar own first last : MergedObject}
  {visit : SchemaId → Except DefinitionError MergedObject} {members : List SchemaId}
  {declared : String → SchemaId → Prop} {location : String} {member : SchemaId}

theorem Keeps.refl (merged : MergedObject) : Keeps merged merged :=
  ⟨fun _ _ found => found, List.Subset.refl _⟩

theorem Keeps.trans (one : Keeps merged sofar) (two : Keeps sofar first) : Keeps merged first :=
  ⟨fun name p found => one.properties name p (two.properties name p found),
    List.Subset.trans two.required one.required⟩

theorem Keeps.covers (keeps : Keeps merged sofar) (covers : catalog.Covers sofar own) :
    catalog.Covers merged own where
  properties entry listed := by
    obtain ⟨p, found, compatible⟩ := covers.properties entry listed
    exact ⟨p, keeps.properties _ _ found, compatible⟩
  required := List.Subset.trans covers.required keeps.required

theorem Covers.trans (proper : ∀ id, (catalog.descriptor id).Proper)
    (one : catalog.Covers merged first) (two : catalog.Covers first own) :
    catalog.Covers merged own where
  properties entry listed := by
    obtain ⟨q, found, compatible⟩ := two.properties entry listed
    obtain ⟨p, found', compatible'⟩ := one.properties _ (Entries.mem_of_get? found)
    exact ⟨p, found', (equivalenceAt_compatible proper p).trans _ _ compatible' compatible⟩
  required := List.Subset.trans two.required one.required

theorem covers_own (proper : ∀ id, (catalog.descriptor id).Proper) (id : SchemaId) :
    catalog.Covers (catalog.descriptor id).ownObject (catalog.descriptor id).ownObject where
  properties entry listed := ⟨entry.2, Entries.get?_of_mem (proper id).properties listed,
    (equivalenceAt_compatible proper entry.2).refl trivial⟩
  required := List.Subset.refl _

theorem mem_addRequired_iff {whole part : List String} :
    name ∈ addRequired whole part ↔ name ∈ whole ∨ name ∈ part := by
  unfold addRequired
  induction part generalizing whole with
  | nil => simp
  | cons first rest ih =>
    rw [List.foldl_cons, ih]
    by_cases known : first ∈ whole
    · grind
    · grind

/-- Adding properties keeps those that are there, and each added one has its like among them
then. -/
theorem addProperties_spec (proper : ∀ id, (catalog.descriptor id).Proper)
    (h : catalog.addProperties whole rest = .ok all) :
    (∀ name p, Entries.get? name whole = some p → Entries.get? name all = some p) ∧
      ∀ entry ∈ rest, ∃ p, Entries.get? entry.1 all = some p ∧
        catalog.compatible p entry.2 = true := by
  induction rest generalizing whole with
  | nil =>
    cases h
    exact ⟨fun _ _ found => found, by simp⟩
  | cons entry rest ih =>
    obtain ⟨name, q⟩ := entry
    rw [addProperties] at h
    split at h
    · next existing found =>
      split at h
      · next compatible =>
        obtain ⟨keeps, covers⟩ := ih h
        exact ⟨keeps, List.forall_mem_cons.mpr ⟨⟨existing, keeps _ _ found, compatible⟩, covers⟩⟩
      · cases h
    · next missing =>
      obtain ⟨keeps, covers⟩ := ih h
      have own : Entries.get? name all = some q := by
        refine keeps _ _ ?_
        simp [Entries.get?_append, missing, Entries.get?]
      refine ⟨fun other p found => keeps _ _ ?_, List.forall_mem_cons.mpr ⟨⟨q, own, ?_⟩, covers⟩⟩
      · rw [Entries.get?_append, found, Option.some_or]
      · exact (equivalenceAt_compatible proper q).refl trivial

/-- Merging members keeps what is there and covers what each member asks. -/
theorem mergeMembers_spec (proper : ∀ id, (catalog.descriptor id).Proper)
    (h : catalog.mergeMembers location visit sofar members = .ok merged) :
    Keeps merged sofar ∧
      ∀ member ∈ members, ∃ part, visit member = .ok part ∧ catalog.Covers merged part := by
  induction members generalizing sofar with
  | nil =>
    cases h
    exact ⟨.refl _, by simp⟩
  | cons member rest ih =>
    rw [mergeMembers] at h
    split at h
    · cases h
    next part visited =>
    split at h
    · cases h
    next properties added =>
    obtain ⟨kept, covered⟩ := addProperties_spec proper added
    obtain ⟨keeps, covers⟩ := ih h
    have step : Keeps ⟨properties, addRequired sofar.required part.required⟩ sofar :=
      ⟨kept, fun name known => mem_addRequired_iff.mpr (.inl known)⟩
    have own : catalog.Covers ⟨properties, addRequired sofar.required part.required⟩ part :=
      ⟨covered, fun name known => mem_addRequired_iff.mpr (.inr known)⟩
    exact ⟨keeps.trans step, List.forall_mem_cons.mpr ⟨⟨part, visited, keeps.covers own⟩, covers⟩⟩

theorem merge_succ (fresh : id ∉ visiting) :
    catalog.merge (fuel + 1) visiting id =
      catalog.mergeMembers (catalog.descriptor id).location (catalog.merge fuel (id :: visiting))
        (catalog.descriptor id).ownObject (catalog.descriptor id).allOf := by
  simp [merge, fresh]

/-- A merged object covers what each schema asks to which a route leads. -/
theorem covers_of_merge (proper : ∀ id, (catalog.descriptor id).Proper)
    (room : catalog.Room fuel visiting) (h : catalog.merge fuel visiting id = .ok merged)
    (route : Route catalog.Includes visiting id member) :
    catalog.Covers merged (catalog.descriptor member).ownObject := by
  induction route generalizing fuel merged with
  | stay fresh =>
    obtain ⟨fuel, rfl⟩ := Nat.exists_eq_add_one.mpr room.fuel_pos
    rw [merge_succ fresh] at h
    exact (mergeMembers_spec proper h).1.covers (covers_own proper _)
  | go fresh included _ ih =>
    obtain ⟨fuel, rfl⟩ := Nat.exists_eq_add_one.mpr room.fuel_pos
    rw [merge_succ fresh] at h
    obtain ⟨part, visited, covers⟩ := (mergeMembers_spec proper h).2 _ included
    exact covers.trans proper (ih (room.step fresh included) visited)

theorem forall_mem_required_mergeMembers {q : String → Prop}
    (h : catalog.mergeMembers location visit sofar members = .ok merged)
    (visited : ∀ member ∈ members, ∀ part, visit member = .ok part → ∀ name ∈ part.required, q name)
    (own : ∀ name ∈ sofar.required, q name) : ∀ name ∈ merged.required, q name := by
  induction members generalizing sofar with
  | nil =>
    cases h
    exact own
  | cons member rest ih =>
    obtain ⟨first, others⟩ := List.forall_mem_cons.mp visited
    rw [mergeMembers] at h
    split at h
    · cases h
    next part found =>
    split at h
    · cases h
    refine ih h others fun name known => ?_
    rcases mem_addRequired_iff.mp known with known | known
    · exact own name known
    · exact first part found name known

/-- What a merged object asks is asked by the schemas that are comprised. -/
theorem declared_of_merge (h : catalog.merge fuel visiting id = .ok merged) :
    (∀ entry ∈ merged.properties, catalog.Declares id entry.1 entry.2) ∧
      ∀ name ∈ merged.required, catalog.Requires id name := by
  induction fuel generalizing visiting id merged with
  | zero =>
    cases h
    simp
  | succ fuel ih =>
    by_cases known : id ∈ visiting
    · simp only [merge, List.contains_iff_mem, known, if_true] at h
      cases h
      simp
    rw [merge_succ known] at h
    constructor
    · refine forall_mem_mergeMembers h (fun member included part found entry listed => ?_)
        fun entry listed => ⟨id, .refl, listed⟩
      obtain ⟨other, comprised, listed⟩ := (ih found).1 entry listed
      exact ⟨other, .head included comprised, listed⟩
    · refine forall_mem_required_mergeMembers h (fun member included part found name listed => ?_)
        fun name listed => ⟨id, .refl, listed⟩
      obtain ⟨other, comprised, listed⟩ := (ih found).2 name listed
      exact ⟨other, .head included comprised, listed⟩

theorem exists_addProperties (agrees : catalog.Agrees declared)
    (ofWhole : ∀ entry ∈ whole, declared entry.1 entry.2)
    (ofRest : ∀ entry ∈ rest, declared entry.1 entry.2) :
    ∃ all, catalog.addProperties whole rest = .ok all := by
  induction rest generalizing whole with
  | nil => exact ⟨whole, rfl⟩
  | cons entry rest ih =>
    obtain ⟨name, q⟩ := entry
    obtain ⟨own, others⟩ := List.forall_mem_cons.mp ofRest
    rw [addProperties]
    cases found : Entries.get? name whole with
    | some existing =>
      have compatible := agrees name existing q (ofWhole _ (Entries.mem_of_get? found)) own
      simp only [compatible, if_true]
      exact ih ofWhole others
    | none =>
      refine ih (fun entry listed => ?_) others
      rcases List.mem_append.mp listed with listed | listed
      · exact ofWhole entry listed
      · rw [List.mem_singleton.mp listed]
        exact own

theorem exists_mergeMembers (agrees : catalog.Agrees declared)
    (own : ∀ entry ∈ sofar.properties, declared entry.1 entry.2)
    (visited : ∀ member ∈ members, ∃ part, visit member = .ok part ∧
      ∀ entry ∈ part.properties, declared entry.1 entry.2) :
    ∃ merged, catalog.mergeMembers location visit sofar members = .ok merged := by
  induction members generalizing sofar with
  | nil => exact ⟨sofar, rfl⟩
  | cons member rest ih =>
    obtain ⟨⟨part, found, listed⟩, others⟩ := List.forall_mem_cons.mp visited
    obtain ⟨all, added⟩ := exists_addProperties agrees own listed
    rw [mergeMembers, found]
    simp only [added]
    exact ih (forall_mem_addProperties (p := fun entry => declared entry.1 entry.2) added own listed)
      others

/-- Where all schemas that are declared for one property are compatible, merging succeeds. -/
theorem exists_merge (agrees : catalog.Agrees declared)
    (below : ∀ name p, catalog.Declares id name p → declared name p) :
    ∃ merged, catalog.merge fuel visiting id = .ok merged := by
  induction fuel generalizing visiting id with
  | zero => exact ⟨⟨[], []⟩, rfl⟩
  | succ fuel ih =>
    by_cases known : id ∈ visiting
    · exact ⟨⟨[], []⟩, by simp [merge, known]⟩
    rw [merge_succ known]
    refine exists_mergeMembers agrees (fun entry listed => below _ _ ⟨id, .refl, listed⟩) ?_
    intro member included
    have within : ∀ name p, catalog.Declares member name p → declared name p := by
      rintro name p ⟨part, comprised, listed⟩
      exact below name p ⟨part, .head included comprised, listed⟩
    obtain ⟨part, merged⟩ := @ih (id :: visiting) member within
    exact ⟨part, merged, fun entry listed => within _ _ ((declared_of_merge merged).1 entry listed)⟩

end Spec

/-- What a merged object holds: the properties that are declared by the schemas that a schema
comprises, each with one of the schemas declared for it, and what these schemas require. -/
structure Gathers (catalog : Catalog) (id : SchemaId) (merged : MergedObject) : Prop where
  names : ∀ name, name ∈ merged.properties.keys ↔ ∃ p, catalog.Declares id name p
  required : ∀ name, name ∈ merged.required ↔ catalog.Requires id name
  declared : ∀ entry ∈ merged.properties, catalog.Declares id entry.1 entry.2

theorem gathers_of_mergeAll (proper : ∀ id, (catalog.descriptor id).Proper)
    (h : catalog.mergeAll id = .ok merged) : catalog.Gathers id merged := by
  have covers (part : SchemaId) (comprised : catalog.Comprises id part) :
      catalog.Covers merged (catalog.descriptor part).ownObject :=
    covers_of_merge proper (.start catalog) h (.of_reflTransGen comprised)
  obtain ⟨declared, required⟩ := declared_of_merge h
  refine ⟨fun name => ⟨?_, ?_⟩, fun name => ⟨required name, ?_⟩, declared⟩
  · intro listed
    obtain ⟨entry, member, rfl⟩ := List.mem_map.mp listed
    exact ⟨entry.2, declared entry member⟩
  · rintro ⟨p, part, comprised, listed⟩
    obtain ⟨q, found, -⟩ := (covers part comprised).properties _ listed
    exact Entries.get?_isSome_iff.mp (by rw [found]; rfl)
  · rintro ⟨part, comprised, listed⟩
    exact (covers part comprised).required listed

/-- A schema's merged object exists exactly if any two schemas that are declared for one property by
the schemas that it comprises are compatible. -/
theorem exists_mergeAll_iff (proper : ∀ id, (catalog.descriptor id).Proper) (id : SchemaId) :
    (∃ merged, catalog.mergeAll id = .ok merged) ↔ catalog.Agrees (catalog.Declares id) := by
  constructor
  · rintro ⟨merged, h⟩ name p q ⟨one, comprised, listed⟩ ⟨two, comprised', listed'⟩
    have covers (part : SchemaId) (comprised : catalog.Comprises id part) :
        catalog.Covers merged (catalog.descriptor part).ownObject :=
      covers_of_merge proper (.start catalog) h (.of_reflTransGen comprised)
    -- Both are compatible with the one schema that the merged object has for the property.
    obtain ⟨r, found, compatible⟩ := (covers one comprised).properties _ listed
    obtain ⟨r', found', compatible'⟩ := (covers two comprised').properties _ listed'
    rw [found] at found'
    cases found'
    have back := (equivalenceAt_compatible proper r).symm p trivial trivial compatible
    exact (equivalenceAt_compatible proper p).trans r q back compatible'
  · intro agrees
    exact exists_merge agrees fun _ _ declared => declared

end Catalog

end ApiContract
