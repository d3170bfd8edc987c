import ApiContract.Proofs.Description.Transcription
import ApiContract.Proofs.Schema.Completion
/-!
# Fidelity of descriptions

What is read off a description is what its documents say. Reading keeps the construction sound and
yields schemas that have positions (`ensures_readRoot`), and the last checks leave the catalog as it
is but for what composed schemas ask together. So the catalog of a description that has been read is a
picture of its schemas with all references followed (`faithful_of_read`).
-/

namespace ApiContract

open Json (Value)
open Build (Ensures)

/-- The schemas that a descriptor holds: those that its keywords refer to, and those of the properties
that composed schemas ask for together. -/
def Descriptor.schemas (d : Descriptor) : List SchemaId :=
  d.references ++ d.merged.elim [] fun merged => merged.properties.values

namespace Construction.Sound

variable {s : Construction} {catalog : Catalog} {location : Location} {id other : SchemaId}

theorem find?_completed_iff (h : s.Sound []) (same : s.catalog.SameUnmerged catalog) :
    catalog.find? location = some id ↔ (location, id) ∈ s.catalog.index := by
  rw [← h.find?_eq_some_iff]
  unfold Catalog.find?
  rw [same.index]

theorem lt_size_completed (h : s.Sound []) (same : s.catalog.SameUnmerged catalog)
    (has : s.Has id) : id < catalog.size := by
  obtain ⟨location, indexed⟩ := has
  rw [same.size]
  exact h.lt_size indexed

/-- The descriptors of a completed catalog say what their nodes say. -/
theorem records_completed (h : s.Sound []) (same : s.catalog.SameUnmerged catalog)
    (indexed : (location, id) ∈ s.catalog.index) :
    ∃ node, s.library.node? location = some node ∧
      Descriptor.Records s.library s.Located location node (catalog.descriptor id) := by
  obtain ⟨node, there, records⟩ := h.described _ indexed List.not_mem_nil
  obtain ⟨merged, unmerged⟩ := same.descriptor id
  refine ⟨node, there, ?_⟩
  rw [unmerged]
  exact records.withMerged merged

theorem describes_completed (h : s.Sound []) (same : s.catalog.SameUnmerged catalog)
    (indexed : (location, id) ∈ s.catalog.index) :
    ∃ node, s.library.node? location = some node ∧
      Descriptor.Describes s.Located location node (catalog.descriptor id) := by
  obtain ⟨node, there, records⟩ := h.records_completed same indexed
  exact ⟨node, there, records.describes⟩

theorem lt_size_of_mem_references (h : s.Sound []) (same : s.catalog.SameUnmerged catalog)
    (inside : id < catalog.size) (member : other ∈ (catalog.descriptor id).references) :
    other < catalog.size := by
  rw [same.size] at inside
  obtain ⟨location, indexed⟩ := h.exists_location inside
  obtain ⟨node, -, describes⟩ := h.describes_completed same indexed
  obtain ⟨target, located⟩ := describes.located_of_mem_references member
  exact h.lt_size_completed same located.has

theorem lt_size_of_lists {entry : String × SchemaId} (h : s.Sound [])
    (same : s.catalog.SameUnmerged catalog) (listed : catalog.Lists entry) :
    entry.2 < catalog.size := by
  obtain ⟨id, member⟩ := listed
  rcases Nat.lt_or_ge id catalog.size with inside | outside
  · refine h.lt_size_of_mem_references same inside ?_
    simp only [Descriptor.references, List.mem_append]
    exact .inl (.inl (.inl (.inr (List.mem_map.mpr ⟨entry, member, rfl⟩))))
  · rw [Catalog.descriptor_of_size_le outside] at member
    cases member

/-- The schemas that a completed catalog's descriptors hold are in the catalog. -/
theorem lt_size_of_mem_schemas (h : s.Sound []) (same : s.catalog.SameUnmerged catalog)
    (listed : catalog.MergedListed) (inside : id < catalog.size)
    (member : other ∈ (catalog.descriptor id).schemas) : other < catalog.size := by
  rcases List.mem_append.mp member with member | member
  · exact h.lt_size_of_mem_references same inside member
  · cases merged : (catalog.descriptor id).merged with
    | none =>
      rw [merged] at member
      cases member
    | some object =>
      rw [merged] at member
      obtain ⟨entry, present, rfl⟩ := List.mem_map.mp member
      exact h.lt_size_of_lists same (listed id object merged entry present)

end Construction.Sound

namespace Description

/-- The schemas of a description that is read have positions. -/
theorem ensures_readRoot (loader : Loader) (dialect : Dialect) (base : Url) :
    Ensures (readRoot loader dialect base) fun description s =>
      ∀ id ∈ description.allSchemas, s.Has id := by
  refine (ensures_readRoot_transcribes loader dialect base).mono ?_
  intro description s transcribes id member
  obtain ⟨place, located⟩ := transcribes.located_of_mem member
  exact located.has

/-- A location leads, with nothing loaded any more, to where the schema of a position stands. -/
def Reading.Places (loader : Loader) (reading : Reading) (location : Location) (id : SchemaId) :
    Prop :=
  ∃ target, reading.library.dereference loader location = (.ok target, reading.library) ∧
    reading.catalog.find? target = some id

/-- The catalog of a description is a picture of its schemas with references followed. Each position
is that of one location, all positions that are mentioned are positions of the catalog, and each
descriptor says what the node at its location says, where the schemas below are at the positions of
the locations to which theirs lead. -/
structure Reading.Faithful (loader : Loader) (reading : Reading) : Prop where
  distinct : ∀ location other id, reading.catalog.find? location = some id →
    reading.catalog.find? other = some id → location = other
  positions : ∀ id, id < reading.catalog.size ↔
    ∃ location, reading.catalog.find? location = some id
  descriptors : ∀ id < reading.catalog.size, ∀ other ∈ (reading.catalog.descriptor id).schemas,
    other < reading.catalog.size
  description : ∀ id ∈ reading.description.allSchemas, id < reading.catalog.size
  described : ∀ location id, reading.catalog.find? location = some id →
    ∃ node, reading.library.node? location = some node ∧
      Descriptor.Describes (reading.Places loader) location node (reading.catalog.descriptor id)

/-- Whatever the references among its documents, and in whatever circles they lead, a description
that is read is read faithfully. -/
theorem faithful_of_read {loader : Loader} {base : Url} {document : Value} {reading : Reading}
    (h : read loader base document = .ok reading) : reading.Faithful loader := by
  obtain ⟨dialect, state, root, completed, library⟩ := readRoot_of_read h
  obtain ⟨sound, -, has⟩ := ensures_readRoot loader dialect base [] _ _ _ root
    (Construction.sound_empty _)
  obtain ⟨same, -⟩ := Catalog.unmerged_complete completed
  have find (location : Location) (id : SchemaId) : reading.catalog.find? location = some id ↔
      (location, id) ∈ state.catalog.index := sound.find?_completed_iff same
  have places (location : Location) (id : SchemaId) (located : state.Located location id) :
      reading.Places loader location id := by
    obtain ⟨target, leads, indexed⟩ := located
    rw [library] at leads
    exact ⟨target, leads.dereference loader, (find _ _).mpr indexed⟩
  refine ⟨?distinct, ?positions, ?descriptors, ?description, ?described⟩
  case distinct =>
    intro location other id one two
    exact sound.location_unique ((find _ _).mp one) ((find _ _).mp two)
  case positions =>
    intro id
    constructor
    · intro below
      rw [same.size] at below
      obtain ⟨location, indexed⟩ := sound.exists_location below
      exact ⟨location, (find _ _).mpr indexed⟩
    · rintro ⟨location, found⟩
      exact sound.lt_size_completed same ⟨location, (find _ _).mp found⟩
  case descriptors =>
    intro id below other member
    have listed := Catalog.mergedListed_complete completed sound.unmerged
    exact sound.lt_size_of_mem_schemas same listed below member
  case description =>
    intro id member
    exact sound.lt_size_completed same (has state (.refl state) id member)
  case described =>
    intro location id found
    obtain ⟨node, there, describes⟩ := sound.describes_completed same ((find _ _).mp found)
    rw [library] at there
    exact ⟨node, there, describes.mono places⟩

/-- A reference to the schema of trees. -/
def treeReference : Value := .object [("$ref", .string "#/components/schemas/Tree")]

/-- The schema of trees: a tree has a label, which is a text or a number, and trees below it. -/
def treeSchema : Value :=
  let label := Value.object [("oneOf", .array [
    .object [("type", .string "string")],
    .object [("type", .string "integer")]])]
  let trees := Value.object [("type", .string "array"), ("items", treeReference)]
  .object [
    ("type", .string "object"),
    ("properties", .object [("label", label), ("below", trees)]),
    ("required", .array [.string "label"])]

/-- A description of trees, which are found by their labels. -/
def treeDocument : Value :=
  let label := Value.object [("$ref", .string "#/components/schemas/Tree/properties/label")]
  let parameter := Value.object [
    ("name", .string "label"), ("in", .string "path"), ("required", .bool true), ("schema", label)]
  let found := Value.object [
    ("headers", .object [("parent", .object [("schema", label)])]),
    ("content", .object [("application/json", .object [("schema", treeReference)])])]
  let find := Value.object [
    ("parameters", .array [parameter]), ("responses", .object [("200", found)])]
  .object [
    ("openapi", .string "3.1.0"),
    ("components", .object [("schemas", .object [("Tree", treeSchema)])]),
    ("paths", .object [("/trees/\x7blabel\x7d", .object [("get", find)])])]

/-- The URL at which the description of trees stands. -/
def treeBase : Url := { (default : Url) with scheme := "http" }

/-- A loader that serves no document. -/
def noLoader : Loader := ⟨fun url => .error (.unsupportedLocation url.text), 0⟩

theorem faithful_treeDocument :
    ∃ reading, read noLoader treeBase treeDocument = .ok reading ∧ reading.Faithful noLoader ∧
      reading.catalog.size = 5 ∧ reading.description.allSchemas = [0, 1, 1, 0] := by
  obtain ⟨reading, h, facts⟩ := @exists_of_any_read noLoader treeBase treeDocument
    (fun reading => decide (reading.catalog.size = 5 ∧
      reading.description.allSchemas = [0, 1, 1, 0]))
    (by decide +kernel)
  exact ⟨reading, h, faithful_of_read h, of_decide_eq_true facts⟩

end Description

end ApiContract
