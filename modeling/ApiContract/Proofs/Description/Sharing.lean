import ApiContract.Proofs.Description.Fidelity
import ApiContract.Proofs.Json.Position
import ApiContract.Proofs.Schema.Denial
/-!
# Sharing of schemas

Whether schemas that are referred to more than once are described once. Positions are given to the
locations to which references lead, and a location is known by the text of its pointer. So references
to the same node share a schema exactly when they lead to it by the same text (`shares_of_read`), as
they do where they spell it plainly. A second spelling gives the node a second schema
(`spelled_twice`).
-/

namespace ApiContract

open Json (Value)
open Json.Pointer (Addresses)

namespace Library

/-- Two locations address the same node of the same document. -/
def SameNode (library : Library) (location other : Location) : Prop :=
  other.document = location.document ∧ ∃ document position,
    library.document? location.document = some document ∧
      Addresses document location.pointer position ∧ Addresses document other.pointer position

/-- A location is spelled plainly. -/
def Plain (library : Library) (location : Location) : Prop :=
  ∃ document, library.document? location.document = some document ∧
    Json.Pointer.Plain document location.pointer

variable {library : Library} {location other : Location}

/-- Locations that address the same node are the same if both are spelled plainly. -/
theorem SameNode.pointer_eq (h : library.SameNode location other) (one : library.Plain location)
    (two : library.Plain other) : location.pointer = other.pointer := by
  obtain ⟨same, document, position, loaded, here, there⟩ := h
  obtain ⟨_, found, plain⟩ := one
  obtain rfl := Option.some.inj (loaded.symm.trans found)
  obtain ⟨_, found', plain'⟩ := two
  rw [same] at found'
  obtain rfl := Option.some.inj (loaded.symm.trans found')
  exact plain.eq_of_addresses plain' here there

end Library

namespace Description

/-- A site leads to a location, with nothing loaded any more. -/
def Reading.Leads (loader : Loader) (reading : Reading) (site target : Location) : Prop :=
  reading.library.dereference loader site = (.ok target, reading.library)

/-- References share schemas by the spelling of where they lead. All schemas of a description are those
placed at the sites that its documents give for them: of the components and of parameters, bodies and
headers (`transcribes`), of the keywords of other schemas and of the tags of discriminators
(`records`), whose texts are mapped again to where they were (`again`). If two sites lead to the same
node, the same schema is placed at them exactly when the spellings are the same, and so it is when both
are plain (`once`). -/
structure Reading.Shares (loader : Loader) (base : Url) (reading : Reading) : Prop where
  transcribes : reading.description.Transcribes reading.library (reading.Places loader)
    (Location.root base.withoutFragment)
  records : ∀ location id, reading.catalog.find? location = some id →
    ∃ node, reading.library.node? location = some node ∧
      Descriptor.Records reading.library (reading.Places loader) location node
        (reading.catalog.descriptor id)
  again : ∀ location text mapped, Descriptor.MapsTo reading.library location text mapped →
    Schema.mappedLocation loader location text ⟨reading.library, reading.catalog⟩ =
      .ok (mapped, ⟨reading.library, reading.catalog⟩)
  once : ∀ site other target target' id id', reading.Places loader site id →
    reading.Places loader other id' → reading.Leads loader site target →
    reading.Leads loader other target' → reading.library.SameNode target target' →
      (id = id' ↔ target.pointer = target'.pointer) ∧
        (reading.library.Plain target → reading.library.Plain target' → id = id')

variable {loader : Loader} {base : Url} {document : Value} {reading : Reading} {state : Construction}
  {site target : Location} {id : SchemaId}

/-- The schema that is placed at a site is that of the location to which the site leads. -/
theorem find?_of_places (placed : reading.Places loader site id)
    (leads : reading.Leads loader site target) : reading.catalog.find? target = some id := by
  obtain ⟨_, followed, found⟩ := placed
  rw [Reading.Leads, followed] at leads
  cases leads
  exact found

/-- What has a position when the construction ends is placed there in the description. -/
theorem located_eq_places (sound : state.Sound [])
    (same : state.catalog.SameUnmerged reading.catalog) (library : state.library = reading.library) :
    state.Located = reading.Places loader := by
  funext site id
  apply propext
  constructor
  · rintro ⟨target, leads, indexed⟩
    rw [library] at leads
    exact ⟨target, leads.dereference loader, (sound.find?_completed_iff same).mpr indexed⟩
  · rintro ⟨target, followed, found⟩
    have indexed := (sound.find?_completed_iff same).mp found
    rw [← library] at followed
    exact ⟨target, (Library.dereference_spec followed).2 (sound.nodes _ indexed), indexed⟩

/-- A text that has been mapped to a location is mapped there again, with nothing loaded. -/
theorem mappedLocation_of_mapsTo {text : String}
    (h : Descriptor.MapsTo state.library site text target) :
    Schema.mappedLocation loader site text state = .ok (target, state) := by
  unfold Descriptor.MapsTo at h
  unfold Schema.mappedLocation
  split at h
  · next marked =>
    obtain ⟨absolute, joined, known⟩ := h
    rw [if_pos marked]
    simp only [Build.resolve, Build.withLibrary, Library.resolve, Library.stepLimit, Library.follow,
      joined, known]
    rfl
  · next plain =>
    rw [if_neg plain, h]
    rfl

/-- The construction that a description is read off. -/
theorem exists_sound_of_read (h : read loader base document = .ok reading) :
    ∃ state : Construction, state.Sound [] ∧ state.catalog.SameUnmerged reading.catalog ∧
      state.library = reading.library ∧ reading.description.Transcribes state.library state.Located
        (Location.root base.withoutFragment) := by
  obtain ⟨dialect, state, root, completed, library⟩ := readRoot_of_read h
  obtain ⟨sound, -, transcribes⟩ := ensures_readRoot_transcribes loader dialect base [] _ _ _ root
    (Construction.sound_empty _)
  exact ⟨state, sound, (Catalog.unmerged_complete completed).1, library,
    transcribes state (.refl state)⟩

/-- The descriptors of a description that is read record their nodes. -/
theorem records_of_read (h : read loader base document = .ok reading) {location : Location}
    (found : reading.catalog.find? location = some id) :
    ∃ node, reading.library.node? location = some node ∧
      Descriptor.Records reading.library (reading.Places loader) location node
        (reading.catalog.descriptor id) := by
  obtain ⟨state, sound, same, library, -⟩ := exists_sound_of_read h
  rw [← library, ← located_eq_places sound same library]
  exact sound.records_completed same ((sound.find?_completed_iff same).mp found)

/-- The schema of a property is placed where the property stands. -/
theorem places_of_mem_properties (h : read loader base document = .ok reading) {location : Location}
    (found : reading.catalog.find? location = some id) {entry : String × SchemaId}
    (member : entry ∈ (reading.catalog.descriptor id).properties) :
    reading.Places loader ((location.child "properties").child entry.1) entry.2 := by
  obtain ⟨node, -, describes, -⟩ := records_of_read h found
  unfold Descriptor.Describes at describes
  split at describes
  · rw [describes] at member
    cases member
  · exact describes.properties.2 entry member
  · exact describes.elim

/-- The reference of a property leads to what following it gives, since all that it needs is loaded. -/
theorem leads_of_mem_properties (h : read loader base document = .ok reading) {location : Location}
    (found : reading.catalog.find? location = some id) {name : String} {part : SchemaId}
    (member : (name, part) ∈ (reading.catalog.descriptor id).properties)
    (answer : (reading.library.dereference loader
      ((location.child "properties").child name)).1.toOption = some target) :
    reading.Leads loader ((location.child "properties").child name) target := by
  obtain ⟨_, followed, -⟩ := places_of_mem_properties h found member
  rw [followed] at answer
  cases answer
  exact followed

/-- Sites that lead to the same node have the same schema if they lead there by the same pointer, and
only then. -/
theorem id_eq_iff_pointer_eq (h : read loader base document = .ok reading) {other target' : Location}
    {id' : SchemaId} (placed : reading.Places loader site id)
    (placed' : reading.Places loader other id') (leads : reading.Leads loader site target)
    (leads' : reading.Leads loader other target') (node : reading.library.SameNode target target') :
    id = id' ↔ target.pointer = target'.pointer := by
  obtain ⟨state, sound, same, -, -⟩ := exists_sound_of_read h
  have found := find?_of_places placed leads
  have found' := find?_of_places placed' leads'
  constructor
  · rintro rfl
    have unique := sound.location_unique ((sound.find?_completed_iff same).mp found)
      ((sound.find?_completed_iff same).mp found')
    rw [unique]
  · intro pointers
    obtain ⟨place, pointer⟩ := target
    obtain ⟨_, _⟩ := target'
    cases node.1
    cases pointers
    exact Option.some.inj (found.symm.trans found')

/-- References to the same node share a schema if they spell it in the same way, and only then. -/
theorem shares_of_read {loader : Loader} {base : Url} {document : Value} {reading : Reading}
    (h : read loader base document = .ok reading) : reading.Shares loader base := by
  refine ⟨?transcribes, ?records, ?again, ?once⟩
  case transcribes =>
    obtain ⟨state, sound, same, library, transcribes⟩ := exists_sound_of_read h
    rw [← library, ← located_eq_places sound same library]
    exact transcribes
  case records => exact fun _ _ found => records_of_read h found
  case again => exact fun _ _ _ maps => mappedLocation_of_mapsTo maps
  case once =>
    intro site other target target' id id' placed placed' leads leads' node
    have shared := id_eq_iff_pointer_eq h placed placed' leads leads' node
    exact ⟨shared, fun plain plain' => shared.mpr (node.pointer_eq plain plain')⟩

/-- A description of owners of cats, which refers to the schema of cats by three spellings: the plain
one, one with a character encoded, and one without the first slash. -/
def ownerOfCats : Value :=
  schemasDocument [
    ("Owner", .object [("properties", .object [
      ("cat", componentReference "Cat"),
      ("kitten", componentReference "%43at"),
      ("pet", .object [("$ref", .string "#components/schemas/Cat")])])]),
    ("Cat", .object [("type", .string "object")])]

theorem shares_ownerOfCats :
    ∃ reading, read noLoader treeBase ownerOfCats = .ok reading ∧ reading.Shares noLoader treeBase ∧
      (reading.catalog.descriptor 0).properties = [("cat", 1), ("kitten", 1), ("pet", 2)] := by
  obtain ⟨reading, h, facts⟩ := @exists_of_any_read noLoader treeBase ownerOfCats
    (fun reading => decide ((reading.catalog.descriptor 0).properties =
      [("cat", 1), ("kitten", 1), ("pet", 2)]))
    (by decide +kernel)
  exact ⟨reading, h, shares_of_read h, of_decide_eq_true facts⟩

/-- The schema of owners. -/
def ownerSchema : Location := ⟨treeBase, "/components/schemas/Owner"⟩

/-- The schema of cats, spelled plainly. -/
def catSchema : Location := ⟨treeBase, "/components/schemas/Cat"⟩

/-- The schema of cats, spelled without the first slash. -/
def unslashedCatSchema : Location := ⟨treeBase, "components/schemas/Cat"⟩

/-- Two properties of owners lead to the node of cats, and have different schemas. -/
theorem spelled_twice :
    ∃ reading, read noLoader treeBase ownerOfCats = .ok reading ∧
      reading.catalog.find? ownerSchema = some 0 ∧
      ("cat", 1) ∈ (reading.catalog.descriptor 0).properties ∧
      ("pet", 2) ∈ (reading.catalog.descriptor 0).properties ∧
      reading.Leads noLoader ((ownerSchema.child "properties").child "cat") catSchema ∧
      reading.Leads noLoader ((ownerSchema.child "properties").child "pet") unslashedCatSchema ∧
      reading.library.SameNode catSchema unslashedCatSchema := by
  obtain ⟨reading, h, facts⟩ := @exists_of_any_read noLoader treeBase ownerOfCats
    (fun reading => decide (reading.catalog.find? ownerSchema = some 0 ∧
      ("cat", 1) ∈ (reading.catalog.descriptor 0).properties ∧
      ("pet", 2) ∈ (reading.catalog.descriptor 0).properties ∧
      (reading.library.dereference noLoader
        ((ownerSchema.child "properties").child "cat")).1.toOption = some catSchema ∧
      (reading.library.dereference noLoader
        ((ownerSchema.child "properties").child "pet")).1.toOption = some unslashedCatSchema ∧
      (reading.library.document? treeBase).any fun document =>
        decide (Addresses document catSchema.pointer [1, 0, 1] ∧
          Addresses document unslashedCatSchema.pointer [1, 0, 1])))
    (by decide +kernel)
  obtain ⟨owner, cat, pet, leads, leads', addressed⟩ := of_decide_eq_true facts
  obtain ⟨document, loaded, here⟩ := (Option.any_eq_true _ _).mp addressed
  obtain ⟨plainly, otherwise⟩ := of_decide_eq_true here
  have node : reading.library.SameNode catSchema unslashedCatSchema :=
    ⟨rfl, document, [1, 0, 1], loaded, plainly, otherwise⟩
  exact ⟨reading, h, owner, cat, pet, leads_of_mem_properties h owner cat leads,
    leads_of_mem_properties h owner pet leads', node⟩

end Description

end ApiContract
