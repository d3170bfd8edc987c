import ApiContract.Proofs.Description.Sharing
import ApiContract.Proofs.Description.WellFormed
/-!
# Where operations and responses stand

An operation of a description stands under a key of the path item of its path, and each of its
responses under its code (`Library.StandsAt`, `Library.Answers`). What reading a response ensures holds
of all responses of a description that is read, at their places (`ensures_readRoot_responses`).
-/

namespace ApiContract

open Json (Value)
open Build (Ensures)

/-- An operation stands at a location, under a key of the path item to which its path leads. -/
def Library.StandsAt (library : Library) (root : Location) (operation : Operation) (key : String)
    (location : Location) : Prop :=
  key ∈ operationMethods ∧ operation.method = Text.upperAscii key ∧
    ∃ item members, library.Shows ((root.child "paths").child operation.path) item members ∧
      Entries.has key members = true ∧ location = item.child key

/-- A response of an operation stands at a location, under its code. -/
def Library.Answers (library : Library) (root : Location) (operation : Operation) (code : String)
    (location : Location) : Prop :=
  ∃ key site target members, library.StandsAt root operation key site ∧
    library.Shows site target members ∧ location = (target.child "responses").child code

section Places

variable {library : Library} {root location other target target' : Location} {operation : Operation}
  {key key' code : String} {members members' : Entries Value}

theorem Library.Leads.unique (h : library.Leads location target)
    (h' : library.Leads location target') : target = target' := by
  obtain ⟨node, there, leads⟩ := h
  obtain ⟨_, there', leads'⟩ := h'
  obtain rfl := Option.some.inj (there.symm.trans there')
  cases found : Library.reference? node with
  | none =>
    rw [found] at leads leads'
    exact leads.trans leads'.symm
  | some reference =>
    rw [found] at leads leads'
    obtain ⟨absolute, joined, known⟩ := leads
    obtain ⟨_, joined', known'⟩ := leads'
    obtain rfl := Except.ok.inj (joined.symm.trans joined')
    exact Option.some.inj (known.symm.trans known')

theorem Library.Shows.unique (h : library.Shows location target members)
    (h' : library.Shows location target' members') : target = target' ∧ members = members' := by
  obtain rfl := h.1.unique h'.1
  exact ⟨rfl, Value.object.inj (Option.some.inj (h.2.symm.trans h'.2))⟩

/-- An object that is no reference stands where it is. -/
theorem Library.shows_self (there : library.node? location = some (.object members))
    (plain : Library.reference? (.object members) = none) :
    library.Shows location location members :=
  ⟨⟨_, there, by rw [plain]⟩, there⟩

theorem Library.StandsAt.unique (h : library.StandsAt root operation key location)
    (h' : library.StandsAt root operation key' other) : key = key' ∧ location = other := by
  obtain ⟨known, named, item, members, shows, -, rfl⟩ := h
  obtain ⟨known', named', item', members', shows', -, rfl⟩ := h'
  obtain rfl := List.inj_on_of_nodup_map Description.nodup_operationMethods known known'
    (named.symm.trans named')
  obtain ⟨rfl, -⟩ := shows.unique shows'
  exact ⟨rfl, rfl⟩

theorem Library.Answers.unique (h : library.Answers root operation code location)
    (h' : library.Answers root operation code other) : location = other := by
  obtain ⟨key, site, target, members, stands, shows, rfl⟩ := h
  obtain ⟨key', site', target', members', stands', shows', rfl⟩ := h'
  obtain ⟨rfl, rfl⟩ := stands.unique stands'
  obtain ⟨rfl, -⟩ := shows.unique shows'
  rfl

end Places

namespace Description

variable {loader : Loader} {P : Location → Response → Construction → Prop}

theorem ensures_readOperation_responses
    (each : ∀ location, Ensures (readResponse loader location) (P location))
    (path method : String) (shared : List Parameter) (servers : List Server) (location : Location) :
    Ensures (readOperation loader path method shared servers location) fun operation s =>
      operation.path = path ∧ operation.method = Text.upperAscii method ∧
        ∃ target members, s.library.Shows location target members ∧
          ∀ entry ∈ operation.responses, P ((target.child "responses").child entry.1) entry.2 s := by
  simp only [readOperation]
  refine .bind (ensures_objectAt loader location) fun object => ?_
  refine .bind (ensures_readParameters loader _ _ _) fun own => ?_
  refine .bind (ensures_ofExcept _) fun _ => ?_
  refine .bindEither (P := fun _ _ => True) ?_ ?_ fun requestBody => ?_
  · exact .map some ((ensures_readRequestBody loader _).mono fun _ _ _ => trivial)
  · exact .pure fun _ => trivial
  refine .bind (Ensures.mapM_forall (Q := fun entry s =>
    P ((object.1.child "responses").child entry.1) entry.2 s) fun code _ => ?_) fun responses => ?_
  · refine .bind (each _) fun response => ?_
    exact .pure fun _ there => there
  refine .bind (ensures_ofExcept _) fun security => ?_
  refine .bind (ensures_ofExcept _) fun ownServers => ?_
  exact .pure fun s _ _ ofResponses _ _ _ shows => ⟨rfl, rfl, _, _, shows, ofResponses⟩

theorem ensures_readPathItem_responses
    (each : ∀ location, Ensures (readResponse loader location) (P location))
    (servers : List Server) (path : String) (location : Location) :
    Ensures (readPathItem loader servers path location) fun operations s =>
      ∀ operation ∈ operations, operation.path = path ∧
        ∃ key item members, key ∈ operationMethods ∧ operation.method = Text.upperAscii key ∧
          s.library.Shows location item members ∧ Entries.has key members = true ∧
          ∃ target members', s.library.Shows (item.child key) target members' ∧
            ∀ entry ∈ operation.responses,
              P ((target.child "responses").child entry.1) entry.2 s := by
  simp only [readPathItem]
  refine .bind (ensures_objectAt loader location) fun object => ?_
  refine .bind (ensures_readParameters loader _ _ _) fun shared => ?_
  refine .bind (ensures_ofExcept _) fun ownServers => ?_
  refine (Ensures.mapM_forall (Q := fun operation s => operation.path = path ∧
    ∃ key, key ∈ operationMethods ∧ Entries.has key object.2 = true ∧
      operation.method = Text.upperAscii key ∧
      ∃ target members', s.library.Shows (object.1.child key) target members' ∧
        ∀ entry ∈ operation.responses, P ((target.child "responses").child entry.1) entry.2 s)
    fun key listed => ?_).mono ?_
  · obtain ⟨known, has⟩ := List.mem_filter.mp listed
    refine (ensures_readOperation_responses each path key shared _ _).mono ?_
    rintro operation s ⟨own, named, there⟩
    exact ⟨own, key, known, has, named, there⟩
  · intro operations s all _ _ shows operation member
    obtain ⟨own, key, known, has, named, there⟩ := all operation member
    exact ⟨own, key, _, _, known, named, shows, has, there⟩

/-- What reading a response ensures holds of every response of the description, at its place. -/
theorem ensures_readRoot_responses
    (each : ∀ location, Ensures (readResponse loader location) (P location))
    (dialect : Dialect) (base : Url) :
    Ensures (readRoot loader dialect base) fun description s =>
      ∀ operation ∈ description.operations,
        ∃ key site target members,
          s.library.StandsAt (Location.root base.withoutFragment) operation key site ∧
          s.library.Shows site target members ∧
          ∀ entry ∈ operation.responses,
            P ((target.child "responses").child entry.1) entry.2 s := by
  simp only [readRoot]
  refine .bind (.object _) fun members => ?_
  refine .bind (Ensures.mapM_forall (Q := fun _ _ => True) ?_) fun schemas => ?_
  · intro name _
    refine .bind (Schema.ensures_buildSchema loader _) fun id => ?_
    exact .pure fun _ _ => trivial
  refine .bind (Ensures.mapM_forall (Q := fun _ _ => True) ?_) fun securitySchemes => ?_
  · intro name _
    refine .bind (ensures_objectAt loader _) fun object => ?_
    refine .bind (ensures_ofExcept _) fun scheme => ?_
    exact .pure fun _ _ _ => trivial
  refine .bind (ensures_ofExcept _) fun security => ?_
  refine .bind (ensures_ofExcept _) fun ownServers => ?_
  refine .bind (Ensures.mapM_forall (Q := fun operations s => ∀ operation ∈ operations,
    ∃ key site target members,
      s.library.StandsAt (Location.root base.withoutFragment) operation key site ∧
      s.library.Shows site target members ∧
      ∀ entry ∈ operation.responses, P ((target.child "responses").child entry.1) entry.2 s)
    fun path _ => ?_) fun operations => ?_
  · refine (ensures_readPathItem_responses each _ path _).mono ?_
    intro operations s all operation member
    obtain ⟨own, key, item, members, known, named, shows, has, target, members', shows', there⟩ :=
      all operation member
    rw [← own] at shows
    exact ⟨key, _, target, members', ⟨known, named, item, members, shows, has, rfl⟩, shows', there⟩
  refine .bind (ensures_ofExcept _) fun _ => ?_
  refine .pure fun s _ ofOperations _ _ _ _ _ operation member => ?_
  obtain ⟨read, among, present⟩ := List.mem_flatten.mp member
  exact ofOperations read among operation present

variable {base : Url} {document : Value} {reading : Reading}

/-- What stands in the document of a description that is read stands in its library. -/
theorem node?_of_read (h : read loader base document = .ok reading) {location : Location} {node : Value}
    (there : (Library.ofRoot base document).node? location = some node) :
    reading.library.node? location = some node := by
  obtain ⟨dialect, state, root, -, library⟩ := readRoot_of_read h
  obtain ⟨-, growth, -⟩ := ensures_readRoot_transcribes loader dialect base [] _ _ _ root
    (Construction.sound_empty _)
  exact library ▸ growth.library.node? there

/-- What reading a response ensures holds of every response of a description that is read. -/
theorem responses_of_read
    (each : ∀ location, Ensures (readResponse loader location) (P location))
    (h : read loader base document = .ok reading) :
    ∃ state : Construction, state.library = reading.library ∧
      state.Located = reading.Places loader ∧
      ∀ operation ∈ reading.description.operations, ∀ entry ∈ operation.responses,
        ∃ location, reading.library.Answers (Location.root base.withoutFragment) operation entry.1
          location ∧ P location entry.2 state := by
  obtain ⟨dialect, state, root, completed, library⟩ := readRoot_of_read h
  obtain ⟨sound, -, holds⟩ := ensures_readRoot_responses each dialect base [] _ _ _ root
    (Construction.sound_empty _)
  have same := (Catalog.unmerged_complete completed).1
  refine ⟨state, library, located_eq_places sound same library, ?_⟩
  intro operation declared entry listed
  obtain ⟨key, site, target, members, stands, shows, there⟩ :=
    holds state (.refl state) operation declared
  rw [library] at stands shows
  exact ⟨_, ⟨key, site, target, members, stands, shows, rfl⟩, there entry listed⟩

/-- Every operation of a description that is read stands under a key of a path item. -/
theorem exists_standsAt (h : read loader base document = .ok reading) {operation : Operation}
    (declared : operation ∈ reading.description.operations) :
    ∃ key site, reading.library.StandsAt (Location.root base.withoutFragment) operation key site := by
  have nothing (location : Location) : Ensures (readResponse loader location) fun _ _ => True :=
    (ensures_readResponse loader location).mono fun _ _ _ => trivial
  obtain ⟨dialect, state, root, -, library⟩ := readRoot_of_read h
  obtain ⟨-, -, holds⟩ := ensures_readRoot_responses nothing dialect base [] _ _ _ root
    (Construction.sound_empty _)
  obtain ⟨key, site, -, -, stands, -⟩ := holds state (.refl state) operation declared
  exact ⟨key, site, library ▸ stands⟩

end Description

end ApiContract
