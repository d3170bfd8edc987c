import ApiContract.Proofs.Description.Fidelity
import ApiContract.Proofs.Json.Sameness
import ApiContract.Proofs.RelatedLists
/-!
# Well-formed descriptions

What a session may rely on in a description that has been read: look-ups find the operations,
parameters are told apart by their names and locations and fit the path, styles can be written where
they are declared, and whatever is named is declared (`Description.WellFormed`). The checks behind
this are made at different times, by parameter, by list of parameters, by operation, by list of
servers and at the end. So each reader yields what it has checked itself (`Build.Yields`), and
`wellFormed_of_read` puts this together.
-/

namespace ApiContract

open Json (Value)

/-- Every placeholder of the server's URL has a variable with a default. -/
def Server.Complete (server : Server) : Prop :=
  ∀ name ∈ Template.names server.url, ∃ declared,
    Entries.get? name server.placeholders = some declared ∧ declared.default.isSome = true

/-- A server as it is read: its variables have different names, and it is complete. -/
structure Server.Sound (server : Server) : Prop where
  complete : server.Complete
  distinct : server.placeholders.keys.Nodup

/-- What tells a parameter from others of its operation. -/
def Parameter.key (p : Parameter) : String × ParameterLocation := (p.name, p.location)

/-- Parameters that are told apart by their names and locations and have styles that these allow. -/
structure Parameter.WellFormed (parameters : List Parameter) : Prop where
  distinct : (parameters.map Parameter.key).Nodup
  styles : ∀ p ∈ parameters, p.location.allows p.style = true

/-- The path and the method of an operation. -/
def Operation.address (operation : Operation) : String × String := (operation.path, operation.method)

/-- An operation with parameters that fit its path and can be written, and with complete servers. -/
structure Operation.WellFormed (operation : Operation) : Prop where
  parameters : Parameter.WellFormed operation.parameters
  placeholders : ∀ name, name ∈ Template.names operation.path ↔
    ∃ p ∈ operation.parameters, p.location = .path ∧ p.name = name
  servers : ∀ server ∈ operation.servers, server.Complete

/-- A description in which operations are found where they are looked up, what is named is declared,
and operations and servers are as they should be. -/
structure Description.WellFormed (description : Description) : Prop where
  byId : ∀ operation ∈ description.operations, ∀ id, operation.operationId = some id →
    description.operationById? id = some operation
  distinct : (description.operations.map Operation.address).Nodup
  byAddress : ∀ operation ∈ description.operations,
    description.operationAt? operation.path operation.method = some operation
  operations : ∀ operation ∈ description.operations, operation.WellFormed
  security : ∀ requirements ∈
      description.operations.filterMap Operation.security ++ [description.security],
    ∀ requirement ∈ requirements, ∀ scheme ∈ requirement.keys,
      Entries.has scheme description.securitySchemes = true
  links : ∀ operation ∈ description.operations, ∀ response ∈ operation.responses.values,
    ∀ entry ∈ response.links, (description.linkTarget? entry.2).isSome = true
  servers : ∀ server ∈ description.servers, server.Complete

/-- What holds of operations and servers that are read, whatever the names in the document are. -/
structure Description.Sound (description : Description) : Prop where
  operations : ∀ operation ∈ description.operations,
    operation.WellFormed ∧ ∀ server ∈ operation.servers, server.Sound
  servers : ∀ server ∈ description.servers, server.Sound

namespace Build

variable {α β : Type} {P : α → Prop} {Q : β → Prop}

/-- Whatever a step returns has a property. -/
def Yields (step : Build α) (post : α → Prop) : Prop :=
  ∀ s a later, step s = .ok (a, later) → post a

namespace Yields

theorem any (step : Build α) : Yields step fun _ => True := fun _ _ _ _ => trivial

theorem pure {a : α} (h : P a) : Yields (Pure.pure a) P := by
  intro s b later run
  cases run
  exact h

theorem fail (error : DefinitionError) : Yields (Build.fail error) P := by
  intro s a later run
  cases run

theorem ofExcept {result : Except DefinitionError α} (h : ∀ a, result = .ok a → P a) :
    Yields (Build.ofExcept result) P := by
  intro s a later run
  unfold Build.ofExcept at run
  split at run
  · cases run
    exact h a rfl
  · cases run

/-- One step after another, which may rely on what the first returns. -/
theorem bind {x : Build α} {f : α → Build β} (first : Yields x P)
    (second : ∀ a, P a → Yields (f a) Q) : Yields (x >>= f) Q := by
  intro s b last run
  obtain ⟨a, between, run, rest⟩ := exists_of_bind_eq_ok run
  exact second a (first s a between run) between b last rest

/-- One of two steps and then another. -/
theorem bindEither {c : Prop} [Decidable c] {x y : Build α} {f : α → Build β}
    (second : ∀ a, Yields (f a) Q) : Yields (if c then x >>= f else y >>= f) Q := by
  split
  · exact (any x).bind fun a _ => second a
  · exact (any y).bind fun a _ => second a

theorem mono {x : Build α} {R : α → Prop} (h : Yields x P) (weaker : ∀ a, P a → R a) :
    Yields x R := fun s a later run => weaker a (h s a later run)

/-- A step for each element of a list. -/
theorem mapM {f : α → Build β} {R : α → β → Prop} {l : List α} (h : ∀ x ∈ l, Yields (f x) (R x)) :
    Yields (l.mapM f) fun results => List.Forall₂ R l results := by
  induction l with
  | nil =>
    rw [List.mapM_nil]
    exact .pure .nil
  | cons x rest ih =>
    rw [List.mapM_cons]
    refine .bind (h x List.mem_cons_self) fun y head => ?_
    refine .bind (ih fun other member => h other (List.mem_cons_of_mem _ member)) fun ys tail => ?_
    exact .pure (.cons head tail)

end Yields

end Build

theorem find?_eq_some_of_nodup {α β : Type} [DecidableEq β] {key : α → Option β} {l : List α}
    (distinct : (l.filterMap key).Nodup) {x : α} (member : x ∈ l) {k : β} (own : key x = some k) :
    l.find? (fun y => key y = some k) = some x := by
  induction l with
  | nil => cases member
  | cons first rest ih =>
    rw [List.find?_cons]
    rcases List.mem_cons.mp member with rfl | member
    · simp [own]
    · have further : k ∈ rest.filterMap key := List.mem_filterMap.mpr ⟨x, member, own⟩
      cases found : key first with
      | none =>
        rw [List.filterMap_cons_none found] at distinct
        simpa using ih distinct member
      | some other =>
        rw [List.filterMap_cons_some found] at distinct
        obtain ⟨fresh, distinct⟩ := List.nodup_cons.mp distinct
        have different : other ≠ k := fun same => fresh (same ▸ further)
        simpa [different] using ih distinct member

namespace Description

open Build (Yields)

variable {loader : Loader} {location : Location} {members : Entries Value}

theorem sameParameter_iff {p q : Parameter} : sameParameter p q = true ↔ p.key = q.key := by
  simp [sameParameter, Parameter.key]

/-! ### Servers -/

theorem complete_root : Server.root.Complete := by
  have none : Template.names Server.root.url = [] := by decide +kernel
  simp [Server.Complete, none]

theorem sound_root : Server.root.Sound := ⟨complete_root, List.nodup_nil⟩

theorem sound_of_readServer {node : Value} {server : Server}
    (h : readServer location node = .ok server) : server.Sound := by
  unfold readServer at h
  split at h
  · cases h
  next url _ =>
  simp only [] at h
  split at h
  · next complete =>
    cases h
    rw [List.isEmpty_iff, List.filter_eq_nil_iff] at complete
    refine ⟨fun name placeholder => ?_, Entries.nodup_keys_ofPairs _⟩
    have := complete name placeholder
    rw [Option.isNone_iff_eq_none, ← ne_eq, Option.ne_none_iff_exists'] at this
    obtain ⟨text, found⟩ := this
    obtain ⟨declared, there, default⟩ := Option.bind_eq_some_iff.mp found
    exact ⟨declared, there, by rw [default]; rfl⟩
  · cases h

theorem forall_mem_of_mapM {α β ε : Type} {f : α → Except ε β} {P : β → Prop}
    (each : ∀ x y, f x = .ok y → P y) {l : List α} {results : List β}
    (h : l.mapM f = .ok results) : ∀ y ∈ results, P y := by
  induction l generalizing results with
  | nil =>
    cases h
    simp
  | cons x rest ih =>
    rw [List.mapM_cons] at h
    cases first : f x with
    | error e =>
      rw [first] at h
      cases h
    | ok y =>
      cases others : rest.mapM f with
      | error e =>
        rw [first, others] at h
        cases h
      | ok ys =>
        rw [first, others] at h
        cases h
        exact List.forall_mem_cons.mpr ⟨each x y first, ih others⟩

theorem sound_of_readServers {servers : List Server}
    (h : readServers location members = .ok (some servers)) :
    ∀ server ∈ servers, server.Sound := by
  unfold readServers at h
  simp only [] at h
  split at h
  · cases h
  · cases h
  · next nodes _ _ =>
    cases read : nodes.mapM (readServer (location.child "servers")) with
    | error e =>
      rw [read] at h
      cases h
    | ok servers =>
      rw [read] at h
      cases h
      exact forall_mem_of_mapM (fun _ _ => sound_of_readServer) read
  · cases h

/-! ### Parameters -/

theorem allows_of_readParameterHead {name : String} {at_ : ParameterLocation} {style : ParameterStyle}
    (h : readParameterHead location members = .ok (name, at_, style)) : at_.allows style = true := by
  unfold readParameterHead at h
  split at h
  · cases h
  · cases h
  · next parameterLocation _ _ =>
    cases read : readStyle location parameterLocation (textOf? members "style") with
    | error e =>
      rw [read] at h
      cases h
    | ok declared =>
      simp only [read, Except.bind] at h
      split at h
      · next allowed =>
        cases h
        exact allowed
      · cases h

theorem yields_readParameter (loader : Loader) (location : Location) :
    Yields (readParameter loader location) fun p => p.location.allows p.style = true := by
  simp only [readParameter]
  refine .bind (.any _) fun object _ => ?_
  refine .bind (.ofExcept fun head read => allows_of_readParameterHead read) fun head allowed => ?_
  refine .bind (.any _) fun schema _ => ?_
  exact .pure allowed

theorem any_sameParameter_iff {read : List Parameter} {p : Parameter} :
    read.any (sameParameter p) = true ↔ p.key ∈ read.map Parameter.key := by
  simp only [List.any_eq_true, sameParameter_iff, List.mem_map]
  exact exists_congr fun q => and_congr_right fun _ => eq_comm

theorem nodup_append_of_fresh {read : List Parameter} {p : Parameter}
    (before : (read.map Parameter.key).Nodup) (fresh : ¬ read.any (sameParameter p) = true) :
    ((read ++ [p]).map Parameter.key).Nodup := by
  rw [any_sameParameter_iff] at fresh
  rw [List.map_append, List.nodup_append]
  refine ⟨before, List.nodup_singleton _, ?_⟩
  rintro _ known _ own rfl
  exact fresh (List.mem_singleton.mp own ▸ known)

/-- A list of parameters stays well-formed as long as none comes twice. -/
theorem yields_readParametersAt (loader : Loader) (label : String) {read : List Parameter}
    (before : Parameter.WellFormed read) (locations : List Location) :
    Yields (readParametersAt loader label read locations) Parameter.WellFormed := by
  induction locations generalizing read with
  | nil => exact .pure before
  | cons location rest ih =>
    rw [readParametersAt]
    refine .bind (yields_readParameter loader location) fun p allowed => ?_
    split
    · exact .fail _
    · next fresh =>
      refine ih ⟨nodup_append_of_fresh before.distinct fresh, ?_⟩
      rw [List.forall_mem_append]
      exact ⟨before.styles, by simpa using allowed⟩

theorem yields_readParameters (loader : Loader) (owner : Location) (members : Entries Value)
    (label : String) :
    Yields (readParameters loader owner members label) Parameter.WellFormed :=
  yields_readParametersAt loader label ⟨by simp, by simp⟩ _

theorem key_getD_find? (own : List Parameter) (p : Parameter) :
    ((own.find? (sameParameter p)).getD p).key = p.key := by
  cases found : own.find? (sameParameter p) with
  | none => rfl
  | some q => exact (sameParameter_iff.mp (List.find?_some found)).symm

theorem map_key_effectiveParameters (shared own : List Parameter) :
    (effectiveParameters shared own).map Parameter.key =
      shared.map Parameter.key ++
        (own.map Parameter.key).filter fun pair => pair ∉ shared.map Parameter.key := by
  have inherited : ((shared.map fun p => (own.find? (sameParameter p)).getD p).map Parameter.key) =
      shared.map Parameter.key := by
    rw [List.map_map]
    exact List.map_congr_left fun p _ => key_getD_find? own p
  rw [effectiveParameters, List.map_append, inherited, List.filter_map]
  congr 2
  refine List.filter_congr fun p _ => ?_
  -- A parameter is new where its pair is none of the pairs of the path item.
  rw [Function.comp_apply, ← inherited, Bool.eq_iff_iff, decide_eq_true_eq, Bool.not_eq_true',
    ← Bool.not_eq_true, any_sameParameter_iff]

theorem nodup_map_key_effectiveParameters {shared own : List Parameter}
    (ofShared : (shared.map Parameter.key).Nodup) (ofOwn : (own.map Parameter.key).Nodup) :
    ((effectiveParameters shared own).map Parameter.key).Nodup := by
  rw [map_key_effectiveParameters]
  refine List.nodup_append.mpr ⟨ofShared, ofOwn.filter _, ?_⟩
  rintro pair inherited _ further rfl
  exact of_decide_eq_true (List.mem_filter.mp further).2 inherited

/-- Parameters of a path item and of an operation together are well-formed as each of the two are. -/
theorem wellFormed_effectiveParameters {shared own : List Parameter}
    (ofShared : Parameter.WellFormed shared) (ofOwn : Parameter.WellFormed own) :
    Parameter.WellFormed (effectiveParameters shared own) where
  distinct := nodup_map_key_effectiveParameters ofShared.distinct ofOwn.distinct
  styles p member := by
    rcases mem_of_mem_effectiveParameters member with member | member
    · exact ofShared.styles p member
    · exact ofOwn.styles p member

/-- The names of the parameters in the path are those of its placeholders. -/
theorem placeholders_of_checkParameterNames {label path : String} {parameters : List Parameter}
    (h : checkParameterNames label path parameters = .ok ()) (name : String) :
    name ∈ Template.names path ↔ ∃ p ∈ parameters, p.location = .path ∧ p.name = name := by
  have inPath : name ∈ (parameters.filter fun p => p.location == .path).map Parameter.name ↔
      ∃ p ∈ parameters, p.location = .path ∧ p.name = name := by
    simp [and_assoc]
  rw [← inPath]
  unfold checkParameterNames at h
  simp only [] at h
  split at h
  · cases h
  split at h
  · cases h
  next noStray =>
  split at h
  · cases h
  next allBound =>
  constructor
  · intro placeholder
    simpa [and_assoc] using List.find?_eq_none.mp allBound name placeholder
  · intro own
    simpa using List.find?_eq_none.mp noStray name own

/-! ### Operations -/

theorem yields_readOperation (loader : Loader) (path method : String) {shared : List Parameter}
    {servers : List Server} (location : Location) (parameters : Parameter.WellFormed shared)
    (sound : ∀ server ∈ servers, server.Sound) :
    Yields (readOperation loader path method shared servers location) fun operation =>
      operation.address = (path, Text.upperAscii method) ∧
        operation.WellFormed ∧ ∀ server ∈ operation.servers, server.Sound := by
  simp only [readOperation]
  refine .bind (.any _) fun object _ => ?_
  refine .bind (yields_readParameters loader _ _ _) fun own ofOwn => ?_
  refine .bind (.ofExcept fun _ checked => placeholders_of_checkParameterNames checked)
    fun _ placeholders => ?_
  refine .bindEither fun requestBody => ?_
  refine .bind (.any _) fun responses _ => ?_
  refine .bind (.any _) fun security _ => ?_
  refine .bind (P := fun declared => ∀ own ∈ declared, ∀ server ∈ own, server.Sound)
    (.ofExcept ?_) fun declared ofDeclared => ?_
  · rintro _ read own rfl
    exact sound_of_readServers read
  have ofServers : ∀ server ∈ declared.getD servers, server.Sound := by
    cases declared with
    | none => exact sound
    | some own => exact ofDeclared own rfl
  exact .pure ⟨rfl, ⟨wellFormed_effectiveParameters parameters ofOwn, placeholders,
    fun server member => (ofServers server member).complete⟩, ofServers⟩

/-- The methods of operations differ in more than case. -/
theorem nodup_operationMethods : (operationMethods.map Text.upperAscii).Nodup := by decide

theorem yields_readPathItem (loader : Loader) {servers : List Server} (path : String)
    (location : Location) (sound : ∀ server ∈ servers, server.Sound) :
    Yields (readPathItem loader servers path location) fun operations =>
      (operations.map Operation.address).Nodup ∧
        ∀ operation ∈ operations, operation.path = path ∧
          operation.WellFormed ∧ ∀ server ∈ operation.servers, server.Sound := by
  simp only [readPathItem]
  refine .bind (.any _) fun object _ => ?_
  refine .bind (yields_readParameters loader _ _ _) fun shared ofShared => ?_
  refine .bind (P := fun declared => ∀ own ∈ declared, ∀ server ∈ own, server.Sound)
    (.ofExcept ?_) fun declared ofDeclared => ?_
  · rintro _ read own rfl
    exact sound_of_readServers read
  have ofServers : ∀ server ∈ declared.getD servers, server.Sound := by
    cases declared with
    | none => exact sound
    | some own => exact ofDeclared own rfl
  refine (Yields.mapM fun method _ =>
    yields_readOperation loader path method _ ofShared ofServers).mono fun operations read => ⟨?_, ?_⟩
  · rw [← map_eq_map_of_forall₂ (read.imp fun _ _ holds => holds.1.symm)]
    have upper := nodup_operationMethods.sublist
      ((List.filter_sublist (p := fun method => Entries.has method object.2)).map Text.upperAscii)
    have pairs := upper.map fun _ _ (same : (path, _) = (path, _)) => (Prod.mk.inj same).2
    rwa [List.map_map] at pairs
  · intro operation member
    obtain ⟨method, -, address, good⟩ := exists_of_mem_forall₂ read member
    exact ⟨(Prod.mk.inj address).1, good⟩

theorem nodup_addresses_flatten {paths : List String} {read : List (List Operation)}
    (h : List.Forall₂ (fun path operations => (operations.map Operation.address).Nodup ∧
      ∀ operation ∈ operations, operation.path = path ∧
        operation.WellFormed ∧ ∀ server ∈ operation.servers, server.Sound) paths read)
    (distinct : paths.Nodup) : (read.flatten.map Operation.address).Nodup := by
  induction h with
  | nil => exact List.nodup_nil
  | @cons path operations paths read head tail ih =>
    obtain ⟨fresh, distinct⟩ := List.nodup_cons.mp distinct
    rw [List.flatten_cons, List.map_append, List.nodup_append]
    refine ⟨head.1, ih distinct, ?_⟩
    rintro _ own _ further rfl
    obtain ⟨one, member, rfl⟩ := List.mem_map.mp own
    obtain ⟨two, listed, same⟩ := List.mem_map.mp further
    obtain ⟨operations', item, member'⟩ := List.mem_flatten.mp listed
    obtain ⟨path', there, -, each⟩ := exists_of_mem_forall₂ tail item
    -- The paths of the two are those of their path items.
    have path_eq : two.path = one.path := congrArg Prod.fst same
    rw [(each two member').1, (head.2 one member).1] at path_eq
    exact fresh (path_eq ▸ there)

/-! ### The last checks -/

theorem nodup_ids_of_sharedId? {operations : List Operation} {seen : List String}
    (h : sharedId? seen operations = none) :
    (operations.filterMap Operation.operationId).Nodup ∧
      ∀ id ∈ operations.filterMap Operation.operationId, id ∉ seen := by
  induction operations generalizing seen with
  | nil => simp
  | cons operation rest ih =>
    rw [sharedId?] at h
    cases own : operation.operationId with
    | none =>
      rw [own] at h
      rw [List.filterMap_cons_none own]
      exact ih h
    | some id =>
      simp only [own] at h
      split at h
      · cases h
      next fresh =>
      obtain ⟨distinct, unseen⟩ := ih h
      rw [List.filterMap_cons_some own]
      refine ⟨List.nodup_cons.mpr ⟨fun again => unseen id again List.mem_cons_self, distinct⟩, ?_⟩
      refine List.forall_mem_cons.mpr ⟨by simpa using fresh, fun other member known => ?_⟩
      exact unseen other member (List.mem_cons_of_mem _ known)

variable {description : Description}

/-- What the last checks find no mistake in is well-formed, if its parts are. -/
theorem wellFormed_of_check (h : description.check = .ok ())
    (distinct : (description.operations.map Operation.address).Nodup)
    (operations : ∀ operation ∈ description.operations, operation.WellFormed)
    (servers : ∀ server ∈ description.servers, server.Complete) : description.WellFormed := by
  unfold check at h
  split at h
  · cases h
  next ids =>
  split at h
  · cases h
  next schemes =>
  split at h
  · cases h
  next links =>
  refine ⟨?byId, distinct, ?byAddress, operations, ?security, ?links, servers⟩
  case byId =>
    intro operation member id own
    exact find?_eq_some_of_nodup (nodup_ids_of_sharedId? ids).1 member own
  case byAddress =>
    intro operation member
    have found := @find?_eq_some_of_nodup _ _ _ (fun o => some (Operation.address o)) _
      (by simpa using distinct) _ member _ rfl
    rw [← found, operationAt?]
    congr 1
    funext other
    simp [Operation.address]
  case security =>
    intro requirements declared requirement member scheme named
    have := List.find?_eq_none.mp schemes scheme
      (List.mem_flatMap.mpr ⟨requirements, declared, List.mem_flatMap.mpr ⟨_, member, named⟩⟩)
    simpa using this
  case links =>
    intro operation member response listed entry link
    have := List.find?_eq_none.mp links entry
      (List.mem_flatMap.mpr ⟨response, List.mem_flatMap.mpr ⟨operation, member, listed⟩, link⟩)
    simpa [← Option.isSome_iff_ne_none] using this

theorem nodup_namesIn (h : (Value.object members).hasDistinctNames = true) (name : String) :
    (namesIn members name).Nodup := by
  unfold namesIn
  cases found : Entries.get? name members with
  | none => exact List.nodup_nil
  | some value =>
    have own := (Value.hasDistinctNames_object.mp h).2 _ (Entries.mem_of_get? found)
    cases value with
    | object inner => exact (Value.hasDistinctNames_object.mp own).1
    | _ => exact List.nodup_nil

theorem object_of_object_root {base : Url} {document : Value} {catalog : Catalog}
    {state : Construction}
    (h : Build.object (Location.root base.withoutFragment) ⟨Library.ofRoot base document, catalog⟩ =
      .ok (members, state)) : document = .object members := by
  obtain ⟨library, found, -⟩ := Build.exists_of_withLibrary_eq_ok h
  have there : (Library.ofRoot base document).node? (Location.root base.withoutFragment) =
      some document := by
    have noTokens : Json.Pointer.tokens "" = [] := by decide
    simp [Library.node?, Library.document?, Library.ofRoot, Location.root, Json.Pointer.navigate?,
      noTokens, Json.Pointer.follow?]
  obtain ⟨found, -⟩ := Prod.mk.inj found
  simp only [Library.object, there] at found
  cases document <;> cases found
  rfl

/-- What stands in a root document is sound, and well-formed where the names of every object in it are
distinct. -/
theorem sound_of_readRoot {loader : Loader} {dialect : Dialect} {base : Url} {document : Value}
    {description : Description} {state : Construction}
    (root : readRoot loader dialect base ⟨Library.ofRoot base document, .empty⟩ =
      .ok (description, state)) :
    description.Sound ∧ (document.hasDistinctNames = true → description.WellFormed) := by
  simp only [readRoot] at root
  obtain ⟨members, between, first, rest⟩ := Build.exists_of_bind_eq_ok root
  obtain rfl := object_of_object_root first
  refine (?_ : Yields _ fun description => Description.Sound description ∧
    (Value.hasDistinctNames _ = true → description.WellFormed)) _ _ _ rest
  refine .bind (.any _) fun schemas _ => ?_
  refine .bind (.any _) fun securitySchemes _ => ?_
  refine .bind (.any _) fun security _ => ?_
  refine .bind (P := fun declared => ∀ own ∈ declared, ∀ server ∈ own, server.Sound)
    (.ofExcept ?_) fun declared ofDeclared => ?_
  · rintro _ read own rfl
    exact sound_of_readServers read
  have servers : ∀ server ∈ declared.getD [Server.root], server.Sound := by
    cases declared with
    | none => simpa using sound_root
    | some own => exact ofDeclared own rfl
  refine .bind (.mapM fun path _ => yields_readPathItem loader path _ servers) fun read each => ?_
  have operations : ∀ operation ∈ read.flatten,
      operation.WellFormed ∧ ∀ server ∈ operation.servers, server.Sound := by
    intro operation member
    obtain ⟨items, item, member⟩ := List.mem_flatten.mp member
    obtain ⟨path, -, -, all⟩ := exists_of_mem_forall₂ each item
    exact (all operation member).2
  refine .bind (.ofExcept fun _ checked distinct => wellFormed_of_check checked
      (nodup_addresses_flatten each (nodup_namesIn distinct "paths"))
      (fun operation member => (operations operation member).1)
      fun server member => (servers server member).complete) fun _ wellFormed => ?_
  exact .pure ⟨⟨operations, servers⟩, wellFormed⟩

theorem sound_of_read {loader : Loader} {base : Url} {document : Value} {reading : Reading}
    (h : read loader base document = .ok reading) : reading.description.Sound := by
  obtain ⟨dialect, state, root, -, -⟩ := readRoot_of_read h
  exact (sound_of_readRoot root).1

/-- A description that is read is well-formed. The names of an object are distinct in every document
that is parsed. -/
theorem wellFormed_of_read {loader : Loader} {base : Url} {document : Value} {reading : Reading}
    (distinct : document.hasDistinctNames = true) (h : read loader base document = .ok reading) :
    reading.description.WellFormed := by
  obtain ⟨dialect, state, root, -, -⟩ := readRoot_of_read h
  exact (sound_of_readRoot root).2 distinct

/-- A description of orders: one is read or withdrawn by its number, for which the path item and the
operation declare a parameter. -/
def orderDocument : Value :=
  let number (style : String) := Value.object [
    ("name", .string "number"), ("in", .string "path"), ("required", .bool true),
    ("style", .string style)]
  let withdraw := Value.object [("operationRef", .string "#/paths/~1orders~1{number}/delete")]
  let found := Value.object [("description", .string "found"), ("links", .object [("undo", withdraw)])]
  let host := Value.object [
    ("url", .string "http://{host}/"),
    ("variables", .object [("host", .object [("default", .string "example")])])]
  .object [
    ("openapi", .string "3.1.0"),
    ("servers", .array [host]),
    ("security", .array [.object [("key", .array [])]]),
    ("components", .object [("securitySchemes", .object [
      ("key", .object [("type", .string "http"), ("scheme", .string "bearer")])])]),
    ("paths", .object [("/orders/{number}", .object [
      ("parameters", .array [number "simple"]),
      ("get", .object [
        ("operationId", .string "order"),
        ("parameters", .array [number "label"]),
        ("responses", .object [("200", found)])]),
      ("delete", .object [("responses", .object [])])])])]

theorem wellFormed_orderDocument :
    ∃ reading, read noLoader treeBase orderDocument = .ok reading ∧
      reading.description.WellFormed ∧ reading.description.operations.length = 2 := by
  obtain ⟨reading, h, facts⟩ := @exists_of_any_read noLoader treeBase orderDocument
    (fun reading => decide (reading.description.operations.length = 2)) (by decide +kernel)
  exact ⟨reading, h, wellFormed_of_read (by decide +kernel) h, of_decide_eq_true facts⟩

end Description

end ApiContract
