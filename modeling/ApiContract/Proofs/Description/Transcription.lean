import ApiContract.Description.Reader
import ApiContract.Proofs.Schema.Building
/-!
# Transcribed descriptions

What it means that a description holds the schemas that its documents write down. References are
followed first, so a place is given by a location that leads to an object (`Library.Shows`), and the
schema that is held is the one at a keyword of this object, or of a media type in it. Each step of
reading ensures that of what it reads, and so a description transcribes its documents
(`ensures_readRoot_transcribes`).
-/

namespace ApiContract

open Json (Value)
open Build (Ensures)

/-- The schemas of media types. -/
def MediaType.schemasOf (content : Entries MediaType) : List SchemaId :=
  content.filterMap fun entry => entry.2.schema

/-- The schemas of a response: of its headers and of its body. -/
def Response.schemas (response : Response) : List SchemaId :=
  (response.headers.filterMap fun entry => entry.2.schema) ++ MediaType.schemasOf response.content

/-- The schemas of an operation: of its parameters, of its body and of its responses. -/
def Operation.schemas (operation : Operation) : List SchemaId :=
  operation.parameters.filterMap Parameter.schema
    ++ (operation.requestBody.elim [] fun body => MediaType.schemasOf body.content)
    ++ operation.responses.flatMap fun entry => entry.2.schemas

/-- The schemas of a description: those of its operations and those among its components. -/
def Description.allSchemas (description : Description) : List SchemaId :=
  description.schemas.values ++ description.operations.flatMap Operation.schemas

/-- A location leads to another one, where an object stands. -/
def Library.Shows (library : Library) (location target : Location) (members : Entries Value) : Prop :=
  library.Leads location target ∧ library.node? target = some (.object members)

namespace Description

section Places

variable (library : Library) (located : Location → SchemaId → Prop)

/-- The schema of a media type is the one at its keyword. -/
def MediaOf (location : Location) : Value → MediaType → Prop
  | .object members, media =>
    Descriptor.NestedOf located location "schema" (Entries.get? "schema" members) media.schema
  | _, media => media.schema = none

/-- Each media type is one of those of an object. -/
def ContentOf (owner : Location) (members : Entries Value) (content : Entries MediaType) : Prop :=
  ∀ entry ∈ content, ∃ name node,
    (name, node) ∈ ((Entries.get? "content" members).bind Value.members?).getD [] ∧
      entry.1 = Text.lowerAscii name ∧
      MediaOf located ((owner.child "content").child name) node entry.2

/-- The schema of a parameter or of a header is that of its first media type, or else the one at its
keyword. -/
def SchemaOf (owner : Location) (members : Entries Value) (schema : Option SchemaId) : Prop :=
  if Entries.has "content" members then
    ∃ content, ContentOf located owner members content ∧
      schema = content.head?.bind fun entry => entry.2.schema
  else Descriptor.NestedOf located owner "schema" (Entries.get? "schema" members) schema

/-- The schema is that of the parameter or header to which a location leads. -/
def SchemaAt (location : Location) (schema : Option SchemaId) : Prop :=
  ∃ target members, library.Shows location target members ∧ SchemaOf located target members schema

/-- The media types are those of the body to which a location leads. -/
def ContentAt (location : Location) (content : Entries MediaType) : Prop :=
  ∃ target members, library.Shows location target members ∧
    ContentOf located target members content

/-- The headers and media types are those of the response to which a location leads. -/
def ResponseAt (location : Location) (response : Response) : Prop :=
  ∃ target members, library.Shows location target members ∧
    ContentOf located target members response.content ∧
    ∀ entry ∈ response.headers,
      SchemaAt library located ((target.child "headers").child entry.1) entry.2.schema

/-- The parameter is one of those that an object declares. -/
def ParameterOf (owner : Location) (p : Parameter) : Prop :=
  ∃ i : Nat, SchemaAt library located ((owner.child "parameters").child (Decimal.integerText i)) p.schema

/-- The parameters, the body and the responses are those of the operation to which a location leads,
where it shares parameters with others. -/
def OperationAt (shared : List Parameter) (location : Location) (operation : Operation) : Prop :=
  ∃ target members, library.Shows location target members ∧
    (∀ p ∈ operation.parameters, p ∈ shared ∨ ParameterOf library located target p) ∧
    (∀ body ∈ operation.requestBody,
      ContentAt library located (target.child "requestBody") body.content) ∧
    ∀ entry ∈ operation.responses,
      ResponseAt library located ((target.child "responses").child entry.1) entry.2

/-- The operation is one of those of the path item to which a location leads. -/
def PathItemAt (location : Location) (operation : Operation) : Prop :=
  ∃ target members shared method, library.Shows location target members ∧
    (∀ p ∈ shared, ParameterOf library located target p) ∧
    operation.method = Text.upperAscii method ∧
    OperationAt library located shared (target.child method) operation

/-- A description has the schemas that its documents write down, where `located` says at which
position the schema of a location is. -/
structure Transcribes (root : Location) (description : Description) : Prop where
  schemas : ∀ entry ∈ description.schemas,
    located (((root.child "components").child "schemas").child entry.1) entry.2
  operations : ∀ operation ∈ description.operations,
    PathItemAt library located ((root.child "paths").child operation.path) operation

end Places

section Located

variable {library : Library} {located : Location → SchemaId → Prop} {location owner : Location}
  {members : Entries Value} {content : Entries MediaType} {schema : Option SchemaId} {id : SchemaId}

theorem MediaOf.located_of_mem {node : Value} {media : MediaType}
    (h : MediaOf located location node media) (member : id ∈ media.schema) :
    ∃ place, located place id := by
  unfold MediaOf at h
  split at h
  · exact h.located_of_mem member
  · rw [h] at member
    cases member

theorem ContentOf.located_of_mem (h : ContentOf located owner members content)
    (member : id ∈ MediaType.schemasOf content) : ∃ place, located place id := by
  obtain ⟨entry, present, own⟩ := List.mem_filterMap.mp member
  obtain ⟨name, node, -, -, media⟩ := h entry present
  exact media.located_of_mem own

theorem SchemaOf.located_of_mem (h : SchemaOf located owner members schema) (member : id ∈ schema) :
    ∃ place, located place id := by
  unfold SchemaOf at h
  split at h
  · obtain ⟨content, media, rfl⟩ := h
    obtain ⟨entry, first, own⟩ := Option.bind_eq_some_iff.mp member
    exact media.located_of_mem (List.mem_filterMap.mpr ⟨entry, List.mem_of_mem_head? first, own⟩)
  · exact h.located_of_mem member

theorem SchemaAt.located_of_mem (h : SchemaAt library located location schema)
    (member : id ∈ schema) : ∃ place, located place id := by
  obtain ⟨target, members, -, own⟩ := h
  exact own.located_of_mem member

theorem ParameterOf.located_of_mem {p : Parameter} (h : ParameterOf library located owner p)
    (member : id ∈ p.schema) : ∃ place, located place id := by
  obtain ⟨i, own⟩ := h
  exact own.located_of_mem member

theorem ResponseAt.located_of_mem {response : Response}
    (h : ResponseAt library located location response) (member : id ∈ response.schemas) :
    ∃ place, located place id := by
  obtain ⟨target, members, -, content, headers⟩ := h
  rcases List.mem_append.mp member with member | member
  · obtain ⟨entry, present, own⟩ := List.mem_filterMap.mp member
    exact (headers entry present).located_of_mem own
  · exact content.located_of_mem member

theorem OperationAt.located_of_mem {shared : List Parameter} {operation : Operation}
    (h : OperationAt library located shared location operation)
    (others : ∀ p ∈ shared, ParameterOf library located owner p)
    (member : id ∈ operation.schemas) : ∃ place, located place id := by
  obtain ⟨target, members, -, parameters, requestBody, responses⟩ := h
  rcases List.mem_append.mp member with member | member
  · rcases List.mem_append.mp member with member | member
    · obtain ⟨p, present, own⟩ := List.mem_filterMap.mp member
      rcases parameters p present with inherited | further
      · exact (others p inherited).located_of_mem own
      · exact further.located_of_mem own
    · cases given : operation.requestBody with
      | none =>
        rw [given] at member
        cases member
      | some body =>
        rw [given] at member
        obtain ⟨_, _, -, content⟩ := requestBody body given
        exact content.located_of_mem member
  · obtain ⟨entry, present, own⟩ := List.mem_flatMap.mp member
    exact (responses entry present).located_of_mem own

/-- Each schema that a description holds stands somewhere. -/
theorem Transcribes.located_of_mem {root : Location} {description : Description}
    (h : description.Transcribes library located root) (member : id ∈ description.allSchemas) :
    ∃ place, located place id := by
  rcases List.mem_append.mp member with member | member
  · obtain ⟨entry, present, rfl⟩ := List.mem_map.mp member
    exact ⟨_, h.schemas entry present⟩
  · obtain ⟨operation, present, own⟩ := List.mem_flatMap.mp member
    obtain ⟨target, members, shared, method, -, parameters, -, there⟩ := h.operations operation present
    exact there.located_of_mem parameters own

end Located

section Reading

/-- The object that a location leads to is where it leads. -/
theorem ensures_objectAt (loader : Loader) (location : Location) :
    Ensures (objectAt loader location) fun object s => s.library.Shows location object.1 object.2 := by
  intro pending s object later run sound
  obtain ⟨target, _, followed, run⟩ := Build.exists_of_bind_eq_ok run
  obtain ⟨library, leads, rfl⟩ := Build.exists_of_withLibrary_eq_ok followed
  obtain ⟨members, _, opened, run⟩ := Build.exists_of_bind_eq_ok run
  obtain ⟨_, done, rfl⟩ := Build.exists_of_withLibrary_eq_ok opened
  obtain ⟨found, rfl⟩ := Prod.mk.inj done
  cases run
  obtain ⟨growth, leads⟩ := Library.dereference_spec leads
  have there : library.node? target = some (.object members) := by
    unfold Library.object at found
    split at found
    · cases found
    · next node =>
      cases found
      exact node
    · cases found
  refine ⟨sound.withLibrary growth, ⟨growth, List.Subset.refl _⟩, fun last after => ?_⟩
  exact ⟨(leads (by rw [there]; rfl)).mono after.library, after.library.node? there⟩

theorem ensures_ofExcept {α : Type} (result : Except DefinitionError α) :
    Ensures (Build.ofExcept result) fun _ _ => True := by
  intro pending s a later run sound
  unfold Build.ofExcept at run
  split at run
  · cases run
    exact ⟨sound, .refl s, fun _ _ => trivial⟩
  · cases run

theorem ensures_schemaOf (loader : Loader) (owner : Location) (members : Entries Value) :
    Ensures (schemaOf loader owner members) fun schema s =>
      Descriptor.NestedOf s.Located owner "schema" (Entries.get? "schema" members) schema := by
  unfold schemaOf
  split
  · next has =>
    obtain ⟨node, there⟩ := Option.isSome_iff_exists.mp has
    rw [there]
    refine .bind (Schema.ensures_buildSchema loader _) fun id => ?_
    exact .pure fun _ located => ⟨id, rfl, located⟩
  · next missing =>
    rw [Entries.has, Bool.not_eq_true, Option.isSome_eq_false_iff, Option.isNone_iff_eq_none] at missing
    rw [missing]
    exact .pure fun _ => rfl

theorem ensures_readMediaType (loader : Loader) (location : Location) (node : Value) :
    Ensures (readMediaType loader location node) fun media s =>
      MediaOf s.Located location node media := by
  unfold readMediaType
  split
  · refine .bind (ensures_schemaOf loader location _) fun schema => ?_
    exact .pure fun _ own => own
  · next other =>
    refine .pure fun _ => ?_
    unfold MediaOf
    split
    · next members => exact absurd rfl (other members)
    · rfl

theorem ensures_readContent (loader : Loader) (owner : Location) (members : Entries Value) :
    Ensures (readContent loader owner members) fun content s =>
      ContentOf s.Located owner members content := by
  simp only [readContent]
  refine .bind (Ensures.mapM_forall (Q := fun entry s => ∃ name node,
    (name, node) ∈ ((Entries.get? "content" members).bind Value.members?).getD [] ∧
      entry.1 = Text.lowerAscii name ∧
      MediaOf s.Located ((owner.child "content").child name) node entry.2) ?_) fun read => ?_
  · rintro ⟨name, node⟩ declared
    refine .bind (ensures_readMediaType loader _ node) fun media => ?_
    exact .pure fun _ own => ⟨name, node, declared, rfl, own⟩
  · refine .pure fun _ each entry member => ?_
    exact each entry (Entries.mem_of_mem_ofPairs member)

theorem ensures_readParameterSchema (loader : Loader) (location : Location)
    (members : Entries Value) :
    Ensures (readParameterSchema loader location members) fun result s =>
      SchemaOf s.Located location members result.1 := by
  unfold readParameterSchema SchemaOf
  split
  · refine .bind (ensures_readContent loader location members) fun content => ?_
    split
    · next mediaType media rest => exact .pure fun _ own => ⟨_, own, rfl⟩
    · exact .pure fun _ own => ⟨_, own, rfl⟩
  · refine .bind (ensures_schemaOf loader location members) fun schema => ?_
    exact .pure fun _ own => own

theorem ensures_readParameter (loader : Loader) (location : Location) :
    Ensures (readParameter loader location) fun parameter s =>
      SchemaAt s.library s.Located location parameter.schema := by
  simp only [readParameter]
  refine .bind (ensures_objectAt loader location) fun object => ?_
  refine .bind (ensures_ofExcept _) fun head => ?_
  refine .bind (ensures_readParameterSchema loader _ _) fun schema => ?_
  exact .pure fun _ own _ shows => ⟨_, _, shows, own⟩

theorem ensures_readParametersAt (loader : Loader) (label : String) (read : List Parameter)
    (locations : List Location) :
    Ensures (readParametersAt loader label read locations) fun parameters s =>
      ∀ p ∈ parameters, p ∈ read ∨
        ∃ location ∈ locations, SchemaAt s.library s.Located location p.schema := by
  induction locations generalizing read with
  | nil => exact .pure fun _ p member => .inl member
  | cons location rest ih =>
    rw [readParametersAt]
    refine .bind (ensures_readParameter loader location) fun parameter => ?_
    split
    · exact .fail _
    · refine (ih (read ++ [parameter])).mono fun parameters s all own p member => ?_
      rcases all p member with before | ⟨place, later, there⟩
      · rcases List.mem_append.mp before with before | present
        · exact .inl before
        · rw [List.mem_singleton.mp present]
          exact .inr ⟨location, List.mem_cons_self, own⟩
      · exact .inr ⟨place, List.mem_cons_of_mem _ later, there⟩

theorem ensures_readParameters (loader : Loader) (owner : Location) (members : Entries Value)
    (label : String) :
    Ensures (readParameters loader owner members label) fun parameters s =>
      ∀ p ∈ parameters, ParameterOf s.library s.Located owner p := by
  refine (ensures_readParametersAt loader label [] _).mono fun parameters s all p member => ?_
  rcases all p member with none | ⟨location, among, there⟩
  · cases none
  · obtain ⟨i, -, rfl⟩ := List.mem_map.mp among
    exact ⟨i, there⟩

theorem mem_of_mem_effectiveParameters {shared own : List Parameter} {p : Parameter}
    (h : p ∈ effectiveParameters shared own) : p ∈ shared ∨ p ∈ own := by
  rcases List.mem_append.mp h with inherited | further
  · obtain ⟨q, member, rfl⟩ := List.mem_map.mp inherited
    cases found : own.find? (sameParameter q) with
    | none => exact .inl member
    | some r => exact .inr (List.mem_of_find?_eq_some found)
  · exact .inr (List.mem_filter.mp further).1

theorem ensures_readRequestBody (loader : Loader) (location : Location) :
    Ensures (readRequestBody loader location) fun body s =>
      ContentAt s.library s.Located location body.content := by
  simp only [readRequestBody]
  refine .bind (ensures_objectAt loader location) fun object => ?_
  refine .bind (ensures_readContent loader _ _) fun content => ?_
  exact .pure fun _ own shows => ⟨_, _, shows, own⟩

theorem ensures_readHeader (loader : Loader) (location : Location) :
    Ensures (readHeader loader location) fun header s =>
      SchemaAt s.library s.Located location header.schema := by
  simp only [readHeader]
  refine .bind (ensures_objectAt loader location) fun object => ?_
  refine .bind (ensures_readParameterSchema loader _ _) fun schema => ?_
  exact .pure fun _ own shows => ⟨_, _, shows, own⟩

theorem ensures_readResponse (loader : Loader) (location : Location) :
    Ensures (readResponse loader location) fun response s =>
      ResponseAt s.library s.Located location response := by
  simp only [readResponse]
  refine .bind (ensures_objectAt loader location) fun object => ?_
  refine .bind (Ensures.mapM_forall (Q := fun entry s => SchemaAt s.library s.Located
    ((object.1.child "headers").child entry.1) entry.2.schema) ?_) fun headers => ?_
  · intro name _
    refine .bind (ensures_readHeader loader _) fun header => ?_
    exact .pure fun _ own => own
  refine .bind (Ensures.mapM_forall (Q := fun _ _ => True) ?_) fun links => ?_
  · intro name _
    refine .bind (ensures_objectAt loader _) fun link => ?_
    refine .bind (ensures_ofExcept _) fun read => ?_
    exact .pure fun _ _ _ => trivial
  refine .bind (ensures_readContent loader _ _) fun content => ?_
  exact .pure fun _ ofContent _ ofHeaders shows => ⟨_, _, shows, ofContent, ofHeaders⟩

theorem ensures_readOperation (loader : Loader) (path method : String) (shared : List Parameter)
    (servers : List Server) (location : Location) :
    Ensures (readOperation loader path method shared servers location) fun operation s =>
      operation.path = path ∧ operation.method = Text.upperAscii method ∧
        OperationAt s.library s.Located shared location operation := by
  simp only [readOperation]
  refine .bind (ensures_objectAt loader location) fun object => ?_
  refine .bind (ensures_readParameters loader _ _ _) fun own => ?_
  refine .bind (ensures_ofExcept _) fun _ => ?_
  refine .bindEither (P := fun body s => ∀ declared ∈ body,
    ContentAt s.library s.Located (object.1.child "requestBody") declared.content)
    ?_ ?_ fun requestBody => ?_
  · refine .map some ((ensures_readRequestBody loader _).mono ?_)
    intro body s there declared member
    cases member
    exact there
  · exact .pure fun _ declared member => nomatch member
  refine .bind (Ensures.mapM_forall (Q := fun entry s => ResponseAt s.library s.Located
    ((object.1.child "responses").child entry.1) entry.2) ?_) fun responses => ?_
  · intro code _
    refine .bind (ensures_readResponse loader _) fun response => ?_
    exact .pure fun _ there => there
  refine .bind (ensures_ofExcept _) fun security => ?_
  refine .bind (ensures_ofExcept _) fun ownServers => ?_
  refine .pure fun s _ _ ofResponses ofBody _ ofOwn shows =>
    ⟨rfl, rfl, _, _, shows, ?_, ofBody, ofResponses⟩
  intro p member
  rcases mem_of_mem_effectiveParameters member with inherited | further
  · exact .inl inherited
  · exact .inr (ofOwn p further)

theorem ensures_readPathItem (loader : Loader) (servers : List Server) (path : String)
    (location : Location) :
    Ensures (readPathItem loader servers path location) fun operations s =>
      ∀ operation ∈ operations, operation.path = path ∧
        PathItemAt s.library s.Located location operation := by
  simp only [readPathItem]
  refine .bind (ensures_objectAt loader location) fun object => ?_
  refine .bind (ensures_readParameters loader _ _ _) fun shared => ?_
  refine .bind (ensures_ofExcept _) fun ownServers => ?_
  refine (Ensures.mapM_forall (Q := fun operation s => operation.path = path ∧ ∃ method,
    operation.method = Text.upperAscii method ∧
      OperationAt s.library s.Located shared (object.1.child method) operation)
    fun method _ => ?_).mono ?_
  · refine (ensures_readOperation loader path method shared _ _).mono ?_
    intro operation s there
    exact ⟨there.1, method, there.2⟩
  · intro operations s all _ ofShared shows operation member
    obtain ⟨own, method, named, there⟩ := all operation member
    exact ⟨own, _, _, shared, method, shows, ofShared, named, there⟩

/-- A description that is read transcribes its documents. -/
theorem ensures_readRoot_transcribes (loader : Loader) (dialect : Dialect) (base : Url) :
    Ensures (readRoot loader dialect base) fun description s =>
      description.Transcribes s.library s.Located (Location.root base.withoutFragment) := by
  simp only [readRoot]
  refine .bind (.object _) fun members => ?_
  refine .bind (Ensures.mapM_forall (Q := fun entry s => s.Located
    ((((Location.root base.withoutFragment).child "components").child "schemas").child entry.1)
    entry.2) ?_) fun schemas => ?_
  · intro name _
    refine .bind (Schema.ensures_buildSchema loader _) fun id => ?_
    exact .pure fun _ there => there
  refine .bind (Ensures.mapM_forall (Q := fun _ _ => True) ?_) fun securitySchemes => ?_
  · intro name _
    refine .bind (ensures_objectAt loader _) fun object => ?_
    refine .bind (ensures_ofExcept _) fun scheme => ?_
    exact .pure fun _ _ _ => trivial
  refine .bind (ensures_ofExcept _) fun security => ?_
  refine .bind (ensures_ofExcept _) fun ownServers => ?_
  refine .bind (Ensures.mapM_forall (Q := fun operations s => ∀ operation ∈ operations,
    PathItemAt s.library s.Located
      (((Location.root base.withoutFragment).child "paths").child operation.path) operation)
    fun path _ => ?_) fun operations => ?_
  · refine (ensures_readPathItem loader _ path _).mono ?_
    intro operations s all operation member
    obtain ⟨own, there⟩ := all operation member
    rwa [own]
  refine .bind (ensures_ofExcept _) fun _ => ?_
  refine .pure fun s _ ofOperations _ _ _ ofSchemas _ => ⟨ofSchemas, ?_⟩
  intro operation member
  obtain ⟨read, among, present⟩ := List.mem_flatten.mp member
  exact ofOperations read among operation present

end Reading

end Description

end ApiContract
