import ApiContract.Proofs.Description.Fidelity
import ApiContract.Proofs.Reference.Finite
import ApiContract.Proofs.Schema.Descent
/-!
# Reading ends

However the references of a description lead in circles, reading it ends if the loader has finitely
many documents (`building_descends`): the schemas that it uses are built by descents to different
sites of the documents, and everything else that is read is read once.
-/

namespace ApiContract

open Json (Value)
open Construction (Regular)

namespace Description

open Build (Ends Definite)

variable {loader : Loader} {holds : Construction → Prop}

/-! ### Mistakes -/

theorem definite_readServer {location : Location} {node : Value} {e : DefinitionError}
    (h : readServer location node = .error e) : Definite e := by
  unfold readServer at h
  split at h
  · cases h
    rintro text ⟨⟩
  · simp only at h
    split at h
    · cases h
    · cases h
      rintro text ⟨⟩

theorem definite_mapM {α β : Type} {f : α → Except DefinitionError β} {l : List α}
    (definite : ∀ x ∈ l, ∀ e, f x = .error e → Definite e) {e : DefinitionError}
    (h : l.mapM f = .error e) : Definite e := by
  induction l with
  | nil => cases h
  | cons x rest ih =>
    rw [List.mapM_cons] at h
    cases first : f x with
    | error cause =>
      rw [first] at h
      cases h
      exact definite x List.mem_cons_self _ first
    | ok value =>
      rw [first] at h
      cases others : rest.mapM f with
      | error cause =>
        rw [others] at h
        cases h
        exact ih (fun y member => definite y (List.mem_cons_of_mem x member)) others
      | ok values =>
        rw [others] at h
        cases h

theorem definite_map {α β : Type} {x : Except DefinitionError α} {f : α → β}
    (definite : ∀ e, x = .error e → Definite e) {e : DefinitionError} (h : x.map f = .error e) :
    Definite e := by
  cases x with
  | error cause =>
    cases h
    exact definite _ rfl
  | ok value => cases h

theorem definite_readServers {owner : Location} {members : Entries Value} {e : DefinitionError}
    (h : readServers owner members = .error e) : Definite e := by
  simp only [readServers] at h
  split at h
  · cases h
  · cases h
  · exact definite_map (fun _ => definite_mapM fun _ _ _ => definite_readServer) h
  · cases h
    rintro text ⟨⟩

theorem definite_readSecurity {owner : Location} {members : Entries Value} {e : DefinitionError}
    (h : readSecurity owner members = .error e) : Definite e := by
  unfold readSecurity at h
  split at h
  · cases h
  · refine definite_map (fun cause failed => ?_) h
    unfold SecurityRequirement.parseList at failed
    split at failed
    · cases failed
    · cases failed
      rintro text ⟨⟩

theorem definite_parse {name : String} {members : Entries Value} {e : DefinitionError}
    (h : SecurityScheme.parse name members = .error e) : Definite e := by
  rintro text rfl
  simp only [SecurityScheme.parse] at h
  repeat' split at h
  all_goals cases h

theorem definite_readLink {name : String} {members : Entries Value} {e : DefinitionError}
    (h : readLink name members = .error e) : Definite e := by
  rintro text rfl
  simp only [readLink] at h
  split at h <;> cases h

theorem definite_readParameterHead {location : Location} {members : Entries Value}
    {e : DefinitionError} (h : readParameterHead location members = .error e) : Definite e := by
  rintro text rfl
  simp only [readParameterHead] at h
  split at h
  · cases h
  · cases h
  · next name place _ _ =>
    cases style : readStyle location place (textOf? members "style") with
    | error cause =>
      rw [style] at h
      cases h
      unfold readStyle at style
      repeat' split at style
      all_goals cases style
    | ok found =>
      rw [style, Except.bind] at h
      split at h <;> cases h

theorem definite_checkParameterNames {label path : String} {parameters : List Parameter}
    {e : DefinitionError} (h : checkParameterNames label path parameters = .error e) :
    Definite e := by
  rintro text rfl
  simp only [checkParameterNames] at h
  repeat' split at h
  all_goals cases h

theorem definite_check {description : Description} {e : DefinitionError}
    (h : description.check = .error e) : Definite e := by
  rintro text rfl
  simp only [check] at h
  repeat' split at h
  all_goals cases h

end Description

namespace Catalog

open Build (Definite)

variable {catalog : Catalog} {e : DefinitionError}

theorem definite_discriminatorError? {d : Descriptor}
    (h : catalog.discriminatorError? d = some e) : Definite e := by
  rintro text rfl
  unfold discriminatorError? at h
  split at h
  · cases h
  · split at h
    · cases h
    · split at h
      · cases h
      · obtain ⟨name, -, ambiguous⟩ := Option.map_eq_some_iff.mp h
        cases ambiguous

theorem definite_mergeMembers {location : String}
    {visit : SchemaId → Except DefinitionError MergedObject} {merged : MergedObject}
    {parts : List SchemaId} (visits : ∀ id e, visit id = .error e → Definite e)
    (h : catalog.mergeMembers location visit merged parts = .error e) : Definite e := by
  induction parts generalizing merged with
  | nil => cases h
  | cons id rest ih =>
    unfold mergeMembers at h
    split at h
    · next failed =>
      cases h
      exact visits id _ failed
    · split at h
      · cases h
        rintro text ⟨⟩
      · exact ih h

theorem definite_merge {fuel : Nat} {visiting : List SchemaId} {id : SchemaId}
    (h : catalog.merge fuel visiting id = .error e) : Definite e := by
  induction fuel generalizing visiting id e with
  | zero => cases h
  | succ fuel ih =>
    unfold merge at h
    split at h
    · cases h
    · exact definite_mergeMembers (fun _ _ => ih) h

theorem definite_recordMerged {ids : List SchemaId} (h : catalog.recordMerged ids = .error e) :
    Definite e := by
  induction ids generalizing catalog with
  | nil => cases h
  | cons id rest ih =>
    simp only [recordMerged] at h
    split at h
    · exact ih h
    · split at h
      · next failed =>
        cases h
        exact definite_merge failed
      · exact ih h

theorem definite_complete (h : catalog.complete = .error e) : Definite e := by
  unfold complete at h
  split at h
  · next found =>
    cases h
    obtain ⟨d, -, wrong⟩ := List.exists_of_findSome?_eq_some found
    exact definite_discriminatorError? wrong
  · exact definite_recordMerged h

end Catalog

namespace Description

open Build (Ends Definite)

variable {loader : Loader} {holds : Construction → Prop}

theorem ends_ofExcept {α : Type} {result : Except DefinitionError α}
    (definite : ∀ e, result = .error e → Definite e) :
    Ends holds (Build.ofExcept result) fun _ => True := by
  intro s here
  unfold Build.ofExcept
  cases result with
  | error e => exact definite e rfl
  | ok value => exact ⟨here, trivial⟩

theorem ends_object (location : Location) :
    Ends holds (Build.object location) fun _ => True := by
  refine .withLibrary fun s here => ⟨here, ?_⟩
  cases found : s.library.object location with
  | error cause =>
    rintro text rfl
    unfold Library.object at found
    split at found <;> cases found
  | ok members => trivial

/-! ### Reading

Each part of a description is read in steps that end when following a reference and building a schema
do. -/

section Reading

variable (built : ∀ location, Ends holds (buildSchema loader location) fun _ => True)
  (followed : ∀ location, Ends holds (Build.dereference loader location) fun _ => True)

include followed in
theorem ends_objectAt (location : Location) :
    Ends holds (objectAt loader location) fun _ => True := by
  refine .bind (followed location) fun target _ => ?_
  exact .bind (ends_object target) fun members _ => .pure trivial

include built in
theorem ends_schemaOf (owner : Location) (members : Entries Value) :
    Ends holds (schemaOf loader owner members) fun _ => True := by
  unfold schemaOf
  split
  · exact .bind (built _) fun id _ => .pure trivial
  · exact .pure trivial

include built in
theorem ends_readContent (owner : Location) (members : Entries Value) :
    Ends holds (readContent loader owner members) fun _ => True := by
  simp only [readContent]
  refine .bind (.mapM (Q := fun _ => True) ?_) fun read _ => .pure trivial
  rintro ⟨mediaType, node⟩ -
  refine .bind (P := fun _ => True) ?_ fun media _ => .pure trivial
  unfold readMediaType
  split
  · exact .bind (ends_schemaOf built _ _) fun schema _ => .pure trivial
  · exact .pure trivial

include built in
theorem ends_readParameterSchema (location : Location) (members : Entries Value) :
    Ends holds (readParameterSchema loader location members) fun _ => True := by
  unfold readParameterSchema
  split
  · refine .bind (ends_readContent built location members) fun content _ => ?_
    split <;> exact .pure trivial
  · exact .bind (ends_schemaOf built location members) fun schema _ => .pure trivial

include built followed in
theorem ends_readParameter (location : Location) :
    Ends holds (readParameter loader location) fun _ => True := by
  refine .bind (ends_objectAt followed location) fun object _ => ?_
  refine .bind (ends_ofExcept fun _ => definite_readParameterHead) fun head _ => ?_
  exact .bind (ends_readParameterSchema built _ _) fun schema _ => .pure trivial

include built followed in
theorem ends_readParametersAt (label : String) (read : List Parameter)
    (locations : List Location) :
    Ends holds (readParametersAt loader label read locations) fun _ => True := by
  induction locations generalizing read with
  | nil => exact .pure trivial
  | cons location rest ih =>
    refine .bind (ends_readParameter built followed location) fun parameter _ => ?_
    split
    · exact .fail (by rintro text ⟨⟩)
    · exact ih _

include built followed in
theorem ends_readRequestBody (location : Location) :
    Ends holds (readRequestBody loader location) fun _ => True := by
  refine .bind (ends_objectAt followed location) fun object _ => ?_
  exact .bind (ends_readContent built _ _) fun content _ => .pure trivial

include built followed in
theorem ends_readHeader (location : Location) :
    Ends holds (readHeader loader location) fun _ => True := by
  refine .bind (ends_objectAt followed location) fun object _ => ?_
  exact .bind (ends_readParameterSchema built _ _) fun schema _ => .pure trivial

include built followed in
theorem ends_readResponse (location : Location) :
    Ends holds (readResponse loader location) fun _ => True := by
  refine .bind (ends_objectAt followed location) fun object _ => ?_
  refine .bind (.mapM (Q := fun _ => True) fun name _ => ?_) fun headers _ => ?_
  · exact .bind (ends_readHeader built followed _) fun header _ => .pure trivial
  refine .bind (.mapM (Q := fun _ => True) fun name _ => ?_) fun links _ => ?_
  · refine .bind (ends_objectAt followed _) fun linked _ => ?_
    exact .bind (ends_ofExcept fun _ => definite_readLink) fun link _ => .pure trivial
  exact .bind (ends_readContent built _ _) fun content _ => .pure trivial

include built followed in
theorem ends_readOperation (path method : String) (shared : List Parameter)
    (servers : List Server) (location : Location) :
    Ends holds (readOperation loader path method shared servers location) fun _ => True := by
  refine .bind (ends_objectAt followed location) fun object _ => ?_
  refine .bind (ends_readParametersAt built followed _ [] _) fun own _ => ?_
  refine .bind (ends_ofExcept fun _ => definite_checkParameterNames) fun _ _ => ?_
  refine .bindEither (.map some (ends_readRequestBody built followed _)) (.pure trivial)
    fun requestBody _ => ?_
  refine .bind (.mapM (Q := fun _ => True) fun code _ => ?_) fun responses _ => ?_
  · exact .bind (ends_readResponse built followed _) fun response _ => .pure trivial
  refine .bind (ends_ofExcept fun _ => definite_readSecurity) fun security _ => ?_
  exact .bind (ends_ofExcept fun _ => definite_readServers) fun ownServers _ => .pure trivial

include built followed in
theorem ends_readPathItem (servers : List Server) (path : String) (location : Location) :
    Ends holds (readPathItem loader servers path location) fun _ => True := by
  refine .bind (ends_objectAt followed location) fun object _ => ?_
  refine .bind (ends_readParametersAt built followed _ [] _) fun shared _ => ?_
  refine .bind (ends_ofExcept fun _ => definite_readServers) fun ownServers _ => ?_
  exact .mapM (Q := fun _ => True) fun method _ =>
    ends_readOperation built followed path method shared _ _

include built followed in
theorem ends_readRoot (dialect : Dialect) (base : Url) :
    Ends holds (readRoot loader dialect base) fun _ => True := by
  refine .bind (ends_object _) fun members _ => ?_
  refine .bind (.mapM (Q := fun _ => True) fun name _ => ?_) fun schemas _ => ?_
  · exact .bind (built _) fun id _ => .pure trivial
  refine .bind (.mapM (Q := fun _ => True) fun name _ => ?_) fun securitySchemes _ => ?_
  · refine .bind (ends_objectAt followed _) fun object _ => ?_
    exact .bind (ends_ofExcept fun _ => definite_parse) fun scheme _ => .pure trivial
  refine .bind (ends_ofExcept fun _ => definite_readSecurity) fun security _ => ?_
  refine .bind (ends_ofExcept fun _ => definite_readServers) fun ownServers _ => ?_
  refine .bind (.mapM (Q := fun _ => True) fun path _ => ?_) fun operations _ => ?_
  · exact ends_readPathItem built followed _ path _
  exact .bind (ends_ofExcept fun _ => definite_check) fun _ _ => .pure trivial

end Reading

/-- Reading ends in a description or in an error that is not for want of depth, and no location has
been descended into twice then. -/
theorem ends_read {base : Url} {document : Value}
    (built : ∀ location, Ends holds (buildSchema loader location) fun _ => True)
    (followed : ∀ location, Ends holds (Build.dereference loader location) fun _ => True)
    (first : holds ⟨Library.ofRoot base document, .empty⟩) :
    match read loader base document with
    | .error e => Definite e
    | .ok reading => ∃ s, holds s ∧ reading.library = s.library ∧
        reading.catalog.locations = s.catalog.locations := by
  simp only [read]
  cases Dialect.ofVersion? (((document.member? "openapi").bind Value.text?).getD "") with
  | none => rintro text ⟨⟩
  | some dialect =>
    simp only
    have ends := ends_readRoot built followed dialect base _ first
    cases root : readRoot loader dialect base ⟨Library.ofRoot base document, .empty⟩ with
    | error e =>
      rw [root] at ends
      exact ends
    | ok result =>
      rw [root] at ends
      simp only
      cases completed : result.2.catalog.complete with
      | error e => exact Catalog.definite_complete completed
      | ok catalog =>
        refine ⟨result.2, ends.1, rfl, ?_⟩
        have same := (Catalog.unmerged_complete completed).1
        exact congrArg (List.map Prod.fst) same.index

/-! ### Finitely many documents -/

/-- A loader that gives finitely many documents supplies them, with the root document, if the bound
on their nodes is large enough. -/
theorem exists_supplies (finite : loader.Finite) (base : Url) (document : Value) :
    ∃ documents least, ∀ capacity, least ≤ capacity →
      (loader.bounded capacity).Supplies (Library.originOf loader base document) documents := by
  obtain ⟨given, gives⟩ := finite.exists_gives
  let root := base.withoutFragment
  let others := given.filter fun entry => entry.1 ≠ root
  have fewer : others.Sublist given := List.filter_sublist
  refine ⟨(root, document) :: others, Loader.nodesOf given, fun capacity enough =>
    ⟨rfl, gives.truthful_bounded enough, ⟨?_, ?_⟩, ?_⟩⟩
  · refine List.nodup_cons.mpr ⟨?_, gives.distinct.sublist (fewer.map Prod.fst)⟩
    intro member
    obtain ⟨entry, listed, same⟩ := List.mem_map.mp member
    have := (List.mem_filter.mp listed).2
    simp [same] at this
  · intro url value goodUrl fetched
    unfold Origin.fetch at fetched
    split at fetched
    · next same =>
      cases fetched
      exact same ▸ List.mem_cons_self
    · next other =>
      have listed := gives.complete url value goodUrl fetched
      exact List.mem_cons_of_mem _ (List.mem_filter.mpr ⟨listed, decide_eq_true other⟩)
  · have part : Documents.size others ≤ Loader.nodesOf given := by
      rw [Documents.size_eq_sum, Loader.nodesOf, ← List.sum_eq_foldl]
      exact (fewer.map _).sum_le_sum fun _ _ => Nat.zero_le _
    rw [Documents.size_eq_sum, List.map_cons, List.sum_cons, ← Documents.size_eq_sum]
    exact Nat.add_le_add_left (part.trans enough) _

/-- With a loader that gives finitely many documents, reading a description ends, and so does
building any of its schemas, in whatever circles references lead. All schemas stand at the sites of
the documents, of which there are finitely many. A schema is described within others at different
sites, for which the depth that is allowed suffices, and no location is descended into twice. -/
theorem building_descends {base : Url} (good : base.WellFormed) (finite : loader.Finite)
    (document : Value) :
    let origin := Library.originOf loader base document
    ∃ documents : Documents, documents.Complete origin ∧
      (∀ first, (documents.sites first).length ≤ (documents.size + 1) * documents.size) ∧
      ∃ least, ∀ capacity, least ≤ capacity →
        let loader := loader.bounded capacity
        (match read loader base document with
          | .error e => Definite e
          | .ok reading => reading.library.Reflects origin ∧ reading.catalog.locations.Nodup) ∧
        Regular origin ⟨Library.ofRoot base document, .empty⟩ ∧
        ∀ first, Ends (Regular origin) (buildSchema loader first) (fun _ => True) ∧
          ∀ start, Regular origin start → ∀ fuel trail location now,
            Schema.Underway loader start first fuel trail location now →
            let sites := (documents.sites first).map Prod.fst
            0 < fuel ∧ trail.Nodup ∧ trail ⊆ sites ∧ Regular origin now ∧
              trail ⊆ now.catalog.locations ∧
              now.catalog.locations ⊆ start.catalog.locations ++ sites := by
  intro origin
  obtain ⟨documents, least, supplied⟩ := exists_supplies finite base document
  refine ⟨documents, (supplied least le_rfl).complete, documents.length_sites_le, least, ?_⟩
  intro capacity enough loader
  have supplies : loader.Supplies origin documents := supplied capacity enough
  have first : Regular origin ⟨Library.ofRoot base document, .empty⟩ :=
    ⟨Library.reflects_ofRoot loader good document, List.nodup_nil⟩
  have built := Schema.ends_buildSchema supplies
  have followed := fun location => @Schema.ends_dereference loader origin documents supplies location
  have ends := ends_read built followed first
  refine ⟨?_, first, fun location => ⟨built location, ?_⟩⟩
  · cases run : read loader base document with
    | error e =>
      rw [run] at ends
      exact ends
    | ok reading =>
      rw [run] at ends
      obtain ⟨s, regular, library, locations⟩ := ends
      exact ⟨library ▸ regular.reflects, locations ▸ regular.once⟩
  · intro start regular fuel trail place now underway sites
    obtain ⟨enough, along, -, held⟩ := underway.descends supplies
      (Schema.descended_first regular sites) (List.subset_append_right _ _)
    have few := along.length_le
    exact ⟨by omega, along.distinct, along.sites, held.toRegular, held.trail, held.bounded⟩

/-! ### A circle of two documents -/

/-- A description with a schema whose items are of a schema of another document. -/
def circleDocument : Value :=
  let schema := Value.object [("items", .object [("$ref", .string "b#/n")])]
  .object [
    ("openapi", .string "3.1.0"),
    ("components", .object [("schemas", .object [("A", schema)])])]

/-- The loader of the other document, whose schema has items of the first one. -/
def circleLoader : Loader :=
  let schema := Value.object [("items", .object [("$ref", .string "a#/components/schemas/A")])]
  Loader.ofStored [("http://h/b", .value (.object [("n", schema)]))]

/-- The location of the description's own schema. -/
def circleSchema : Location := ⟨Library.shelfRoot, "/components/schemas/A"⟩

theorem circle_descends : ∃ capacity fuel place now,
    Schema.Underway (circleLoader.bounded capacity)
        ⟨Library.ofRoot Library.shelfRoot circleDocument, .empty⟩ circleSchema fuel [circleSchema]
        place now ∧
      0 < fuel ∧ now.catalog.locations = [circleSchema] ∧
      ∀ text, read (circleLoader.bounded capacity) Library.shelfRoot circleDocument ≠
        .error (.reference (.endless text)) := by
  have finite : circleLoader.Finite := Loader.finite_ofStored _
  obtain ⟨documents, -, -, least, descends⟩ :=
    building_descends Library.wellFormed_shelfRoot finite circleDocument
  obtain ⟨ends, regular, builds⟩ := descends least le_rfl
  let loader := circleLoader.bounded least
  let start : Construction := ⟨Library.ofRoot Library.shelfRoot circleDocument, .empty⟩
  let now : Construction := ⟨start.library, start.catalog.reserve circleSchema⟩
  let members : Entries Value := [("items", .object [("$ref", .string "b#/n")])]
  have there : start.library.node? circleSchema = some (.object members) := rfl
  have leads : start.library.dereference loader circleSchema =
      (.ok circleSchema, start.library) := by
    simp only [Library.dereference, there]
    rfl
  obtain ⟨fuel, depth⟩ : ∃ fuel, start.library.depthLimit loader = fuel + 1 :=
    Nat.exists_eq_succ_of_ne_zero (Nat.pow_pos (Nat.succ_pos _)).ne'
  have outer : Schema.Underway loader start circleSchema (fuel + 1) [] circleSchema start :=
    depth ▸ .entry
  have asked : Build.AsksFor
      (fun visit => Schema.describeNode loader visit circleSchema (.object members))
      (Schema.buildWith loader fuel) now (circleSchema.child "items") now := by
    have untyped : Entries.get? "type" members = none := rfl
    have free : Entries.get? "pattern" members = none := rfl
    have items : Entries.get? "items" members = some (.object [("$ref", .string "b#/n")]) := rfl
    simp only [Schema.describeNode, Schema.describe, untyped, free, items, Schema.readTypes,
      Schema.readPattern, Schema.readItems, pure_bind, bind_assoc]
    exact Build.asksFor_bind _ _ _ _
  have inner := outer.inside leads rfl there asked
  obtain ⟨left, -⟩ := (builds circleSchema).2 start regular _ _ _ _ inner
  refine ⟨least, fuel, _, now, inner, left, rfl, ?_⟩
  intro text endless
  rw [endless] at ends
  exact ends text rfl

end Description

end ApiContract
