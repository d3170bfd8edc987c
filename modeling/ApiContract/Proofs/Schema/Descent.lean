import ApiContract.Proofs.Reference.Sites
import ApiContract.Proofs.Schema.Ending
/-!
# Descents

Building a schema descends into the schemas that it refers to, at most once into each location: the
position that is given out before a schema is described stops the next attempt. The locations are
among the sites of the documents, so there are not more descents than sites, and with a truthful
loader the depth that is allowed always suffices (`ends_buildSchema`).

`Schema.Underway` lists the schemas that are being described when another one is asked for, in runs
that succeed and in runs that fail.
-/

namespace ApiContract

open Json (Value)
open Location (addressed)

/-- The locations of the schemas of a catalog, the latest first. -/
def Catalog.locations (catalog : Catalog) : List Location := catalog.index.map Prod.fst

theorem Catalog.not_mem_locations {catalog : Catalog} {location : Location}
    (h : catalog.find? location = none) : location ∉ catalog.locations := by
  intro member
  obtain ⟨entry, listed, rfl⟩ := List.mem_map.mp member
  have := List.find?_eq_none.mp (Option.map_eq_none_iff.mp h) entry listed
  simp at this

/-- A loader says truthfully how many nodes its documents have, and with the root document they are
all that there are. -/
structure Loader.Supplies (loader : Loader) (origin : Origin) (documents : Documents) : Prop where
  load : loader.load = origin.load
  truthful : loader.Truthful
  complete : documents.Complete origin
  size : documents.size ≤ origin.document.nodes + loader.capacity

namespace Construction

/-- What holds of every construction: the documents come from the origin, and no location has been
descended into twice. -/
structure Regular (origin : Origin) (s : Construction) : Prop where
  reflects : s.library.Reflects origin
  once : s.catalog.locations.Nodup

/-- What holds of a construction while the schemas at the locations of `trail` are being described.
All locations are within some bounds. -/
structure Descended (origin : Origin) (bounds trail : List Location) (s : Construction) : Prop
    extends s.Regular origin where
  trail : trail ⊆ s.catalog.locations
  bounded : s.catalog.locations ⊆ bounds

variable {loader : Loader} {origin : Origin} {documents : Documents} {bounds trail : List Location}
  {s : Construction} {library : Library} {first location target : Location}

theorem Descended.withLibrary (h : s.Descended origin bounds trail)
    (reflects : library.Reflects origin) :
    { s with library := library : Construction }.Descended origin bounds trail :=
  ⟨⟨reflects, h.once⟩, h.trail, h.bounded⟩

/-- The schema at one more location is about to be described. -/
theorem Descended.reserve (h : s.Descended origin bounds trail)
    (fresh : s.catalog.find? target = none) (inside : target ∈ bounds) :
    { s with catalog := s.catalog.reserve target : Construction }.Descended origin bounds
      (target :: trail) where
  reflects := h.reflects
  once := List.nodup_cons.mpr ⟨Catalog.not_mem_locations fresh, h.once⟩
  trail := List.cons_subset_cons target h.trail
  bounded := List.cons_subset.mpr ⟨inside, h.bounded⟩

/-- The schema at the last location has been described. -/
theorem Descended.set (h : s.Descended origin bounds (target :: trail)) (id : SchemaId)
    (d : Descriptor) :
    { s with catalog := s.catalog.set id d : Construction }.Descended origin bounds trail :=
  ⟨⟨h.reflects, h.once⟩, (List.cons_subset.mp h.trail).2, h.bounded⟩

/-- Dereferencing a site ends, at a site if it succeeds. -/
theorem Descended.dereference (supplies : loader.Supplies origin documents)
    (h : s.Descended origin bounds trail) (sited : documents.Sited first location)
    {outcome : Except ReferenceError Location} (run : s.library.dereference loader location = (outcome, library)) :
    { s with library := library : Construction }.Descended origin bounds trail ∧
      match outcome with
      | .error cause => ∀ text, cause ≠ .endless text
      | .ok target => documents.Sited first target := by
  have reflects := h.reflects.dereference supplies.load location
  have settled := h.reflects.settled_dereference supplies.load supplies.truthful location
  rw [run] at reflects settled
  refine ⟨h.withLibrary reflects, ?_⟩
  cases outcome with
  | error cause => exact fun text same => settled text (congrArg Except.error same)
  | ok target => exact h.reflects.sited_dereference supplies.load supplies.complete sited run

end Construction

namespace Schema

open Build (Ends Asks AsksFor Definite)
open Construction (Descended Regular)

variable {loader : Loader} {origin : Origin} {documents : Documents} {bounds trail : List Location}
  {first location : Location} {members : Entries Value} {fuel : Nat} {s : Construction}

/-! ### Steps on the library -/

theorem ends_resolve (supplies : loader.Supplies origin documents) {base : Url}
    (good : base.WellFormed) (reference : String) :
    Ends (Descended origin bounds trail) (Build.resolve loader base reference) fun target =>
      ∃ n absolute, base.join reference = .ok absolute ∧ origin.Lands n absolute target := by
  refine .withLibrary fun s here => ?_
  have reflects := (here.reflects.resolve supplies.load good reference).1
  refine ⟨here.withLibrary reflects, ?_⟩
  have settled := here.reflects.settled_resolve supplies.load supplies.truthful good reference
  cases run : s.library.resolve loader base reference with
  | mk outcome later =>
    rw [run] at settled
    cases outcome with
    | error cause =>
      intro text same
      exact settled text (congrArg Except.error same)
    | ok target => exact here.reflects.lands_resolve supplies.load good run

/-! ### Describing a schema -/

/-- An object schema stands at a site. -/
structure Describing (documents : Documents) (first location : Location) (members : Entries Value) :
    Prop where
  here : documents.node? location = some (.object members)
  sited : documents.Sited first location
  document : location.document.WellFormed

theorem Describing.sited_member (h : Describing documents first location members) (name : String) :
    documents.Sited first (location.child name) := h.sited.member h.here name

theorem Describing.node?_member (h : Describing documents first location members) {name : String}
    {value : Value} (found : Entries.get? name members = some value) :
    documents.node? (location.child name) = some value := by
  rw [Documents.node?_child, h.here]
  exact found

theorem ends_typeNamed {holds : Construction → Prop} (location : Location) (name : String) :
    Ends holds (typeNamed location name) fun _ => True := by
  unfold typeNamed
  split
  · exact .pure trivial
  · exact .malformed location _

theorem ends_readTypes {holds : Construction → Prop} (location : Location) (node : Option Value) :
    Ends holds (readTypes location node) fun _ => True := by
  unfold readTypes
  split
  · exact .pure trivial
  · exact .bind (ends_typeNamed location _) fun _ _ => .pure trivial
  · refine .mapM (Q := fun _ => True) fun value _ => ?_
    split
    · exact ends_typeNamed location _
    · exact .malformed location _
  · exact .malformed location _

theorem ends_readPattern {holds : Construction → Prop} (location : Location) (node : Option Value) :
    Ends holds (readPattern location node) fun _ => True := by
  unfold readPattern
  split
  · split
    · exact .pure trivial
    · exact .fail (by rintro text ⟨⟩)
  · exact .pure trivial

theorem asks_readItems (h : Describing documents first location members) (node : Option Value) :
    Asks (Descended origin bounds trail) (documents.Sited first)
      (fun visit => readItems visit location node) fun _ => True := by
  have asked : Asks (Descended origin bounds trail) (documents.Sited first)
      (fun visit => visit (location.child "items") >>= fun id => pure (some id)) fun _ => True :=
    .bind (.ask (h.sited_member "items")) fun _ _ => .lift (.pure trivial)
  cases node with
  | none => exact .lift (.pure trivial)
  | some value =>
    cases value with
    | object _ => exact asked
    | bool _ => exact asked
    | _ => exact .lift (.pure trivial)

theorem asks_readProperties (h : Describing documents first location members) :
    Asks (Descended origin bounds trail) (documents.Sited first)
      (fun visit => readProperties visit location (Entries.get? "properties" members))
      fun _ => True := by
  unfold readProperties
  refine .mapM (Q := fun _ => True) ?_
  rintro ⟨name, value⟩ member
  -- The properties that are listed are members of an object.
  cases found : Entries.get? "properties" members with
  | none => simp [found] at member
  | some properties =>
    cases properties with
    | object entries =>
      by_cases empty : name = ""
      · simp only [empty, if_true]
        exact .lift (.fail (by rintro text ⟨⟩))
      · simp only [empty, if_false]
        have site := (h.sited_member "properties").member (h.node?_member found) name
        exact .bind (.ask site) fun _ _ => .lift (.pure trivial)
    | _ => simp [found, Value.members?] at member

theorem asks_readAdditional (h : Describing documents first location members)
    (node : Option Value) :
    Asks (Descended origin bounds trail) (documents.Sited first)
      (fun visit => readAdditional visit location node) fun _ => True := by
  cases node with
  | none => exact .lift (.pure trivial)
  | some value =>
    cases value with
    | object _ =>
      exact .bind (.ask (h.sited_member "additionalProperties")) fun _ _ => .lift (.pure trivial)
    | bool b => cases b <;> exact .lift (.pure trivial)
    | _ => exact .lift (.pure trivial)

theorem asks_readMembers (h : Describing documents first location members) (keyword : String) :
    Asks (Descended origin bounds trail) (documents.Sited first)
      (fun visit => readMembers visit location keyword (Entries.get? keyword members))
      fun _ => True := by
  cases found : Entries.get? keyword members with
  | none => exact .lift (.pure trivial)
  | some value =>
    cases value with
    | array items =>
      refine .mapM (Q := fun _ => True) fun i _ => .ask ?_
      exact (h.sited_member keyword).item (h.node?_member found) i
    | _ => exact .lift (.malformed location _)

theorem asks_readNested (h : Describing documents first location members) (keyword : String)
    (node : Option Value) :
    Asks (Descended origin bounds trail) (documents.Sited first)
      (fun visit => readNested visit location keyword node) fun _ => True := by
  cases node with
  | none => exact .lift (.pure trivial)
  | some value =>
    exact .bind (.ask (h.sited_member keyword)) fun _ _ => .lift (.pure trivial)

/-- A text that stands in a schema is mapped to a site. -/
theorem ends_mappedLocation (supplies : loader.Supplies origin documents)
    (h : Describing documents first location members) {text : String}
    (inside : Value.string text ∈ (Value.object members).subvalues) :
    Ends (Descended origin bounds trail) (mappedLocation loader location text)
      (documents.Sited first) := by
  have named {start : Location} (names : Documents.named? location.document (.string text) = some start) :
      start ∈ documents.starts first := Documents.mem_starts_of_named first h.here inside names
  unfold mappedLocation
  unfold Documents.named? at named
  split
  · next marked =>
    refine (ends_resolve supplies h.document text).mono ?_
    rintro target ⟨n, absolute, joined, lands⟩
    have start : addressed absolute ∈ documents.starts first :=
      named (by simp only [marked, if_true, joined]; rfl)
    exact Documents.sited_start (supplies.complete.mem_starts_of_lands start
      (Url.wellFormed_of_join h.document joined) lands)
  · next unmarked =>
    exact .pure (Documents.sited_start (named (by simp only [unmarked]; rfl)))

/-- The texts that tags are mapped to stand in the discriminator. -/
theorem mem_subvalues_of_mapping {entries : Entries Value} {tag : String} {target : Value}
    (h : (tag, target) ∈ ((Entries.get? "mapping" entries).bind Value.members?).getD []) :
    target ∈ (Value.object entries).subvalues := by
  cases found : Entries.get? "mapping" entries with
  | none => simp [found] at h
  | some mapping =>
    cases mapping with
    | object targets =>
      rw [found] at h
      have below : target ∈ (Value.object targets).subvalues :=
        List.mem_cons_of_mem _ (Value.subvalues_subset_members h (Value.self_mem_subvalues target))
      have step : Json.Pointer.step? (.object entries) "mapping" = some (.object targets) := found
      exact Json.Pointer.subvalues_subset_of_step? step below
    | _ => simp [found, Value.members?] at h

theorem asks_readDiscriminator (supplies : loader.Supplies origin documents)
    (h : Describing documents first location members) :
    Asks (Descended origin bounds trail) (documents.Sited first)
      (fun visit => readDiscriminator loader visit location
        (Entries.get? "discriminator" members)) fun _ => True := by
  cases found : Entries.get? "discriminator" members with
  | none => exact .lift (.pure trivial)
  | some value =>
    cases value with
    | object entries =>
      simp only [readDiscriminator]
      cases name : Entries.get? "propertyName" entries with
      | none => exact .lift (.malformed location _)
      | some value =>
        cases value with
        | string property =>
          refine .bind (.mapM (Q := fun _ => True) ?_) fun mapping _ => .lift (.pure trivial)
          rintro ⟨tag, target⟩ member
          cases target with
          | string text =>
            have step : Json.Pointer.step? (.object members) "discriminator" =
              some (.object entries) := found
            have inside : Value.string text ∈ (Value.object members).subvalues :=
              Json.Pointer.subvalues_subset_of_step? step (mem_subvalues_of_mapping member)
            refine .bind (.lift (ends_mappedLocation supplies h inside)) fun target sited => ?_
            exact .bind (.ask sited) fun _ _ => .lift (.pure trivial)
          | _ => exact .lift (.malformed location _)
        | _ => exact .lift (.malformed location _)
    | _ => exact .lift (.pure trivial)

/-- Describing an object schema asks for schemas at sites, and ends if these do. -/
theorem asks_describe (supplies : loader.Supplies origin documents)
    (h : Describing documents first location members) :
    Asks (Descended origin bounds trail) (documents.Sited first)
      (fun visit => describe loader visit location members) fun _ => True := by
  simp only [describe]
  refine .bind (.lift (ends_readTypes location _)) fun types _ => ?_
  refine .bind (.lift (ends_readPattern location _)) fun pattern _ => ?_
  refine .bind (asks_readItems h _) fun items _ => ?_
  refine .bind (asks_readProperties h) fun properties _ => ?_
  refine .bind (asks_readAdditional h _) fun additional _ => ?_
  refine .bind (asks_readMembers h "allOf") fun allOf _ => ?_
  refine .bind (asks_readMembers h "oneOf") fun oneOf _ => ?_
  refine .bind (asks_readMembers h "anyOf") fun anyOf _ => ?_
  refine .bind (asks_readNested h "not" _) fun not _ => ?_
  refine .bind (asks_readDiscriminator supplies h) fun discriminator _ => ?_
  exact .lift (.pure trivial)

theorem asks_describeNode (supplies : loader.Supplies origin documents) {node : Value}
    (there : documents.node? location = some node) (sited : documents.Sited first location)
    (good : location.document.WellFormed) :
    Asks (Descended origin bounds trail) (documents.Sited first)
      (fun visit => describeNode loader visit location node) fun _ => True := by
  cases node with
  | bool admitted => exact .lift (.pure trivial)
  | object members => exact asks_describe supplies ⟨there, sited, good⟩
  | _ => exact .lift (.fail (by rintro text ⟨⟩))

/-! ### Building a schema -/

/-- Building the schema at a location, case by case. -/
theorem buildWith_succ (loader : Loader) (fuel : Nat) (location : Location) (s : Construction) :
    buildWith loader (fuel + 1) location s =
      match s.library.dereference loader location with
      | (.error cause, _) => .error (.reference cause)
      | (.ok target, library) =>
        match s.catalog.find? target with
        | some id => .ok (id, ⟨library, s.catalog⟩)
        | none =>
          match library.node? target with
          | none => .error (.reference (.unresolved target.text))
          | some node =>
            match describeNode loader (buildWith loader fuel) target node
                ⟨library, s.catalog.reserve target⟩ with
            | .error e => .error e
            | .ok (d, described) =>
              .ok (s.catalog.size, ⟨described.library, described.catalog.set s.catalog.size d⟩) := by
  simp only [buildWith, bind, StateT.bind, Build.dereference, Build.withLibrary, Build.findSchema?]
  cases s.library.dereference loader location with
  | mk outcome library =>
    cases outcome with
    | error cause => rfl
    | ok target =>
      simp only [Except.bind]
      cases s.catalog.find? target with
      | some id => rfl
      | none =>
        simp only [StateT.bind, Build.node?, bind, Except.bind]
        cases library.node? target with
        | none => rfl
        | some node =>
          simp only [StateT.bind, Build.reserveSchema, Build.setSchema, bind, Except.bind]
          cases describeNode loader (buildWith loader fuel) target node
            ⟨library, s.catalog.reserve target⟩ with
          | error e => rfl
          | ok result => rfl

/-- The locations of the schemas that are being described, the innermost first: different sites. -/
structure Trail (documents : Documents) (first : Location) (trail : List Location) : Prop where
  distinct : trail.Nodup
  sites : trail ⊆ (documents.sites first).map Prod.fst

theorem Trail.length_le (h : Trail documents first trail) :
    trail.length ≤ (documents.sites first).length := by
  have few := (h.distinct.subperm h.sites).length_le
  rwa [List.length_map] at few

/-- Describing a schema that is not in the catalog yet is a descent into one more site. -/
theorem descend (supplies : loader.Supplies origin documents)
    (sites : (documents.sites first).map Prod.fst ⊆ bounds) (along : Trail documents first trail)
    (sited : documents.Sited first location) (here : s.Descended origin bounds trail)
    {target : Location} {library : Library} {node : Value}
    (leads : s.library.dereference loader location = (.ok target, library))
    (fresh : s.catalog.find? target = none) (there : library.node? target = some node) :
    Trail documents first (target :: trail) ∧
      Descended origin bounds (target :: trail) ⟨library, s.catalog.reserve target⟩ ∧
      Asks (Descended origin bounds (target :: trail)) (documents.Sited first)
        (fun visit => describeNode loader visit target node) fun _ => True := by
  obtain ⟨kept, reached⟩ := here.dereference supplies sited leads
  have found : documents.node? target = some node :=
    supplies.complete.node?_of_library kept.reflects there
  have site : target ∈ (documents.sites first).map Prod.fst :=
    List.mem_map_of_mem (reached node found)
  obtain ⟨document, loaded, -⟩ := Option.bind_eq_some_iff.mp there
  have good := (kept.reflects.of_document? loaded).1
  have new : target ∉ trail := fun again => Catalog.not_mem_locations fresh (here.trail again)
  refine ⟨⟨List.nodup_cons.mpr ⟨new, along.distinct⟩, List.cons_subset.mpr ⟨site, along.sites⟩⟩,
    kept.reserve fresh (sites site), asks_describeNode supplies found reached good⟩

/-- Building a schema ends when it may descend as often as there are sites left. -/
theorem ends_buildWith (supplies : loader.Supplies origin documents)
    (sites : (documents.sites first).map Prod.fst ⊆ bounds) (along : Trail documents first trail)
    (enough : (documents.sites first).length < fuel + trail.length)
    (sited : documents.Sited first location) :
    Ends (Descended origin bounds trail) (buildWith loader fuel location) fun _ => True := by
  induction fuel generalizing trail location with
  | zero =>
    have := along.length_le
    omega
  | succ fuel ih =>
    intro s here
    rw [buildWith_succ]
    cases leads : s.library.dereference loader location with
    | mk outcome library =>
      obtain ⟨kept, followed⟩ := here.dereference supplies sited leads
      cases outcome with
      | error cause =>
        rintro text ⟨⟩
        exact followed text rfl
      | ok target =>
        simp only
        cases fresh : s.catalog.find? target with
        | some id => exact ⟨kept, trivial⟩
        | none =>
          simp only
          cases there : library.node? target with
          | none => rintro text ⟨⟩
          | some node =>
            obtain ⟨further, inner, asks⟩ :=
              descend supplies sites along sited here leads fresh there
            have deeper : (documents.sites first).length < fuel + (target :: trail).length := by
              rw [List.length_cons]
              omega
            have described := asks.ends (buildWith loader fuel) (fun _ => ih further deeper) _ inner
            simp only
            cases run : describeNode loader (buildWith loader fuel) target node
                ⟨library, s.catalog.reserve target⟩ with
            | error e =>
              rw [run] at described
              exact described
            | ok result =>
              rw [run] at described
              exact ⟨described.1.set s.catalog.size result.1, trivial⟩

/-! ### Schemas that are being built -/

/-- While the schema at `first` is built from the state `start`, a schema is asked for at a location
in some state. The schemas at the locations of `trail` are being described then, the innermost first,
and `fuel` is the depth that is left. -/
inductive Underway (loader : Loader) (start : Construction) (first : Location) :
    (fuel : Nat) → (trail : List Location) → Location → Construction → Prop where
  | entry : Underway loader start first (start.library.depthLimit loader) [] first start
  | inside {fuel : Nat} {trail : List Location} {location target place : Location}
      {s now : Construction} {library : Library} {node : Value}
      (outer : Underway loader start first (fuel + 1) trail location s)
      (leads : s.library.dereference loader location = (.ok target, library))
      (fresh : s.catalog.find? target = none) (there : library.node? target = some node)
      (asked : AsksFor (fun visit => describeNode loader visit target node) (buildWith loader fuel)
        ⟨library, s.catalog.reserve target⟩ place now) :
      Underway loader start first fuel (target :: trail) place now

/-- Where building begins, no schema is being described. -/
theorem descended_first (h : s.Regular origin) (sites : List Location) :
    s.Descended origin (s.catalog.locations ++ sites) [] where
  toRegular := h
  trail := List.nil_subset _
  bounded := List.subset_append_left _ _

theorem Trail.nil : Trail documents first [] := ⟨List.nodup_nil, List.nil_subset _⟩

/-- The depth that is allowed is more than there are sites. -/
theorem length_sites_lt_depthLimit (supplies : loader.Supplies origin documents)
    (reflects : s.library.Reflects origin) (first : Location) :
    (documents.sites first).length < s.library.depthLimit loader := by
  have nodes : documents.size ≤ s.library.size + loader.capacity :=
    supplies.size.trans (Nat.add_le_add_right reflects.le_size _)
  calc (documents.sites first).length ≤ (documents.size + 1) * documents.size :=
        documents.length_sites_le first
    _ < (documents.size + 2) * (documents.size + 2) :=
        Nat.mul_lt_mul'' (Nat.lt_succ_self _) (by omega)
    _ ≤ (s.library.size + loader.capacity + 2) * (s.library.size + loader.capacity + 2) :=
        Nat.mul_le_mul (by omega) (by omega)
    _ = s.library.depthLimit loader := (Nat.pow_two _).symm

/-- Whatever is asked for while a schema is built: the depth suffices, the schemas being described
stand at different sites, and no location of the catalog came up twice. -/
theorem Underway.descends {start now : Construction} {bounds : List Location}
    (supplies : loader.Supplies origin documents) (begun : start.Descended origin bounds [])
    (sites : (documents.sites first).map Prod.fst ⊆ bounds)
    (h : Underway loader start first fuel trail location now) :
    (documents.sites first).length < fuel + trail.length ∧ Trail documents first trail ∧
      documents.Sited first location ∧ now.Descended origin bounds trail := by
  induction h with
  | entry =>
    exact ⟨length_sites_lt_depthLimit supplies begun.reflects first, .nil,
      documents.sited_first first, begun⟩
  | @inside fuel trail location target place s now library node outer leads fresh there asked ih =>
    obtain ⟨enough, along, sited, here⟩ := ih
    obtain ⟨further, inner, asks⟩ := descend supplies sites along sited here leads fresh there
    have deeper : (documents.sites first).length < fuel + (target :: trail).length := by
      rw [List.length_cons]
      omega
    have answered := fun place => @ends_buildWith loader origin documents bounds _ first place fuel
      supplies sites further deeper
    obtain ⟨site, held⟩ := asks.of_asksFor answered inner asked
    exact ⟨deeper, further, site, held⟩

theorem ends_dereference (supplies : loader.Supplies origin documents) (location : Location) :
    Ends (Regular origin) (Build.dereference loader location) fun _ => True := by
  refine .withLibrary fun s here => ?_
  have settled := here.reflects.settled_dereference supplies.load supplies.truthful location
  refine ⟨⟨here.reflects.dereference supplies.load location, here.once⟩, ?_⟩
  cases run : s.library.dereference loader location with
  | mk outcome later =>
    rw [run] at settled
    cases outcome with
    | error cause => exact fun text same => settled text (congrArg Except.error same)
    | ok target => trivial

/-- Building a schema ends, and leaves a catalog in which no location stands twice. -/
theorem ends_buildSchema (supplies : loader.Supplies origin documents) (location : Location) :
    Ends (Regular origin) (buildSchema loader location) fun _ => True := by
  intro s here
  have begun := descended_first here ((documents.sites location).map Prod.fst)
  have enough : (documents.sites location).length <
      s.library.depthLimit loader + ([] : List Location).length :=
    length_sites_lt_depthLimit supplies here.reflects location
  have ends := ends_buildWith supplies (List.subset_append_right _ _) .nil enough
    (documents.sited_first location) s begun
  unfold buildSchema
  cases run : buildWith loader (s.library.depthLimit loader) location s with
  | error e =>
    rw [run] at ends
    exact ends
  | ok result =>
    rw [run] at ends
    exact ⟨ends.1.toRegular, trivial⟩

end Schema

end ApiContract
