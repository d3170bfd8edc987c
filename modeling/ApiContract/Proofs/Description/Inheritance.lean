import ApiContract.Proofs.Description.Sites
/-!
# The parameters of a path item and of its operations

A path item and its operations each declare a list of parameters, an entry of which may be a reference
to one (`Description.DeclaresParameters`). An operation that is read has the parameters of both lists,
one for each pair of a name and a location (`Parameter.Inherits`). A list with a pair that comes twice
is never read: reading stops at the second occurrence, unless an entry before it has a mistake of its
own (`Description.RefusesParameters`).
-/

namespace ApiContract

open Json (Value)
open Build (Ensures Yields)

namespace Entries

variable {α : Type}

theorem put_ne_nil (name : String) (value : α) (entries : Entries α) :
    put name value entries ≠ [] := by
  unfold put
  split
  · exact List.cons_ne_nil _ _
  · split <;> exact List.cons_ne_nil _ _

theorem head?_keys_put {name : String} {value : α} {entries : Entries α} (nonempty : entries ≠ []) :
    (put name value entries).keys.head? = entries.keys.head? := by
  cases entries with
  | nil => exact absurd rfl nonempty
  | cons entry rest =>
    unfold put
    split
    · next same => simp [keys, same]
    · rfl

theorem head?_keys_foldl_put (pairs : List (String × α)) {entries : Entries α} (nonempty : entries ≠ []) :
    (pairs.foldl (fun entries pair => put pair.1 pair.2 entries) entries).keys.head? =
      entries.keys.head? := by
  induction pairs generalizing entries with
  | nil => rfl
  | cons pair rest ih => rw [List.foldl_cons, ih (put_ne_nil _ _ _), head?_keys_put nonempty]

/-- The first name of a list of pairs stays the first. -/
theorem head?_keys_ofPairs (pairs : Entries α) : (ofPairs pairs).keys.head? = pairs.keys.head? := by
  cases pairs with
  | nil => rfl
  | cons pair rest => exact head?_keys_foldl_put rest (List.cons_ne_nil _ _)

end Entries

/-! ### Two lists of parameters -/

namespace Parameter

/-- The parameters that an operation has, where its path item shares some and it has some of its own:
for each pair of a name and a location its own parameter, or else the shared one. -/
structure Inherits (shared own effective : List Parameter) : Prop where
  /-- First the pairs of the path item, in its order, and then the other ones of the operation. -/
  order : effective.map key =
    shared.map key ++ (own.map key).filter fun pair => pair ∉ shared.map key
  distinct : (effective.map key).Nodup
  declared : ∀ pair, pair ∈ effective.map key ↔ pair ∈ shared.map key ∨ pair ∈ own.map key
  keepsOwn : ∀ p ∈ own, p ∈ effective
  keepsShared : ∀ p ∈ shared, p.key ∉ own.map key → p ∈ effective
  /-- Parameters of one name in different locations stay two. -/
  apart : ∀ p ∈ shared ++ own, ∀ q ∈ shared ++ own, p.name = q.name → p.location ≠ q.location →
    ∃ p' ∈ effective, ∃ q' ∈ effective, p'.key = p.key ∧ q'.key = q.key ∧ p' ≠ q'

end Parameter

namespace Description

variable {shared own : List Parameter} {p : Parameter}

theorem mem_effectiveParameters_of_own (distinct : (own.map Parameter.key).Nodup) (member : p ∈ own) :
    p ∈ effectiveParameters shared own := by
  rw [effectiveParameters, List.mem_append]
  by_cases known : ∃ q ∈ shared, q.key = p.key
  · obtain ⟨q, inherited, same⟩ := known
    refine .inl (List.mem_map.mpr ⟨q, inherited, ?_⟩)
    cases found : own.find? (sameParameter q) with
    | none => exact absurd (sameParameter_iff.mpr same) (List.find?_eq_none.mp found p member)
    | some r =>
      -- The parameter that stands for the shared one is the only one of its pair.
      have pair : r.key = p.key := (sameParameter_iff.mp (List.find?_some found)).symm.trans same
      exact List.inj_on_of_nodup_map distinct (List.mem_of_find?_eq_some found) member pair
  · refine .inr (List.mem_filter.mpr ⟨member, ?_⟩)
    simp only [Bool.not_eq_true', List.any_eq_false, sameParameter_iff]
    intro r inherited same
    obtain ⟨q, listed, rfl⟩ := List.mem_map.mp inherited
    exact known ⟨q, listed, (key_getD_find? own q).symm.trans same.symm⟩

theorem mem_effectiveParameters_of_shared (member : p ∈ shared)
    (other : p.key ∉ own.map Parameter.key) : p ∈ effectiveParameters shared own := by
  refine List.mem_append_left _ (List.mem_map.mpr ⟨p, member, ?_⟩)
  have none : own.find? (sameParameter p) = none := by
    refine List.find?_eq_none.mpr fun q listed same => other ?_
    exact List.mem_map.mpr ⟨q, listed, (sameParameter_iff.mp same).symm⟩
  rw [none]
  rfl

theorem inherits_effectiveParameters (ofShared : (shared.map Parameter.key).Nodup)
    (ofOwn : (own.map Parameter.key).Nodup) :
    Parameter.Inherits shared own (effectiveParameters shared own) := by
  have order := map_key_effectiveParameters shared own
  have declared : ∀ pair, pair ∈ (effectiveParameters shared own).map Parameter.key ↔
      pair ∈ shared.map Parameter.key ∨ pair ∈ own.map Parameter.key := by
    intro pair
    rw [order, List.mem_append, List.mem_filter, decide_eq_true_eq]
    by_cases known : pair ∈ shared.map Parameter.key <;> simp [known]
  refine {
    order := order
    distinct := nodup_map_key_effectiveParameters ofShared ofOwn
    declared := declared
    keepsOwn := fun p => mem_effectiveParameters_of_own ofOwn
    keepsShared := fun p => mem_effectiveParameters_of_shared
    apart := ?_ }
  · intro p listed q listed' _ elsewhere
    have entry {r : Parameter} (member : r ∈ shared ++ own) :
        ∃ r' ∈ effectiveParameters shared own, r'.key = r.key := by
      refine List.mem_map.mp ((declared r.key).mpr ?_)
      exact (List.mem_append.mp member).imp List.mem_map_of_mem List.mem_map_of_mem
    obtain ⟨p', present, same⟩ := entry listed
    obtain ⟨q', present', same'⟩ := entry listed'
    refine ⟨p', present, q', present', same, same', ?_⟩
    rintro rfl
    exact elsewhere (Prod.mk.inj (same.symm.trans same')).2

/-! ### Lists that are read -/

/-- The locations of the entries in an object's list of parameters. -/
def parameterLocations (owner : Location) (members : Entries Value) : List Location :=
  let declared := ((Entries.get? "parameters" members).bind Value.items?).getD []
  (List.range declared.length).map fun (i : Nat) =>
    (owner.child "parameters").child (Decimal.integerText i)

section Places

variable (library : Library) (located : Location → SchemaId → Prop)

/-- The parameter is the one that the members of an object declare. -/
structure ParameterIs (owner : Location) (members : Entries Value) (p : Parameter) : Prop where
  head : readParameterHead owner members = .ok (p.name, p.location, p.style)
  required : p.required = Schema.flag (Entries.get? "required" members)
  explode : p.explode =
    ((Entries.get? "explode" members).bind Value.bool?).getD p.style.explodesByDefault
  schema : SchemaOf located owner members p.schema
  mediaType : p.mediaType = ((Entries.get? "content" members).bind Value.members?).bind fun content =>
    content.keys.head?.map Text.lowerAscii

/-- The parameters are those in the list of an object, each the one to which its entry leads, and no
two of them have the same name and location. -/
structure DeclaresParameters (owner : Location) (members : Entries Value)
    (parameters : List Parameter) : Prop where
  entries : List.Forall₂ (fun location p => ∃ target members,
    library.Shows location target members ∧ ParameterIs located target members p)
    (parameterLocations owner members) parameters
  distinct : (parameters.map Parameter.key).Nodup

/-- The operation under a method of a path item has the parameters that the path item shares, as far
as it does not declare them anew, and its own. -/
def InheritsParameters (item : Location) (shared : List Parameter) (method : String)
    (operation : Operation) : Prop :=
  ∃ target members own, library.Shows (item.child method) target members ∧
    DeclaresParameters library located target members own ∧
    Parameter.Inherits shared own operation.parameters

end Places

section Reading

variable {α : Type} {loader : Loader} {label : String} {location : Location} {members : Entries Value}

theorem ensures_and {step : Build α} {P : α → Construction → Prop} {Q : α → Prop}
    (first : Ensures step P) (second : Yields step Q) : Ensures step fun a s => P a s ∧ Q a := by
  intro pending s a later run sound
  obtain ⟨sound, growth, holds⟩ := first pending s a later run sound
  exact ⟨sound, growth, fun last after => ⟨holds last after, second s a later run⟩⟩

theorem ensures_of_yields {step : Build α} {P : α → Construction → Prop} {Q : α → Prop}
    (first : Ensures step P) (second : Yields step Q) : Ensures step fun a _ => Q a :=
  (ensures_and first second).mono fun _ _ both => both.2

theorem yields_readContent (loader : Loader) (owner : Location) (members : Entries Value) :
    Yields (readContent loader owner members) fun content => content.keys.head? =
      ((Entries.get? "content" members).bind Value.members?).bind fun declared =>
        declared.keys.head?.map Text.lowerAscii := by
  simp only [readContent]
  refine .bind (Yields.mapM (R := fun entry read => read.1 = Text.lowerAscii entry.1)
    fun entry _ => ?_) fun read named => ?_
  · exact .bind (.any _) fun media _ => .pure rfl
  · refine .pure ?_
    rw [Entries.head?_keys_ofPairs]
    revert named
    cases (Entries.get? "content" members).bind Value.members? with
    | none =>
      rintro ⟨⟩
      rfl
    | some declared =>
      intro named
      cases named with
      | nil => rfl
      | cons first _ => exact congrArg some first

theorem yields_readParameterSchema (loader : Loader) (location : Location) (members : Entries Value) :
    Yields (readParameterSchema loader location members) fun result => result.2 =
      ((Entries.get? "content" members).bind Value.members?).bind fun declared =>
        declared.keys.head?.map Text.lowerAscii := by
  unfold readParameterSchema
  split
  · refine .bind (yields_readContent loader location members) fun content first => ?_
    split
    · exact .pure first
    · exact .pure first
  · next missing =>
    rw [Entries.has, Bool.not_eq_true, Option.isSome_eq_false_iff,
      Option.isNone_iff_eq_none] at missing
    rw [missing]
    exact .bind (.any _) fun schema _ => .pure rfl

theorem ensures_readParameter_declared (loader : Loader) (location : Location) :
    Ensures (readParameter loader location) fun p s => ∃ target members,
      s.library.Shows location target members ∧ ParameterIs s.Located target members p := by
  simp only [readParameter]
  refine .bind (ensures_objectAt loader location) fun object => ?_
  refine .bind (ensures_of_yields (ensures_ofExcept _) (.ofExcept fun head read => read))
    fun head => ?_
  refine .bind (ensures_and (ensures_readParameterSchema loader _ _)
    (yields_readParameterSchema loader _ _)) fun schema => ?_
  exact .pure fun s own read shows => ⟨_, _, shows, read, rfl, rfl, own.1, own.2⟩

theorem ensures_readParametersAt_entries (loader : Loader) (label : String) (read : List Parameter)
    (locations : List Location) :
    Ensures (readParametersAt loader label read locations) fun parameters s => ∃ further,
      parameters = read ++ further ∧
        List.Forall₂ (fun location p => ∃ target members,
          s.library.Shows location target members ∧ ParameterIs s.Located target members p)
          locations further := by
  induction locations generalizing read with
  | nil => exact .pure fun s => ⟨[], (List.append_nil read).symm, .nil⟩
  | cons location rest ih =>
    rw [readParametersAt]
    refine .bind (ensures_readParameter_declared loader location) fun p => ?_
    split
    · exact .fail _
    · refine (ih (read ++ [p])).mono ?_
      rintro parameters s ⟨further, rfl, entries⟩ own
      exact ⟨p :: further, List.append_assoc _ _ _, .cons own entries⟩

theorem ensures_readParameters_declared (loader : Loader) (owner : Location)
    (members : Entries Value) (label : String) :
    Ensures (readParameters loader owner members label) fun parameters s =>
      DeclaresParameters s.library s.Located owner members parameters := by
  refine (ensures_and (ensures_readParametersAt_entries loader label [] _)
    (yields_readParameters loader owner members label)).mono ?_
  rintro parameters s ⟨⟨further, rfl, entries⟩, formed⟩
  exact ⟨entries, formed.distinct⟩

theorem ensures_readOperation_parameters (loader : Loader) (path method : String)
    (shared : List Parameter) (servers : List Server) (location : Location) :
    Ensures (readOperation loader path method shared servers location) fun operation s =>
      ∃ target members own, s.library.Shows location target members ∧
        DeclaresParameters s.library s.Located target members own ∧
        operation.parameters = effectiveParameters shared own := by
  simp only [readOperation]
  refine .bind (ensures_objectAt loader location) fun object => ?_
  refine .bind (ensures_readParameters_declared loader _ _ _) fun own => ?_
  refine .bind (ensures_ofExcept _) fun _ => ?_
  refine .bindEither (P := fun _ _ => True) ?_ ?_ fun requestBody => ?_
  · exact .map some ((ensures_readRequestBody loader _).mono fun _ _ _ => trivial)
  · exact .pure fun _ => trivial
  refine .bind (Ensures.mapM_forall (Q := fun _ _ => True) fun code _ => ?_) fun responses => ?_
  · exact .bind (ensures_readResponse loader _) fun response => .pure fun _ _ => trivial
  refine .bind (ensures_ofExcept _) fun security => ?_
  refine .bind (ensures_ofExcept _) fun ownServers => ?_
  exact .pure fun s _ _ _ _ _ declared shows => ⟨_, _, own, shows, declared, rfl⟩

theorem ensures_readPathItem_parameters (loader : Loader) (servers : List Server) (path : String)
    (location : Location) :
    Ensures (readPathItem loader servers path location) fun operations s =>
      ∃ item members shared, s.library.Shows location item members ∧
        DeclaresParameters s.library s.Located item members shared ∧
        List.Forall₂ (InheritsParameters s.library s.Located item shared)
          (operationMethods.filter fun method => Entries.has method members) operations := by
  simp only [readPathItem]
  refine .bind (ensures_objectAt loader location) fun object => ?_
  refine .bind (ensures_readParameters_declared loader _ _ _) fun shared => ?_
  refine .bind (ensures_ofExcept _) fun ownServers => ?_
  refine (Ensures.mapM fun method _ =>
    ensures_readOperation_parameters loader path method shared _ _).mono ?_
  intro operations s all _ ofShared shows
  refine ⟨_, _, shared, shows, ofShared, all.imp ?_⟩
  rintro method operation ⟨target, members, own, shows', ofOwn, effective⟩
  refine ⟨target, members, own, shows', ofOwn, ?_⟩
  rw [effective]
  exact inherits_effectiveParameters ofShared.distinct ofOwn.distinct

end Reading

/-! ### Pairs that come twice -/

section Refusal

variable {α β : Type} {loader : Loader} {label : String} {locations : List Location}
  {s later : Construction}

/-- What a result is that depends on a list of parameters at locations, where the list has a mistake.
If a pair comes twice among the first entries and these can be read by themselves, the mistake is the
first pair that comes again; and if no pair comes twice before an entry that cannot be read, it is the
mistake of this entry. -/
structure RefusesParameters (loader : Loader) (label : String) (locations : List Location)
    (s : Construction) (result : Except DefinitionError α) : Prop where
  repeated : ∀ front rest declared later, locations = front ++ rest →
    front.mapM (readParameter loader) s = .ok (declared, later) →
    ¬ (declared.map Parameter.key).Nodup →
    ∃ before p after, declared = before ++ p :: after ∧ (before.map Parameter.key).Nodup ∧
      p.key ∈ before.map Parameter.key ∧
      result = .error (.duplicateParameter label p.name p.location)
  unread : ∀ front location rest declared later e, locations = front ++ location :: rest →
    front.mapM (readParameter loader) s = .ok (declared, later) →
    (declared.map Parameter.key).Nodup → readParameter loader location later = .error e →
    result = .error e

theorem bind_of_ok {x : Build α} {f : α → Build β} {a : α} (h : x s = .ok (a, later)) :
    (x >>= f) s = f a later := by
  change Except.bind (x s) (fun result => f result.1 result.2) = _
  rw [h]
  rfl

theorem bind_of_error {x : Build α} {f : α → Build β} {e : DefinitionError} (h : x s = .error e) :
    (x >>= f) s = .error e := by
  change Except.bind (x s) (fun result => f result.1 result.2) = _
  rw [h]
  rfl

theorem RefusesParameters.bind {x : Build α}
    (h : RefusesParameters loader label locations s (x s)) (f : α → Build β) :
    RefusesParameters loader label locations s ((x >>= f) s) where
  repeated front rest declared later split run twice := by
    obtain ⟨before, p, after, parts, distinct, known, failed⟩ :=
      h.repeated front rest declared later split run twice
    exact ⟨before, p, after, parts, distinct, known, bind_of_error failed⟩
  unread front location rest declared later e split run distinct failed :=
    bind_of_error (h.unread front location rest declared later e split run distinct failed)

variable {front rest : List Location} {declared : List Parameter}

theorem exists_of_mapM_cons {location : Location}
    (run : (location :: front).mapM (readParameter loader) s = .ok (declared, later)) :
    ∃ p between others, readParameter loader location s = .ok (p, between) ∧
      front.mapM (readParameter loader) between = .ok (others, later) ∧ declared = p :: others := by
  rw [List.mapM_cons] at run
  obtain ⟨p, between, first, run⟩ := Build.exists_of_bind_eq_ok run
  obtain ⟨others, _, further, run⟩ := Build.exists_of_bind_eq_ok run
  cases run
  exact ⟨p, between, others, first, further, rfl⟩

/-- Entries of different pairs are read one after the other. -/
theorem readParametersAt_append (read : List Parameter)
    (run : front.mapM (readParameter loader) s = .ok (declared, later))
    (distinct : ((read ++ declared).map Parameter.key).Nodup) :
    readParametersAt loader label read (front ++ rest) s =
      readParametersAt loader label (read ++ declared) rest later := by
  induction front generalizing read declared s with
  | nil =>
    rw [List.mapM_nil] at run
    cases run
    rw [List.append_nil, List.nil_append]
  | cons location front ih =>
    obtain ⟨p, between, others, first, further, rfl⟩ := exists_of_mapM_cons run
    have step : read ++ p :: others = read ++ [p] ++ others := by simp
    rw [step] at distinct ⊢
    have fresh : ¬ read.any (sameParameter p) = true := by
      rw [any_sameParameter_iff]
      rw [List.append_assoc, List.map_append, List.nodup_append] at distinct
      intro known
      exact distinct.2.2 _ known _ List.mem_cons_self rfl
    rw [List.cons_append, readParametersAt, bind_of_ok first, if_neg fresh]
    exact ih _ further distinct

/-- Entries that can be read are refused where a pair comes again. -/
theorem readParametersAt_repeated (read : List Parameter)
    (run : front.mapM (readParameter loader) s = .ok (declared, later))
    (before : (read.map Parameter.key).Nodup)
    (twice : ¬ ((read ++ declared).map Parameter.key).Nodup) :
    ∃ between p after, declared = between ++ p :: after ∧
      ((read ++ between).map Parameter.key).Nodup ∧ p.key ∈ (read ++ between).map Parameter.key ∧
      readParametersAt loader label read (front ++ rest) s =
        .error (.duplicateParameter label p.name p.location) := by
  induction front generalizing read declared s with
  | nil =>
    rw [List.mapM_nil] at run
    cases run
    exact absurd before (by simpa using twice)
  | cons location front ih =>
    obtain ⟨p, state, others, first, further, rfl⟩ := exists_of_mapM_cons run
    by_cases known : read.any (sameParameter p) = true
    · refine ⟨[], p, others, rfl, by simpa using before, ?_, ?_⟩
      · rw [List.append_nil]
        exact any_sameParameter_iff.mp known
      · rw [List.cons_append, readParametersAt, bind_of_ok first, if_pos known]
        rfl
    · have fresh := nodup_append_of_fresh before known
      have step (others : List Parameter) : read ++ p :: others = read ++ [p] ++ others := by simp
      rw [step] at twice
      obtain ⟨between, q, after, rfl, distinct, again, failed⟩ := ih _ further fresh twice
      refine ⟨p :: between, q, after, rfl, by rwa [step], by rwa [step], ?_⟩
      rw [List.cons_append, readParametersAt, bind_of_ok first, if_neg known]
      exact failed

theorem refuses_readParameters (loader : Loader) (owner : Location) (members : Entries Value)
    (label : String) (s : Construction) :
    RefusesParameters loader label (parameterLocations owner members) s
      (readParameters loader owner members label s) where
  repeated front rest declared later split run twice := by
    have whole : readParameters loader owner members label s =
        readParametersAt loader label [] (front ++ rest) s := by rw [← split]; rfl
    rw [whole]
    exact readParametersAt_repeated [] run List.nodup_nil twice
  unread front location rest declared later e split run distinct failed := by
    have whole : readParameters loader owner members label s =
        readParametersAt loader label [] (front ++ location :: rest) s := by rw [← split]; rfl
    rw [whole, readParametersAt_append [] run distinct, readParametersAt]
    exact bind_of_error failed

/-- What an operation is called in messages. -/
def operationLabel (path method : String) (members : Entries Value) : String :=
  (textOf? members "operationId").getD (Text.upperAscii method ++ " " ++ path)

theorem refuses_readOperation {path method : String} {shared : List Parameter} {servers : List Server}
    {location target : Location} {members : Entries Value}
    (opened : objectAt loader location s = .ok ((target, members), later)) :
    RefusesParameters loader (operationLabel path method members) (parameterLocations target members)
      later (readOperation loader path method shared servers location s) := by
  simp only [readOperation]
  rw [bind_of_ok opened]
  exact (refuses_readParameters loader target members _ later).bind _

theorem refuses_readPathItem {path : String} {servers : List Server} {location item : Location}
    {members : Entries Value} (opened : objectAt loader location s = .ok ((item, members), later)) :
    RefusesParameters loader path (parameterLocations item members) later
      (readPathItem loader servers path location s) := by
  simp only [readPathItem]
  rw [bind_of_ok opened]
  exact (refuses_readParameters loader item members _ later).bind _

end Refusal

/-- The parameters of the operations of a path item. When the path item is read, each operation has
those of the path item and its own, one for each pair of a name and a location. When a pair comes
twice in the list of the path item or of an operation, or an entry of it cannot be read, the first
mistake of the list is that of the reading. -/
theorem readPathItem_inherits (loader : Loader) (servers : List Server) (path : String)
    (location : Location) {pending : List SchemaId} {s : Construction} (sound : s.Sound pending) :
    (∀ operations later, readPathItem loader servers path location s = .ok (operations, later) →
      ∃ item members shared, later.library.Shows location item members ∧
        DeclaresParameters later.library later.Located item members shared ∧
        List.Forall₂ (InheritsParameters later.library later.Located item shared)
          (operationMethods.filter fun method => Entries.has method members) operations) ∧
    (∀ item members between, objectAt loader location s = .ok ((item, members), between) →
      RefusesParameters loader path (parameterLocations item members) between
        (readPathItem loader servers path location s)) ∧
    ∀ method shared target members between,
      objectAt loader location s = .ok ((target, members), between) →
      RefusesParameters loader (operationLabel path method members)
        (parameterLocations target members) between
        (readOperation loader path method shared servers location s) := by
  refine ⟨fun operations later run => ?_, fun item members between => refuses_readPathItem,
    fun method shared target members between => refuses_readOperation⟩
  obtain ⟨-, -, holds⟩ :=
    ensures_readPathItem_parameters loader servers path location pending s operations later run sound
  exact holds later (.refl later)

/-! ### A parameter that is declared twice -/

/-- A parameter by the name of `limit`. -/
def limitIn (location : String) : Value :=
  .object [("name", .string "limit"), ("in", .string location)]

/-- A reference to a parameter of that name in the query. -/
def limitReference : Value := .object [("$ref", .string "#/components/parameters/Limit")]

/-- A description of one operation, with parameters of its path item and of its own. -/
def limitDocument (shared own : List Value) : Value :=
  .object [
    ("openapi", .string "3.1.0"),
    ("components", .object [("parameters", .object [("Limit", limitIn "query")])]),
    ("paths", .object [("/pets", .object [
      ("parameters", .array shared),
      ("get", .object [("operationId", .string "pets"), ("parameters", .array own)])])])]

/-- The location of the path item in such a description. -/
def limitItem : Location := ⟨treeBase, "/paths/~1pets"⟩

/-- The construction with which such a description begins to be read. -/
def limitStart (shared own : List Value) : Construction :=
  ⟨Library.ofRoot treeBase (limitDocument shared own), .empty⟩

theorem sound_limitStart (shared own : List Value) : (limitStart shared own).Sound [] :=
  Construction.sound_empty _

theorem readPathItem_inherits_limit :
    (∃ operation later item shared method,
      readPathItem noLoader [] "/pets" limitItem
        (limitStart [limitReference] [limitIn "header", limitIn "query"]) = .ok ([operation], later) ∧
      operation.parameters.map Parameter.key = [("limit", .query), ("limit", .header)] ∧
      InheritsParameters later.library later.Located item shared method operation) ∧
    readPathItem noLoader [] "/pets" limitItem (limitStart [limitIn "query", limitReference] []) =
      .error (.duplicateParameter "/pets" "limit" .query) := by
  have reads (shared own : List Value) :=
    readPathItem_inherits noLoader [] "/pets" limitItem (sound_limitStart shared own)
  constructor
  · obtain ⟨⟨operations, later⟩, run, shown⟩ := @exists_of_any _ _ (readPathItem noLoader [] "/pets"
      limitItem (limitStart [limitReference] [limitIn "header", limitIn "query"]))
      (fun result => decide (result.1.map (fun operation => operation.parameters.map Parameter.key) =
        [[("limit", .query), ("limit", .header)]])) (by decide +kernel)
    obtain ⟨operation, rfl, pairs⟩ := List.map_eq_singleton_iff.mp (of_decide_eq_true shown)
    obtain ⟨item, members, shared, -, -, inherits⟩ :=
      (reads _ _).1 _ _ run
    obtain ⟨method, -, own, -, -⟩ := List.forall₂_cons_right_iff.mp inherits
    exact ⟨operation, later, item, shared, method, run, pairs, own⟩
  · obtain ⟨⟨⟨item, members⟩, between⟩, opened, shown⟩ := @exists_of_any _ _ (objectAt noLoader
      limitItem (limitStart [limitIn "query", limitReference] []))
      (fun object => ((parameterLocations object.1.1 object.1.2).mapM (readParameter noLoader)
        object.2).toOption.any fun (result : List Parameter × Construction) =>
          decide (result.1.map Parameter.key = [("limit", .query), ("limit", .query)]))
      (by decide +kernel)
    obtain ⟨⟨declared, later⟩, run, pairs⟩ := exists_of_any _ shown
    have pairs := of_decide_eq_true pairs
    have refuses := (reads _ _).2.1 item members between opened
    obtain ⟨before, p, after, rfl, -, -, failed⟩ := refuses.repeated _ [] declared later
      (List.append_nil _).symm run (by rw [pairs]; decide)
    have pair : p.key = ("limit", .query) := by
      have member : p.key ∈ (before ++ p :: after).map Parameter.key := by simp
      rw [pairs] at member
      simpa using member
    obtain ⟨name, location⟩ := Prod.mk.inj pair
    rw [failed, name, location]

theorem eq_error_of_match {ε α : Type} {result : Except ε α} {e : ε}
    (h : (match result with | .ok _ => none | .error e => some e) = some e) : result = .error e := by
  cases result with
  | ok a => cases h
  | error other => exact congrArg _ (Option.some.inj h)

/-- The name and the location that an entry writes. -/
def writtenPair? (entry : Value) : Option (String × String) := do
  let name ← (entry.member? "name").bind Value.text?
  let location ← (entry.member? "in").bind Value.text?
  return (name, location)

/-- Between two entries that declare the same pair, one that cannot be read is reported first. -/
theorem malformed_between_twins :
    let own := [limitIn "query", .object [], limitIn "query"]
    own.map writtenPair? = [some ("limit", "query"), none, some ("limit", "query")] ∧
      read noLoader treeBase (limitDocument [] own) =
        .error (.malformed "http:#/paths/~1pets/get/parameters/1" "parameter requires name") := by
  refine ⟨by decide, eq_error_of_match ?_⟩
  decide +kernel

end Description

end ApiContract
