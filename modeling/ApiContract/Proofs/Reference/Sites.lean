import ApiContract.Proofs.Json.Sameness
import ApiContract.Proofs.Reference.Finite
import Mathlib.Algebra.Group.Action.Defs
import Mathlib.Algebra.Ring.Nat
/-!
# Sites

The locations that several documents name. A string or a reference object in one of them may name a
location (`Documents.named?`), and from a location the tokens of a node lead to those of the nodes
below it (`Value.spread`). What is reached from a first location by following references, names of
components and tokens is one of the `sites`, of which there are finitely many
(`length_sites_le`), whichever of its spellings a location is written in.
-/

namespace ApiContract

open Json (Value)
open Location (addressed)
open Library (reference?)

namespace Json.Value

mutual

/-- The nodes of a value that stands at a location, each with the location that its tokens lead
to. -/
def spread : Value → Location → List (Location × Value)
  | array items, location => (location, array items) :: spreadItems items location 0
  | object members, location => (location, object members) :: spreadMembers members location
  | value, location => [(location, value)]

/-- The nodes of the items of an array from a position on. -/
def spreadItems : List Value → Location → Nat → List (Location × Value)
  | [], _, _ => []
  | x :: xs, location, i =>
    spread x (location.child (Decimal.integerText i)) ++ spreadItems xs location (i + 1)

/-- The nodes of the members of an object. -/
def spreadMembers : List (String × Value) → Location → List (Location × Value)
  | [], _ => []
  | (name, x) :: xs, location => spread x (location.child name) ++ spreadMembers xs location

end

mutual

theorem length_spread : ∀ (value : Value) (location : Location),
    (value.spread location).length = value.nodes
  | array items, location => by simp [spread, nodes, length_spreadItems items location 0]
  | object members, location => by simp [spread, nodes, length_spreadMembers members location]
  | null, _ => rfl
  | bool _, _ => rfl
  | number _, _ => rfl
  | string _, _ => rfl

theorem length_spreadItems : ∀ (items : List Value) (location : Location) (i : Nat),
    (spreadItems items location i).length = nodesOfItems items
  | [], _, _ => rfl
  | x :: xs, location, i => by
    simp [spreadItems, nodesOfItems, length_spread x, length_spreadItems xs location (i + 1)]

theorem length_spreadMembers : ∀ (members : List (String × Value)) (location : Location),
    (spreadMembers members location).length = nodesOfMembers members
  | [], _ => rfl
  | (name, x) :: xs, location => by
    simp [spreadMembers, nodesOfMembers, length_spread x, length_spreadMembers xs location]

end

theorem self_mem_spread (value : Value) (location : Location) :
    (location, value) ∈ value.spread location := by
  cases value <;> simp [spread]

theorem mem_spreadItems_iff {items : List Value} {location : Location} {start : Nat}
    {entry : Location × Value} : entry ∈ spreadItems items location start ↔
      ∃ (i : Nat) (item : Value), items[i]? = some item ∧
        entry ∈ item.spread (location.child (Decimal.integerText (start + i : Nat))) := by
  induction items generalizing start with
  | nil => simp [spreadItems]
  | cons first rest ih =>
    rw [spreadItems, List.mem_append, ih]
    constructor
    · rintro (own | ⟨i, item, found, later⟩)
      · exact ⟨0, first, rfl, own⟩
      · refine ⟨i + 1, item, found, ?_⟩
        rwa [show start + (i + 1) = start + 1 + i by omega]
    · rintro ⟨i, item, found, own⟩
      cases i with
      | zero =>
        cases found
        exact .inl own
      | succ i =>
        refine .inr ⟨i, item, found, ?_⟩
        rwa [show start + 1 + i = start + (i + 1) by omega]

theorem mem_spreadMembers_iff {members : Entries Value} {location : Location}
    {entry : Location × Value} : entry ∈ spreadMembers members location ↔
      ∃ member ∈ members, entry ∈ member.2.spread (location.child member.1) := by
  induction members with
  | nil => simp [spreadMembers]
  | cons first rest ih =>
    obtain ⟨name, value⟩ := first
    rw [spreadMembers, List.mem_append, ih, List.exists_mem_cons_iff]

/-- The nodes right below a value are among its nodes. -/
theorem mem_spread_of_children {value child : Value} {token : String} (location : Location)
    (h : (token, child) ∈ value.children) :
    (location.child token, child) ∈ value.spread location := by
  cases value with
  | array items =>
    obtain ⟨i, inside, same⟩ := List.mem_mapIdx.mp h
    obtain ⟨rfl, rfl⟩ := Prod.mk.inj same
    refine List.mem_cons_of_mem _ (mem_spreadItems_iff.mpr
      ⟨i, items[i], List.getElem?_eq_getElem inside, ?_⟩)
    rw [Nat.zero_add]
    exact self_mem_spread _ _
  | object members =>
    exact List.mem_cons_of_mem _ (mem_spreadMembers_iff.mpr ⟨_, h, self_mem_spread _ _⟩)
  | _ => cases h

/-- The nodes right below a node of a value are among the value's nodes. -/
theorem spread_closed (value : Value) {location place : Location} {node child : Value}
    {token : String} (h : (place, node) ∈ value.spread location)
    (below : (token, child) ∈ node.children) :
    (place.child token, child) ∈ value.spread location := by
  induction value using inductionOn generalizing location with
  | array items ih =>
    rcases List.mem_cons.mp h with same | inside
    · obtain ⟨rfl, rfl⟩ := Prod.mk.inj same
      exact mem_spread_of_children place below
    · obtain ⟨i, item, found, own⟩ := mem_spreadItems_iff.mp inside
      exact List.mem_cons_of_mem _ (mem_spreadItems_iff.mpr
        ⟨i, item, found, ih item (List.mem_of_getElem? found) own⟩)
  | object members ih =>
    rcases List.mem_cons.mp h with same | inside
    · obtain ⟨rfl, rfl⟩ := Prod.mk.inj same
      exact mem_spread_of_children place below
    · obtain ⟨member, present, own⟩ := mem_spreadMembers_iff.mp inside
      exact List.mem_cons_of_mem _ (mem_spreadMembers_iff.mpr
        ⟨member, present, ih member present own⟩)
  | _ =>
    obtain ⟨-, rfl⟩ := Prod.mk.inj (List.mem_singleton.mp h)
    cases below

end Json.Value

/-- Documents by their URLs. -/
abbrev Documents := List (Url × Value)

namespace Documents

variable {documents : Documents} {first location start : Location} {value node : Value}
  {origin : Origin} {library : Library} {absolute : Url} {target : Location} {n : Nat}

/-- The node at a location. -/
def node? (documents : Documents) (location : Location) : Option Value :=
  (documents.find? fun entry => entry.1 = location.document).bind fun entry =>
    Json.Pointer.navigate? entry.2 location.pointer

/-- The location that a node may name in the document at a URL: a string that of a reference or of a
component, a reference object that of its reference. -/
def named? (url : Url) : Value → Option Location
  | .string text =>
    if text.toList.contains '#' || text.toList.contains '/' then
      (url.join text).toOption.map addressed
    else some ((((Location.root url).child "components").child "schemas").child text)
  | node => (reference? node).bind fun reference => (url.join reference).toOption.map addressed

/-- A first location and all those that the documents name. -/
def starts (documents : Documents) (first : Location) : List Location :=
  first :: documents.flatMap fun entry => entry.2.subvalues.filterMap (named? entry.1)

/-- The locations that tokens lead to from a first location and from those that the documents name,
each with its node. -/
def sites (documents : Documents) (first : Location) : List (Location × Value) :=
  (documents.starts first).flatMap fun start =>
    ((documents.node? start).map fun node => node.spread start).getD []

/-! ### There are finitely many -/

/-- The number of nodes of several documents. -/
def size (documents : Documents) : Nat := Loader.nodesOf documents

theorem size_eq_sum (documents : Documents) :
    documents.size = (documents.map fun entry => entry.2.nodes).sum := by
  rw [size, Loader.nodesOf, List.sum_eq_foldl]

theorem length_starts_le (documents : Documents) (first : Location) :
    (documents.starts first).length ≤ documents.size + 1 := by
  rw [starts, List.length_cons, List.length_flatMap, size_eq_sum]
  refine Nat.succ_le_succ (List.sum_le_sum fun entry _ => ?_)
  exact (List.length_filterMap_le _ _).trans_eq (Value.length_subvalues entry.2)

theorem nodes_le_of_follow? {value node : Value} {tokens : List String}
    (h : Json.Pointer.follow? value tokens = some node) : node.nodes ≤ value.nodes := by
  induction tokens generalizing value with
  | nil =>
    cases h
    exact le_rfl
  | cons token rest ih =>
    obtain ⟨next, step, further⟩ := Option.bind_eq_some_iff.mp h
    exact (ih further).trans (Json.Pointer.nodes_le_of_step? step).le

theorem nodes_le_size (h : documents.node? location = some node) : node.nodes ≤ documents.size := by
  obtain ⟨entry, found, addressed⟩ := Option.bind_eq_some_iff.mp h
  have member : entry.2.nodes ∈ documents.map fun entry => entry.2.nodes :=
    List.mem_map_of_mem (List.mem_of_find?_eq_some found)
  rw [size_eq_sum]
  exact (nodes_le_of_follow? addressed).trans (List.single_le_sum (by simp) _ member)

/-- There are finitely many sites: no more than the nodes below each node and below the first
location. -/
theorem length_sites_le (documents : Documents) (first : Location) :
    (documents.sites first).length ≤ (documents.size + 1) * documents.size := by
  rw [sites, List.length_flatMap]
  have each : ∀ length ∈ (documents.starts first).map fun start =>
      (((documents.node? start).map fun node => node.spread start).getD []).length,
      length ≤ documents.size := by
    intro length member
    obtain ⟨start, -, rfl⟩ := List.mem_map.mp member
    cases there : documents.node? start with
    | none => exact Nat.zero_le _
    | some node =>
      rw [Option.map_some, Option.getD_some, Value.length_spread]
      exact nodes_le_size there
  refine (List.sum_le_card_nsmul _ _ each).trans ?_
  rw [List.length_map, smul_eq_mul]
  exact Nat.mul_le_mul_right _ (length_starts_le documents first)

/-! ### What is reached is a site -/

/-- A location is one of the sites, if there is a node. -/
def Sited (documents : Documents) (first location : Location) : Prop :=
  ∀ node, documents.node? location = some node → (location, node) ∈ documents.sites first

theorem sited_start (h : start ∈ documents.starts first) : documents.Sited first start := by
  intro node there
  refine List.mem_flatMap.mpr ⟨start, h, ?_⟩
  rw [there]
  exact Value.self_mem_spread node start

theorem sited_first (documents : Documents) (first : Location) : documents.Sited first first :=
  sited_start List.mem_cons_self

theorem node?_child (documents : Documents) (location : Location) (token : String) :
    documents.node? (location.child token) =
      (documents.node? location).bind fun node => Json.Pointer.step? node token := by
  simp only [node?, Location.child, Json.Pointer.navigate?_child, Option.bind_assoc]
  rfl

theorem Sited.child {token : String} (h : documents.Sited first location)
    (there : documents.node? location = some value)
    (below : ∀ node, Json.Pointer.step? value token = some node → (token, node) ∈ value.children) :
    documents.Sited first (location.child token) := by
  intro node found
  rw [node?_child, there, Option.bind_some] at found
  obtain ⟨start, member, spread⟩ := List.mem_flatMap.mp (h value there)
  refine List.mem_flatMap.mpr ⟨start, member, ?_⟩
  cases root : documents.node? start with
  | none =>
    rw [root] at spread
    cases spread
  | some top =>
    rw [root] at spread
    exact Value.spread_closed top spread (below node found)

/-- From an object any token leads to a site. -/
theorem Sited.member {members : Entries Value} (h : documents.Sited first location)
    (there : documents.node? location = some (.object members)) (name : String) :
    documents.Sited first (location.child name) :=
  h.child there fun _ found => Entries.mem_of_get? found

/-- From an array any position leads to a site. -/
theorem Sited.item {items : List Value} (h : documents.Sited first location)
    (there : documents.node? location = some (.array items)) (i : Nat) :
    documents.Sited first (location.child (Decimal.integerText i)) := by
  refine h.child there fun node found => ?_
  obtain ⟨j, read, item⟩ := Option.bind_eq_some_iff.mp found
  obtain rfl := Json.Pointer.index?_integerText read
  obtain ⟨inside, rfl⟩ := List.getElem?_eq_some_iff.mp item
  exact List.mem_mapIdx.mpr ⟨j, inside, rfl⟩

/-! ### References lead to sites -/

/-- All documents that there are, each once. -/
structure Complete (documents : Documents) (origin : Origin) : Prop where
  distinct : (documents.map Prod.fst).Nodup
  all : ∀ url value, url.WellFormed → origin.fetch url = .ok value → (url, value) ∈ documents

theorem node?_of_mem (h : documents.Complete origin) (member : (location.document, value) ∈ documents) :
    documents.node? location = Json.Pointer.navigate? value location.pointer := by
  unfold node?
  cases found : documents.find? fun entry => decide (entry.1 = location.document) with
  | none =>
    have := List.find?_eq_none.mp found _ member
    simp at this
  | some entry =>
    have same : entry.1 = location.document := by simpa using List.find?_some found
    have equal : entry = (location.document, value) :=
      List.inj_on_of_nodup_map h.distinct (List.mem_of_find?_eq_some found) member same
    rw [equal, Option.bind_some]

/-- What a library has, the documents have. -/
theorem Complete.node?_of_library (h : documents.Complete origin) (reflects : library.Reflects origin)
    (there : library.node? location = some node) : documents.node? location = some node := by
  obtain ⟨document, loaded, addressed⟩ := Option.bind_eq_some_iff.mp there
  obtain ⟨good, fetched⟩ := reflects.of_document? loaded
  rw [node?_of_mem h (h.all _ _ good fetched)]
  exact addressed

theorem Complete.node?_addressed (h : documents.Complete origin) (good : absolute.WellFormed)
    (there : origin.node absolute = .ok node) : documents.node? (addressed absolute) = some node := by
  unfold Origin.node at there
  split at there
  · cases there
  · next document fetched =>
    have member := h.all _ _ (Url.wellFormed_withoutFragment good) fetched
    rw [node?_of_mem h member]
    split at there
    · next found =>
      cases there
      exact found
    · cases there

/-- A node names a location that is one to start from, wherever it stands. -/
theorem mem_starts_of_named (first : Location) (there : documents.node? location = some value)
    (inside : node ∈ value.subvalues) (names : named? location.document node = some start) :
    start ∈ documents.starts first := by
  obtain ⟨entry, found, addressed⟩ := Option.bind_eq_some_iff.mp there
  have same : entry.1 = location.document := by simpa using List.find?_some found
  refine List.mem_cons_of_mem _
    (List.mem_flatMap.mpr ⟨entry, List.mem_of_find?_eq_some found, ?_⟩)
  rw [same]
  exact List.mem_filterMap.mpr
    ⟨node, Json.Pointer.subvalues_subset_of_navigate? addressed inside, names⟩

theorem named?_of_reference {url : Url} {reference : String} (h : reference? node = some reference)
    (joined : url.join reference = .ok absolute) : named? url node = some (addressed absolute) := by
  cases node with
  | string text => cases h
  | _ => simp [named?, h, joined, Except.toOption]

/-- Where a named location leads, another named location is. -/
theorem Complete.mem_starts_of_lands (h : documents.Complete origin)
    (named : addressed absolute ∈ documents.starts first) (good : absolute.WellFormed)
    (lands : origin.Lands n absolute target) : target ∈ documents.starts first := by
  induction lands with
  | here there plain => exact named
  | next there referring joined further ih =>
    refine ih ?_ (Url.wellFormed_of_join (Url.wellFormed_withoutFragment good) joined)
    exact mem_starts_of_named first (h.node?_addressed good there) (Value.self_mem_subvalues _)
      (named?_of_reference referring joined)

end Documents

/-! ### Where following references ends -/

/-- Following a reference to a location comes to where the reference lands. -/
theorem Origin.Follows.lands {origin : Origin} {chain : List String} {base : Url}
    {reference : String} {outcome : Except ReferenceError Location} {target : Location}
    (h : origin.Follows chain base reference outcome) (found : outcome = .ok target) :
    ∃ n absolute, base.join reference = .ok absolute ∧ origin.Lands n absolute target := by
  induction h with
  | invalid failed => cases found
  | cycle joined again => cases found
  | lost joined fresh missing => cases found
  | found joined fresh there plain =>
    cases found
    exact ⟨0, _, joined, .here there plain⟩
  | next joined fresh there referring further ih =>
    obtain ⟨n, next, onward, lands⟩ := ih found
    exact ⟨n + 1, _, joined, .next there referring onward lands⟩

namespace Library.Reflects

open Origin (Settled)

variable {library later : Library} {loader : Loader} {origin : Origin} {base : Url}
  {reference : String} {location target : Location}

/-- Resolving a reference to a location comes to where the reference lands. -/
theorem lands_resolve (h : library.Reflects origin) (load : loader.load = origin.load)
    (good : base.WellFormed) (run : library.resolve loader base reference = (.ok target, later)) :
    ∃ n absolute, base.join reference = .ok absolute ∧ origin.Lands n absolute target := by
  have follows := (h.resolve load good reference).2
  rw [run] at follows
  exact (follows (by rintro text ⟨⟩)).lands rfl

theorem settled_dereference (h : library.Reflects origin) (load : loader.load = origin.load)
    (truthful : loader.Truthful) (location : Location) :
    Settled (library.dereference loader location).1 := by
  unfold Library.dereference
  split
  · next reference found =>
    obtain ⟨node, there, -⟩ := Option.bind_eq_some_iff.mp found
    obtain ⟨document, loaded, -⟩ := Option.bind_eq_some_iff.mp there
    exact h.settled_resolve load truthful (h.of_document? loaded).1 reference
  · rintro text ⟨⟩

/-- Dereferencing leads from a site to a site. -/
theorem sited_dereference {documents : Documents} {first : Location} (h : library.Reflects origin)
    (load : loader.load = origin.load) (complete : documents.Complete origin)
    (sited : documents.Sited first location)
    (run : library.dereference loader location = (.ok target, later)) :
    documents.Sited first target := by
  unfold Library.dereference at run
  split at run
  · next reference found =>
    obtain ⟨node, there, referring⟩ := Option.bind_eq_some_iff.mp found
    obtain ⟨document, loaded, -⟩ := Option.bind_eq_some_iff.mp there
    have good := (h.of_document? loaded).1
    obtain ⟨n, absolute, joined, lands⟩ := h.lands_resolve load good run
    have named : addressed absolute ∈ documents.starts first :=
      Documents.mem_starts_of_named first (complete.node?_of_library h there)
        (Value.self_mem_subvalues _) (Documents.named?_of_reference referring joined)
    exact Documents.sited_start
      (complete.mem_starts_of_lands named (Url.wellFormed_of_join good joined) lands)
  · cases run
    exact sited

end Library.Reflects

end ApiContract
