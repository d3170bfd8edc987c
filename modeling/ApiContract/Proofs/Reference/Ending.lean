import ApiContract.Proofs.Json.Pointer
import ApiContract.Proofs.Reference.Reflection
import ApiContract.Source.Document
import Mathlib.Algebra.Order.BigOperators.Group.List
import Mathlib.Algebra.Order.Group.Nat
import Mathlib.Data.List.Nodup
import Mathlib.Data.List.Perm.Subperm
/-!
# Following references to an end

A loader is truthful when its documents have no more nodes than it says. With such a loader the steps
that `resolve` allows always suffice (`Library.Reflects.settled_resolve`): every reference that is
followed after the first one stands in a node of a document that is there, and none comes up twice.
Loaders of documents at hand are truthful (`truthful_ofStored`).
-/

namespace ApiContract

open Json (Value)

/-- All documents that the loader gives, at different URLs, have together no more nodes than it
says. -/
def Loader.Truthful (loader : Loader) : Prop :=
  ∀ documents : List (Url × Value), (documents.map Prod.fst).Nodup →
    (∀ entry ∈ documents, entry.1.WellFormed ∧ loader.load entry.1 = .ok entry.2) →
    (documents.map fun entry => entry.2.nodes).foldl (· + ·) 0 ≤ loader.capacity

namespace Library

open Origin (Settled)

variable {library later : Library} {loader : Loader} {origin : Origin} {chain : List String}
  {base : Url} {reference key : String}

/-! ### The size of a library -/

theorem Reflects.exists_size_eq (h : library.Reflects origin) :
    ∃ loaded, origin.Serves loaded ∧ library.size =
      origin.document.nodes + (loaded.map fun entry => entry.2.nodes).foldl (· + ·) 0 := by
  obtain ⟨loaded, documents, serves⟩ := h.documents
  refine ⟨loaded, serves, ?_⟩
  rw [size, documents, ← List.sum_eq_foldl, ← List.sum_eq_foldl, List.map_cons, List.sum_cons]

theorem Reflects.size_le (h : library.Reflects origin) (load : loader.load = origin.load)
    (truthful : loader.Truthful) : library.size ≤ origin.document.nodes + loader.capacity := by
  obtain ⟨loaded, serves, size⟩ := h.exists_size_eq
  rw [size]
  refine Nat.add_le_add_left (truthful loaded serves.distinct fun entry member => ?_) _
  exact ⟨serves.wellFormed entry member, by rw [load, serves.given entry member]⟩

theorem Reflects.le_size (h : library.Reflects origin) : origin.document.nodes ≤ library.size := by
  obtain ⟨loaded, -, size⟩ := h.exists_size_eq
  rw [size]
  exact Nat.le_add_right _ _

/-! ### The references that stand in documents -/

/-- An absolute reference stands in a document of the library. -/
def Offers (library : Library) (key : String) : Prop :=
  ∃ location node reference absolute, library.node? location = some node ∧
    reference? node = some reference ∧ location.document.join reference = .ok absolute ∧
    absolute.text = key

theorem Offers.mono (h : library.Offers key) (growth : library.Extends later) :
    later.Offers key := by
  obtain ⟨location, node, reference, absolute, found, stands⟩ := h
  exact ⟨location, node, reference, absolute, growth.node? found, stands⟩

/-- The absolute references of a document at a URL. -/
def referencesOf (url : Url) (document : Value) : List String :=
  document.subvalues.filterMap fun node =>
    (reference? node).bind fun reference => (url.join reference).toOption.map Url.text

/-- The absolute references of all documents that are there. -/
def references (library : Library) : List String :=
  library.documents.flatMap fun entry => referencesOf entry.1 entry.2

theorem length_references_le (library : Library) : library.references.length ≤ library.size := by
  rw [references, List.length_flatMap, size, ← List.sum_eq_foldl]
  refine List.sum_le_sum fun entry _ => ?_
  exact (List.length_filterMap_le _ _).trans_eq (Value.length_subvalues entry.2)

theorem Offers.mem_references (h : library.Offers key) : key ∈ library.references := by
  obtain ⟨location, node, reference, absolute, found, stands, joined, rfl⟩ := h
  obtain ⟨document, there, addressed⟩ := Option.bind_eq_some_iff.mp found
  refine List.mem_flatMap.mpr ⟨_, mem_of_document? there, List.mem_filterMap.mpr ⟨node, ?_, ?_⟩⟩
  · exact Json.Pointer.mem_subvalues_of_navigate? addressed
  · simp [stands, joined, Except.toOption]

/-- Following references that do not repeat comes to an end: there are not more of them than nodes. -/
theorem Reflects.settled_follow_of_truthful (h : library.Reflects origin)
    (load : loader.load = origin.load) (truthful : loader.Truthful) {fuel : Nat}
    (enough : origin.document.nodes + loader.capacity + 2 ≤ fuel + chain.length)
    (good : base.WellFormed) (distinct : chain.Nodup)
    (offered : ∀ key ∈ chain.tail, library.Offers key)
    (stands : chain ≠ [] → ∀ absolute, base.join reference = .ok absolute →
      library.Offers absolute.text) :
    Settled (Library.follow loader fuel library chain base reference).1 := by
  induction fuel generalizing library chain base reference with
  | zero =>
    have among : chain.tail ⊆ library.references := fun key member =>
      (offered key member).mem_references
    have few := ((distinct.sublist (List.tail_sublist chain)).subperm among).length_le
    have := library.length_references_le
    have := h.size_le load truthful
    rw [List.length_tail] at few
    omega
  | succ fuel ih =>
    cases joined : base.join reference with
    | error cause =>
      rw [follow_invalid joined]
      rintro text ⟨⟩
    | ok absolute =>
      cases known : Entries.get? absolute.text library.resolved with
      | some location =>
        rw [follow_known joined known]
        rintro text ⟨⟩
      | none =>
        by_cases again : absolute.text ∈ chain
        · rw [follow_again joined known again]
          rintro text ⟨⟩
        obtain ⟨between, reflects, growth, there, step⟩ := h.follow_step load good joined known again
        rw [step]
        cases node : origin.node absolute with
        | error failure => exact Origin.settled_of_node node
        | ok value =>
          simp only
          cases referring : reference? value with
          | none => rintro text ⟨⟩
          | some next =>
            refine ih reflects ?_ ?_ ?_ ?_ ?_
            · rw [List.length_append, List.length_singleton]
              omega
            · exact Url.wellFormed_withoutFragment (Url.wellFormed_of_join good joined)
            · exact List.concat_eq_append ▸ distinct.concat again
            · intro key member
              cases chain with
              | nil => cases member
              | cons first rest =>
                rw [List.cons_append, List.tail_cons] at member
                rcases List.mem_append.mp member with before | now
                · exact (offered key before).mono growth
                · rw [List.mem_singleton.mp now]
                  exact (stands (by simp) absolute joined).mono growth
            · intro _ following onward
              exact ⟨_, value, next, following, there value node, referring, onward, rfl⟩

theorem Reflects.settled_resolve (h : library.Reflects origin) (load : loader.load = origin.load)
    (truthful : loader.Truthful) (good : base.WellFormed) (reference : String) :
    Settled (library.resolve loader base reference).1 := by
  refine h.settled_follow_of_truthful load truthful ?_ good List.nodup_nil (by simp) (by simp)
  have := h.le_size
  rw [stepLimit, List.length_nil]
  omega

end Library

/-! ### Documents at hand -/

theorem foldl_map_le_of_subset {α : Type} (f : α → Nat) {as bs : List α} (distinct : as.Nodup)
    (among : as ⊆ bs) : (as.map f).foldl (· + ·) 0 ≤ (bs.map f).foldl (· + ·) 0 := by
  obtain ⟨cs, same, part⟩ := distinct.subperm among
  rw [← List.sum_eq_foldl, ← List.sum_eq_foldl, ← (same.map f).sum_eq]
  exact (part.map f).sum_le_sum fun _ _ => Nat.zero_le _

/-- The number of nodes of the document that a table has at a URL's text. -/
def nodesAt (table : Entries StoredDocument) (text : String) : Nat :=
  ((Entries.get? text table).map StoredDocument.nodes).getD 0

theorem map_nodesAt {table : Entries StoredDocument} (distinct : table.keys.Nodup) :
    table.keys.map (nodesAt table) = table.values.map StoredDocument.nodes := by
  rw [Entries.keys, Entries.values, List.map_map, List.map_map]
  refine List.map_congr_left fun entry member => ?_
  simp [nodesAt, Entries.get?_of_mem distinct member]

/-- A URL is known by its text, so that a document of a table is counted once for each URL that it is
at. -/
theorem truthful_of_table {table : Entries StoredDocument} (distinct : table.keys.Nodup)
    {loader : Loader}
    (stored : ∀ url value, loader.load url = .ok value →
      ∃ document, Entries.get? url.text table = some document ∧ document.read = .ok value)
    (capacity : loader.capacity = (table.values.map StoredDocument.nodes).foldl (· + ·) 0) :
    loader.Truthful := by
  intro served distinctUrls given
  have counted : ∀ entry ∈ served,
      entry.1.text ∈ table.keys ∧ entry.2.nodes = nodesAt table entry.1.text := by
    intro entry member
    obtain ⟨document, found, read⟩ := stored entry.1 entry.2 (given entry member).2
    refine ⟨Entries.get?_isSome_iff.mp (by rw [found]; rfl), ?_⟩
    simp [nodesAt, found, StoredDocument.nodes, read]
  have texts : (served.map fun entry => entry.1.text).Nodup := by
    refine List.Nodup.map_on (fun a memberA b memberB same => ?_) distinctUrls.of_map
    exact List.inj_on_of_nodup_map distinctUrls memberA memberB
      (Url.text_inj (given a memberA).1 (given b memberB).1 same)
  have among : (served.map fun entry => entry.1.text) ⊆ table.keys := by
    intro text member
    obtain ⟨entry, listed, rfl⟩ := List.mem_map.mp member
    exact (counted entry listed).1
  have nodes : (served.map fun entry => entry.2.nodes) =
      (served.map fun entry => entry.1.text).map (nodesAt table) := by
    rw [List.map_map]
    exact List.map_congr_left fun entry member => (counted entry member).2
  rw [capacity, nodes, ← map_nodesAt distinct]
  exact foldl_map_le_of_subset _ texts among

theorem truthful_ofStored (documents : List (String × StoredDocument)) :
    (Loader.ofStored documents).Truthful := by
  refine truthful_of_table (Entries.nodup_keys_ofPairs _) (fun url value loads => ?_) rfl
  simp only [Loader.ofStored] at loads
  split at loads
  · next document found => exact ⟨document, found, loads⟩
  · cases loads

end ApiContract
