import ApiContract.Proofs.Reference.Caching
import Mathlib.Data.List.Dedup
/-!
# Finitely many documents

A loader that gives documents at finitely many URLs has a bound on their nodes, though it need not
say it. `Loader.Gives` lists what it gives; whatever bound is large enough for the documents of the
list makes the loader truthful (`truthful_bounded`).
-/

namespace ApiContract

open Json (Value)

namespace Loader

variable {loader : Loader} {documents : List (Url × Value)}

/-- The loader gives documents at finitely many URLs. -/
def Finite (loader : Loader) : Prop :=
  ∃ served : List Url, ∀ url value, url.WellFormed → loader.load url = .ok value → url ∈ served

/-- The documents that the loader gives. -/
structure Gives (loader : Loader) (documents : List (Url × Value)) : Prop where
  distinct : (documents.map Prod.fst).Nodup
  wellFormed : ∀ entry ∈ documents, entry.1.WellFormed
  given : ∀ entry ∈ documents, loader.load entry.1 = .ok entry.2
  complete : ∀ url value, url.WellFormed → loader.load url = .ok value → (url, value) ∈ documents

open Classical in
theorem Finite.exists_gives (h : loader.Finite) : ∃ documents, loader.Gives documents := by
  obtain ⟨served, listed⟩ := h
  let found (url : Url) : Option (Url × Value) :=
    if url.WellFormed then (loader.load url).toOption.map fun value => (url, value) else none
  have spec (url : Url) (entry : Url × Value) :
      found url = some entry ↔
        url = entry.1 ∧ entry.1.WellFormed ∧ loader.load entry.1 = .ok entry.2 := by
    obtain ⟨other, value⟩ := entry
    simp only [found]
    by_cases good : url.WellFormed
    · rw [if_pos good]
      cases loads : loader.load url with
      | error cause => grind [Except.toOption]
      | ok document => grind [Except.toOption]
    · rw [if_neg good]
      grind
  refine ⟨served.dedup.filterMap found, ?_, ?_, ?_, ?_⟩
  · -- An entry stands at the URL that it was found for.
    have urls (url : Url) : (found url).map Prod.fst = (found url).map fun _ => url := by
      cases own : found url with
      | none => rfl
      | some entry => simp [((spec url entry).mp own).1]
    rw [List.map_filterMap]
    refine List.Nodup.filterMap ?_ (List.nodup_dedup served)
    intro first second url one two
    rw [urls, Option.mem_def, Option.map_eq_some_iff] at one two
    obtain ⟨_, -, rfl⟩ := one
    obtain ⟨_, -, rfl⟩ := two
    rfl
  · intro entry member
    obtain ⟨url, -, own⟩ := List.mem_filterMap.mp member
    exact ((spec url entry).mp own).2.1
  · intro entry member
    obtain ⟨url, -, own⟩ := List.mem_filterMap.mp member
    exact ((spec url entry).mp own).2.2
  · intro url value good loads
    exact List.mem_filterMap.mpr
      ⟨url, List.mem_dedup.mpr (listed url value good loads), (spec url _).mpr ⟨rfl, good, loads⟩⟩

/-- The number of nodes of several documents. -/
def nodesOf (documents : List (Url × Value)) : Nat :=
  (documents.map fun entry => entry.2.nodes).foldl (· + ·) 0

theorem Gives.truthful_bounded (h : loader.Gives documents) {capacity : Nat}
    (enough : nodesOf documents ≤ capacity) : (loader.bounded capacity).Truthful := by
  intro served distinct given
  have among : served ⊆ documents := by
    intro entry member
    obtain ⟨good, loads⟩ := given entry member
    exact h.complete entry.1 entry.2 good loads
  exact (foldl_map_le_of_subset _ distinct.of_map among).trans enough

open Classical in
/-- A URL is known by its text, so a table of texts serves documents at finitely many URLs. -/
theorem finite_of_texts {loader : Loader} (texts : List String)
    (listed : ∀ url value, loader.load url = .ok value → url.text ∈ texts) : loader.Finite := by
  let urlOf (text : String) : Option Url :=
    if named : ∃ url : Url, url.WellFormed ∧ url.text = text then some named.choose else none
  refine ⟨texts.filterMap urlOf, ?_⟩
  intro url value good loads
  refine List.mem_filterMap.mpr ⟨url.text, listed url value loads, ?_⟩
  have named : ∃ other : Url, other.WellFormed ∧ other.text = url.text := ⟨url, good, rfl⟩
  obtain ⟨goodOther, same⟩ := named.choose_spec
  simp only [urlOf, dif_pos named]
  rw [Url.text_inj goodOther good same]

theorem finite_ofStored (documents : List (String × StoredDocument)) :
    (ofStored documents).Finite := by
  let table := Entries.ofPairs (documents.map fun entry => (beforeFragment entry.1, entry.2))
  refine finite_of_texts table.keys fun url value loads => ?_
  simp only [ofStored] at loads
  split at loads
  · next document found => exact Entries.get?_isSome_iff.mp (Option.isSome_of_mem found)
  · cases loads

end Loader

end ApiContract
