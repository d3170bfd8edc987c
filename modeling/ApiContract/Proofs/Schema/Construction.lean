import ApiContract.Proofs.Reference.Library
import ApiContract.Proofs.Schema.Transcription
import Mathlib.Data.List.Forall2
import Mathlib.Data.List.Nodup
/-!
# Constructions

What holds of a construction while schemas are being built, and how steps of building are put
together. A position is given out before the schema is described, so at any time the schemas that
are being described are exempt from having been: `Sound pending` says that all others are. A step is
said to ensure something (`Build.Ensures`) when it keeps constructions sound, whichever schemas are
pending, and ends in one where that holds, there and in all later ones.
-/

namespace ApiContract

open Json (Value)

namespace Construction

variable {s later last : Construction} {pending : List SchemaId} {location target : Location}
  {id : SchemaId} {library : Library}

/-- A location leads to a schema that has been given a position. -/
def Located (s : Construction) (location : Location) (id : SchemaId) : Prop :=
  ∃ target, s.library.Leads location target ∧ (target, id) ∈ s.catalog.index

/-- The later construction has more documents and more schemas, with those that have positions in
their positions. -/
structure Grows (s later : Construction) : Prop where
  library : s.library.Extends later.library
  index : s.catalog.index ⊆ later.catalog.index

namespace Grows

theorem refl (s : Construction) : s.Grows s := ⟨.refl _, List.Subset.refl _⟩

theorem trans (first : s.Grows later) (second : later.Grows last) : s.Grows last :=
  ⟨first.library.trans second.library, List.Subset.trans first.index second.index⟩

theorem located (h : s.Grows later) (there : s.Located location id) : later.Located location id := by
  obtain ⟨target, leads, indexed⟩ := there
  exact ⟨target, leads.mono h.library, h.index indexed⟩

end Grows

/-- A schema has been given a position. -/
def Has (s : Construction) (id : SchemaId) : Prop := ∃ location, (location, id) ∈ s.catalog.index

theorem Located.has (h : s.Located location id) : s.Has id := by
  obtain ⟨target, -, indexed⟩ := h
  exact ⟨target, indexed⟩

/-- What holds of a construction: positions are given out one after the other and each to one
location, where there is a node, and the schemas that are not pending have been described. -/
structure Sound (pending : List SchemaId) (s : Construction) : Prop where
  ids : s.catalog.index.map Prod.snd = (List.range s.catalog.size).reverse
  locations : (s.catalog.index.map Prod.fst).Nodup
  nodes : ∀ entry ∈ s.catalog.index, (s.library.node? entry.1).isSome = true
  unmerged : ∀ id, (s.catalog.descriptor id).merged = none
  described : ∀ entry ∈ s.catalog.index, entry.2 ∉ pending →
    ∃ node, s.library.node? entry.1 = some node ∧
      Descriptor.Records s.library s.Located entry.1 node (s.catalog.descriptor entry.2)

theorem sound_empty (library : Library) : Sound [] ⟨library, .empty⟩ where
  ids := rfl
  locations := List.nodup_nil
  nodes := by simp [Catalog.empty]
  unmerged _ := rfl
  described := by simp [Catalog.empty]

namespace Sound

theorem lt_size (h : s.Sound pending) (indexed : (location, id) ∈ s.catalog.index) :
    id < s.catalog.size := by
  have member : id ∈ s.catalog.index.map Prod.snd := List.mem_map.mpr ⟨_, indexed, rfl⟩
  rw [h.ids, List.mem_reverse] at member
  exact List.mem_range.mp member

theorem exists_location (h : s.Sound pending) (inside : id < s.catalog.size) :
    ∃ location, (location, id) ∈ s.catalog.index := by
  have member : id ∈ s.catalog.index.map Prod.snd := by
    rw [h.ids, List.mem_reverse]
    exact List.mem_range.mpr inside
  obtain ⟨⟨location, _⟩, indexed, rfl⟩ := List.mem_map.mp member
  exact ⟨location, indexed⟩

theorem location_unique (h : s.Sound pending) (one : (location, id) ∈ s.catalog.index)
    (other : (target, id) ∈ s.catalog.index) : location = target := by
  have distinct : (s.catalog.index.map Prod.snd).Nodup := by
    rw [h.ids]
    exact List.nodup_reverse.mpr List.nodup_range
  exact congrArg Prod.fst (List.inj_on_of_nodup_map distinct one other rfl)

theorem find?_eq_some_iff (h : s.Sound pending) :
    s.catalog.find? location = some id ↔ (location, id) ∈ s.catalog.index := by
  unfold Catalog.find?
  constructor
  · intro found
    obtain ⟨⟨other, _⟩, first, rfl⟩ := Option.map_eq_some_iff.mp found
    have same : other = location := by simpa using List.find?_some first
    rw [← same]
    exact List.mem_of_find?_eq_some first
  · intro indexed
    cases found : s.catalog.index.find? fun entry => decide (entry.1 = location) with
    | none =>
      have := List.find?_eq_none.mp found _ indexed
      simp at this
    | some entry =>
      have same : entry.1 = location := by simpa using List.find?_some found
      have equal : entry = (location, id) :=
        List.inj_on_of_nodup_map h.locations (List.mem_of_find?_eq_some found) indexed same
      rw [equal]
      rfl

/-- More documents leave a construction sound. -/
theorem withLibrary (h : s.Sound pending) (growth : s.library.Extends library) :
    Sound pending { s with library := library } where
  ids := h.ids
  locations := h.locations
  nodes entry member := by
    obtain ⟨node, found⟩ := Option.isSome_iff_exists.mp (h.nodes entry member)
    exact Option.isSome_iff_exists.mpr ⟨node, growth.node? found⟩
  unmerged := h.unmerged
  described entry member done := by
    have grows : s.Grows { s with library := library } := ⟨growth, List.Subset.refl _⟩
    obtain ⟨node, found, records⟩ := h.described entry member done
    exact ⟨node, growth.node? found, records.mono (fun _ _ => grows.located) growth.resolved⟩

theorem grows_reserve (s : Construction) (location : Location) :
    s.Grows { s with catalog := s.catalog.reserve location } :=
  ⟨.refl _, List.subset_cons_self _ _⟩

/-- Giving out a position for a schema leaves that schema to be described. -/
theorem reserve (h : s.Sound pending) (fresh : s.catalog.find? location = none)
    (there : (s.library.node? location).isSome = true) :
    Sound (s.catalog.size :: pending) { s with catalog := s.catalog.reserve location } where
  ids := by
    rw [Catalog.size_reserve, List.range_succ, List.reverse_append, ← h.ids]
    rfl
  locations := by
    refine List.nodup_cons.mpr ⟨?_, h.locations⟩
    intro member
    obtain ⟨⟨_, id⟩, indexed, rfl⟩ := List.mem_map.mp member
    rw [h.find?_eq_some_iff.mpr indexed] at fresh
    cases fresh
  nodes entry member := by
    rcases List.mem_cons.mp member with rfl | member
    · exact there
    · exact h.nodes entry member
  unmerged id := by
    have same := h.unmerged id
    unfold Catalog.descriptor Catalog.reserve at *
    rw [Array.getElem?_push]
    split
    · rfl
    · exact same
  described entry member done := by
    rcases List.mem_cons.mp member with rfl | member
    · exact absurd List.mem_cons_self done
    · have described := h.described entry member fun known => done (List.mem_cons_of_mem _ known)
      obtain ⟨node, found, records⟩ := described
      have inside : entry.2 < s.catalog.descriptors.size := h.lt_size member
      have same : (s.catalog.reserve location).descriptor entry.2 = s.catalog.descriptor entry.2 := by
        unfold Catalog.descriptor Catalog.reserve
        rw [Array.getElem?_push_lt inside, Array.getElem?_eq_getElem inside]
      refine ⟨node, found, ?_⟩
      rw [same]
      exact records.mono (fun _ _ => (grows_reserve s location).located) fun _ _ known => known

/-- Describing a schema makes an end of its being pending. -/
theorem set {node : Value} {d : Descriptor} (h : s.Sound (id :: pending))
    (indexed : (location, id) ∈ s.catalog.index) (there : s.library.node? location = some node)
    (records : Descriptor.Records s.library s.Located location node d) (unmerged : d.merged = none) :
    Sound pending { s with catalog := s.catalog.set id d } where
  ids := by
    rw [Catalog.size_set]
    exact h.ids
  locations := h.locations
  nodes := h.nodes
  unmerged other := by
    rw [Catalog.descriptor_set _ _ _ _ (h.lt_size indexed)]
    split
    · exact unmerged
    · exact h.unmerged other
  described entry member done := by
    rw [Catalog.descriptor_set _ _ _ _ (h.lt_size indexed)]
    by_cases own : entry.2 = id
    · have another : (entry.1, id) ∈ s.catalog.index := by
        rw [← own]
        exact member
      have same : entry.1 = location := h.location_unique another indexed
      rw [if_pos own, same]
      exact ⟨node, there, records⟩
    · rw [if_neg own]
      refine h.described entry member ?_
      intro known
      rcases List.mem_cons.mp known with same | known
      · exact own same
      · exact done known

end Sound

end Construction

namespace Build

variable {α β : Type} {P : α → Construction → Prop} {Q : β → Construction → Prop}

/-- A step that succeeds keeps constructions sound and ends in one where something holds, there and
in all later ones. -/
def Ensures (step : Build α) (post : α → Construction → Prop) : Prop :=
  ∀ pending s a later, step s = .ok (a, later) → s.Sound pending →
    later.Sound pending ∧ s.Grows later ∧ ∀ last, later.Grows last → post a last

theorem exists_of_bind_eq_ok {x : Build α} {f : α → Build β} {s later : Construction} {b : β}
    (h : (x >>= f) s = .ok (b, later)) :
    ∃ a between, x s = .ok (a, between) ∧ f a between = .ok (b, later) := by
  change Except.bind (x s) (fun result => f result.1 result.2) = _ at h
  cases first : x s with
  | error e =>
    rw [first] at h
    cases h
  | ok result =>
    rw [first] at h
    exact ⟨result.1, result.2, rfl, h⟩

theorem exists_of_withLibrary_eq_ok {operation : Library → Except ReferenceError α × Library}
    {s later : Construction} {a : α} (h : Build.withLibrary operation s = .ok (a, later)) :
    ∃ library, operation s.library = (.ok a, library) ∧ later = { s with library := library } := by
  unfold Build.withLibrary at h
  split at h
  · next library done =>
    cases h
    exact ⟨library, done, rfl⟩
  · cases h

namespace Ensures

/-- What a step returns without doing anything. -/
theorem pure {a : α} (h : ∀ s, P a s) : Ensures (Pure.pure a) P := by
  intro pending s b later run sound
  cases run
  exact ⟨sound, .refl s, fun last _ => h last⟩

theorem fail (error : DefinitionError) : Ensures (Build.fail error) P := by
  intro pending s b later run sound
  cases run

/-- One step after another: what the first ensures may be used for what both do. -/
theorem bind {x : Build α} {f : α → Build β} (first : Ensures x P)
    (second : ∀ a, Ensures (f a) fun b s => P a s → Q b s) : Ensures (x >>= f) Q := by
  intro pending s b last run sound
  obtain ⟨a, between, run, rest⟩ := exists_of_bind_eq_ok run
  obtain ⟨sound, grows, holds⟩ := first pending s a between run sound
  obtain ⟨sound, further, implied⟩ := second a pending between b last rest sound
  refine ⟨sound, grows.trans further, ?_⟩
  intro later after
  exact implied later after (holds later (further.trans after))

theorem map {x : Build α} (f : α → β) (h : Ensures x fun a s => Q (f a) s) :
    Ensures (f <$> x) Q := by
  rw [map_eq_pure_bind]
  exact h.bind fun a => .pure fun _ holds => holds

/-- One of two steps and then another. -/
theorem bindEither {c : Prop} [Decidable c] {x y : Build α} {f : α → Build β}
    (one : Ensures x P) (other : Ensures y P)
    (second : ∀ a, Ensures (f a) fun b s => P a s → Q b s) :
    Ensures (if c then x >>= f else y >>= f) Q := by
  split
  · exact one.bind second
  · exact other.bind second

theorem mono {x : Build α} {R : α → Construction → Prop} (h : Ensures x P)
    (weaker : ∀ a s, P a s → R a s) : Ensures x R := by
  intro pending s a later run sound
  obtain ⟨sound, grows, holds⟩ := h pending s a later run sound
  exact ⟨sound, grows, fun last after => weaker a last (holds last after)⟩

/-- A step for each element of a list. -/
theorem mapM {f : α → Build β} {R : α → β → Construction → Prop} {l : List α}
    (h : ∀ x ∈ l, Ensures (f x) (R x)) :
    Ensures (l.mapM f) fun results s => List.Forall₂ (fun x y => R x y s) l results := by
  induction l with
  | nil =>
    rw [List.mapM_nil]
    exact .pure fun _ => .nil
  | cons x rest ih =>
    rw [List.mapM_cons]
    refine .bind (h x List.mem_cons_self) fun y => ?_
    refine .bind (ih fun other member => h other (List.mem_cons_of_mem _ member)) fun ys => ?_
    exact .pure fun s tail head => .cons head tail

/-- A step for each element of a list, where each ensures the same of its result. -/
theorem mapM_forall {f : α → Build β} {l : List α} (h : ∀ x ∈ l, Ensures (f x) Q) :
    Ensures (l.mapM f) fun results s => ∀ y ∈ results, Q y s := by
  refine (Ensures.mapM h).mono ?_
  intro results s all
  induction all with
  | nil => simp
  | cons head _ ih =>
    exact List.forall_mem_cons.mpr ⟨head, ih fun x member => h x (List.mem_cons_of_mem _ member)⟩

theorem withLibrary {operation : Library → Except ReferenceError α × Library}
    (h : ∀ library a later, operation library = (.ok a, later) → library.Extends later) :
    Ensures (Build.withLibrary operation) fun _ _ => True := by
  intro pending s a later run sound
  obtain ⟨library, done, rfl⟩ := exists_of_withLibrary_eq_ok run
  have growth := h _ _ _ done
  exact ⟨sound.withLibrary growth, ⟨growth, List.Subset.refl _⟩, fun _ _ => trivial⟩

/-- A reference that has been followed leads where it was found to. -/
theorem resolve (loader : Loader) (base : Url) (reference : String) :
    Ensures (Build.resolve loader base reference) fun target s =>
      ∃ absolute, base.join reference = .ok absolute ∧
        Entries.get? absolute.text s.library.resolved = some target := by
  intro pending s target later run sound
  obtain ⟨library, done, rfl⟩ := exists_of_withLibrary_eq_ok run
  obtain ⟨growth, -, absolute, joined, known⟩ := Library.follow_spec done (by simp)
  refine ⟨sound.withLibrary growth, ⟨growth, List.Subset.refl _⟩, fun last after => ?_⟩
  exact ⟨absolute, joined, after.library.resolved _ _ known⟩

theorem object (location : Location) : Ensures (Build.object location) fun _ _ => True := by
  refine .withLibrary fun library a later done => ?_
  obtain ⟨-, rfl⟩ := Prod.mk.inj done
  exact .refl library

end Ensures

end Build

end ApiContract
