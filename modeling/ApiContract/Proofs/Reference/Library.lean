import ApiContract.Reference.Library
/-!
# Growing libraries

Following references adds to a library and takes nothing away: documents stay as they were loaded,
and what a reference has been found to lead to stays so (`Extends`). Where a location leads
(`Leads`) is thus settled once it has been dereferenced: any later library says the same, and without
loading or recording anything (`Leads.dereference`).
-/

namespace ApiContract

open Json (Value)

namespace Library

variable {library later last : Library} {loader : Loader}

/-- The later library has the documents of the earlier one, and its references lead where they
led. -/
structure Extends (library later : Library) : Prop where
  documents : ∀ url value, library.document? url = some value → later.document? url = some value
  resolved : ∀ key location, Entries.get? key library.resolved = some location →
    Entries.get? key later.resolved = some location

namespace Extends

theorem refl (library : Library) : library.Extends library :=
  ⟨fun _ _ found => found, fun _ _ found => found⟩

theorem trans (first : library.Extends later) (second : later.Extends last) :
    library.Extends last :=
  ⟨fun url value found => second.documents url value (first.documents url value found),
    fun key location found => second.resolved key location (first.resolved key location found)⟩

theorem node? (h : library.Extends later) {location : Location} {node : Value}
    (found : library.node? location = some node) : later.node? location = some node := by
  obtain ⟨document, loaded, followed⟩ := Option.bind_eq_some_iff.mp found
  exact Option.bind_eq_some_iff.mpr ⟨document, h.documents _ _ loaded, followed⟩

end Extends

theorem get?_remember (library : Library) (keys : List String) (location : Location)
    (key : String) :
    Entries.get? key (library.remember keys location).resolved =
      if key ∈ keys then some location else Entries.get? key library.resolved := by
  have general (resolved : Entries Location) :
      Entries.get? key (keys.foldl (fun resolved key => Entries.put key location resolved) resolved) =
        if key ∈ keys then some location else Entries.get? key resolved := by
    induction keys generalizing resolved with
    | nil => simp
    | cons first rest ih =>
      rw [List.foldl_cons, ih, Entries.get?_put]
      by_cases later : key ∈ rest
      · simp [later]
      · by_cases same : key = first <;> simp [later, same]
  exact general library.resolved

/-- Recording where references lead that have not been followed before. -/
theorem extends_remember {keys : List String} (location : Location)
    (fresh : ∀ key ∈ keys, Entries.get? key library.resolved = none) :
    library.Extends (library.remember keys location) where
  documents _ _ loaded := loaded
  resolved key target found := by
    have other : key ∉ keys := by
      intro member
      rw [fresh key member] at found
      cases found
    rw [get?_remember, if_neg other]
    exact found

theorem fetch_spec (library : Library) (loader : Loader) (document : Url) :
    library.Extends (library.fetch loader document).2 ∧
      (library.fetch loader document).2.resolved = library.resolved := by
  unfold fetch
  split
  · exact ⟨.refl library, rfl⟩
  · next missing =>
    cases loader.load document with
    | error cause => exact ⟨⟨fun _ _ found => found, fun _ _ found => found⟩, rfl⟩
    | ok value =>
      refine ⟨⟨?_, fun _ _ found => found⟩, rfl⟩
      intro url known found
      simp only [document?, List.find?_append] at found ⊢
      obtain ⟨entry, first, rfl⟩ := Option.map_eq_some_iff.mp found
      rw [first]
      rfl

theorem locate_spec {absolute : Url} {outcome : Except ReferenceError Location}
    (h : library.locate loader absolute = (outcome, later)) :
    library.Extends later ∧ later.resolved = library.resolved := by
  have spec := library.fetch_spec loader absolute.withoutFragment
  simp only [locate] at h
  split at h
  · next failed =>
    rw [failed] at spec
    cases h
    exact spec
  · next fetched =>
    rw [fetched] at spec
    split at h <;> cases h <;> exact spec

/-- Following a reference extends the library, and records where it leads and where those lead that
were followed before it. -/
theorem follow_spec {fuel : Nat} {chain : List String} {base : Url} {reference : String}
    {location : Location} (h : follow loader fuel library chain base reference = (.ok location, later))
    (fresh : ∀ key ∈ chain, Entries.get? key library.resolved = none) :
    library.Extends later ∧
      (∀ key ∈ chain, Entries.get? key later.resolved = some location) ∧
      ∃ absolute, base.join reference = .ok absolute ∧
        Entries.get? absolute.text later.resolved = some location := by
  induction fuel generalizing library chain base reference with
  | zero => cases h
  | succ fuel ih =>
    rw [follow] at h
    split at h
    · cases h
    next absolute joined =>
    simp only at h
    split at h
    · next known found =>
      cases h
      refine ⟨extends_remember location fresh, ?_, absolute, joined, ?_⟩
      · intro key member
        rw [get?_remember, if_pos member]
      · exact (extends_remember location fresh).resolved _ _ found
    next unknown =>
    split at h
    · cases h
    split at h
    · cases h
    next target located step =>
    obtain ⟨growth, same⟩ := locate_spec step
    -- The references of the chain and the present one have not been followed to an end yet.
    have unfollowed : ∀ key ∈ chain ++ [absolute.text], Entries.get? key located.resolved = none := by
      intro key member
      rw [same]
      rcases List.mem_append.mp member with earlier | present
      · exact fresh key earlier
      · rw [List.mem_singleton.mp present]
        exact unknown
    have own : absolute.text ∈ chain ++ [absolute.text] := by simp
    split at h
    · obtain ⟨further, recorded, -⟩ := ih h unfollowed
      refine ⟨growth.trans further, ?_, absolute, joined, recorded _ own⟩
      intro key member
      exact recorded key (List.mem_append_left _ member)
    · cases h
      refine ⟨growth.trans (extends_remember location unfollowed), ?_, absolute, joined, ?_⟩
      · intro key member
        rw [get?_remember, if_pos (List.mem_append_left _ member)]
      · rw [get?_remember, if_pos own]

/-- A location that is there leads to another: to itself, or to where the reference that stands there
has been found to lead. -/
def Leads (library : Library) (location target : Location) : Prop :=
  ∃ node, library.node? location = some node ∧
    match reference? node with
    | none => target = location
    | some reference => ∃ absolute, location.document.join reference = .ok absolute ∧
        Entries.get? absolute.text library.resolved = some target

namespace Leads

variable {location target : Location}

theorem mono (h : library.Leads location target) (growth : library.Extends later) :
    later.Leads location target := by
  obtain ⟨node, there, leads⟩ := h
  refine ⟨node, growth.node? there, ?_⟩
  cases found : reference? node with
  | none =>
    rw [found] at leads
    exact leads
  | some reference =>
    rw [found] at leads
    obtain ⟨absolute, joined, known⟩ := leads
    exact ⟨absolute, joined, growth.resolved _ _ known⟩

/-- A location that is known to lead somewhere is dereferenced without following anything. -/
theorem dereference (h : library.Leads location target) (loader : Loader) :
    library.dereference loader location = (.ok target, library) := by
  obtain ⟨node, there, leads⟩ := h
  unfold Library.dereference
  rw [there, Option.bind_some]
  cases found : reference? node with
  | none =>
    rw [found] at leads
    rw [leads]
  | some reference =>
    rw [found] at leads
    obtain ⟨absolute, joined, known⟩ := leads
    simp only [resolve, stepLimit, follow, joined, known]
    rfl

end Leads

/-- Dereferencing a location extends the library, in which it then leads to where it was found to. -/
theorem dereference_spec {location target : Location}
    (h : library.dereference loader location = (.ok target, later)) :
    library.Extends later ∧
      ((later.node? target).isSome = true → later.Leads location target) := by
  unfold dereference at h
  split at h
  · next reference found =>
    obtain ⟨node, there, isReference⟩ := Option.bind_eq_some_iff.mp found
    obtain ⟨growth, -, absolute, joined, known⟩ := follow_spec h (by simp)
    refine ⟨growth, fun _ => ⟨node, growth.node? there, ?_⟩⟩
    rw [isReference]
    exact ⟨absolute, joined, known⟩
  · next plain =>
    cases h
    refine ⟨.refl library, ?_⟩
    intro there
    obtain ⟨node, found⟩ := Option.isSome_iff_exists.mp there
    refine ⟨node, found, ?_⟩
    rw [found, Option.bind_some] at plain
    rw [plain]

end Library

end ApiContract
