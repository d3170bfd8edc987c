import ApiContract.Proofs.Reference.Chain
import ApiContract.Proofs.Reference.Library
import Mathlib.Data.List.Nodup
/-!
# What a library remembers

A library reflects where its documents come from (`Reflects`): they are those that the loader gives,
each asked for once, and what is remembered of a reference is where it leads. Following a reference
keeps it so and comes to what the documents say (`Reflects.follow`), however much is remembered; with
enough steps allowed it does come to an end when they say something (`Reflects.settled_follow`).
-/

namespace ApiContract

open Json (Value)
open Location (addressed)

/-- Documents at different URLs besides the root document, each as it is loaded. -/
structure Origin.Serves (origin : Origin) (loaded : List (Url × Value)) : Prop where
  distinct : (loaded.map Prod.fst).Nodup
  wellFormed : ∀ entry ∈ loaded, entry.1.WellFormed
  given : ∀ entry ∈ loaded, origin.load entry.1 = .ok entry.2
  noRoot : origin.root ∉ loaded.map Prod.fst

theorem Origin.Serves.add {origin : Origin} {loaded : List (Url × Value)} {url : Url} {value : Value}
    (h : origin.Serves loaded) (good : url.WellFormed) (other : url ≠ origin.root)
    (fresh : url ∉ loaded.map Prod.fst) (given : origin.load url = .ok value) :
    origin.Serves (loaded ++ [(url, value)]) where
  distinct := by
    rw [List.map_append]
    exact List.concat_eq_append ▸ h.distinct.concat fresh
  wellFormed := List.forall_mem_append.mpr ⟨h.wellFormed, by simpa using good⟩
  given := List.forall_mem_append.mpr ⟨h.given, by simpa using given⟩
  noRoot := by simpa [other.symm] using h.noRoot

namespace Library

open Origin (Settled Behind)

/-- A library has the root document and what was loaded. The loader was asked for no root document,
and not twice where it gave one. References are remembered with the location that they lead to. -/
structure Reflects (library : Library) (origin : Origin) : Prop where
  root : origin.root.WellFormed
  documents : ∃ loaded, library.documents = (origin.root, origin.document) :: loaded ∧
    origin.Serves loaded
  asked : ∀ url ∈ library.asked, url.WellFormed ∧ url ≠ origin.root ∧
    ((origin.load url).isOk = true → (library.document? url).isSome = true)
  once : (library.asked.filter fun url => (origin.load url).isOk).Nodup
  resolved : ∀ key location, Entries.get? key library.resolved = some location →
    ∃ n absolute, absolute.WellFormed ∧ absolute.text = key ∧ origin.Lands n absolute location

variable {library later : Library} {loader : Loader} {origin : Origin} {url absolute : Url}
  {value : Value} {location : Location} {outcome : Except ReferenceError Location}
  {chain : List String} {base : Url} {reference : String}

/-! ### Steps -/

theorem follow_invalid {cause : UrlError} (failed : base.join reference = .error cause) (fuel : Nat) :
    follow loader (fuel + 1) library chain base reference =
      (.error (.invalidUri reference base.text cause), library) := by
  rw [follow, failed]

theorem follow_known (joined : base.join reference = .ok absolute)
    (known : Entries.get? absolute.text library.resolved = some location) (fuel : Nat) :
    follow loader (fuel + 1) library chain base reference =
      (.ok location, library.remember chain location) := by
  rw [follow, joined]
  simp [known]

theorem follow_again (joined : base.join reference = .ok absolute)
    (unknown : Entries.get? absolute.text library.resolved = none) (again : absolute.text ∈ chain)
    (fuel : Nat) : follow loader (fuel + 1) library chain base reference =
      (.error (.cycle (chain ++ [absolute.text])), library) := by
  rw [follow, joined]
  simp [unknown, again]

/-! ### Documents -/

theorem mem_of_document? (h : library.document? url = some value) :
    (url, value) ∈ library.documents := by
  obtain ⟨⟨other, document⟩, found, rfl⟩ := Option.map_eq_some_iff.mp h
  obtain rfl : other = url := by simpa using List.find?_some found
  exact List.mem_of_find?_eq_some found

theorem not_mem_of_document? (h : library.document? url = none) :
    url ∉ library.documents.map Prod.fst := by
  intro member
  obtain ⟨entry, listed, rfl⟩ := List.mem_map.mp member
  have := List.find?_eq_none.mp (Option.map_eq_none_iff.mp h) entry listed
  simp at this

namespace Reflects

theorem document?_root (h : library.Reflects origin) :
    library.document? origin.root = some origin.document := by
  obtain ⟨loaded, documents, -⟩ := h.documents
  simp [document?, documents]

theorem of_document? (h : library.Reflects origin) (found : library.document? url = some value) :
    url.WellFormed ∧ origin.fetch url = .ok value := by
  obtain ⟨loaded, documents, serves⟩ := h.documents
  have member := mem_of_document? found
  rw [documents] at member
  rcases List.mem_cons.mp member with same | member
  · obtain ⟨rfl, rfl⟩ := Prod.mk.inj same
    exact ⟨h.root, if_pos rfl⟩
  · refine ⟨serves.wellFormed _ member, ?_⟩
    have other : url ≠ origin.root := by
      rintro rfl
      exact serves.noRoot (List.mem_map_of_mem member)
    rw [Origin.fetch, if_neg other]
    exact serves.given _ member

/-- The loader is asked for a document that it does not give. -/
theorem ask (h : library.Reflects origin) (good : url.WellFormed) (other : url ≠ origin.root)
    (fails : (origin.load url).isOk = false) :
    { library with asked := library.asked ++ [url] : Library }.Reflects origin := by
  refine { h with asked := ?_, once := ?_ }
  · intro earlier member
    rcases List.mem_append.mp member with before | now
    · exact h.asked earlier before
    · obtain rfl := List.mem_singleton.mp now
      refine ⟨good, other, fun loads => ?_⟩
      rw [fails] at loads
      cases loads
  · rw [List.filter_append, List.filter_cons_of_neg (by simp [fails]), List.filter_nil,
      List.append_nil]
    exact h.once

/-- The loader is asked for a document that it gives. -/
theorem add (h : library.Reflects origin) (good : url.WellFormed)
    (missing : library.document? url = none) (loads : origin.load url = .ok value) :
    { library with
      asked := library.asked ++ [url]
      documents := library.documents ++ [(url, value)] : Library }.Reflects origin := by
  obtain ⟨loaded, documents, serves⟩ := h.documents
  have absent := not_mem_of_document? missing
  rw [documents, List.map_cons, List.mem_cons, not_or] at absent
  obtain ⟨other, fresh⟩ := absent
  have unasked : url ∉ library.asked := by
    intro member
    have there := (h.asked url member).2.2 (by rw [loads]; rfl)
    rw [missing] at there
    cases there
  refine { h with documents := ?_, asked := ?_, once := ?_ }
  · exact ⟨loaded ++ [(url, value)], by rw [documents]; rfl, serves.add good other fresh loads⟩
  · intro earlier member
    rcases List.mem_append.mp member with before | now
    · obtain ⟨goodEarlier, noRoot, served⟩ := h.asked earlier before
      refine ⟨goodEarlier, noRoot, fun loads => ?_⟩
      have there := served loads
      rw [document?, Option.isSome_map, List.find?_isSome] at there ⊢
      obtain ⟨entry, listed, same⟩ := there
      exact ⟨entry, List.mem_append_left _ listed, same⟩
    · obtain rfl := List.mem_singleton.mp now
      exact ⟨good, other, fun _ => by simp [document?]⟩
  · rw [List.filter_append, List.filter_cons_of_pos (by rw [loads]; rfl), List.filter_nil]
    exact List.concat_eq_append ▸ h.once.concat fun member => unasked (List.mem_filter.mp member).1

/-- Getting a document loads it if it is not there. -/
theorem fetch (h : library.Reflects origin) (load : loader.load = origin.load) (good : url.WellFormed)
    {answer : Except ReferenceError Unit} (run : library.fetch loader url = (answer, later)) :
    later.Reflects origin ∧
      match origin.fetch url with
      | .error cause => answer = .error (.load url.text cause)
      | .ok value => answer = .ok () ∧ later.document? url = some value := by
  unfold Library.fetch at run
  split at run
  · next present =>
    cases run
    obtain ⟨value, found⟩ := Option.isSome_iff_exists.mp present
    rw [(h.of_document? found).2]
    exact ⟨h, rfl, found⟩
  next absent =>
  have missing : library.document? url = none := by simpa using absent
  have other : url ≠ origin.root := by
    rintro rfl
    rw [h.document?_root] at missing
    cases missing
  rw [Origin.fetch, if_neg other]
  simp only [load] at run
  cases given : origin.load url with
  | error cause =>
    rw [given] at run
    cases run
    exact ⟨h.ask good other (by rw [given]; rfl), rfl⟩
  | ok value =>
    rw [given] at run
    cases run
    refine ⟨h.add good missing given, rfl, ?_⟩
    have absent := Option.map_eq_none_iff.mp missing
    simp [document?, absent]

theorem locate (h : library.Reflects origin) (load : loader.load = origin.load)
    (good : absolute.WellFormed) (run : library.locate loader absolute = (outcome, later)) :
    later.Reflects origin ∧
      match origin.node absolute with
      | .error failure => outcome = .error failure
      | .ok node =>
        outcome = .ok (addressed absolute) ∧ later.node? (addressed absolute) = some node := by
  simp only [Library.locate] at run
  cases fetched : library.fetch loader absolute.withoutFragment with
  | mk answer between =>
    rw [fetched] at run
    obtain ⟨reflects, answered⟩ := h.fetch load (Url.wellFormed_withoutFragment good) fetched
    unfold Origin.node
    cases given : origin.fetch absolute.withoutFragment with
    | error cause =>
      rw [given] at answered
      subst answered
      cases run
      exact ⟨reflects, rfl⟩
    | ok document =>
      rw [given] at answered
      obtain ⟨rfl, there⟩ := answered
      have node : between.node? (addressed absolute) =
          Json.Pointer.navigate? document (addressed absolute).pointer := by
        rw [node?, addressed, there, Option.bind_some]
      simp only at run ⊢
      rw [show between.node? ⟨absolute.withoutFragment, _⟩ = _ from node] at run
      cases found : Json.Pointer.navigate? document (addressed absolute).pointer with
      | none =>
        rw [found] at run
        cases run
        exact ⟨reflects, rfl⟩
      | some value =>
        rw [found] at run
        cases run
        exact ⟨reflects, rfl, node.trans found⟩

theorem remember (h : library.Reflects origin)
    (lands : ∀ key ∈ chain, ∃ n absolute, Url.WellFormed absolute ∧ absolute.text = key ∧
      origin.Lands n absolute location) : (library.remember chain location).Reflects origin := by
  refine { h with resolved := fun key target found => ?_ }
  rw [get?_remember] at found
  split at found
  · next member =>
    cases found
    exact lands key member
  · exact h.resolved key target found

/-- One step of following a reference that is neither remembered nor followed already: the node that
it addresses is looked up, and the library grows by the document of that node at most. -/
theorem follow_step (h : library.Reflects origin) (load : loader.load = origin.load)
    (good : base.WellFormed) (joined : base.join reference = .ok absolute)
    (unknown : Entries.get? absolute.text library.resolved = none) (fresh : absolute.text ∉ chain) :
    ∃ between : Library, between.Reflects origin ∧ library.Extends between ∧
      (∀ node, origin.node absolute = .ok node → between.node? (addressed absolute) = some node) ∧
      ∀ fuel, Library.follow loader (fuel + 1) library chain base reference =
        match origin.node absolute with
        | .error failure => (.error failure, between)
        | .ok node =>
          match reference? node with
          | some next =>
            Library.follow loader fuel between (chain ++ [absolute.text]) absolute.withoutFragment next
          | none =>
            (.ok (addressed absolute),
              between.remember (chain ++ [absolute.text]) (addressed absolute)) := by
  cases located : library.locate loader absolute with
  | mk outcome between =>
    obtain ⟨reflects, answered⟩ := h.locate load (Url.wellFormed_of_join good joined) located
    refine ⟨between, reflects, (locate_spec located).1, ?_⟩
    cases there : origin.node absolute with
    | error failure =>
      rw [there] at answered
      subst answered
      refine ⟨by rintro node ⟨⟩, fun fuel => ?_⟩
      rw [Library.follow, joined]
      simp [unknown, fresh, located]
    | ok node =>
      rw [there] at answered
      obtain ⟨rfl, found⟩ := answered
      refine ⟨fun _ same => Except.ok.inj same ▸ found, fun fuel => ?_⟩
      rw [Library.follow, joined]
      simp [unknown, fresh, located, found]
      rfl

/-- Following a reference comes to what the documents say, unless the steps do not suffice, and what
is remembered afterwards is where references lead. -/
theorem follow (h : library.Reflects origin) (load : loader.load = origin.load) {fuel : Nat}
    (good : base.WellFormed)
    (behind : ∀ absolute, base.join reference = .ok absolute → origin.Behind chain absolute)
    (run : Library.follow loader fuel library chain base reference = (outcome, later)) :
    later.Reflects origin ∧ (Settled outcome → origin.Follows chain base reference outcome) := by
  induction fuel generalizing library chain base reference with
  | zero =>
    cases run
    exact ⟨h, fun settled => absurd rfl (settled reference)⟩
  | succ fuel ih =>
    cases joined : base.join reference with
    | error cause =>
      rw [follow_invalid joined] at run
      cases run
      exact ⟨h, fun _ => .invalid joined⟩
    | ok absolute =>
      have goodAbsolute := Url.wellFormed_of_join good joined
      have behind := behind absolute joined
      cases known : Entries.get? absolute.text library.resolved with
      | some location =>
        -- What is remembered is where the reference leads, and so where those before it lead.
        rw [follow_known joined known] at run
        cases run
        obtain ⟨n, other, goodOther, same, lands⟩ := h.resolved _ _ known
        obtain rfl := Url.text_inj goodOther goodAbsolute same
        exact ⟨h.remember (behind.lands lands), fun _ => lands.follows goodOther behind joined⟩
      | none =>
        by_cases again : absolute.text ∈ chain
        · rw [follow_again joined known again] at run
          cases run
          exact ⟨h, fun _ => .cycle joined again⟩
        obtain ⟨between, reflects, -, -, step⟩ := h.follow_step load good joined known again
        rw [step] at run
        cases there : origin.node absolute with
        | error failure =>
          rw [there] at run
          cases run
          exact ⟨reflects, fun _ => .lost joined again there⟩
        | ok node =>
          simp only [there] at run
          cases referring : reference? node with
          | some next =>
            rw [referring] at run
            obtain ⟨reflects, follows⟩ := ih reflects (Url.wellFormed_withoutFragment goodAbsolute)
              (fun _ joined => behind.onward goodAbsolute there referring joined) run
            exact ⟨reflects, fun settled => .next joined again there referring (follows settled)⟩
          | none =>
            rw [referring] at run
            cases run
            have lands : origin.Lands 0 absolute (addressed absolute) := .here there referring
            refine ⟨reflects.remember fun key member => ?_,
              fun _ => .found joined again there referring⟩
            rcases List.mem_append.mp member with before | own
            · exact behind.lands lands key before
            · exact ⟨0, absolute, goodAbsolute, (List.mem_singleton.mp own).symm, lands⟩

/-- Where the documents say what following a reference comes to, it comes to an end within some
number of steps. -/
theorem settled_follow (said : origin.Follows chain base reference outcome) :
    ∃ steps, ∀ loader fuel library, loader.load = origin.load → steps ≤ fuel →
      library.Reflects origin → base.WellFormed →
      Settled (Library.follow loader fuel library chain base reference).1 := by
  suffices general : ∃ steps, ∀ loader fuel library, loader.load = origin.load → steps ≤ fuel →
      library.Reflects origin → base.WellFormed →
      Settled (Library.follow loader (fuel + 1) library chain base reference).1 by
    obtain ⟨steps, settled⟩ := general
    refine ⟨steps + 1, fun loader fuel library load enough => ?_⟩
    obtain ⟨fuel, rfl⟩ := Nat.exists_eq_add_of_le' (Nat.le_of_add_left_le enough)
    exact settled loader fuel library load (by omega)
  induction said with
  | invalid failed =>
    refine ⟨0, fun loader fuel library _ _ _ _ => ?_⟩
    rw [follow_invalid failed]
    rintro text ⟨⟩
  | cycle joined again =>
    refine ⟨0, fun loader fuel library _ _ _ _ => ?_⟩
    cases known : Entries.get? _ library.resolved with
    | some location =>
      rw [follow_known joined known]
      rintro text ⟨⟩
    | none =>
      rw [follow_again joined known again]
      rintro text ⟨⟩
  | lost joined fresh missing =>
    refine ⟨0, fun loader fuel library load _ h good => ?_⟩
    cases known : Entries.get? _ library.resolved with
    | some location =>
      rw [follow_known joined known]
      rintro text ⟨⟩
    | none =>
      obtain ⟨between, -, -, -, step⟩ := h.follow_step load good joined known fresh
      rw [step, missing]
      exact Origin.settled_of_node missing
  | found joined fresh there plain =>
    refine ⟨0, fun loader fuel library load _ h good => ?_⟩
    cases known : Entries.get? _ library.resolved with
    | some location =>
      rw [follow_known joined known]
      rintro text ⟨⟩
    | none =>
      obtain ⟨between, -, -, -, step⟩ := h.follow_step load good joined known fresh
      rw [step, there]
      simp only [plain]
      rintro text ⟨⟩
  | next joined fresh there referring further ih =>
    obtain ⟨steps, settled⟩ := ih
    refine ⟨steps + 1, fun loader fuel library load enough h good => ?_⟩
    cases known : Entries.get? _ library.resolved with
    | some location =>
      rw [follow_known joined known]
      rintro text ⟨⟩
    | none =>
      obtain ⟨between, reflects, -, -, step⟩ := h.follow_step load good joined known fresh
      obtain ⟨fuel, rfl⟩ := Nat.exists_eq_add_of_le' (Nat.le_of_add_left_le enough)
      rw [step, there]
      simp only [referring]
      exact settled loader fuel between load (by omega) reflects
        (Url.wellFormed_withoutFragment (Url.wellFormed_of_join good joined))

end Reflects

end Library

end ApiContract
