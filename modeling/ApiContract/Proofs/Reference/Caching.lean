import ApiContract.Proofs.Reference.Ending
/-!
# Caching

A library that has been used answers as a fresh one: what earlier calls have loaded and remembered
saves work and changes no answer (`answers_as_fresh`). The loader is not asked for the root document,
and not again for a document that it has given.
-/

namespace ApiContract

open Json (Value)

/-- The loader with another bound. The bound limits steps and is no part of what is loaded. -/
def Loader.bounded (loader : Loader) (capacity : Nat) : Loader := { loader with capacity }

namespace Library

open Origin (Settled)

variable {library start : Library} {loader : Loader} {origin : Origin} {root base : Url}
  {document : Value} {reference : String}

/-- The answer to a reference when steps are limited by some bound. -/
def answer (library : Library) (loader : Loader) (capacity : Nat) (base : Url) (reference : String) :
    Except ReferenceError Location :=
  (library.resolve (loader.bounded capacity) base reference).1

/-- The libraries that calls lead to, whether they succeed or fail, each with a bound of its own. -/
inductive Reached (loader : Loader) (start : Library) : Library → Prop where
  | start : Reached loader start start
  | resolve {library : Library} (before : Reached loader start library) (capacity : Nat) {base : Url}
      (good : base.WellFormed) (reference : String) :
      Reached loader start (library.resolve (loader.bounded capacity) base reference).2
  | dereference {library : Library} (before : Reached loader start library) (capacity : Nat)
      (location : Location) :
      Reached loader start (library.dereference (loader.bounded capacity) location).2

/-! ### Calls -/

/-- Where the documents of a fresh library come from. -/
def originOf (loader : Loader) (root : Url) (document : Value) : Origin :=
  ⟨root.withoutFragment, document, loader.load⟩

theorem reflects_ofRoot (loader : Loader) (good : root.WellFormed) (document : Value) :
    (ofRoot root document).Reflects (originOf loader root document) where
  root := Url.wellFormed_withoutFragment good
  documents := ⟨[], rfl, List.nodup_nil, by simp, by simp, by simp⟩
  asked := by rintro url ⟨⟩
  once := List.nodup_nil
  resolved := by rintro key location ⟨⟩

theorem Reflects.resolve (h : library.Reflects origin) (load : loader.load = origin.load)
    (good : base.WellFormed) (reference : String) :
    (library.resolve loader base reference).2.Reflects origin ∧
      (Settled (library.resolve loader base reference).1 →
        origin.Follows [] base reference (library.resolve loader base reference).1) :=
  h.follow load good (fun absolute _ => Origin.behind_nil absolute) rfl

theorem Reflects.dereference (h : library.Reflects origin) (load : loader.load = origin.load)
    (location : Location) : (library.dereference loader location).2.Reflects origin := by
  unfold Library.dereference
  split
  · next reference found =>
    -- Where there is a node there is a document, and its URL is one that was read.
    obtain ⟨node, there, -⟩ := Option.bind_eq_some_iff.mp found
    obtain ⟨document, loaded, -⟩ := Option.bind_eq_some_iff.mp there
    exact (h.resolve load (h.of_document? loaded).1 reference).1
  · exact h

theorem Reached.reflects (h : Reached loader start library) (load : loader.load = origin.load)
    (first : start.Reflects origin) : library.Reflects origin := by
  have bounded (capacity : Nat) : (loader.bounded capacity).load = origin.load := load
  induction h with
  | start => exact first
  | resolve before capacity good reference ih =>
    exact (ih.resolve (bounded capacity) good reference).1
  | dereference before capacity location ih => exact ih.dereference (bounded capacity) location

/-! ### Answers -/

theorem Reflects.follows_answer (h : library.Reflects origin) (load : loader.load = origin.load)
    (good : base.WellFormed) {capacity : Nat}
    (settled : Settled (library.answer loader capacity base reference)) :
    origin.Follows [] base reference (library.answer loader capacity base reference) :=
  (h.resolve (show (loader.bounded capacity).load = origin.load from load) good reference).2 settled

/-- What the documents say is answered when enough steps are allowed. -/
theorem Reflects.exists_settled_answer (h : library.Reflects origin)
    (load : loader.load = origin.load) (good : base.WellFormed)
    {outcome : Except ReferenceError Location} (said : origin.Follows [] base reference outcome) :
    ∃ capacity, Settled (library.answer loader capacity base reference) := by
  obtain ⟨steps, settled⟩ := Reflects.settled_follow said
  have enough : steps ≤ library.stepLimit (loader.bounded steps) :=
    (Nat.le_add_left steps library.size).trans (Nat.le_add_right _ 2)
  exact ⟨steps, settled (loader.bounded steps) _ library load enough h good⟩

/-- A library answers a reference as a fresh one does, whatever it has been used for. The answers are
the same wherever both come to an end, and one comes to an end with some bound when the other does;
with a loader that is truthful about its documents every call comes to an end. Over all calls the
loader is not asked for the root document, and where it has given a document it is not asked again.
The URLs of the root document and of the bases are any that reading comes to (`Url.reads_read`). -/
theorem answers_as_fresh (goodRoot : root.WellFormed)
    (reached : Reached loader (ofRoot root document) library) (good : base.WellFormed)
    (reference : String) :
    (∀ m n, Settled (library.answer loader m base reference) →
        Settled ((ofRoot root document).answer loader n base reference) →
        library.answer loader m base reference =
          (ofRoot root document).answer loader n base reference) ∧
      ((∃ m, Settled (library.answer loader m base reference)) ↔
        ∃ n, Settled ((ofRoot root document).answer loader n base reference)) ∧
      (loader.Truthful → Settled (library.resolve loader base reference).1 ∧
        (library.resolve loader base reference).1 =
          ((ofRoot root document).resolve loader base reference).1) ∧
      root.withoutFragment.text ∉ library.asked.map Url.text ∧
      ((library.asked.filter fun url => (loader.load url).isOk).map Url.text).Nodup := by
  have fresh := reflects_ofRoot loader goodRoot document
  have used := reached.reflects rfl fresh
  have same (m n : Nat) (settled : Settled (library.answer loader m base reference))
      (settled' : Settled ((ofRoot root document).answer loader n base reference)) :
      library.answer loader m base reference =
        (ofRoot root document).answer loader n base reference :=
    (used.follows_answer rfl good settled).unique (fresh.follows_answer rfl good settled')
  refine ⟨same, ⟨?_, ?_⟩, fun truthful => ?_, ?_, ?_⟩
  · rintro ⟨m, settled⟩
    exact fresh.exists_settled_answer rfl good (used.follows_answer rfl good settled)
  · rintro ⟨n, settled⟩
    exact used.exists_settled_answer rfl good (fresh.follows_answer rfl good settled)
  · have settled := used.settled_resolve rfl truthful good reference
    exact ⟨settled, same _ _ settled (fresh.settled_resolve rfl truthful good reference)⟩
  · intro member
    obtain ⟨url, asked, text⟩ := List.mem_map.mp member
    obtain ⟨goodUrl, other, -⟩ := used.asked url asked
    exact other (Url.text_inj goodUrl fresh.root text)
  · refine List.Nodup.map_on (fun a memberA b memberB text => ?_) used.once
    exact Url.text_inj (used.asked a (List.mem_filter.mp memberA).1).1
      (used.asked b (List.mem_filter.mp memberB).1).1 text

/-! A library of two documents of which one holds a reference into the other, one to itself, and one
to a document that is not there. -/

/-- The URL of the one document. -/
def shelfRoot : Url := ⟨"http", "", "", some (.name "h"), none, .rooted ["a"], none, none⟩

/-- The one document. -/
def shelfDocument : Value :=
  .object [("n", .object [("$ref", .string "b#/n")]), ("loop", .object [("$ref", .string "#/loop")]),
    ("gone", .object [("$ref", .string "c")])]

/-- The loader of the other document. -/
def shelf : Loader := Loader.ofStored [("http://h/b", .value (.object [("n", .null)]))]

/-- The library after a cycle, a location that leads into the other document, and a failure to load. -/
def usedShelf : Library :=
  let library := ((ofRoot shelfRoot shelfDocument).resolve shelf shelfRoot "#/loop").2
  let library := (library.dereference shelf ⟨shelfRoot, "/n"⟩).2
  (library.resolve shelf shelfRoot "#/gone").2

theorem wellFormed_shelfRoot : shelfRoot.WellFormed :=
  Url.wellFormed_of_parse (show Url.parse "http://h/a" = .ok shelfRoot by decide +kernel)

theorem reached_usedShelf : Reached shelf (ofRoot shelfRoot shelfDocument) usedShelf :=
  .resolve (.dereference (.resolve .start shelf.capacity wellFormed_shelfRoot "#/loop") shelf.capacity
    ⟨shelfRoot, "/n"⟩) shelf.capacity wellFormed_shelfRoot "#/gone"

theorem usedShelf_answers_as_fresh :
    usedShelf.asked.map Url.text = ["http://h/b", "http://h/c"] ∧
      (usedShelf.resolve shelf shelfRoot "#/n").1 =
        .ok ⟨{ shelfRoot with path := .rooted ["b"] }, "/n"⟩ ∧
      (usedShelf.resolve shelf shelfRoot "#/n").1 =
        ((ofRoot shelfRoot shelfDocument).resolve shelf shelfRoot "#/n").1 := by
  obtain ⟨-, -, answered, -⟩ :=
    answers_as_fresh wellFormed_shelfRoot reached_usedShelf wellFormed_shelfRoot "#/n"
  exact ⟨by decide +kernel, by decide +kernel, (answered (truthful_ofStored _)).2⟩

end Library

end ApiContract
