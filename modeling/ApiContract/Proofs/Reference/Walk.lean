import ApiContract.Proofs.Reference.Finite
import Mathlib.Logic.Relation
/-!
# Walks along references

The end of a chain of references, stated on the documents alone and with no list of what has been
followed. A `Mention` is a reference with the URL of the document that it stands in. If the node that
it addresses is again a reference, the walk goes `Onward` to that one; any other mention is the last
one and says by itself what the walk comes to (`Ends`).

`resolve` finds the end of the walk, and answers with a cycle exactly when there is none
(`resolve_iff_walk`).
-/

namespace ApiContract

open Json (Value)
open Location (addressed)
open Library (reference?)
open Relation (ReflTransGen TransGen)

/-- A reference as it stands in the document at a URL. -/
structure Mention where
  base : Url
  reference : String

/-- The absolute reference that a mention is read as. -/
def Mention.absolute (mention : Mention) : Except UrlError Url := mention.base.join mention.reference

namespace Origin

variable {origin : Origin} {first last mention next other : Mention} {absolute : Url}
  {outcome outcome' : Except ReferenceError Location}

/-- A mention addresses a node that is a reference, which stands in the node's document. -/
inductive Onward (origin : Origin) (mention : Mention) : Mention → Prop
  | step {absolute : Url} {node : Value} {reference : String}
      (joined : mention.absolute = .ok absolute) (there : origin.node absolute = .ok node)
      (referring : reference? node = some reference) :
      Onward origin mention ⟨absolute.withoutFragment, reference⟩

/-- What a walk comes to at a mention that does not lead onward: the location of a node that is no
reference, or the reason why there is no node. -/
inductive Ends (origin : Origin) (mention : Mention) : Except ReferenceError Location → Prop
  | found {absolute : Url} {node : Value} (joined : mention.absolute = .ok absolute)
      (there : origin.node absolute = .ok node) (plain : reference? node = none) :
      Ends origin mention (.ok (addressed absolute))
  | invalid {cause : UrlError} (failed : mention.absolute = .error cause) :
      Ends origin mention (.error (.invalidUri mention.reference mention.base.text cause))
  | unloaded {absolute : Url} {cause : LoadError} (joined : mention.absolute = .ok absolute)
      (fails : origin.fetch absolute.withoutFragment = .error cause) :
      Ends origin mention (.error (.load absolute.withoutFragment.text cause))
  | missing {absolute : Url} {document : Value} (joined : mention.absolute = .ok absolute)
      (loads : origin.fetch absolute.withoutFragment = .ok document)
      (nowhere : Json.Pointer.navigate? document (addressed absolute).pointer = none) :
      Ends origin mention (.error (.unresolved absolute.text))

/-! ### Walks end in one way -/

theorem onward_unique : Relator.RightUnique origin.Onward := by
  rintro mention - - ⟨joined, there, referring⟩ ⟨joined', there', referring'⟩
  obtain rfl := Except.ok.inj (joined.symm.trans joined')
  obtain rfl := Except.ok.inj (there.symm.trans there')
  obtain rfl := Option.some.inj (referring.symm.trans referring')
  rfl

/-- Mentions of the same node go on alike. -/
theorem Onward.of_absolute (h : origin.Onward mention next)
    (same : other.absolute = mention.absolute) : origin.Onward other next := by
  obtain ⟨joined, there, referring⟩ := h
  exact .step (same.trans joined) there referring

theorem node_of_found {document value : Value}
    (loads : origin.fetch absolute.withoutFragment = .ok document)
    (found : Json.Pointer.navigate? document (addressed absolute).pointer = some value) :
    origin.node absolute = .ok value := by
  rw [node, loads]
  simp only [found]

theorem node_of_nowhere {document : Value}
    (loads : origin.fetch absolute.withoutFragment = .ok document)
    (nowhere : Json.Pointer.navigate? document (addressed absolute).pointer = none) :
    origin.node absolute = .error (.unresolved absolute.text) := by
  rw [node, loads]
  simp only [nowhere]

theorem node_of_unloaded {cause : LoadError}
    (fails : origin.fetch absolute.withoutFragment = .error cause) :
    origin.node absolute = .error (.load absolute.withoutFragment.text cause) := by
  rw [node, fails]

/-- Where there is no node, the walk ends. -/
theorem ends_of_node_error {failure : ReferenceError} (joined : mention.absolute = .ok absolute)
    (lost : origin.node absolute = .error failure) : origin.Ends mention (.error failure) := by
  cases fetched : origin.fetch absolute.withoutFragment with
  | error cause =>
    rw [node_of_unloaded fetched] at lost
    cases lost
    exact .unloaded joined fetched
  | ok document =>
    cases found : Json.Pointer.navigate? document (addressed absolute).pointer with
    | none =>
      rw [node_of_nowhere fetched found] at lost
      cases lost
      exact .missing joined fetched found
    | some value =>
      rw [node, fetched] at lost
      simp [found] at lost

/-- The node of a mention at which a walk ends is no reference, or there is none. -/
theorem Ends.cases (h : origin.Ends mention outcome) :
    (∃ cause, mention.absolute = .error cause ∧
        outcome = .error (.invalidUri mention.reference mention.base.text cause)) ∨
      ∃ absolute, mention.absolute = .ok absolute ∧
        ((∃ failure, origin.node absolute = .error failure ∧ outcome = .error failure) ∨
          ∃ node, origin.node absolute = .ok node ∧ reference? node = none ∧
            outcome = .ok (addressed absolute)) := by
  cases h with
  | found joined there plain => exact .inr ⟨_, joined, .inr ⟨_, there, plain, rfl⟩⟩
  | invalid failed => exact .inl ⟨_, failed, rfl⟩
  | unloaded joined fails => exact .inr ⟨_, joined, .inl ⟨_, node_of_unloaded fails, rfl⟩⟩
  | missing joined loads nowhere =>
    exact .inr ⟨_, joined, .inl ⟨_, node_of_nowhere loads nowhere, rfl⟩⟩

theorem Ends.unique (h : origin.Ends mention outcome) (h' : origin.Ends mention outcome') :
    outcome = outcome' := by
  have one := h.cases
  have two := h'.cases
  grind

theorem Ends.not_onward (h : origin.Ends mention outcome) : ¬ origin.Onward mention next := by
  rintro ⟨joined, there, referring⟩
  have ends := h.cases
  grind

theorem Ends.ne_cycle (h : origin.Ends mention outcome) (chain : List String) :
    outcome ≠ .error (.cycle chain) := by
  cases h <;> rintro ⟨⟩

/-- Of two ends of one walk neither leads on to the other. -/
theorem Ends.eq_of_walked (h : origin.Ends last outcome)
    (walked : ReflTransGen origin.Onward first last) (h' : origin.Ends other outcome')
    (walkedOther : ReflTransGen origin.Onward first other) : last = other := by
  rcases ReflTransGen.total_of_right_unique onward_unique walked walkedOther with ahead | behind
  · rcases ReflTransGen.cases_head ahead with same | ⟨next, onward, -⟩
    · exact same
    · exact absurd onward h.not_onward
  · rcases ReflTransGen.cases_head behind with same | ⟨next, onward, -⟩
    · exact same.symm
    · exact absurd onward h'.not_onward

/-! ### Walks without an end -/

/-- A walk that comes back to where it was has no end. -/
theorem exists_onward_of_loop (reached : ReflTransGen origin.Onward first mention)
    (loop : TransGen origin.Onward mention mention)
    (walked : ReflTransGen origin.Onward first last) : ∃ next, origin.Onward last next := by
  have back : TransGen origin.Onward last last ∨ ∃ next, origin.Onward last next := by
    rcases ReflTransGen.total_of_right_unique onward_unique reached walked with ahead | behind
    · refine .inl ?_
      induction ahead with
      | refl => exact loop
      | tail _ step ih =>
        obtain ⟨next, onward, further⟩ := TransGen.head'_iff.mp (ih (reached.trans ‹_›))
        obtain rfl := onward_unique onward step
        exact .tail' further onward
    · rcases ReflTransGen.cases_head behind with rfl | ⟨next, onward, -⟩
      · exact .inl loop
      · exact .inr ⟨next, onward⟩
  rcases back with around | onward
  · obtain ⟨next, onward, -⟩ := TransGen.head'_iff.mp around
    exact ⟨next, onward⟩
  · exact onward

/-- On the walk from a mention an absolute reference comes up twice. -/
def Repeats (origin : Origin) (first : Mention) : Prop :=
  ∃ earlier later absolute, ReflTransGen origin.Onward first earlier ∧
    TransGen origin.Onward earlier later ∧ earlier.absolute = .ok absolute ∧
    later.absolute = .ok absolute

theorem Repeats.exists_onward (h : origin.Repeats first)
    (walked : ReflTransGen origin.Onward first last) : ∃ next, origin.Onward last next := by
  obtain ⟨earlier, later, absolute, reached, further, joined, again⟩ := h
  obtain ⟨next, onward, rest⟩ := TransGen.head'_iff.mp further
  have around : origin.Onward later next := onward.of_absolute (again.trans joined.symm)
  exact exists_onward_of_loop (reached.tail onward) (.tail' rest around) walked

/-! ### What following a reference comes to -/

/-- Following a reference comes to the end of its walk, or to a cycle where an absolute reference
comes up again, be it one of those followed before it. -/
theorem Follows.walk {chain : List String} {base : Url} {reference : String}
    (h : origin.Follows chain base reference outcome) (good : base.WellFormed) :
    (∃ last, ReflTransGen origin.Onward ⟨base, reference⟩ last ∧ origin.Ends last outcome) ∨
      (∃ keys, outcome = .error (.cycle keys)) ∧
        (origin.Repeats ⟨base, reference⟩ ∨
          ∃ last absolute, ReflTransGen origin.Onward ⟨base, reference⟩ last ∧
            last.absolute = .ok absolute ∧ absolute.WellFormed ∧ absolute.text ∈ chain) := by
  induction h with
  | invalid failed => exact .inl ⟨_, .refl, .invalid failed⟩
  | cycle joined again =>
    exact .inr ⟨⟨_, rfl⟩, .inr ⟨_, _, .refl, joined, Url.wellFormed_of_join good joined, again⟩⟩
  | lost joined fresh missing => exact .inl ⟨_, .refl, ends_of_node_error joined missing⟩
  | found joined fresh there plain => exact .inl ⟨_, .refl, .found joined there plain⟩
  | @next chain base reference absolute node nextReference outcome joined fresh there referring _ ih =>
    have goodAbsolute := Url.wellFormed_of_join good joined
    have onward : origin.Onward ⟨base, reference⟩ ⟨absolute.withoutFragment, nextReference⟩ :=
      .step joined there referring
    rcases ih (Url.wellFormed_withoutFragment goodAbsolute) with
      ⟨last, walked, ends⟩ | ⟨cycle, repeats | ⟨last, again, walked, rejoined, goodAgain, member⟩⟩
    · exact .inl ⟨last, .head onward walked, ends⟩
    · obtain ⟨earlier, later, twice, reached, rest⟩ := repeats
      exact .inr ⟨cycle, .inl ⟨earlier, later, twice, .head onward reached, rest⟩⟩
    · refine .inr ⟨cycle, ?_⟩
      rcases List.mem_append.mp member with before | own
      · exact .inr ⟨last, again, .head onward walked, rejoined, goodAgain, before⟩
      · obtain rfl := Url.text_inj goodAgain goodAbsolute (List.mem_singleton.mp own)
        exact .inl ⟨_, last, again, .refl, .head' onward walked, joined, rejoined⟩

/-- What following a reference comes to is the end of its walk; and it is a cycle just when the walk
has no end, and just when an absolute reference comes up twice. -/
theorem Follows.iff_walk {base : Url} {reference : String}
    (h : origin.Follows [] base reference outcome) (good : base.WellFormed) :
    (∀ answer, (∀ keys, answer ≠ .error (.cycle keys)) →
        (outcome = answer ↔ ∃ last, ReflTransGen origin.Onward ⟨base, reference⟩ last ∧
          origin.Ends last answer)) ∧
      ((∃ keys, outcome = .error (.cycle keys)) ↔
        ∀ mention, ReflTransGen origin.Onward ⟨base, reference⟩ mention →
          ∃ next, origin.Onward mention next) ∧
      ((∃ keys, outcome = .error (.cycle keys)) ↔ origin.Repeats ⟨base, reference⟩) := by
  rcases h.walk good with ⟨last, walked, ends⟩ | ⟨⟨keys, rfl⟩, repeats | ⟨_, _, _, _, _, member⟩⟩
  · have noCycle : ¬ ∃ keys, outcome = .error (.cycle keys) := by
      rintro ⟨keys, same⟩
      exact ends.ne_cycle keys same
    refine ⟨?_, ?_, ?_⟩
    · intro answer _
      constructor
      · rintro rfl
        exact ⟨last, walked, ends⟩
      · rintro ⟨other, walkedOther, endsOther⟩
        obtain rfl := ends.eq_of_walked walked endsOther walkedOther
        exact ends.unique endsOther
    · refine iff_of_false noCycle fun endless => ?_
      obtain ⟨next, onward⟩ := endless last walked
      exact ends.not_onward onward
    · refine iff_of_false noCycle fun repeats => ?_
      obtain ⟨next, onward⟩ := repeats.exists_onward walked
      exact ends.not_onward onward
  · refine ⟨?_, iff_of_true ⟨keys, rfl⟩ fun mention walked => repeats.exists_onward walked,
      iff_of_true ⟨keys, rfl⟩ repeats⟩
    intro answer noCycle
    refine iff_of_false (fun same => noCycle keys same.symm) ?_
    rintro ⟨last, walked, ends⟩
    obtain ⟨next, onward⟩ := repeats.exists_onward walked
    exact ends.not_onward onward
  · cases member

end Origin

namespace Library

open Origin (Settled)

variable {library later start : Library} {loader : Loader} {outcome : Except ReferenceError Location}
  {location : Location}

/-! ### Where references lead is loaded -/

/-- There is a node at a location, and it is no reference. -/
def Concrete (library : Library) (location : Location) : Prop :=
  ∃ node, library.node? location = some node ∧ reference? node = none

theorem Concrete.mono (h : library.Concrete location) (growth : library.Extends later) :
    later.Concrete location := by
  obtain ⟨node, there, plain⟩ := h
  exact ⟨node, growth.node? there, plain⟩

/-- What is remembered leads to nodes that are there. -/
def Remembers (library : Library) : Prop :=
  ∀ key location, Entries.get? key library.resolved = some location → library.Concrete location

theorem locate_there {absolute : Url} (h : library.locate loader absolute = (.ok location, later)) :
    ∃ node, later.node? location = some node := by
  simp only [locate] at h
  split at h
  · cases h
  · split at h
    · next there =>
      cases h
      exact Option.isSome_iff_exists.mp there
    · cases h

theorem Remembers.extend (h : library.Remembers) (growth : library.Extends later)
    (same : later.resolved = library.resolved) : later.Remembers := by
  intro key location found
  rw [same] at found
  exact (h key location found).mono growth

theorem Remembers.remember (h : library.Remembers) (concrete : library.Concrete location)
    (keys : List String) : (library.remember keys location).Remembers := by
  intro key target found
  rw [get?_remember] at found
  split at found
  · cases found
    exact concrete
  · exact h key target found

theorem Remembers.follow {fuel : Nat} {chain : List String} {base : Url} {reference : String}
    (h : library.Remembers)
    (run : Library.follow loader fuel library chain base reference = (outcome, later)) :
    later.Remembers ∧ ∀ location, outcome = .ok location → later.Concrete location := by
  induction fuel generalizing library chain base reference with
  | zero =>
    cases run
    exact ⟨h, by rintro location ⟨⟩⟩
  | succ fuel ih =>
    rw [Library.follow] at run
    split at run
    · cases run
      exact ⟨h, by rintro location ⟨⟩⟩
    simp only at run
    split at run
    · next location found =>
      cases run
      have concrete := h _ _ found
      refine ⟨h.remember concrete chain, ?_⟩
      rintro target ⟨⟩
      exact concrete
    split at run
    · cases run
      exact ⟨h, by rintro location ⟨⟩⟩
    split at run
    · next located =>
      cases run
      obtain ⟨growth, same⟩ := locate_spec located
      exact ⟨h.extend growth same, by rintro location ⟨⟩⟩
    next location between located =>
    obtain ⟨growth, same⟩ := locate_spec located
    have kept := h.extend growth same
    split at run
    · exact ih kept run
    · next plain =>
      cases run
      have concrete : between.Concrete location := by
        obtain ⟨node, there⟩ := locate_there located
        rw [there, Option.bind_some] at plain
        exact ⟨node, there, plain⟩
      refine ⟨kept.remember concrete _, ?_⟩
      rintro target ⟨⟩
      exact concrete

theorem Reached.remembers (h : Reached loader start library) (first : start.Remembers) :
    library.Remembers := by
  induction h with
  | start => exact first
  | resolve before capacity good reference ih => exact (ih.follow rfl).1
  | dereference before capacity location ih =>
    unfold Library.dereference
    split
    · exact (ih.follow rfl).1
    · exact ih

theorem remembers_ofRoot (root : Url) (document : Value) : (ofRoot root document).Remembers := by
  rintro key location ⟨⟩

/-! ### Resolving -/

/-- With a loader that gives finitely many documents, resolving a reference ends within some number
of steps, whatever the library has been used for, and answers with the end of the reference's walk:
the location of the first node that is no reference, which is loaded then, or what is wrong with the
mention that has no node. It answers with a cycle exactly when every node on the walk is there and is
again a reference that leads onward, and exactly when an absolute reference comes up twice. -/
theorem resolve_iff_walk {root : Url} {document : Value} (goodRoot : root.WellFormed)
    (finite : loader.Finite) :
    ∃ least, ∀ capacity, least ≤ capacity →
      ∀ library, Reached loader (ofRoot root document) library →
      ∀ base, base.WellFormed → ∀ reference,
        let origin := originOf loader root document
        let run := library.resolve (loader.bounded capacity) base reference
        Settled run.1 ∧
          (∀ answer, (∀ keys, answer ≠ .error (.cycle keys)) →
            (run.1 = answer ↔ ∃ last, ReflTransGen origin.Onward ⟨base, reference⟩ last ∧
              origin.Ends last answer)) ∧
          (∀ location, run.1 = .ok location → run.2.Concrete location) ∧
          ((∃ keys, run.1 = .error (.cycle keys)) ↔
            ∀ mention, ReflTransGen origin.Onward ⟨base, reference⟩ mention →
              ∃ next, origin.Onward mention next) ∧
          ((∃ keys, run.1 = .error (.cycle keys)) ↔ origin.Repeats ⟨base, reference⟩) := by
  obtain ⟨documents, gives⟩ := finite.exists_gives
  refine ⟨Loader.nodesOf documents, ?_⟩
  intro capacity enough library reached base good reference origin run
  have load : (loader.bounded capacity).load = origin.load := rfl
  have reflects : library.Reflects origin :=
    reached.reflects rfl (reflects_ofRoot loader goodRoot document)
  have settled : Settled run.1 :=
    reflects.settled_resolve load (gives.truthful_bounded enough) good reference
  have follows : origin.Follows [] base reference run.1 :=
    (reflects.resolve load good reference).2 settled
  have concrete := ((reached.remembers (remembers_ofRoot root document)).follow
    (show library.resolve (loader.bounded capacity) base reference = (run.1, run.2) from rfl)).2
  obtain ⟨ends, endless, repeats⟩ := follows.iff_walk good
  exact ⟨settled, ends, concrete, endless, repeats⟩

theorem usedShelf_walks : ∃ capacity,
    (usedShelf.resolve (shelf.bounded capacity) shelfRoot "#/n").1 =
        .ok ⟨{ shelfRoot with path := .rooted ["b"] }, "/n"⟩ ∧
      ∃ keys, (usedShelf.resolve (shelf.bounded capacity) shelfRoot "#/loop").1 =
        .error (.cycle keys) := by
  have finite : shelf.Finite := Loader.finite_ofStored _
  obtain ⟨least, resolves⟩ :=
    @resolve_iff_walk shelf shelfRoot shelfDocument wellFormed_shelfRoot finite
  have answers := fun reference =>
    resolves least le_rfl usedShelf reached_usedShelf shelfRoot wellFormed_shelfRoot reference
  let inRoot (pointer : String) : Url := { shelfRoot with fragment := some pointer }
  let inOther : Url := { shelfRoot with path := .rooted ["b"], fragment := some "/n" }
  have own (pointer : String) : (originOf shelf shelfRoot shelfDocument).fetch
      (inRoot pointer).withoutFragment = .ok shelfDocument := if_pos rfl
  have toNode : (addressed (inRoot "/n")).pointer = "/n" := by decide +kernel
  have toLoop : (addressed (inRoot "/loop")).pointer = "/loop" := by decide +kernel
  have toOther : (addressed inOther).pointer = "/n" := by decide +kernel
  refine ⟨least, ?_, ?_⟩
  · have joined : (⟨shelfRoot, "#/n"⟩ : Mention).absolute = .ok (inRoot "/n") := by decide
    have further : (⟨shelfRoot, "b#/n"⟩ : Mention).absolute = .ok inOther := by decide
    have there : (originOf shelf shelfRoot shelfDocument).node (inRoot "/n") =
        .ok (.object [("$ref", .string "b#/n")]) :=
      Origin.node_of_found (own "/n") (by rw [toNode]; rfl)
    have plain : (originOf shelf shelfRoot shelfDocument).node inOther = .ok .null :=
      Origin.node_of_found rfl (by rw [toOther]; rfl)
    have target : addressed inOther = ⟨{ shelfRoot with path := .rooted ["b"] }, "/n"⟩ := by
      decide +kernel
    obtain ⟨-, ends, -⟩ := answers "#/n"
    rw [← target]
    exact (ends _ (by rintro keys ⟨⟩)).mpr
      ⟨⟨shelfRoot, "b#/n"⟩, .single (.step joined there rfl), .found further plain rfl⟩
  · have joined : (⟨shelfRoot, "#/loop"⟩ : Mention).absolute = .ok (inRoot "/loop") := by
      decide
    have there : (originOf shelf shelfRoot shelfDocument).node (inRoot "/loop") =
        .ok (.object [("$ref", .string "#/loop")]) :=
      Origin.node_of_found (own "/loop") (by rw [toLoop]; rfl)
    obtain ⟨-, -, -, -, repeats⟩ := answers "#/loop"
    exact repeats.mpr ⟨⟨shelfRoot, "#/loop"⟩, ⟨shelfRoot, "#/loop"⟩, _, .refl,
      .single (.step joined there rfl), joined, joined⟩

end Library

end ApiContract
