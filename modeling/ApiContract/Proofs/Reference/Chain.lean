import ApiContract.Proofs.Url.Reading
import ApiContract.Reference.Library
/-!
# Chains of references

What following a reference comes to is settled by the documents there are: `Follows` says it with
nothing loaded and nothing remembered. A reference that leads to a node does so after a number of
further references (`Lands`), and as that number is its own, it does not come up again on the way.
-/

namespace ApiContract

open Json (Value)

/-- Where documents come from: the root document is at hand, any other is loaded. -/
structure Origin where
  root : Url
  document : Value
  load : Url → Except LoadError Value

/-- The location that an absolute reference addresses. -/
def Location.addressed (absolute : Url) : Location :=
  ⟨absolute.withoutFragment, Text.Percent.decodeText (absolute.fragment.getD "")⟩

namespace Origin

open Library (reference?)
open Location (addressed)

variable {origin : Origin} {absolute next : Url} {location target : Location} {m n : Nat}

/-- The document at a URL. -/
def fetch (origin : Origin) (url : Url) : Except LoadError Value :=
  if url = origin.root then .ok origin.document else origin.load url

/-- The node that an absolute reference addresses. -/
def node (origin : Origin) (absolute : Url) : Except ReferenceError Value :=
  match origin.fetch absolute.withoutFragment with
  | .error cause => .error (.load absolute.withoutFragment.text cause)
  | .ok document =>
    match Json.Pointer.navigate? document (addressed absolute).pointer with
    | some node => .ok node
    | none => .error (.unresolved absolute.text)

/-! ### Where a reference leads -/

/-- An absolute reference leads to a location, `n` further references being followed on the way. -/
inductive Lands (origin : Origin) : (n : Nat) → (absolute : Url) → Location → Prop where
  | here {absolute : Url} {node : Value} (there : origin.node absolute = .ok node)
      (plain : reference? node = none) : Lands origin 0 absolute (addressed absolute)
  | next {absolute next : Url} {node : Value} {reference : String} {n : Nat} {target : Location}
      (there : origin.node absolute = .ok node) (referring : reference? node = some reference)
      (joined : absolute.withoutFragment.join reference = .ok next)
      (further : Lands origin n next target) : Lands origin (n + 1) absolute target

theorem Lands.unique (h : origin.Lands m absolute location) (h' : origin.Lands n absolute target) :
    m = n ∧ location = target := by
  induction h generalizing n with
  | here there plain =>
    cases h' with
    | here => exact ⟨rfl, rfl⟩
    | next there' referring =>
      rw [Except.ok.inj (there.symm.trans there'), referring] at plain
      cases plain
  | next there referring joined further ih =>
    cases h' with
    | here there' plain =>
      rw [Except.ok.inj (there.symm.trans there'), plain] at referring
      cases referring
    | next there' referring' joined' further' =>
      obtain rfl := Except.ok.inj (there.symm.trans there')
      obtain rfl := Option.some.inj (referring.symm.trans referring')
      obtain rfl := Except.ok.inj (joined.symm.trans joined')
      obtain ⟨rfl, rfl⟩ := ih further'
      exact ⟨rfl, rfl⟩

/-! ### What following a reference comes to -/

/-- Following a reference that stands in the document at `base` comes to an outcome, when `chain`
holds the absolute references followed before it. -/
inductive Follows (origin : Origin) :
    (chain : List String) → (base : Url) → (reference : String) → Except ReferenceError Location → Prop
    where
  | invalid {chain base reference cause} (failed : base.join reference = .error cause) :
      Follows origin chain base reference (.error (.invalidUri reference base.text cause))
  | cycle {chain base reference absolute} (joined : base.join reference = .ok absolute)
      (again : absolute.text ∈ chain) :
      Follows origin chain base reference (.error (.cycle (chain ++ [absolute.text])))
  | lost {chain base reference absolute failure} (joined : base.join reference = .ok absolute)
      (fresh : absolute.text ∉ chain) (missing : origin.node absolute = .error failure) :
      Follows origin chain base reference (.error failure)
  | found {chain base reference absolute node} (joined : base.join reference = .ok absolute)
      (fresh : absolute.text ∉ chain) (there : origin.node absolute = .ok node)
      (plain : reference? node = none) :
      Follows origin chain base reference (.ok (addressed absolute))
  | next {chain base reference absolute node nextReference outcome}
      (joined : base.join reference = .ok absolute) (fresh : absolute.text ∉ chain)
      (there : origin.node absolute = .ok node) (referring : reference? node = some nextReference)
      (further :
        Follows origin (chain ++ [absolute.text]) absolute.withoutFragment nextReference outcome) :
      Follows origin chain base reference outcome

variable {chain : List String} {base : Url} {reference : String}
  {outcome outcome' : Except ReferenceError Location}

theorem Follows.unique (h : origin.Follows chain base reference outcome)
    (h' : origin.Follows chain base reference outcome') : outcome = outcome' := by
  induction h generalizing outcome' <;> cases h' <;> grind

/-- An outcome that says where a reference leads, or why it leads nowhere. -/
def Settled (outcome : Except ReferenceError Location) : Prop :=
  ∀ text, outcome ≠ .error (.endless text)

theorem settled_of_node {failure : ReferenceError} (h : origin.node absolute = .error failure) :
    Settled (.error failure) := by
  unfold node at h
  split at h
  · cases h
    rintro text ⟨⟩
  · split at h <;> cases h
    rintro text ⟨⟩

/-! ### Chains that lead to a reference -/

/-- Every reference of a chain leads on to a given one: where that lands, they land later. -/
def Behind (origin : Origin) (chain : List String) (absolute : Url) : Prop :=
  ∀ key ∈ chain, ∃ earlier : Url, earlier.WellFormed ∧ earlier.text = key ∧
    ∀ n target, origin.Lands n absolute target → ∃ m > n, origin.Lands m earlier target

/-- Where a reference leads, those before it lead. -/
theorem Behind.lands (h : origin.Behind chain absolute) (lands : origin.Lands n absolute target) :
    ∀ key ∈ chain, ∃ m earlier, Url.WellFormed earlier ∧ earlier.text = key ∧
      origin.Lands m earlier target := by
  intro key member
  obtain ⟨earlier, good, same, leads⟩ := h key member
  obtain ⟨m, -, landsLater⟩ := leads n target lands
  exact ⟨m, earlier, good, same, landsLater⟩

theorem behind_nil (absolute : Url) : origin.Behind [] absolute := by
  rintro key ⟨⟩

/-- The references of a chain, and the one that they lead to, lead on to the next one. -/
theorem Behind.onward {node : Value} (h : origin.Behind chain absolute) (good : absolute.WellFormed)
    (there : origin.node absolute = .ok node) (referring : reference? node = some reference)
    (joined : absolute.withoutFragment.join reference = .ok next) :
    origin.Behind (chain ++ [absolute.text]) next := by
  intro key member
  rcases List.mem_append.mp member with before | own
  · obtain ⟨earlier, goodEarlier, same, leads⟩ := h key before
    refine ⟨earlier, goodEarlier, same, fun n target lands => ?_⟩
    obtain ⟨m, later, landsEarlier⟩ := leads _ target (.next there referring joined lands)
    exact ⟨m, by omega, landsEarlier⟩
  · exact ⟨absolute, good, (List.mem_singleton.mp own).symm, fun n target lands =>
      ⟨n + 1, by omega, .next there referring joined lands⟩⟩

/-- A reference that leads somewhere has not been followed before it: it would land later than
itself. -/
theorem Behind.not_mem (h : origin.Behind chain absolute) (good : absolute.WellFormed)
    (lands : origin.Lands n absolute target) : absolute.text ∉ chain := by
  intro member
  obtain ⟨earlier, goodEarlier, same, leads⟩ := h _ member
  obtain rfl := Url.text_inj goodEarlier good same
  obtain ⟨m, later, landsLater⟩ := leads n target lands
  exact absurd (lands.unique landsLater).1 (by omega)

/-- Following a reference comes to where it leads, whatever has been followed before it. -/
theorem Lands.follows (h : origin.Lands n absolute target) (good : absolute.WellFormed)
    (behind : origin.Behind chain absolute) (joined : base.join reference = .ok absolute) :
    origin.Follows chain base reference (.ok target) := by
  have fresh := behind.not_mem good h
  induction h generalizing chain base reference with
  | here there plain => exact .found joined fresh there plain
  | next there referring onward further ih =>
    have nextGood := Url.wellFormed_of_join (Url.wellFormed_withoutFragment good) onward
    have nextBehind := behind.onward good there referring onward
    exact .next joined fresh there referring
      (ih nextGood nextBehind onward (nextBehind.not_mem nextGood further))

end Origin

end ApiContract
