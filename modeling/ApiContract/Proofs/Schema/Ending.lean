import ApiContract.Schema.Builder
/-!
# Steps that end

Two kinds of steps of building are told apart. `Build.Ends` is said of a step that ends, in an error
of the description or in a state where something holds again. `Build.Asks` is said of a step that
refers to other schemas through a parameter: it ends if they do, and it asks for schemas only at
certain locations, and only in states where that holds (`Asks.of_asksFor`).
-/

namespace ApiContract

namespace Build

variable {α β : Type} {holds : Construction → Prop} {may : Location → Prop} {P : α → Prop}
  {Q : β → Prop} {loader : Loader} {location : Location}

/-- The error is one of the description, and does not say that building was cut short. -/
def Definite (e : DefinitionError) : Prop := ∀ text, e ≠ .reference (.endless text)

/-- From a state where `holds` a step ends in a definite error, or in such a state with a result. -/
def Ends (holds : Construction → Prop) (x : Build α) (post : α → Prop) : Prop :=
  ∀ s, holds s →
    match x s with
    | .error e => Definite e
    | .ok (a, later) => holds later ∧ post a

namespace Ends

theorem pure {a : α} (h : P a) : Ends holds (Pure.pure a) P := fun _ here => ⟨here, h⟩

theorem fail {e : DefinitionError} (definite : Definite e) : Ends holds (Build.fail e) P :=
  fun _ _ => definite

theorem malformed (location : Location) (problem : String) :
    Ends holds (Build.malformed location problem) P :=
  .fail (by rintro text ⟨⟩)

theorem bind {x : Build α} {f : α → Build β} (first : Ends holds x P)
    (second : ∀ a, P a → Ends holds (f a) Q) : Ends holds (x >>= f) Q := by
  intro s here
  change match Except.bind (x s) (fun result => f result.1 result.2) with
    | .error e => Definite e
    | .ok (b, later) => holds later ∧ Q b
  have begun := first s here
  cases run : x s with
  | error e =>
    rw [run] at begun
    exact begun
  | ok result =>
    rw [run] at begun
    exact second result.1 begun.2 result.2 begun.1

theorem bindEither {c : Prop} [Decidable c] {x y : Build α} {f : α → Build β}
    (one : Ends holds x P) (other : Ends holds y P) (second : ∀ a, P a → Ends holds (f a) Q) :
    Ends holds (if c then x >>= f else y >>= f) Q := by
  split
  · exact one.bind second
  · exact other.bind second

theorem mono {x : Build α} {R : α → Prop} (h : Ends holds x P) (weaker : ∀ a, P a → R a) :
    Ends holds x R := by
  intro s here
  have ends := h s here
  cases run : x s with
  | error e =>
    rw [run] at ends
    exact ends
  | ok result =>
    rw [run] at ends
    exact ⟨ends.1, weaker _ ends.2⟩

theorem mapM {f : α → Build β} {l : List α} (h : ∀ x ∈ l, Ends holds (f x) Q) :
    Ends holds (l.mapM f) fun _ => True := by
  induction l with
  | nil => exact .pure trivial
  | cons x rest ih =>
    rw [List.mapM_cons]
    refine .bind (h x List.mem_cons_self) fun y _ => ?_
    refine .bind (ih fun other member => h other (List.mem_cons_of_mem _ member)) fun ys _ => ?_
    exact .pure trivial

theorem map {x : Build α} (f : α → β) (h : Ends holds x P) : Ends holds (f <$> x) fun _ => True := by
  rw [map_eq_pure_bind]
  exact h.bind fun _ _ => .pure trivial

/-- An operation on the library ends when its failures are definite. -/
theorem withLibrary {operation : Library → Except ReferenceError α × Library}
    (h : ∀ s, holds s → holds { s with library := (operation s.library).2 } ∧
      match (operation s.library).1 with
      | .error cause => ∀ text, cause ≠ .endless text
      | .ok a => P a) :
    Ends holds (Build.withLibrary operation) P := by
  intro s here
  obtain ⟨kept, outcome⟩ := h s here
  unfold Build.withLibrary
  cases run : operation s.library with
  | mk answer library =>
    rw [run] at kept outcome
    cases answer with
    | error cause =>
      rintro text ⟨⟩
      exact outcome text rfl
    | ok a => exact ⟨kept, outcome⟩

end Ends

/-- A step that refers to schemas through a parameter ends when they do. It asks for schemas only at
locations that it `may`, in states where `holds`: what others would answer there does not matter. -/
structure Asks (holds : Construction → Prop) (may : Location → Prop)
    (x : (Location → Build SchemaId) → Build α) (post : α → Prop) : Prop where
  ends : ∀ visit, (∀ location, may location → Ends holds (visit location) fun _ => True) →
    Ends holds (x visit) post
  only : ∀ visit other, (∀ location, may location → Ends holds (visit location) fun _ => True) →
    (∀ location s, may location → holds s → other location s = visit location s) →
    ∀ s, holds s → x other s = x visit s

namespace Asks

/-- A step that refers to no schema. -/
theorem lift {x : Build α} (h : Ends holds x P) : Asks holds may (fun _ => x) P :=
  ⟨fun _ _ => h, fun _ _ _ _ _ _ => rfl⟩

theorem ask (h : may location) : Asks holds may (fun visit => visit location) fun _ => True :=
  ⟨fun _ ends => ends location h, fun _ _ _ agree s here => agree location s h here⟩

theorem bind {x : (Location → Build SchemaId) → Build α}
    {f : α → (Location → Build SchemaId) → Build β} (first : Asks holds may x P)
    (second : ∀ a, P a → Asks holds may (f a) Q) :
    Asks holds may (fun visit => x visit >>= fun a => f a visit) Q where
  ends visit ends := (first.ends visit ends).bind fun a post => (second a post).ends visit ends
  only visit other ends agree s here := by
    change Except.bind (x other s) (fun result => f result.1 other result.2) =
      Except.bind (x visit s) (fun result => f result.1 visit result.2)
    rw [first.only visit other ends agree s here]
    have begun := first.ends visit ends s here
    cases run : x visit s with
    | error e => rfl
    | ok result =>
      rw [run] at begun
      exact (second result.1 begun.2).only visit other ends agree result.2 begun.1

/-- A step for each element of a list. -/
theorem mapM {f : α → (Location → Build SchemaId) → Build β} {l : List α}
    (h : ∀ x ∈ l, Asks holds may (f x) Q) :
    Asks holds may (fun visit => l.mapM fun x => f x visit) fun _ => True := by
  induction l with
  | nil => exact .lift (.pure trivial)
  | cons x rest ih =>
    simp only [List.mapM_cons]
    refine .bind (h x List.mem_cons_self) fun y _ => ?_
    refine .bind (ih fun other member => h other (List.mem_cons_of_mem _ member)) fun ys _ => ?_
    exact .lift (.pure trivial)

end Asks

/-- While a step runs from a state, the schema at a location is asked for in another state: what is
answered there decides what the step comes to. -/
def AsksFor (x : (Location → Build SchemaId) → Build α) (visit : Location → Build SchemaId)
    (s : Construction) (location : Location) (now : Construction) : Prop :=
  ∃ other : Location → Build SchemaId,
    (∀ place t, (place, t) ≠ (location, now) → other place t = visit place t) ∧ x other s ≠ x visit s

/-- The schema that a step begins with is asked for. -/
theorem asksFor_bind (visit : Location → Build SchemaId) (location : Location)
    (f : SchemaId → (Location → Build SchemaId) → Build α) (s : Construction) :
    AsksFor (fun visit => visit location >>= fun id => f id visit) visit s location s := by
  classical
  -- Some error is not what the step comes to.
  obtain ⟨e, different⟩ : ∃ e, (visit location >>= fun id => f id visit) s ≠ .error e := by
    refine Classical.byContradiction fun none => ?_
    have every := fun e => Classical.not_not.mp (not_exists.mp none e)
    cases (every (.unsupportedVersion "3")).symm.trans (every (.linkTarget "3"))
  let other (place : Location) : Build SchemaId := fun t =>
    if (place, t) = (location, s) then .error e else visit place t
  have failed : other location s = .error e := if_pos rfl
  refine ⟨other, fun place t elsewhere => if_neg elsewhere, ?_⟩
  change Except.bind (other location s) _ ≠ _
  rw [failed]
  exact different.symm

/-- Schemas are asked for only where they may be. -/
theorem Asks.of_asksFor {x : (Location → Build SchemaId) → Build α}
    {visit : Location → Build SchemaId} {s now : Construction} (h : Asks holds may x P)
    (ends : ∀ location, may location → Ends holds (visit location) fun _ => True) (here : holds s)
    (asked : AsksFor x visit s location now) : may location ∧ holds now := by
  obtain ⟨other, same, different⟩ := asked
  refine Classical.byContradiction fun never => ?_
  refine different (h.only visit other ends ?_ s here)
  intro place t allowed kept
  refine same place t ?_
  rintro ⟨⟩
  exact never ⟨allowed, kept⟩

end Build

end ApiContract
