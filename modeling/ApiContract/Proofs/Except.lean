/-!
# Computations that can fail

What a chain of computations tells of its links, whether it comes to a result or to an error.
-/

namespace ApiContract

variable {ε α β : Type} {x : Except ε α} {e : ε}

theorem exists_of_bind_eq_ok {f : α → Except ε β} {b : β} (h : x.bind f = .ok b) :
    ∃ a, x = .ok a ∧ f a = .ok b := by
  cases x with
  | error e => cases h
  | ok a => exact ⟨a, rfl, h⟩

theorem exists_of_map_eq_ok {f : α → β} {b : β} (h : x.map f = .ok b) :
    ∃ a, x = .ok a ∧ f a = b := by
  cases x with
  | error e => cases h
  | ok a => exact ⟨a, rfl, Except.ok.inj h⟩

theorem exists_of_isOk_eq_false (h : x.isOk = false) : ∃ e, x = .error e := by
  cases x with
  | error e => exact ⟨e, rfl⟩
  | ok a => cases h

theorem toOption_eq_some_iff {a : α} : x.toOption = some a ↔ x = .ok a := by
  cases x <;> simp [Except.toOption]

/-- A chain fails at its first link or behind it. -/
theorem cases_of_bind_eq_error {f : α → Except ε β} (h : x.bind f = .error e) :
    x = .error e ∨ ∃ a, x = .ok a ∧ f a = .error e := by
  cases x with
  | error other => exact .inl (congrArg _ (Except.error.inj h))
  | ok a => exact .inr ⟨a, rfl, h⟩

theorem eq_error_of_map_eq_error {f : α → β} (h : x.map f = .error e) : x = .error e := by
  cases x with
  | error other => exact congrArg _ (Except.error.inj h)
  | ok a => cases h

/-- Two computations fail with the same error, or come to results that are related. -/
inductive FailAlike (related : α → β → Prop) : Except ε α → Except ε β → Prop
  | error (e : ε) : FailAlike related (.error e) (.error e)
  | ok {a : α} {b : β} : related a b → FailAlike related (.ok a) (.ok b)

namespace FailAlike

variable {γ δ : Type} {related : α → β → Prop} {after : γ → δ → Prop} {y : Except ε β}

theorem map {f : α → γ} {g : β → δ} (h : FailAlike related x y)
    (step : ∀ a b, related a b → after (f a) (g b)) : FailAlike after (x.map f) (y.map g) := by
  cases h with
  | error e => exact .error e
  | ok own => exact .ok (step _ _ own)

theorem bind_eq {f : α → Except ε γ} {g : β → Except ε γ} (h : FailAlike related x y)
    (step : ∀ a b, related a b → f a = g b) : x.bind f = y.bind g := by
  cases h with
  | error e => rfl
  | ok own => exact step _ _ own

end FailAlike

end ApiContract
