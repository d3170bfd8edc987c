import ApiContract.Entries
import Mathlib.Data.List.Forall2
/-!
# Lists related item by item

A list that is read from another, or compared with it, has an item for each of the other's, in their
order (`List.Forall₂`). What such lists have in common follows from what their items have: what a
function makes of them (`map_eq_map_of_forall₂`), what holds of all or of one of them, and for entries
the names and what is found by a name (`Entries.rel_get?`).
-/

namespace ApiContract

variable {α β γ : Type} {R : α → β → Prop} {p : α → Prop} {q : β → Prop} {xs : List α} {ys : List β}

/-- Functions that make the same of related items make the same of the lists. -/
theorem map_eq_map_of_forall₂ {f : α → γ} {g : β → γ}
    (h : List.Forall₂ (fun x y => f x = g y) xs ys) : xs.map f = ys.map g := by
  rwa [← List.forall₂_eq_eq_eq, List.forall₂_map_left_iff, List.forall₂_map_right_iff]

theorem exists_of_mem_forall₂ (h : List.Forall₂ R xs ys) {y : β} (member : y ∈ ys) :
    ∃ x ∈ xs, R x y := by
  induction h with
  | nil => cases member
  | @cons x z xs ys head _ ih =>
    rcases List.mem_cons.mp member with rfl | member
    · exact ⟨x, List.mem_cons_self, head⟩
    · obtain ⟨x, listed, holds⟩ := ih member
      exact ⟨x, List.mem_cons_of_mem _ listed, holds⟩

theorem forall_mem_of_forall₂ (h : List.Forall₂ R xs ys) (step : ∀ x y, R x y → p x → q y)
    (all : ∀ x ∈ xs, p x) : ∀ y ∈ ys, q y := by
  intro y member
  obtain ⟨x, listed, related⟩ := exists_of_mem_forall₂ h member
  exact step x y related (all x listed)

theorem exists_mem_of_forall₂ (h : List.Forall₂ R xs ys) (step : ∀ x y, R x y → p x → q y)
    (one : ∃ x ∈ xs, p x) : ∃ y ∈ ys, q y := by
  obtain ⟨x, member, holds⟩ := one
  obtain ⟨y, listed, related⟩ := exists_of_mem_forall₂ h.flip member
  exact ⟨y, listed, step x y related holds⟩

/-- Items of a class are related if those that are in the class are. -/
theorem forall₂_of_forall_mem (all : ∀ x ∈ xs, p x)
    (h : List.Forall₂ (fun x y => p x → R x y) xs ys) : List.Forall₂ R xs ys := by
  have both := (List.forall₂_and_left xs ys).mpr ⟨all, h⟩
  exact both.imp fun _ _ ⟨own, related⟩ => related own

/-- Related items have further in common what all pairs of them have. -/
theorem forall₂_and {S : α → β → Prop} (h : List.Forall₂ R xs ys)
    (there : ∀ x y, (x, y) ∈ xs.zip ys → S x y) : List.Forall₂ (fun x y => S x y ∧ R x y) xs ys :=
  List.forall₂_iff_zip.mpr
    ⟨h.length_eq, fun member => ⟨there _ _ member, List.forall₂_zip h member⟩⟩

/-- What corresponds to an item of a list stands between what corresponds to the others. -/
theorem exists_append_of_forall₂ {front back : List α} {x : α}
    (h : List.Forall₂ R (front ++ x :: back) ys) :
    ∃ front' y back', ys = front' ++ y :: back' ∧ R x y ∧ List.Forall₂ R back back' := by
  induction front generalizing ys with
  | nil =>
    obtain ⟨y, back', own, rest, rfl⟩ := List.forall₂_cons_left_iff.mp h
    exact ⟨[], y, back', rfl, own, rest⟩
  | cons first front ih =>
    obtain ⟨z, others, -, rest, rfl⟩ := List.forall₂_cons_left_iff.mp h
    obtain ⟨front', y, back', rfl, own, later⟩ := ih rest
    exact ⟨z :: front', y, back', rfl, own, later⟩

namespace Entries

/-- Entries that are read one by one from others have their names, and each is what it is said to
be. -/
theorem keys_of_forall₂ {p : String × β → Prop} {entries : Entries α} {results : Entries β}
    (h : List.Forall₂ (fun x y => y.1 = x.1 ∧ p y) entries results) :
    results.keys = entries.keys ∧ ∀ result ∈ results, p result := by
  have same := map_eq_map_of_forall₂ (h.imp fun _ _ both => both.1.symm)
  refine ⟨same.symm, fun result member => ?_⟩
  obtain ⟨_, -, -, holds⟩ := exists_of_mem_forall₂ h member
  exact holds

variable {xs : Entries α} {ys : Entries β}

/-- Entries of the same names whose values are related are related one by one. -/
theorem forall₂_of_keys_eq (keys : xs.keys = ys.keys) (values : List.Forall₂ R xs.values ys.values) :
    List.Forall₂ (fun x y => x.1 = y.1 ∧ R x.2 y.2) xs ys := by
  induction xs generalizing ys with
  | nil =>
    cases ys with
    | nil => exact .nil
    | cons y ys => cases keys
  | cons x xs ih =>
    cases ys with
    | nil => cases keys
    | cons y ys =>
      obtain ⟨key, keys⟩ := List.cons.inj keys
      cases values with
      | cons value values => exact .cons ⟨key, value⟩ (ih keys values)

/-- The value of a name is related to the value of that name among such entries. -/
theorem rel_get? (name : String)
    (h : List.Forall₂ (fun x y => x.1 = y.1 ∧ R x.2 y.2) xs ys) :
    Option.Rel R (get? name xs) (get? name ys) := by
  induction h with
  | nil => exact .none
  | @cons x y xs ys head _ ih =>
    obtain ⟨key, value⟩ := head
    rw [get?, get?, key]
    split
    · exact .some value
    · exact ih

end Entries

end ApiContract
