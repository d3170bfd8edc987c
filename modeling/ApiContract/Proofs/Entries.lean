import Mathlib.Data.List.Sort
import ApiContract.Entries
/-!
# Ascending entries

The entries that a session keeps are in the order of their names, so that each name comes once and
nothing but the values of the names tells two of them apart.
-/

namespace ApiContract.Entries

variable {α : Type} {entries other : Entries α}

theorem has_eq_true_iff {name : String} : has name entries = true ↔ name ∈ entries.keys :=
  get?_isSome_iff

theorem has_eq_of_keys_eq {name : String} (same : entries.keys = other.keys) :
    has name entries = has name other := by
  rw [Bool.eq_iff_iff, has_eq_true_iff, has_eq_true_iff, same]

/-- Each name comes before those that follow. -/
def Ascending (entries : Entries α) : Prop := entries.keys.Pairwise (· < ·)

theorem mem_keys_insertSorted_iff {name key : String} {value : α} :
    key ∈ (insertSorted name value entries).keys ↔ key = name ∨ key ∈ entries.keys := by
  rw [← get?_isSome_iff, ← get?_isSome_iff, get?_insertSorted]
  by_cases same : key = name <;> simp [same]

theorem ascending_nil : Ascending ([] : Entries α) := List.Pairwise.nil

theorem Ascending.insertSorted {name : String} {value : α} (h : entries.Ascending) :
    (insertSorted name value entries).Ascending := by
  induction entries with
  | nil => exact List.pairwise_singleton _ _
  | cons entry rest ih =>
    obtain ⟨key, old⟩ := entry
    obtain ⟨first, later⟩ := List.pairwise_cons.mp h
    rw [Entries.insertSorted]
    by_cases same : key = name
    · rw [if_pos same]
      subst same
      exact h
    rw [if_neg same]
    by_cases below : name < key
    · rw [if_pos below]
      refine List.pairwise_cons.mpr ⟨?_, h⟩
      intro further member
      rcases List.mem_cons.mp member with rfl | member
      · exact below
      · exact String.lt_trans below (first further member)
    · rw [if_neg below]
      have above : key < name := Std.lt_of_le_of_ne (String.not_lt.mp below) same
      refine List.pairwise_cons.mpr ⟨?_, ih later⟩
      intro further member
      rcases mem_keys_insertSorted_iff.mp member with rfl | member
      · exact above
      · exact first further member

theorem Ascending.extendSorted (h : entries.Ascending) (pairs : List (String × α)) :
    (extendSorted entries pairs).Ascending := by
  induction pairs generalizing entries with
  | nil => exact h
  | cons pair rest ih => exact ih h.insertSorted

theorem mem_keys_of_extendSorted {pairs : List (String × α)} {name : String}
    (h : name ∈ (entries.extendSorted pairs).keys) :
    name ∈ entries.keys ∨ ∃ pair ∈ pairs, pair.1 = name := by
  induction pairs generalizing entries with
  | nil => exact .inl h
  | cons pair rest ih =>
    rcases ih h with member | ⟨other, member, same⟩
    · rcases mem_keys_insertSorted_iff.mp member with rfl | member
      · exact .inr ⟨pair, List.mem_cons_self, rfl⟩
      · exact .inl member
    · exact .inr ⟨other, List.mem_cons_of_mem _ member, same⟩

/-- Of several values that are set for a name the last one counts. -/
theorem get?_extendSorted (name : String) (entries : Entries α) (pairs : List (String × α)) :
    get? name (extendSorted entries pairs) = (get? name pairs.reverse).or (get? name entries) := by
  induction pairs generalizing entries with
  | nil => rfl
  | cons pair rest ih =>
    obtain ⟨key, value⟩ := pair
    have further := ih (Entries.insertSorted key value entries)
    rw [get?_insertSorted] at further
    rw [List.reverse_cons, get?_append, Option.or_assoc]
    refine further.trans ?_
    by_cases same : name = key
    · simp [get?, same]
    · simp [get?, same, Ne.symm same]

/-- Ascending entries of the same names list these in the same order. -/
theorem Ascending.keys_eq (h : entries.Ascending) (h' : other.Ascending)
    (same : ∀ name, name ∈ entries.keys ↔ name ∈ other.keys) : entries.keys = other.keys :=
  List.Pairwise.eq_of_mem_iff h h' same

end ApiContract.Entries
