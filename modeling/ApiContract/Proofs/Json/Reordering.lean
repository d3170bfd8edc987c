import ApiContract.Proofs.Json.Sameness
import ApiContract.Proofs.RelatedLists
import Mathlib.Algebra.BigOperators.Group.List.Basic
import Mathlib.Algebra.Group.Action.Defs
import Mathlib.Algebra.Ring.Nat
/-!
# Reordering

Objects keep the order of their members, and two values may differ in that order alone, at any depth
(`Value.Reorders`). Such values have as many nodes (`Reorders.nodes_eq`) and are the same
(`Reorders.same`), so they are the same as the same values (`Reorders.same_right`).
-/

namespace ApiContract

namespace Entries

/-- A name has the same value wherever its entry stands. -/
theorem get?_eq_of_perm {α : Type} {entries other : Entries α} (distinct : entries.keys.Nodup)
    (perm : entries.Perm other) (name : String) : get? name entries = get? name other := by
  have others : other.keys.Nodup := (perm.map Prod.fst).nodup_iff.mp distinct
  refine Option.ext fun value => ?_
  constructor
  · intro found
    exact get?_of_mem others (perm.mem_iff.mp (mem_of_get? found))
  · intro found
    exact get?_of_mem distinct (perm.mem_iff.mpr (mem_of_get? found))

end Entries

namespace Json.Value

theorem nodesOfItems_eq_sum (items : List Value) : nodesOfItems items = (items.map nodes).sum := by
  induction items with
  | nil => rfl
  | cons item rest ih => rw [nodesOfItems, ih, List.map_cons, List.sum_cons]

theorem nodesOfMembers_eq_sum (members : Entries Value) :
    nodesOfMembers members = (members.values.map nodes).sum := by
  induction members with
  | nil => rfl
  | cons member rest ih =>
    rw [nodesOfMembers, ih]
    rfl

/-- Two values differ in the order of the members of objects alone, at any depth: the second has the
members of the first, each with a value that it reorders, in some order. -/
inductive Reorders : Value → Value → Prop
  | refl (value : Value) : Reorders value value
  | array {xs ys : List Value} : List.Forall₂ Reorders xs ys → Reorders (array xs) (array ys)
  | object {xs ys zs : Entries Value} :
      xs.keys = ys.keys → List.Forall₂ Reorders xs.values ys.values → ys.Perm zs →
      Reorders (object xs) (object zs)

namespace Reorders

variable {value other : Value}

/-- What holds of equal values, and of arrays and objects if it holds of their parts, holds of all
values that differ in the order of members. -/
@[elab_as_elim]
theorem inductionOn {motive : Value → Value → Prop} (h : value.Reorders other)
    (refl : ∀ value, motive value value)
    (array : ∀ xs ys, List.Forall₂ motive xs ys → motive (.array xs) (.array ys))
    (object : ∀ xs ys zs : Entries Value, xs.keys = ys.keys →
      List.Forall₂ motive xs.values ys.values → ys.Perm zs → motive (.object xs) (.object zs)) :
    motive value other :=
  @Reorders.rec (fun value other _ => motive value other) (fun xs ys _ => List.Forall₂ motive xs ys)
    refl (fun _ => array _ _) (fun keys _ perm values => object _ _ _ keys values perm)
    .nil (fun _ _ head tail => .cons head tail) value other h

theorem nodes_eq (h : value.Reorders other) : value.nodes = other.nodes := by
  refine h.inductionOn ?refl ?array ?object
  case refl => exact fun _ => rfl
  case array =>
    intro xs ys items
    rw [nodes, nodes, nodesOfItems_eq_sum, nodesOfItems_eq_sum, map_eq_map_of_forall₂ items]
  case object =>
    intro xs ys zs _ values perm
    rw [nodes, nodes, nodesOfMembers_eq_sum, nodesOfMembers_eq_sum, map_eq_map_of_forall₂ values]
    exact congrArg (· + 1) ((perm.map Prod.snd).map nodes).sum_eq

theorem hasDistinctNames_eq (h : value.Reorders other) :
    value.hasDistinctNames = other.hasDistinctNames := by
  refine h.inductionOn ?refl ?array ?object
  case refl => exact fun _ => rfl
  case array =>
    intro xs ys items
    rw [Bool.eq_iff_iff, hasDistinctNames_array, hasDistinctNames_array,
      ← List.forall_mem_map (P := (· = true)), map_eq_map_of_forall₂ items, List.forall_mem_map]
  case object =>
    intro xs ys zs keys values perm
    have names : (Entries.keys xs).Nodup ↔ (Entries.keys zs).Nodup := by
      rw [keys]
      exact (perm.map Prod.fst).nodup_iff
    have below : (∀ member ∈ xs, member.2.hasDistinctNames = true) ↔
        ∀ member ∈ zs, member.2.hasDistinctNames = true := by
      have (members : Entries Value) : (∀ member ∈ members, member.2.hasDistinctNames = true) ↔
          ∀ distinct ∈ members.values.map hasDistinctNames, distinct = true := by
        simp [Entries.values]
      rw [this, this, map_eq_map_of_forall₂ values]
      exact forall_congr' fun _ => imp_congr_left ((perm.map Prod.snd).map _).mem_iff
    rw [Bool.eq_iff_iff, hasDistinctNames_object, hasDistinctNames_object, names, below]

theorem same (h : value.Reorders other) : value.hasDistinctNames = true → value.same other = true := by
  refine h.inductionOn ?refl ?array ?object
  case refl => exact fun value distinct => (equivalenceAt_same value).refl distinct
  case array =>
    intro xs ys items distinct
    rw [Value.same, sameItems_iff]
    exact forall₂_of_forall_mem (hasDistinctNames_array.mp distinct) items
  case object =>
    intro xs ys zs keys values perm distinct
    obtain ⟨names, below⟩ := hasDistinctNames_object.mp distinct
    have others : (Entries.keys ys).Nodup := keys ▸ names
    have paired := Entries.forall₂_of_keys_eq keys
      (forall₂_of_forall_mem (List.forall_mem_map.mpr below) values)
    rw [Value.same, sameMembers_iff]
    refine ⟨paired.length_eq.trans perm.length_eq, ?_⟩
    intro member present
    have there := Entries.rel_get? (R := fun x y : Value => x.same y = true) member.1 paired
    rw [Entries.get?_of_mem names present, Entries.get?_eq_of_perm others perm] at there
    cases found : Entries.get? member.1 zs with
    | none =>
      rw [found] at there
      cases there
    | some z =>
      rw [found] at there
      cases there with
      | some alike => exact ⟨z, rfl, alike⟩

theorem same_back (h : value.Reorders other) (distinct : value.hasDistinctNames = true) :
    other.same value = true :=
  (equivalenceAt_same value).symm other distinct (h.hasDistinctNames_eq ▸ distinct) (h.same distinct)

/-- What is the same as a value is the same as one that has its members in another order. -/
theorem same_left (h : value.Reorders other) (distinct : value.hasDistinctNames = true)
    (third : Value) : third.same value = third.same other := by
  rw [Bool.eq_iff_iff]
  constructor
  · intro first
    exact (equivalenceAt_same third).trans _ _ first (h.same distinct)
  · intro first
    exact (equivalenceAt_same third).trans _ _ first (h.same_back distinct)

theorem same_right (h : value.Reorders other) (distinct : value.hasDistinctNames = true)
    (third : Value) : value.same third = other.same third := by
  rw [Bool.eq_iff_iff]
  constructor
  · intro first
    exact (equivalenceAt_same other).trans _ _ (h.same_back distinct) first
  · intro first
    exact (equivalenceAt_same value).trans _ _ (h.same distinct) first

end Reorders

end Json.Value

end ApiContract
