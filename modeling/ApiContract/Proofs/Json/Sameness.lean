import ApiContract.Json.Value
import Mathlib.Data.List.Forall2
import Mathlib.Data.List.Nodup
import Mathlib.Data.List.Perm.Subperm
/-!
# Sameness of values

Objects are compared by looking the members of one up in the other, so `Value.same` is an
equivalence only among values whose objects have each name once (`hasDistinctNames`), as all values
have that are read. `EquivalenceAt` says what an equivalence is as seen from one element; it carries
over from elements to lists and to entries, and from there to nested values
(`equivalenceAt_same`).
-/

namespace ApiContract

/-- A test is an equivalence, as seen from one element, among the elements of a class. -/
structure EquivalenceAt {α : Type} (proper : α → Prop) (same : α → α → Bool) (x : α) : Prop where
  refl : proper x → same x x = true
  symm : ∀ y, proper x → proper y → same x y = true → same y x = true
  trans : ∀ y z, same x y = true → same y z = true → same x z = true

/-- Entries of which the names of some are among those of others, without repetition and not fewer,
have the same names. -/
theorem Entries.keys_subset_of_length_le {α β : Type} {xs : Entries α} {ys : Entries β}
    (distinct : xs.keys.Nodup) (among : xs.keys ⊆ ys.keys) (length : ys.length ≤ xs.length) :
    ys.keys ⊆ xs.keys := by
  have lengths : ys.keys.length ≤ xs.keys.length := by simpa [keys] using length
  exact ((List.subperm_of_subset distinct among).perm_of_length_le lengths).symm.subset

namespace EquivalenceAt

variable {α : Type} {proper : α → Prop} {same : α → α → Bool}

/-- What a test takes for the same as an element is that element. -/
theorem of_eq {x : α} (own : same x x = true) (eq : ∀ y, same x y = true → y = x) :
    EquivalenceAt proper same x where
  refl _ := own
  symm y _ _ h := by rwa [eq y h] at *
  trans y z h h' := by rwa [eq y h] at h'

theorem list {test : List α → List α → Bool} {xs : List α}
    (agree : ∀ xs ys, test xs ys = true ↔ List.Forall₂ (fun x y => same x y = true) xs ys)
    (each : ∀ x ∈ xs, EquivalenceAt proper same x) :
    EquivalenceAt (fun xs => ∀ x ∈ xs, proper x) test xs where
  refl all := by
    rw [agree, List.forall₂_same]
    exact fun x member => (each x member).refl (all x member)
  symm ys all others h := by
    rw [agree] at h ⊢
    induction h with
    | nil => exact .nil
    | cons head _ ih =>
      obtain ⟨first, each⟩ := List.forall_mem_cons.mp each
      obtain ⟨own, all⟩ := List.forall_mem_cons.mp all
      obtain ⟨other, others⟩ := List.forall_mem_cons.mp others
      exact .cons (first.symm _ own other head) (ih each all others)
  trans ys zs h h' := by
    rw [agree] at h h' ⊢
    induction h generalizing zs with
    | nil => exact h'
    | cons head _ ih =>
      obtain ⟨first, each⟩ := List.forall_mem_cons.mp each
      cases h' with
      | cons head' tail' => exact .cons (first.trans _ _ head head') (ih each _ tail')

theorem entries {test : Entries α → Entries α → Bool} {xs : Entries α}
    (agree : ∀ xs ys : Entries α, test xs ys = true ↔ xs.length = ys.length ∧
      ∀ entry ∈ xs, ∃ y, Entries.get? entry.1 ys = some y ∧ same entry.2 y = true)
    (each : ∀ entry ∈ xs, EquivalenceAt proper same entry.2) :
    EquivalenceAt (fun xs : Entries α => xs.keys.Nodup ∧ ∀ entry ∈ xs, proper entry.2) test xs where
  refl := by
    rintro ⟨distinct, all⟩
    rw [agree]
    refine ⟨rfl, fun entry member => ⟨entry.2, Entries.get?_of_mem distinct member, ?_⟩⟩
    exact (each entry member).refl (all entry member)
  symm := by
    rintro ys ⟨distinct, all⟩ ⟨distinct', all'⟩ h
    rw [agree] at h ⊢
    obtain ⟨lengths, found⟩ := h
    refine ⟨lengths.symm, ?_⟩
    rintro ⟨key, y⟩ member'
    -- The names of `xs` are those of `ys`, so the entry has its like among those of `xs`.
    have among : xs.keys ⊆ ys.keys := by
      intro key there
      obtain ⟨entry, member, rfl⟩ := List.mem_map.mp there
      obtain ⟨y, there, -⟩ := found entry member
      exact Entries.get?_isSome_iff.mp (by rw [there]; rfl)
    have there : key ∈ xs.keys := Entries.keys_subset_of_length_le distinct among (Nat.le_of_eq lengths.symm)
      (List.mem_map.mpr ⟨_, member', rfl⟩)
    obtain ⟨⟨_, x⟩, member, rfl⟩ := List.mem_map.mp there
    obtain ⟨other, there, alike⟩ := found _ member
    rw [Entries.get?_of_mem distinct' member'] at there
    cases there
    refine ⟨x, Entries.get?_of_mem distinct member, ?_⟩
    exact (each _ member).symm _ (all _ member) (all' _ member') alike
  trans ys zs h h' := by
    rw [agree] at h h' ⊢
    obtain ⟨lengths, found⟩ := h
    obtain ⟨lengths', found'⟩ := h'
    refine ⟨lengths.trans lengths', fun entry member => ?_⟩
    obtain ⟨y, there, alike⟩ := found entry member
    obtain ⟨z, there', alike'⟩ := found' _ (Entries.mem_of_get? there)
    exact ⟨z, there', (each entry member).trans _ _ alike alike'⟩

end EquivalenceAt

theorem Decimal.Binary64.equivalenceAt_same (x : Binary64) :
    EquivalenceAt (fun _ => True) same x where
  refl _ := by simp [same]
  symm y _ _ h := by grind [same]
  trans y z h h' := by grind [same]

namespace Json

theorem Number.equivalenceAt_same (n : Number) : EquivalenceAt (fun _ => True) same n := by
  cases n with
  | integer n =>
    refine ⟨fun _ => by simp [same], fun m _ _ h => ?_, fun l m h h' => ?_⟩
    · cases m <;> simp_all [same]
    · cases l <;> cases m <;> simp_all [same]
  | real x =>
    have real := Decimal.Binary64.equivalenceAt_same x
    refine ⟨fun _ => real.refl trivial, fun m _ _ h => ?_, fun l m h h' => ?_⟩
    · cases m with
      | integer m => cases h
      | real y => exact real.symm y trivial trivial h
    · cases l with
      | integer l => cases h
      | real y =>
        cases m with
        | integer m => cases h'
        | real z => exact real.trans y z h h'

namespace Value

mutual

/-- Whether each object in a value has each of its names once, as objects that are read do. -/
def hasDistinctNames : Value → Bool
  | array items => itemsHaveDistinctNames items
  | object members => decide (Entries.keys members).Nodup && membersHaveDistinctNames members
  | _ => true

/-- Whether each object in the values of a list has each of its names once. -/
def itemsHaveDistinctNames : List Value → Bool
  | [] => true
  | item :: rest => hasDistinctNames item && itemsHaveDistinctNames rest

/-- Whether each object in the values of members has each of its names once. -/
def membersHaveDistinctNames : List (String × Value) → Bool
  | [] => true
  | (_, value) :: rest => hasDistinctNames value && membersHaveDistinctNames rest

end

theorem itemsHaveDistinctNames_iff {items : List Value} :
    itemsHaveDistinctNames items = true ↔ ∀ item ∈ items, item.hasDistinctNames = true := by
  induction items with
  | nil => simp [itemsHaveDistinctNames]
  | cons item rest ih => simp [itemsHaveDistinctNames, ih]

theorem membersHaveDistinctNames_iff {members : Entries Value} :
    membersHaveDistinctNames members = true ↔
      ∀ member ∈ members, member.2.hasDistinctNames = true := by
  induction members with
  | nil => simp [membersHaveDistinctNames]
  | cons member rest ih => simp [membersHaveDistinctNames, ih]

theorem hasDistinctNames_array {items : List Value} :
    (array items).hasDistinctNames = true ↔ ∀ item ∈ items, item.hasDistinctNames = true := by
  rw [hasDistinctNames, itemsHaveDistinctNames_iff]

theorem hasDistinctNames_object {members : Entries Value} :
    (object members).hasDistinctNames = true ↔
      (Entries.keys members).Nodup ∧ ∀ member ∈ members, member.2.hasDistinctNames = true := by
  rw [hasDistinctNames, Bool.and_eq_true, decide_eq_true_iff, membersHaveDistinctNames_iff]

/-- What holds of a value when it holds of its items and members holds of all values. -/
@[elab_as_elim]
theorem inductionOn {motive : Value → Prop} (value : Value)
    (null : motive null) (bool : ∀ b, motive (bool b)) (number : ∀ n, motive (number n))
    (string : ∀ s, motive (string s))
    (array : ∀ items, (∀ item ∈ items, motive item) → motive (array items))
    (object : ∀ members : Entries Value, (∀ member ∈ members, motive member.2) →
      motive (object members)) : motive value :=
  @Value.rec motive (fun items => ∀ item ∈ items, motive item)
    (fun members => ∀ member ∈ members, motive member.2) (fun member => motive member.2)
    null bool number string array object
    (by simp) (fun _ _ first rest => List.forall_mem_cons.mpr ⟨first, rest⟩)
    (by simp) (fun _ _ first rest => List.forall_mem_cons.mpr ⟨first, rest⟩)
    (fun _ _ holds => holds) value

theorem sameItems_iff (xs ys : List Value) :
    sameItems xs ys = true ↔ List.Forall₂ (fun x y => same x y = true) xs ys := by
  induction xs generalizing ys with
  | nil => cases ys <;> simp [sameItems]
  | cons x xs ih => cases ys <;> simp [sameItems, ih]

theorem sameMembers_iff (xs ys : Entries Value) :
    (xs.length == ys.length && sameMembers xs ys) = true ↔ xs.length = ys.length ∧
      ∀ entry ∈ xs, ∃ y, Entries.get? entry.1 ys = some y ∧ same entry.2 y = true := by
  rw [Bool.and_eq_true, beq_iff_eq]
  refine and_congr Iff.rfl ?_
  induction xs with
  | nil => simp [sameMembers]
  | cons entry rest ih =>
    obtain ⟨key, x⟩ := entry
    rw [sameMembers, Bool.and_eq_true, ih, List.forall_mem_cons]
    refine and_congr ?_ Iff.rfl
    cases Entries.get? key ys <;> simp

/-- Among values whose objects have each name once, sameness is an equivalence. -/
theorem equivalenceAt_same (value : Value) :
    EquivalenceAt (fun value => value.hasDistinctNames = true) same value := by
  induction value using inductionOn with
  | null => exact .of_eq rfl fun y h => by cases y <;> first | rfl | cases h
  | bool b => exact .of_eq (by simp [same]) fun y h => by cases y <;> simp_all [same]
  | string s => exact .of_eq (by simp [same]) fun y h => by cases y <;> simp_all [same]
  | number n =>
    have numbers := n.equivalenceAt_same
    refine ⟨fun _ => numbers.refl trivial, fun y _ _ h => ?_, fun y z h h' => ?_⟩
    · cases y with
      | number m => exact numbers.symm m trivial trivial h
      | _ => cases h
    · cases y with
      | number m =>
        cases z with
        | number l => exact numbers.trans m l h h'
        | _ => cases h'
      | _ => cases h
  | array items ih =>
    have lists := EquivalenceAt.list sameItems_iff ih
    refine ⟨fun own => lists.refl (hasDistinctNames_array.mp own), fun y own other h => ?_,
      fun y z h h' => ?_⟩
    · cases y with
      | array others =>
        exact lists.symm others (hasDistinctNames_array.mp own) (hasDistinctNames_array.mp other) h
      | _ => cases h
    · cases y with
      | array others =>
        cases z with
        | array last => exact lists.trans others last h h'
        | _ => cases h'
      | _ => cases h
  | object members ih =>
    have entries := EquivalenceAt.entries sameMembers_iff ih
    refine ⟨fun own => ?_, fun y own other h => ?_, fun y z h h' => ?_⟩
    · have := entries.refl (hasDistinctNames_object.mp own)
      simpa [same] using this
    · cases y with
      | object others =>
        have := entries.symm others (hasDistinctNames_object.mp own)
          (hasDistinctNames_object.mp other) (by simpa [same] using h)
        simpa [same] using this
      | _ => cases h
    · cases y with
      | object others =>
        cases z with
        | object last =>
          have := entries.trans others last (by simpa [same] using h) (by simpa [same] using h')
          simpa [same] using this
        | _ => cases h'
      | _ => cases h

end Value

end Json

end ApiContract
