import Mathlib.Data.List.Basic
import ApiContract.Parameter.Decoding
import ApiContract.Proofs.Text.Pieces
/-!
# Atoms read back

Scalars are written as atoms, and arrays and objects as atoms put together. What is read back is the
value that was written where a hint reads each atom as the scalar that it stands for
(`Hint.Expects`) and no atom holds what stands between them (`Splits`).
-/

namespace ApiContract

open Json (Value)
open Text

/-- Whether a value is neither an array nor an object. -/
def Json.Value.isScalar : Value → Bool
  | .array _ | .object _ => false
  | .null | .bool _ | .number _ | .string _ => true

namespace Parameter

/-- The text that a scalar is written as. -/
def atomText : Value → String
  | .bool true => "true"
  | .bool false => "false"
  | .number n => n.render
  | .string s => s
  | .null | .array _ | .object _ => ""

/-- The names and texts of members that are scalars. -/
def memberTexts (members : Entries Value) : Entries String :=
  members.map fun (key, value) => (key, atomText value)

/-- The atoms of an array, or of an object with the names of its members. -/
def flatTexts : Value → List String
  | .array items => items.map atomText
  | .object members => alternating (memberTexts members)
  | .null | .bool _ | .number _ | .string _ => []

end Parameter

open Parameter (atomText)

/-- What is written of a scalar is read as that scalar again. -/
structure Hint.Restores (hint : Hint) (value : Value) : Prop where
  scalar : value.isScalar = true
  coerce : hint.coerce (atomText value) = value

/-- A value of the kind that is expected, whose scalars are each expected at their place. -/
inductive Hint.Expects (hint : Hint) : Value → Prop
  | array {items : List Value} (kind : hint.kind = .array)
      (each : ∀ item ∈ items, hint.items.Restores item) : hint.Expects (.array items)
  | object {members : Entries Value} (kind : hint.kind = .object) (distinct : members.keys.Nodup)
      (each : ∀ member ∈ members, (hint.property member.1).Restores member.2) :
      hint.Expects (.object members)

/-- Schemas of a whole number, of a list of these, and of a box with a size and a weight and perhaps a
box in it. -/
def boxCatalog : Catalog where
  descriptors := #[
    { Descriptor.unrestricted "" none with types := [.integer] },
    { Descriptor.unrestricted "" none with types := [.array], items := some 0 },
    { Descriptor.unrestricted "" none with
      types := [.object], properties := [("size", 0), ("weight", 0), ("inner", 2)] }]
  index := []

/-- A box without a box in it. -/
def emptyBox : Value := .object [("weight", .ofInt 7), ("size", .ofInt (-3))]

theorem expects_emptyBox : (boxCatalog.hint 2).Expects emptyBox := by
  refine .object rfl (by decide) fun member listed => ?_
  simp only [List.mem_cons, List.not_mem_nil, or_false] at listed
  rcases listed with rfl | rfl <;> exact ⟨rfl, rfl⟩

namespace Parameter

/-- Texts with a character between each two of them show where they end: none holds the character,
and they are not one empty text, which looks like none at all. -/
structure Splits (separator : Char) (texts : List String) : Prop where
  apart : ∀ text ∈ texts, separator ∉ text.toList
  solid : texts ≠ [""]

variable {hint : Hint} {style : ParameterStyle} {key : String} {value : Value} {items : List Value}
  {members : Entries Value}

theorem atom_of_isScalar (h : value.isScalar = true) :
    atom style key value = .ok (atomText value) := by
  cases value with
  | null => rfl
  | bool b => cases b <;> rfl
  | number n => rfl
  | string s => rfl
  | array items => cases h
  | object members => cases h

theorem itemAtoms_of_isScalar (each : ∀ item ∈ items, item.isScalar = true) (position : Nat) :
    itemAtoms style position items = .ok (items.map atomText) := by
  induction items generalizing position with
  | nil => rfl
  | cons item rest ih =>
    obtain ⟨own, each⟩ := List.forall_mem_cons.mp each
    rw [itemAtoms, atom_of_isScalar own]
    simp only [ih each]
    rfl

theorem memberAtoms_of_isScalar (each : ∀ member ∈ members, member.2.isScalar = true) :
    memberAtoms style members = .ok (memberTexts members) := by
  induction members with
  | nil => rfl
  | cons member rest ih =>
    obtain ⟨key, value⟩ := member
    obtain ⟨own, each⟩ := List.forall_mem_cons.mp each
    rw [memberAtoms, atom_of_isScalar own]
    simp only [ih each]
    rfl

theorem alternating_cons (pair : String × String) (rest : Entries String) :
    alternating (pair :: rest) = pair.1 :: pair.2 :: alternating rest := rfl

/-- Names and texts that were put in turns are found again. -/
theorem turns_alternating (pairs : Entries String) : turns (alternating pairs) = pairs := by
  induction pairs with
  | nil => rfl
  | cons pair rest ih => rw [alternating_cons, turns, ih]

theorem alternating_ne_singleton (pairs : Entries String) (text : String) :
    alternating pairs ≠ [text] := by
  cases pairs with
  | nil => simp [alternating]
  | cons pair rest => simp [alternating_cons]

theorem toList_assignment (key text : String) :
    (key ++ "=" ++ text).toList = key.toList ++ '=' :: text.toList := by
  simp

/-- Names without equals signs are found again in assignments. -/
theorem assigned_assignments {pairs : Entries String}
    (names : ∀ pair ∈ pairs, '=' ∉ pair.1.toList) : assigned (assignments pairs) = pairs := by
  rw [assigned, assignments, List.filterMap_map]
  refine (List.filterMap_eq_map_iff_forall_eq_some.mpr ?_).trans (List.map_id pairs)
  intro pair member
  rw [Function.comp_apply, toList_assignment, cutAt?_append_cons _ (names pair member)]
  simp

theorem isAssignment_of_mem_assignments {pairs : Entries String} {text : String}
    (h : text ∈ assignments pairs) : '=' ∈ text.toList := by
  obtain ⟨pair, -, rfl⟩ := List.mem_map.mp h
  rw [toList_assignment]
  simp

/-- Joined texts are found again. -/
theorem atoms_joined {separator : Char} {texts : List String} (h : Splits separator texts) :
    atoms separator (joined separator (texts.map String.toList)) = texts := by
  unfold atoms
  by_cases empty : texts = []
  · simp [empty, joined]
  have written : joined separator (texts.map String.toList) ≠ [] := by
    rw [Ne, joined_eq_nil_iff]
    rintro (none | one)
    · exact empty (List.map_eq_nil_iff.mp none)
    · obtain ⟨text, rfl, blank⟩ := List.map_eq_singleton_iff.mp one
      exact h.solid (by rw [String.toList_eq_nil_iff.mp blank])
  have apart : ∀ chars ∈ texts.map String.toList, separator ∉ chars := by
    intro chars member
    obtain ⟨text, listed, rfl⟩ := List.mem_map.mp member
    exact h.apart text listed
  rw [if_neg (by simpa using written), pieces_joined separator _ (by simpa using empty) apart]
  simp [Function.comp_def]

/-- Where an array is expected each text is an item. -/
theorem typed_of_kind_array (kind : hint.kind = .array) (texts : List String) (assignments : Bool) :
    typed hint texts assignments = .array (texts.map hint.items.coerce) := by
  simp only [typed, kind]

theorem coerce_items (each : ∀ item ∈ items, hint.items.Restores item) :
    (items.map atomText).map hint.items.coerce = items := by
  rw [List.map_map]
  exact (List.map_congr_left fun item member => (each item member).coerce).trans (List.map_id items)

theorem objectOf_memberTexts (distinct : members.keys.Nodup)
    (each : ∀ member ∈ members, (hint.property member.1).Restores member.2) :
    objectOf hint (memberTexts members) = .object members := by
  have entries : Entries.ofPairs members = members := Entries.ofPairs_of_nodup distinct
  refine congrArg Value.object (Eq.trans (congrArg Entries.ofPairs ?_) entries)
  rw [memberTexts, List.map_map]
  refine (List.map_congr_left fun member listed => ?_).trans (List.map_id members)
  exact Prod.ext rfl (each member listed).coerce

/-- A value is read from its atoms, with the names of members in turns. -/
theorem typed_flatTexts (expected : hint.Expects value) :
    typed hint (flatTexts value) false = value := by
  cases expected with
  | array kind each => rw [typed_of_kind_array kind, flatTexts, coerce_items each]
  | object kind distinct each =>
    simp only [typed, kind, Bool.false_and, Bool.false_eq_true, if_false, flatTexts]
    rw [turns_alternating, objectOf_memberTexts distinct each]

/-- An object is read from assignments to the names of its members. -/
theorem typed_assignments (expected : hint.Expects (.object members))
    (names : ∀ key ∈ members.keys, '=' ∉ key.toList) :
    typed hint (assignments (memberTexts members)) true = .object members := by
  have all : (assignments (memberTexts members)).all (fun text => text.toList.contains '=') = true := by
    rw [List.all_eq_true]
    exact fun text listed => List.contains_iff_mem.mpr (isAssignment_of_mem_assignments listed)
  have apart : ∀ pair ∈ memberTexts members, '=' ∉ pair.1.toList := by
    intro pair listed
    obtain ⟨member, own, rfl⟩ := List.mem_map.mp listed
    exact names member.1 (List.mem_map.mpr ⟨member, own, rfl⟩)
  cases expected with
  | object kind distinct each =>
    simp only [typed, kind, all, Bool.and_true, if_true]
    rw [assigned_assignments apart, objectOf_memberTexts distinct each]

end Parameter

end ApiContract
