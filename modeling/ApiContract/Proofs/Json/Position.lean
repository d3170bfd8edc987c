import ApiContract.Proofs.Json.Pointer
import ApiContract.Proofs.Json.Sameness
/-!
# Positions

A value is a tree, and a position is a place in it: at each level the number of the node among those
right below. Pointers name places by tokens, so what a pointer addresses is the node at some position
(`follow?_eq`), and the tokens of the nodes on the way lead to each position, if the objects have each
name once and positions in arrays can be told apart (`step?_of_mem_children`).

More than one pointer can address a node, as the slash at the front may be missing, a tilde that
begins no escape stands for itself, and a position in an array may have zeros or a plus sign in front.
The plain one has the tokens of the nodes on the way, each after a slash and escaped (`Plain`), and no
other plain one addresses the same node (`Plain.eq_of_addresses`).
-/

namespace ApiContract.Json

namespace Value

/-- The node at a position: at each level the number of the node among those right below. -/
def at? (value : Value) : List Nat → Option Value
  | [] => some value
  | i :: rest => (value.children[i]?).bind fun child => child.2.at? rest

/-- The tokens of the nodes on the way to a position. -/
def path? (value : Value) : List Nat → Option (List String)
  | [] => some []
  | i :: rest => (value.children[i]?).bind fun child => (child.2.path? rest).map (child.1 :: ·)

theorem at?_concat {value part child : Value} {position : List Nat} {i : Nat} {token : String}
    (here : value.at? position = some part) (below : part.children[i]? = some (token, child)) :
    value.at? (position ++ [i]) = some child := by
  induction position generalizing value with
  | nil =>
    cases here
    simp [at?, below]
  | cons j rest ih =>
    obtain ⟨next, first, further⟩ := Option.bind_eq_some_iff.mp here
    exact Option.bind_eq_some_iff.mpr ⟨next, first, ih further⟩

/-- The arrays in a value are no longer than positions can be told by a pointer: it reads 64 bits. -/
def Indexed (value : Value) : Prop :=
  ∀ part ∈ value.subvalues, ∀ items ∈ part.items?, items.length ≤ Nat.pow 2 64

instance (value : Value) : Decidable value.Indexed :=
  inferInstanceAs (Decidable (∀ part ∈ value.subvalues, ∀ items ∈ part.items?, _))

variable {value child : Value} {token : String}

theorem mem_children_array_iff {items : List Value} :
    (token, child) ∈ (array items).children ↔
      ∃ i : Nat, items[i]? = some child ∧ token = Decimal.integerText i := by
  simp only [children, List.mem_mapIdx, Prod.mk.injEq]
  constructor
  · rintro ⟨i, inside, rfl, rfl⟩
    exact ⟨i, List.getElem?_eq_getElem inside, rfl⟩
  · rintro ⟨i, found, rfl⟩
    obtain ⟨inside, rfl⟩ := List.getElem?_eq_some_iff.mp found
    exact ⟨i, inside, rfl, rfl⟩

theorem mem_children_object_iff {members : Entries Value} :
    (token, child) ∈ (object members).children ↔ (token, child) ∈ members := Iff.rfl

theorem subvalues_subset_of_mem_children (h : (token, child) ∈ value.children) :
    child.subvalues ⊆ value.subvalues := by
  cases value with
  | array items =>
    obtain ⟨i, found, -⟩ := mem_children_array_iff.mp h
    exact List.Subset.trans (subvalues_subset_items (List.mem_of_getElem? found))
      (List.subset_cons_self _ _)
  | object members =>
    exact List.Subset.trans (subvalues_subset_members h) (List.subset_cons_self _ _)
  | _ => cases h

theorem Indexed.below (h : value.Indexed) (below : (token, child) ∈ value.children) :
    child.Indexed :=
  fun part member => h part (subvalues_subset_of_mem_children below member)

theorem hasDistinctNames_of_mem_children (distinct : value.hasDistinctNames = true)
    (below : (token, child) ∈ value.children) : child.hasDistinctNames = true := by
  cases value with
  | array items =>
    obtain ⟨i, found, -⟩ := mem_children_array_iff.mp below
    exact hasDistinctNames_array.mp distinct child (List.mem_of_getElem? found)
  | object members => exact (hasDistinctNames_object.mp distinct).2 _ below
  | _ => cases below

end Value

namespace Pointer

variable {value node : Value}

/-- The number of the node that a token addresses among those right below a value. -/
def childIndex? (value : Value) (token : String) : Option Nat :=
  match value with
  | .object members => members.findIdx? fun member => decide (member.1 = token)
  | .array _ => index? token
  | _ => none

/-- The position of the node that a list of tokens addresses. -/
def position? (value : Value) : List String → Option (List Nat)
  | [] => some []
  | token :: rest =>
    (childIndex? value token).bind fun i =>
      (value.children[i]?).bind fun child => (position? child.2 rest).map (i :: ·)

theorem step?_eq (value : Value) (token : String) :
    step? value token =
      (childIndex? value token).bind fun i => (value.children[i]?).map Prod.snd := by
  cases value with
  | object members =>
    simp only [step?, childIndex?, Value.children]
    induction members with
    | nil => rfl
    | cons member rest ih =>
      obtain ⟨key, first⟩ := member
      rw [Entries.get?, List.findIdx?_cons]
      by_cases same : key = token
      · simp [same]
      · simp only [same, decide_false, if_false, ih]
        cases List.findIdx? (fun member => decide (member.1 = token)) rest <;> simp
  | array items =>
    simp only [step?, childIndex?, Value.children, List.getElem?_mapIdx]
    cases index? token with
    | none => rfl
    | some i => cases found : items[i]? <;> simp [found]
  | _ => rfl

/-- Tokens address the node at the position that they lead to. -/
theorem follow?_eq (value : Value) (tokens : List String) :
    follow? value tokens = (position? value tokens).bind value.at? := by
  induction tokens generalizing value with
  | nil => rfl
  | cons token rest ih =>
    rw [follow?, position?, step?_eq]
    cases childIndex? value token with
    | none => rfl
    | some i =>
      cases below : value.children[i]? with
      | none => simp [below]
      | some child =>
        simp only [Option.bind_some, Option.map_some, ih, below]
        cases position? child.2 rest with
        | none => rfl
        | some position => simp [Value.at?, below]

/-- There is one number of a position for each token. -/
theorem length_position? {tokens : List String} {position : List Nat}
    (h : position? value tokens = some position) : position.length = tokens.length := by
  induction tokens generalizing value position with
  | nil =>
    cases h
    rfl
  | cons token rest ih =>
    obtain ⟨i, -, further⟩ := Option.bind_eq_some_iff.mp h
    obtain ⟨child, -, found⟩ := Option.bind_eq_some_iff.mp further
    obtain ⟨position, below, rfl⟩ := Option.map_eq_some_iff.mp found
    rw [List.length_cons, List.length_cons, ih below]

/-- A node right below a value is the one that its token addresses. -/
theorem step?_of_mem_children (distinct : value.hasDistinctNames = true) (indexed : value.Indexed)
    {token : String} (h : (token, node) ∈ value.children) : step? value token = some node := by
  cases value with
  | object members => exact Entries.get?_of_mem (Value.hasDistinctNames_object.mp distinct).1 h
  | array items =>
    obtain ⟨i, found, rfl⟩ := Value.mem_children_array_iff.mp h
    obtain ⟨inside, -⟩ := List.getElem?_eq_some_iff.mp found
    have few : items.length ≤ Nat.pow 2 64 :=
      indexed (.array items) (Value.self_mem_subvalues _) items rfl
    rw [step?, index?_integerText_eq, if_pos (Nat.lt_of_lt_of_le inside few)]
    exact found
  | _ => cases h

/-- A pointer addresses the node at a position. -/
def Addresses (value : Value) (pointer : String) (position : List Nat) : Prop :=
  position? value (tokens pointer) = some position

instance (value : Value) (pointer : String) (position : List Nat) :
    Decidable (Addresses value pointer position) :=
  inferInstanceAs (Decidable (_ = _))

/-- A pointer is written plainly: it has the tokens of the nodes on the way to the one that it
addresses, each after a slash and escaped. -/
def Plain (value : Value) (pointer : String) : Prop :=
  ∃ position path, Addresses value pointer position ∧ value.path? position = some path ∧
    pointer = ofTokens path

/-- Plain pointers that address the same node are the same. -/
theorem Plain.eq_of_addresses {pointer other : String} {position : List Nat}
    (one : Plain value pointer) (two : Plain value other) (here : Addresses value pointer position)
    (there : Addresses value other position) : pointer = other := by
  obtain ⟨first, path, leads, along, rfl⟩ := one
  obtain ⟨second, way, leads', along', rfl⟩ := two
  obtain rfl := Option.some.inj (leads.symm.trans here)
  obtain rfl := Option.some.inj (leads'.symm.trans there)
  obtain rfl := Option.some.inj (along.symm.trans along')
  rfl

end Pointer

end ApiContract.Json
