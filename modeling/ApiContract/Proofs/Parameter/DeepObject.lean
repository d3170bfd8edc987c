import ApiContract.Proofs.Parameter.Pairs
/-!
# Nested objects read back

In the style `deepObject` each scalar within an object has a pair, named with the path that leads to it.
Reading sets one scalar after the other at its path, and comes to the object that was written, at any
depth and from among other pairs (`decodePairs_deepObject`).
-/

namespace ApiContract

open Json (Value)
open Text

/-- A scalar that is read as it was written, or an object of such, at any depth. Names show where they
end in brackets, and an object within an object has members, for only these are written. -/
inductive Hint.Nests : Hint → Value → Prop
  | scalar {hint : Hint} {value : Value} (own : hint.Restores value) : hint.Nests value
  | object {hint : Hint} {members : Entries Value} (distinct : members.keys.Nodup)
      (closed : ∀ member ∈ members, ']' ∉ member.1.toList)
      (filled : ∀ member ∈ members, member.2 ≠ .object [])
      (each : ∀ member ∈ members, (hint.property member.1).Nests member.2) :
      hint.Nests (.object members)

namespace Parameter

/-- How a path is written behind the name of a parameter. -/
def bracketed (path : List String) : List Char :=
  path.flatMap fun name => '[' :: (name.toList ++ [']'])

/-- A scalar within a value: the path to it and its text. -/
abbrev Leaf := List String × String

/-- A scalar within a member, as one within the object. -/
def Leaf.under (key : String) (leaf : Leaf) : Leaf := (key :: leaf.1, leaf.2)

/-- The pair of a scalar within an object, behind the path of the object. -/
def Leaf.pair (front : String) (leaf : Leaf) : String × String :=
  (front ++ String.ofList (bracketed leaf.1), leaf.2)

mutual

/-- The scalars within a value. -/
def leaves : Value → List Leaf
  | .object members => leavesOfMembers members
  | .array _ => []
  | scalar => [([], atomText scalar)]

/-- The scalars within the members of an object. -/
def leavesOfMembers : List (String × Value) → List Leaf
  | [] => []
  | (key, value) :: rest => (leaves value).map (Leaf.under key) ++ leavesOfMembers rest

end

/-- Members with the texts of scalars set at their paths. -/
def setAll (hint : Hint) (leaves : List Leaf) (members : Entries Value) : Entries Value :=
  leaves.foldl (fun members leaf => setDeep hint leaf.2 leaf.1 members) members

variable {hint : Hint} {name key : String} {explode : Bool} {value : Value} {members : Entries Value}
  {leaf : Leaf}

theorem leaves_of_isScalar (h : value.isScalar = true) : leaves value = [([], atomText value)] := by
  cases value with
  | null => rfl
  | bool b => rfl
  | number n => rfl
  | string s => rfl
  | array items => cases h
  | object members => cases h

theorem exists_of_mem_leavesOfMembers (h : leaf ∈ leavesOfMembers members) :
    ∃ member ∈ members, ∃ inner ∈ leaves member.2, leaf = inner.under member.1 := by
  induction members with
  | nil => cases h
  | cons member rest ih =>
    rw [leavesOfMembers, List.mem_append] at h
    rcases h with own | later
    · obtain ⟨inner, inside, rfl⟩ := List.mem_map.mp own
      exact ⟨member, List.mem_cons_self, inner, inside, rfl⟩
    · obtain ⟨other, listed, found⟩ := ih later
      exact ⟨other, List.mem_cons_of_mem _ listed, found⟩

/-! ### Writing -/

/-- The path of an object and a name in brackets make the path of the member. -/
theorem pair_under (front key : String) (leaf : Leaf) :
    (leaf.under key).pair front = leaf.pair (front ++ "[" ++ key ++ "]") := by
  refine Prod.ext (String.toList_inj.mp ?_) rfl
  simp [Leaf.pair, Leaf.under, bracketed]

theorem deepPairs_of_isScalar (h : value.isScalar = true) (front : String) :
    deepPairs front value = .ok [(front, atomText value)] := by
  cases value with
  | null => rfl
  | bool b => cases b <;> rfl
  | number n => rfl
  | string s => rfl
  | array items => cases h
  | object members => cases h

theorem deepMembers_of_each {front : String}
    (each : ∀ member ∈ members, ∀ front,
      deepPairs front member.2 = .ok ((leaves member.2).map (Leaf.pair front))) :
    deepMembers front members = .ok ((leavesOfMembers members).map (Leaf.pair front)) := by
  induction members with
  | nil => rfl
  | cons member rest ih =>
    obtain ⟨key, value⟩ := member
    obtain ⟨own, each⟩ := List.forall_mem_cons.mp each
    have inner : (leaves value).map (Leaf.pair (front ++ "[" ++ key ++ "]")) =
        ((leaves value).map (Leaf.under key)).map (Leaf.pair front) := by
      rw [List.map_map]
      exact List.map_congr_left fun leaf _ => (pair_under front key leaf).symm
    rw [deepMembers, own, ih each, inner, leavesOfMembers, List.map_append]
    rfl

/-- Each scalar within a value is written as a pair. -/
theorem deepPairs_of_nests (h : hint.Nests value) (front : String) :
    deepPairs front value = .ok ((leaves value).map (Leaf.pair front)) := by
  induction h generalizing front with
  | scalar own =>
    rw [deepPairs_of_isScalar own.scalar, leaves_of_isScalar own.scalar]
    simp [Leaf.pair, bracketed]
  | object distinct closed filled each ih => exact deepMembers_of_each ih

/-! ### Reading a path -/

theorem bracketPath?_open {segment text rest : List Char} (h : ']' ∉ text) :
    bracketPath? (some segment) (text ++ ']' :: rest) =
      (bracketPath? none rest).map (String.ofList (segment.reverse ++ text) :: ·) := by
  induction text generalizing segment with
  | nil => simp [bracketPath?]
  | cons c text ih =>
    have other : c ≠ ']' := fun same => h (by simp [same])
    rw [List.cons_append, bracketPath?, if_neg other, ih fun later => h (List.mem_cons_of_mem _ later)]
    simp

/-- Names without closing brackets are found again in brackets. -/
theorem bracketPath?_bracketed {path : List String} (closed : ∀ name ∈ path, ']' ∉ name.toList) :
    bracketPath? none (bracketed path) = some path := by
  induction path with
  | nil => rfl
  | cons name path ih =>
    obtain ⟨own, closed⟩ := List.forall_mem_cons.mp closed
    have written : bracketed (name :: path) = '[' :: (name.toList ++ ']' :: bracketed path) := by
      simp [bracketed]
    rw [written, bracketPath?, if_pos rfl, bracketPath?_open own, ih closed]
    simp

theorem closed_of_nests (h : hint.Nests value) :
    ∀ leaf ∈ leaves value, ∀ name ∈ leaf.1, ']' ∉ name.toList := by
  induction h with
  | scalar own =>
    rw [leaves_of_isScalar own.scalar]
    simp
  | object distinct closed filled each ih =>
    intro leaf inside
    obtain ⟨member, listed, inner, within, rfl⟩ := exists_of_mem_leavesOfMembers inside
    exact List.forall_mem_cons.mpr ⟨closed member listed, ih member listed inner within⟩

/-! ### Setting the scalars -/

/-- A scalar below a member is set within the object that the member is, or within a new one. -/
theorem setDeep_under (below : leaf.1 ≠ []) (members : Entries Value) :
    setDeep hint leaf.2 (key :: leaf.1) members =
      Entries.put key (.object (setDeep (hint.property key) leaf.2 leaf.1
        (((Entries.get? key members).bind Value.members?).getD []))) members := by
  obtain ⟨head, tail, path⟩ := List.exists_cons_of_ne_nil below
  rw [path, setDeep]
  simp

/-- Scalars below a member that is an object are set within that object. -/
theorem setAll_under_put {leaves : List Leaf} (below : ∀ leaf ∈ leaves, leaf.1 ≠ [])
    (inner : Entries Value) :
    setAll hint (leaves.map (Leaf.under key)) (Entries.put key (.object inner) members) =
      Entries.put key (.object (setAll (hint.property key) leaves inner)) members := by
  induction leaves generalizing inner with
  | nil => rfl
  | cons leaf rest ih =>
    obtain ⟨own, below⟩ := List.forall_mem_cons.mp below
    have step : setDeep hint leaf.2 (key :: leaf.1) (Entries.put key (.object inner) members) =
        Entries.put key (.object (setDeep (hint.property key) leaf.2 leaf.1 inner)) members := by
      rw [setDeep_under own, Entries.get?_put, if_pos rfl, Entries.put_put]
      rfl
    calc setAll hint ((leaf :: rest).map (Leaf.under key)) (Entries.put key (.object inner) members)
      _ = setAll hint (rest.map (Leaf.under key))
            (setDeep hint leaf.2 (key :: leaf.1) (Entries.put key (.object inner) members)) := rfl
      _ = _ := by rw [step, ih below]; rfl

/-- The first scalar below a new member makes an object of it, which the others complete. -/
theorem setAll_under {leaves : List Leaf} (some : leaves ≠ []) (below : ∀ leaf ∈ leaves, leaf.1 ≠ [])
    (fresh : key ∉ members.keys) :
    setAll hint (leaves.map (Leaf.under key)) members =
      members ++ [(key, .object (setAll (hint.property key) leaves []))] := by
  obtain ⟨leaf, rest, rfl⟩ := List.exists_cons_of_ne_nil some
  obtain ⟨own, below⟩ := List.forall_mem_cons.mp below
  have absent : Entries.get? key members = none := by
    rw [← Option.not_isSome_iff_eq_none, Entries.get?_isSome_iff]
    exact fresh
  have first : setDeep hint leaf.2 (key :: leaf.1) members =
      Entries.put key (.object (setDeep (hint.property key) leaf.2 leaf.1 [])) members := by
    rw [setDeep_under own, absent]
    rfl
  calc setAll hint ((leaf :: rest).map (Leaf.under key)) members
    _ = setAll hint (rest.map (Leaf.under key)) (setDeep hint leaf.2 (key :: leaf.1) members) := rfl
    _ = Entries.put key (.object (setAll (hint.property key) (leaf :: rest) [])) members := by
      rw [first, setAll_under_put below]
      rfl
    _ = _ := Entries.put_of_not_mem _ fresh

/-- Members are set one after the other where the scalars of each come to the member. -/
theorem setAll_leavesOfMembers {front : Entries Value} (distinct : (front ++ members).keys.Nodup)
    (each : ∀ member ∈ members, ∀ front : Entries Value, member.1 ∉ front.keys →
      setAll hint ((leaves member.2).map (Leaf.under member.1)) front = front ++ [member]) :
    setAll hint (leavesOfMembers members) front = front ++ members := by
  induction members generalizing front with
  | nil => simp [leavesOfMembers, setAll]
  | cons member rest ih =>
    obtain ⟨own, each⟩ := List.forall_mem_cons.mp each
    have fresh : member.1 ∉ front.keys := Entries.not_mem_keys_of_nodup distinct
    calc setAll hint (leavesOfMembers (member :: rest)) front
      _ = setAll hint (leavesOfMembers rest)
            (setAll hint ((leaves member.2).map (Leaf.under member.1)) front) := List.foldl_append
      _ = front ++ [member] ++ rest := by rw [own front fresh, ih (by simpa using distinct) each]
      _ = front ++ member :: rest := by simp

theorem ne_nil_of_mem_leavesOfMembers (h : leaf ∈ leavesOfMembers members) : leaf.1 ≠ [] := by
  obtain ⟨member, -, inner, -, rfl⟩ := exists_of_mem_leavesOfMembers h
  exact List.cons_ne_nil _ _

theorem leaves_ne_nil (h : hint.Nests value) (filled : value ≠ .object []) : leaves value ≠ [] := by
  induction h with
  | scalar own => simp [leaves_of_isScalar own.scalar]
  | @object hint members distinct closed solid each ih =>
    cases members with
    | nil => exact absurd rfl filled
    | cons member rest =>
      have inner := ih member List.mem_cons_self (solid member List.mem_cons_self)
      simp [leaves, leavesOfMembers, inner]

/-- The scalars within a new member come to the member. -/
theorem setAll_of_nests {inner : Hint} (h : inner.Nests value) (filled : value ≠ .object [])
    (same : hint.property key = inner) (fresh : key ∉ members.keys) :
    setAll hint ((leaves value).map (Leaf.under key)) members = members ++ [(key, value)] := by
  induction h generalizing hint key members with
  | @scalar inner value own =>
    rw [leaves_of_isScalar own.scalar, ← Entries.put_of_not_mem value fresh]
    subst same
    exact congrArg (Entries.put key · members) own.coerce
  | @object inner nested distinct closed solid each ih =>
    have some : leavesOfMembers nested ≠ [] := leaves_ne_nil (.object distinct closed solid each) filled
    -- Within the new member every one of its own members is new.
    have whole : setAll inner (leavesOfMembers nested) [] = nested :=
      setAll_leavesOfMembers distinct fun member listed front fresh =>
        ih member listed (solid member listed) rfl fresh
    rw [leaves, setAll_under some (fun leaf => ne_nil_of_mem_leavesOfMembers) fresh, same, whole]

theorem setAll_leaves (h : hint.Nests (.object members)) :
    setAll hint (leavesOfMembers members) [] = members := by
  cases h with
  | scalar own => cases own.scalar
  | object distinct closed filled each =>
    exact setAll_leavesOfMembers distinct fun member listed front fresh =>
      setAll_of_nests (each member listed) (filled member listed) rfl fresh

/-! ### Reading pairs -/

theorem decodeDeep_pairs {leaves : List Leaf}
    (closed : ∀ leaf ∈ leaves, ∀ name ∈ leaf.1, ']' ∉ name.toList) :
    decodeDeep name (leaves.map (Leaf.pair name)) hint = .object (setAll hint leaves []) := by
  rw [decodeDeep, List.foldl_map, setAll]
  refine congrArg Value.object (List.foldl_ext _ _ _ fun members leaf inside => ?_)
  have path : (afterFront? name.toList (leaf.pair name).1.toList).bind (bracketPath? none) =
      some leaf.1 := by
    rw [Leaf.pair, String.toList_append, afterFront?_append, String.toList_ofList]
    exact bracketPath?_bracketed (closed leaf inside)
  simp only [path]
  rfl

/-- A text that does not begin with a bracket sets nothing. -/
theorem setDeep_of_unbracketed {text : List Char} {path : List String} (written : String)
    (apart : ∀ rest, text ≠ '[' :: rest) (h : bracketPath? none text = some path) :
    setDeep hint written path members = members := by
  cases text with
  | nil =>
    cases h
    rfl
  | cons c rest =>
    rw [bracketPath?, if_neg fun same => apart rest (by rw [same])] at h
    cases h

theorem decodeDeep_of_mixes {pairs mixed : List (String × String)}
    (mixes : Mixes (fun pair => ¬ (name ++ "[").toList <+: pair.1.toList) pairs mixed) :
    decodeDeep name mixed hint = decodeDeep name pairs hint := by
  refine congrArg Value.object (mixes.foldl_eq ?_ [])
  -- Behind the parameter's name such a name has no bracket: it is no path, or an empty one.
  rintro members ⟨key, text⟩ apart
  simp only []
  split
  · next path h =>
    obtain ⟨rest, front, read⟩ := Option.bind_eq_some_iff.mp h
    rw [afterFront?_eq_some_iff] at front
    refine setDeep_of_unbracketed text (fun tail same => apart ⟨tail, ?_⟩) read
    rw [front, same]
    simp
  · rfl

/-- Nested objects are read as they were written, also from among pairs whose names do not begin with
the parameter's name and a bracket. -/
theorem decodePairs_deepObject (nested : hint.Nests (.object members)) :
    ∃ pairs, encodePairs name .deepObject explode (.object members) = .ok pairs ∧
      decodePairs name .deepObject explode pairs hint = .ok (.object members) ∧
        ∀ mixed, Mixes (fun pair => ¬ (name ++ "[").toList <+: pair.1.toList) pairs mixed →
          decodePairs name .deepObject explode mixed hint = .ok (.object members) := by
  have read : decodeDeep name ((leaves (.object members)).map (Leaf.pair name)) hint =
      .object members := by
    rw [decodeDeep_pairs (closed_of_nests nested), leaves, setAll_leaves nested]
  refine ⟨_, deepPairs_of_nests nested name, congrArg Except.ok read, fun mixed mixes => ?_⟩
  exact congrArg Except.ok ((decodeDeep_of_mixes mixes).trans read)

/-- A box in which there is a box. -/
def filledBox : Value :=
  .object [("size", .ofInt 40),
    ("inner", .object [("weight", .ofInt 7), ("inner", .object [("size", .ofInt (-3))])])]

/-- Three levels, among pairs of which one is named like the parameter and others begin like it. -/
theorem decodePairs_filledBox :
    (boxCatalog.hint 2).Nests filledBox ∧
      decodePairs "box" .deepObject true
        [("box[size]", "40"), ("boxes[size]", "1"), ("box[inner][weight]", "7"), ("box", "2"),
          ("box[inner][inner][size]", "-3"), ("box.size]", "5")] (boxCatalog.hint 2) =
            .ok filledBox := by
  have inmost : (boxCatalog.hint 2).Nests (.object [("size", .ofInt (-3))]) :=
    .object (by decide) (by decide) (by simp [Value.ofInt])
      (List.forall_mem_singleton.mpr (.scalar ⟨rfl, rfl⟩))
  have middle : (boxCatalog.hint 2).Nests
      (.object [("weight", .ofInt 7), ("inner", .object [("size", .ofInt (-3))])]) :=
    .object (by decide) (by decide) (by simp [Value.ofInt])
      (List.forall_mem_cons.mpr ⟨.scalar ⟨rfl, rfl⟩, List.forall_mem_singleton.mpr inmost⟩)
  have nested : (boxCatalog.hint 2).Nests filledBox :=
    .object (by decide) (by decide) (by simp [Value.ofInt])
      (List.forall_mem_cons.mpr ⟨.scalar ⟨rfl, rfl⟩, List.forall_mem_singleton.mpr middle⟩)
  obtain ⟨pairs, written, -, read⟩ :=
    @decodePairs_deepObject (boxCatalog.hint 2) "box" true _ nested
  obtain rfl : [("box[size]", "40"), ("box[inner][weight]", "7"),
    ("box[inner][inner][size]", "-3")] = pairs := Except.ok.inj written
  refine ⟨nested, read _ ?_⟩
  exact .own _ (.other (by decide) (.own _ (.other (by decide) (.own _ (.other (by decide) .nil)))))

end Parameter

end ApiContract
