import ApiContract.Json.Pointer
import ApiContract.Proofs.Decimal.Digits
import ApiContract.Proofs.Text.Pieces
/-!
# Pointers and what they address

The text of a pointer says which tokens it has: escaped tokens hold no slash, and unescaping undoes
escaping. A token is read as the position in an array that it writes (`index?_eq_some_iff`). What a
pointer addresses in a value is one of the nodes that `Value.nodes` counts.
-/

namespace ApiContract.Json.Pointer

/-- The characters that stand for one of a token. -/
def escaped (c : Char) : List Char :=
  if c = '~' then ['~', '0'] else if c = '/' then ['~', '1'] else [c]

/-- The characters that stand for one of a token whose slashes are not escaped. -/
def escapedTilde (c : Char) : List Char := if c = '~' then ['~', '0'] else [c]

theorem toList_escape (token : String) :
    (escape token).toList = token.toList.flatMap escaped := by
  rw [escape, String.toList_ofList]
  rfl

theorem slash_not_mem_escape (token : String) : '/' ∉ (escape token).toList := by
  rw [toList_escape, List.mem_flatMap]
  rintro ⟨c, -, member⟩
  unfold escaped at member
  split at member
  · simp at member
  · split at member
    · simp at member
    · next slash => exact slash (List.mem_singleton.mp member).symm

theorem unescapeSlashes_cons {c : Char} (h : c ≠ '~') (rest : List Char) :
    unescapeSlashes (c :: rest) = c :: unescapeSlashes rest := by
  simp [unescapeSlashes, h]

theorem unescapeTildes_cons {c : Char} (h : c ≠ '~') (rest : List Char) :
    unescapeTildes (c :: rest) = c :: unescapeTildes rest := by
  simp [unescapeTildes, h]

theorem unescapeSlashes_escape (cs : List Char) :
    unescapeSlashes (cs.flatMap escaped) = cs.flatMap escapedTilde := by
  induction cs with
  | nil => rfl
  | cons c rest ih =>
    rw [List.flatMap_cons, List.flatMap_cons, ← ih, escaped, escapedTilde]
    by_cases tilde : c = '~'
    · rw [if_pos tilde, if_pos tilde]
      simp [unescapeSlashes]
    · by_cases slash : c = '/'
      · subst slash
        simp [unescapeSlashes]
      · simp [tilde, slash, unescapeSlashes_cons]

theorem unescapeTildes_escape (cs : List Char) :
    unescapeTildes (cs.flatMap escapedTilde) = cs := by
  induction cs with
  | nil => rfl
  | cons c rest ih =>
    rw [List.flatMap_cons, escapedTilde]
    by_cases tilde : c = '~'
    · subst tilde
      simp [unescapeTildes, ih]
    · simp [tilde, unescapeTildes_cons, ih]

theorem unescape_escape (token : String) : unescape (escape token).toList = token := by
  rw [unescape, toList_escape, unescapeSlashes_escape, unescapeTildes_escape, String.ofList_toList]

theorem toList_ofTokens (tokens : List String) :
    (ofTokens tokens).toList = tokens.flatMap fun token => '/' :: (escape token).toList := by
  have general (pointer : String) : (tokens.foldl child pointer).toList =
      pointer.toList ++ tokens.flatMap fun token => '/' :: (escape token).toList := by
    induction tokens generalizing pointer with
    | nil => simp
    | cons token rest ih =>
      rw [List.foldl_cons, ih]
      simp [child]
  simpa [ofTokens] using general ""

theorem pieces_escaped (token : String) (rest : List String) :
    Text.pieces '/' ((escape token).toList ++
        rest.flatMap fun token => '/' :: (escape token).toList) =
      (token :: rest).map fun token => (escape token).toList :=
  Text.pieces_append_flatMap (fun token => (escape token).toList) rest (slash_not_mem_escape token)
    fun token _ => slash_not_mem_escape token

/-- The text of a pointer has the tokens it was made of. -/
theorem tokens_ofTokens (ts : List String) : tokens (ofTokens ts) = ts := by
  unfold tokens
  rw [toList_ofTokens]
  cases ts with
  | nil => rfl
  | cons token rest =>
    have unescaped : unescape ∘ (fun token => (escape token).toList) = id :=
      funext unescape_escape
    simp only [List.flatMap_cons, List.cons_append, pieces_escaped, List.map_map]
    rw [unescaped, List.map_id]

/-- One token further there is one token more. -/
theorem tokens_child (pointer token : String) :
    tokens (child pointer token) = tokens pointer ++ [token] := by
  have last : Text.pieces '/' (escape token).toList = [(escape token).toList] :=
    Text.pieces_of_not_mem '/' _ (slash_not_mem_escape token)
  have text : (child pointer token).toList = pointer.toList ++ '/' :: (escape token).toList := by
    simp [child]
  unfold tokens
  rw [text]
  split
  · next empty => simp at empty
  · next rest marked =>
    cases cs : pointer.toList with
    | nil =>
      rw [cs] at marked
      obtain ⟨-, rfl⟩ := List.cons.inj marked
      simp [last, unescape_escape]
    | cons c front =>
      rw [cs] at marked
      obtain ⟨rfl, rfl⟩ := List.cons.inj marked
      simp [Text.pieces_append, last, unescape_escape]
  · next cs nonempty unmarked =>
    cases whole : pointer.toList with
    | nil => exact absurd (by rw [whole]; rfl) (unmarked (escape token).toList)
    | cons c front =>
      have other : c ≠ '/' := by
        rintro rfl
        exact unmarked (front ++ '/' :: (escape token).toList) (by rw [whole]; rfl)
      rw [Text.pieces_append, last]
      simp [other, unescape_escape]

theorem ofTokens_inj {a b : List String} : ofTokens a = ofTokens b ↔ a = b := by
  constructor
  · intro same
    rw [← tokens_ofTokens a, same, tokens_ofTokens]
  · rintro rfl
    rfl

/-! ### Texts that go on from another one -/

/-- The text of a pointer is that of another one, or goes on from it after a slash. -/
def GoesOn (pointer other : String) : Prop :=
  other = pointer ∨ ∃ rest, other = pointer ++ "/" ++ rest

theorem ofTokens_append (a b : List String) : ofTokens (a ++ b) = ofTokens a ++ ofTokens b :=
  String.toList_inj.mp (by simp [toList_ofTokens])

theorem tokens_of_slash {pointer : String} {cs : List Char} (h : pointer.toList = '/' :: cs) :
    tokens pointer = (Text.pieces '/' cs).map unescape := by
  unfold tokens
  rw [h]
  rfl

theorem tokens_append_slash {pointer : String} {cs : List Char} (h : pointer.toList = '/' :: cs)
    (rest : String) :
    tokens (pointer ++ "/" ++ rest) =
      tokens pointer ++ (Text.pieces '/' rest.toList).map unescape := by
  have whole : (pointer ++ "/" ++ rest).toList = '/' :: (cs ++ '/' :: rest.toList) := by simp [h]
  rw [tokens_of_slash h, tokens_of_slash whole, Text.pieces_append, List.map_append]

/-- Escaped tokens hold no slash, so that only the pointers below one go on from its text. -/
theorem goesOn_ofTokens_iff {a b : List String} : GoesOn (ofTokens a) (ofTokens b) ↔ a <+: b := by
  constructor
  · rintro (same | ⟨rest, text⟩)
    · exact ofTokens_inj.mp same ▸ List.prefix_refl a
    · cases a with
      | nil => exact List.nil_prefix
      | cons token others =>
        have split := tokens_append_slash (toList_ofTokens (token :: others)) rest
        rw [← text, tokens_ofTokens, tokens_ofTokens] at split
        exact ⟨_, split.symm⟩
  · rintro ⟨rest, rfl⟩
    rw [ofTokens_append]
    cases rest with
    | nil => exact .inl String.append_empty
    | cons token others =>
      refine .inr ⟨escape token ++ ofTokens others, String.toList_inj.mp ?_⟩
      simp [toList_ofTokens]

end ApiContract.Json.Pointer

namespace ApiContract.Json

/-! ## The nodes of a value -/

namespace Value

mutual

/-- The nodes of a value, itself first. -/
def subvalues : Value → List Value
  | array items => array items :: subvaluesOfItems items
  | object members => object members :: subvaluesOfMembers members
  | value => [value]

/-- The nodes of all values of a list. -/
def subvaluesOfItems : List Value → List Value
  | [] => []
  | x :: xs => subvalues x ++ subvaluesOfItems xs

/-- The nodes of all values of a list of members. -/
def subvaluesOfMembers : List (String × Value) → List Value
  | [] => []
  | (_, x) :: xs => subvalues x ++ subvaluesOfMembers xs

end

mutual

theorem length_subvalues : ∀ value : Value, value.subvalues.length = value.nodes
  | array items => by simp [subvalues, nodes, length_subvaluesOfItems items]
  | object members => by simp [subvalues, nodes, length_subvaluesOfMembers members]
  | null => rfl
  | bool _ => rfl
  | number _ => rfl
  | string _ => rfl

theorem length_subvaluesOfItems :
    ∀ items : List Value, (subvaluesOfItems items).length = nodesOfItems items
  | [] => rfl
  | x :: xs => by
    simp [subvaluesOfItems, nodesOfItems, length_subvalues x, length_subvaluesOfItems xs]

theorem length_subvaluesOfMembers : ∀ members : List (String × Value),
    (subvaluesOfMembers members).length = nodesOfMembers members
  | [] => rfl
  | (_, x) :: xs => by
    simp [subvaluesOfMembers, nodesOfMembers, length_subvalues x, length_subvaluesOfMembers xs]

end

theorem nodes_pos (value : Value) : 0 < value.nodes := by
  cases value <;> simp [nodes]

theorem nodes_le_nodesOfItems {item : Value} {items : List Value} (h : item ∈ items) :
    item.nodes ≤ nodesOfItems items := by
  induction items with
  | nil => simp at h
  | cons first rest ih =>
    rw [nodesOfItems]
    rcases List.mem_cons.mp h with rfl | h
    · omega
    · have := ih h
      omega

theorem nodes_le_nodesOfMembers {member : String × Value} {members : List (String × Value)}
    (h : member ∈ members) : member.2.nodes ≤ nodesOfMembers members := by
  induction members with
  | nil => simp at h
  | cons first rest ih =>
    rw [nodesOfMembers]
    rcases List.mem_cons.mp h with rfl | h
    · omega
    · have := ih h
      omega

/-- The nodes right below a value, each with the token that leads to it. -/
def children : Value → List (String × Value)
  | array items => items.mapIdx fun i item => (Decimal.integerText i, item)
  | object members => members
  | _ => []

theorem self_mem_subvalues (value : Value) : value ∈ value.subvalues := by
  cases value <;> simp [subvalues]

theorem subvalues_subset_items {items : List Value} {item : Value} (h : item ∈ items) :
    item.subvalues ⊆ subvaluesOfItems items := by
  induction items with
  | nil => cases h
  | cons first rest ih =>
    rw [subvaluesOfItems]
    rcases List.mem_cons.mp h with rfl | later
    · exact List.subset_append_left _ _
    · exact List.Subset.trans (ih later) (List.subset_append_right _ _)

theorem subvalues_subset_members {members : List (String × Value)} {member : String × Value}
    (h : member ∈ members) : member.2.subvalues ⊆ subvaluesOfMembers members := by
  induction members with
  | nil => cases h
  | cons first rest ih =>
    obtain ⟨name, value⟩ := first
    rw [subvaluesOfMembers]
    rcases List.mem_cons.mp h with rfl | later
    · exact List.subset_append_left _ _
    · exact List.Subset.trans (ih later) (List.subset_append_right _ _)

end Value

namespace Pointer

variable {value node : Value}

theorem subvalues_subset_of_step? {token : String} (h : step? value token = some node) :
    node.subvalues ⊆ value.subvalues := by
  unfold step? at h
  split at h
  · exact List.Subset.trans (Value.subvalues_subset_members (Entries.mem_of_get? h))
      (List.subset_cons_self _ _)
  · obtain ⟨i, -, found⟩ := Option.bind_eq_some_iff.mp h
    exact List.Subset.trans (Value.subvalues_subset_items (List.mem_of_getElem? found))
      (List.subset_cons_self _ _)
  · cases h

/-- A pointer addresses one of the nodes of a value. -/
theorem mem_subvalues_of_navigate? {pointer : String} (h : navigate? value pointer = some node) :
    node ∈ value.subvalues := by
  unfold navigate? at h
  generalize tokens pointer = path at h
  induction path generalizing value with
  | nil =>
    cases h
    exact Value.self_mem_subvalues _
  | cons token rest ih =>
    obtain ⟨between, step, further⟩ := Option.bind_eq_some_iff.mp h
    exact subvalues_subset_of_step? step (ih further)

theorem subvalues_subset_of_navigate? {pointer : String} (h : navigate? value pointer = some node) :
    node.subvalues ⊆ value.subvalues := by
  unfold navigate? at h
  generalize tokens pointer = path at h
  induction path generalizing value with
  | nil =>
    cases h
    exact List.Subset.refl _
  | cons token rest ih =>
    obtain ⟨between, step, further⟩ := Option.bind_eq_some_iff.mp h
    exact List.Subset.trans (ih further) (subvalues_subset_of_step? step)

/-- The node that a pointer addresses is no larger than the value. -/
theorem nodes_le_of_step? {token : String} (h : step? value token = some node) :
    node.nodes < value.nodes := by
  unfold step? at h
  split at h
  · exact Nat.lt_succ_of_le (Value.nodes_le_nodesOfMembers (Entries.mem_of_get? h))
  · obtain ⟨i, -, found⟩ := Option.bind_eq_some_iff.mp h
    exact Nat.lt_succ_of_le (Value.nodes_le_nodesOfItems (List.mem_of_getElem? found))
  · cases h

/-- A token of digits gives the position that they write, or none if it is out of bounds. -/
theorem index?_of_readDigits? {token : String} {n : Nat}
    (read : Decimal.readDigits? 10 token.toList = some n) :
    index? token = if n < Nat.pow 2 64 then some n else none := by
  have unsigned : ∀ rest, token.toList = '+' :: rest → False := by
    intro rest signed
    rw [signed, Decimal.readDigits?_plus_cons] at read
    cases read
  simp only [index?]
  rw [read, Option.bind_some]

/-- The text of a position gives that position, or none if it is out of bounds. -/
theorem index?_integerText_eq (i : Nat) :
    index? (Decimal.integerText i) = if i < Nat.pow 2 64 then some i else none :=
  index?_of_readDigits? (by rw [Decimal.toList_integerText, Decimal.readDigits?_toDigits])

theorem index?_integerText {i j : Nat} (h : index? (Decimal.integerText i) = some j) : j = i := by
  rw [index?_integerText_eq] at h
  split at h
  · exact (Option.some.inj h).symm
  · cases h

/-- A token writes a position of an array: a decimal number below `2^64`, which zeros may stand before,
and a plus sign before these. -/
def WritesIndex (token : String) (i : Nat) : Prop :=
  i < Nat.pow 2 64 ∧ ∃ sign ∈ ["", "+"], ∃ zeros : Nat,
    token = sign ++ String.ofList (List.replicate zeros '0') ++ Decimal.integerText i

theorem index?_eq_some_iff {token : String} {i : Nat} :
    index? token = some i ↔ WritesIndex token i := by
  have text (sign : String) (zeros : Nat) :
      (sign ++ String.ofList (List.replicate zeros '0') ++ Decimal.integerText i).toList =
        sign.toList ++ (List.replicate zeros '0' ++ Nat.toDigits 10 i) := by
    simp [Decimal.toList_integerText]
  constructor
  · intro h
    obtain ⟨n, read, bounded⟩ := Option.bind_eq_some_iff.mp h
    obtain ⟨small, same⟩ : n < Nat.pow 2 64 ∧ n = i := by simpa using bounded
    subst same
    obtain ⟨zeros, digits⟩ := Decimal.readDigits?_eq_some_iff.mp read
    refine ⟨small, ?_⟩
    split at digits
    · next rest signed =>
      exact ⟨"+", by simp, zeros, String.toList_inj.mp (by rw [text, signed, digits]; rfl)⟩
    · exact ⟨"", by simp, zeros, String.toList_inj.mp (by rw [text, digits]; rfl)⟩
  · rintro ⟨small, sign, listed, zeros, rfl⟩
    have read : Decimal.readDigits? 10 (List.replicate zeros '0' ++ Nat.toDigits 10 i) = some i :=
      Decimal.readDigits?_eq_some_iff.mpr ⟨zeros, rfl⟩
    obtain rfl | rfl : sign = "" ∨ sign = "+" := by simpa using listed
    · rw [index?_of_readDigits? (by rw [text]; exact read), if_pos small]
    · unfold index?
      rw [text]
      simp [read, small]

theorem follow?_append (value : Value) (front rest : List String) :
    follow? value (front ++ rest) = (follow? value front).bind fun node => follow? node rest := by
  induction front generalizing value with
  | nil => rfl
  | cons token front ih =>
    simp only [List.cons_append, follow?, Option.bind_assoc]
    exact congrArg _ (funext ih)

/-- A pointer one token further addresses the node one token below. -/
theorem navigate?_child (value : Value) (pointer token : String) :
    navigate? value (child pointer token) =
      (navigate? value pointer).bind fun node => step? node token := by
  rw [navigate?, tokens_child, follow?_append]
  simp [navigate?, follow?]

end Pointer

end ApiContract.Json
