import ApiContract.Reference.Library
import ApiContract.Proofs.Json.Pointer
/-!
# Locations and what stands there

The location that is reached from the root of a document by going down token after token has just
these tokens, whatever characters they have, so that other tokens lead to another location. The node
there is the one that the tokens lead to in the document, where each of them is the name of a member or
writes the position of an item (`addresses_descend`).
-/

namespace ApiContract

open Json (Value)

namespace Json.Pointer

variable {value node : Value} {tokens : List String}

/-- Tokens lead from a value to a node, each of them as the name of a member where the value is an
object, and as the position of an item where it is an array. -/
inductive Leads : Value → List String → Value → Prop
  | stay {value : Value} : Leads value [] value
  | member {members : Entries Value} {name : String} {next node : Value} {rest : List String} :
      Entries.get? name members = some next → Leads next rest node →
        Leads (.object members) (name :: rest) node
  | item {items : List Value} {token : String} {i : Nat} {next node : Value} {rest : List String} :
      WritesIndex token i → items[i]? = some next → Leads next rest node →
        Leads (.array items) (token :: rest) node

theorem follow?_eq_some_iff : follow? value tokens = some node ↔ Leads value tokens node := by
  constructor
  · intro h
    induction tokens generalizing value with
    | nil =>
      cases h
      exact .stay
    | cons token rest ih =>
      obtain ⟨next, step, further⟩ := Option.bind_eq_some_iff.mp h
      cases value with
      | object members => exact .member step (ih further)
      | array items =>
        obtain ⟨i, index, found⟩ := Option.bind_eq_some_iff.mp step
        exact .item (index?_eq_some_iff.mp index) found (ih further)
      | _ => cases step
  · intro h
    induction h with
    | stay => rfl
    | member found _ ih => simp [follow?, step?, found, ih]
    | item index found _ ih => simp [follow?, step?, index?_eq_some_iff.mpr index, found, ih]

end Json.Pointer

namespace Location

/-- The location that is reached from another one by one token after the other. -/
def descend (location : Location) (tokens : List String) : Location := tokens.foldl child location

theorem descend_root (document : Url) (tokens : List String) :
    (root document).descend tokens = ⟨document, Json.Pointer.ofTokens tokens⟩ := by
  have below (location : Location) : location.descend tokens =
      { location with pointer := tokens.foldl Json.Pointer.child location.pointer } := by
    induction tokens generalizing location with
    | nil => rfl
    | cons token rest ih => exact ih (location.child token)
  exact below (root document)

/-- Going down from the root of a document by tokens keeps what they are: the location has these
tokens, no others give its pointer, and the node there is the one that they lead to. -/
theorem addresses_descend (document : Url) (tokens : List String) :
    ((root document).descend tokens).tokens = tokens ∧
      (∀ other others, ((root other).descend others).pointer =
        ((root document).descend tokens).pointer ↔ others = tokens) ∧
      ∀ (library : Library) (node : Value),
        library.node? ((root document).descend tokens) = some node ↔
          ∃ whole, library.document? document = some whole ∧
            Json.Pointer.Leads whole tokens node := by
  simp only [descend_root]
  refine ⟨Json.Pointer.tokens_ofTokens tokens, fun _ _ => Json.Pointer.ofTokens_inj, ?_⟩
  intro library node
  simp only [Library.node?, Option.bind_eq_some_iff, Json.Pointer.navigate?,
    Json.Pointer.tokens_ofTokens, Json.Pointer.follow?_eq_some_iff]

/-- Tokens whose texts are escapes, or nothing, are told apart. -/
example :
    let root := root default
    (root.descend []).pointer = "" ∧ (root.descend [""]).pointer = "/" ∧
      (root.descend ["", "x"]).pointer = "//x" ∧
      (root.descend ["~1", "~01", "/~0"]).pointer = "/~01/~001/~1~00" := by
  decide

end Location

end ApiContract
