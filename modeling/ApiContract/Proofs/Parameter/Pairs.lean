import ApiContract.Proofs.Parameter.Atoms
/-!
# Pairs read back

In the styles that write pairs with a separator an array or object is read as what was written, also
from among the pairs of other parameters, as long as the separator tells where its atoms end
(`decodePairs_encodePairs`).
-/

namespace ApiContract

open Json (Value)
open Text

/-- A list with others put between its members. -/
inductive Mixes {α : Type} (other : α → Prop) : (own mixed : List α) → Prop
  | nil : Mixes other [] []
  | own (a : α) {own mixed : List α} (rest : Mixes other own mixed) :
      Mixes other (a :: own) (a :: mixed)
  | other {a : α} {own mixed : List α} (apart : other a) (rest : Mixes other own mixed) :
      Mixes other own (a :: mixed)

namespace Mixes

variable {α β : Type} {other : α → Prop} {own mixed : List α}

theorem filter_eq {p : α → Bool} (h : Mixes other own mixed) (ignores : ∀ a, other a → p a = false) :
    mixed.filter p = own.filter p := by
  induction h with
  | nil => rfl
  | own a _ ih => rw [List.filter_cons, List.filter_cons, ih]
  | other apart _ ih => rw [List.filter_cons_of_neg (by simp [ignores _ apart]), ih]

theorem foldl_eq {f : β → α → β} (h : Mixes other own mixed) (ignores : ∀ b a, other a → f b a = b)
    (start : β) : mixed.foldl f start = own.foldl f start := by
  induction h generalizing start with
  | nil => rfl
  | own a _ ih => rw [List.foldl_cons, List.foldl_cons, ih]
  | other apart _ ih => rw [List.foldl_cons, ignores _ _ apart, ih]

end Mixes

namespace Parameter

/-- Whether the atoms of a value are put together in one text. -/
def joinsAtoms (style : ParameterStyle) (explode : Bool) : Value → Bool
  | .array _ => !explode
  | .object _ => !(explode && style == .form)
  | .null | .bool _ | .number _ | .string _ => false

/-- Whether each member of a value has a pair of its own name, so that all pairs are taken for members
when it is read. -/
def takesAllPairs (style : ParameterStyle) (explode : Bool) : Value → Bool
  | .object _ => explode && style == .form
  | .null | .bool _ | .number _ | .string _ | .array _ => false

variable {name : String} {style : ParameterStyle} {separator : Char} {explode : Bool} {hint : Hint}
  {value : Value} {pairs : List (String × String)}

theorem encodePairs_of_separator (delimited : pairSeparator? style = some separator) :
    encodePairs name style explode value =
      delimitedPairs name style (String.singleton separator) explode value := by
  cases style <;> cases delimited <;> rfl

theorem decodePairs_of_separator (delimited : pairSeparator? style = some separator) :
    decodePairs name style explode pairs hint =
      .ok (decodeDelimited name style separator explode pairs hint) := by
  cases style <;> cases delimited <;> rfl

theorem delimitedPairs_of_joins {mark : String} (expected : hint.Expects value)
    (joins : joinsAtoms style explode value = true) :
    delimitedPairs name style mark explode value =
      .ok [(name, mark.intercalate (flatTexts value))] := by
  cases expected with
  | array kind each =>
    obtain rfl : explode = false := by simpa [joinsAtoms] using joins
    rw [delimitedPairs, itemAtoms_of_isScalar fun item member => (each item member).scalar]
    rfl
  | object kind distinct each =>
    rw [joinsAtoms, Bool.not_eq_true'] at joins
    rw [delimitedPairs, memberAtoms_of_isScalar fun member listed => (each member listed).scalar]
    simp only [joins, Bool.false_eq_true, if_false]
    rfl

theorem decodeDelimited_of_joins (expected : hint.Expects value)
    (joins : joinsAtoms style explode value = true) (splits : Splits separator (flatTexts value)) :
    decodeDelimited name style separator explode
      [(name, (String.singleton separator).intercalate (flatTexts value))] hint = value := by
  have read : typed hint (atoms separator
      ((String.singleton separator).intercalate (flatTexts value)).toList) false = value := by
    rw [toList_intercalate, atoms_joined splits, typed_flatTexts expected]
  cases expected with
  | array kind each =>
    obtain rfl : explode = false := by simpa [joinsAtoms] using joins
    simpa [decodeDelimited, kind] using read
  | object kind distinct each =>
    rw [joinsAtoms, Bool.not_eq_true'] at joins
    simpa [decodeDelimited, kind, joins] using read

/-- Pairs of other names are passed over. -/
theorem decodeDelimited_of_mixes {mixed : List (String × String)}
    (mixes : Mixes (fun pair => pair.1 ≠ name) pairs mixed) (expected : hint.Expects value)
    (single : takesAllPairs style explode value = false) :
    decodeDelimited name style separator explode mixed hint =
      decodeDelimited name style separator explode pairs hint := by
  have own : (mixed.filter fun pair => pair.1 = name) = pairs.filter fun pair => pair.1 = name :=
    mixes.filter_eq fun pair apart => decide_eq_false apart
  cases expected with
  | array kind each => simp only [decodeDelimited, kind, own]
  | object kind distinct each =>
    rw [takesAllPairs] at single
    simp only [decodeDelimited, kind, own, single, Bool.false_eq_true, if_false]

/-- What is written with a separator is read from these pairs alone. -/
theorem exists_encodePairs (name : String) (delimited : pairSeparator? style = some separator)
    (expected : hint.Expects value)
    (splits : joinsAtoms style explode value = true → Splits separator (flatTexts value)) :
    ∃ pairs, encodePairs name style explode value = .ok pairs ∧
      decodeDelimited name style separator explode pairs hint = value := by
  rw [encodePairs_of_separator delimited]
  by_cases joins : joinsAtoms style explode value = true
  · exact ⟨_, delimitedPairs_of_joins expected joins,
      decodeDelimited_of_joins expected joins (splits joins)⟩
  -- What is left has a pair for each item under the one name, or for each member under its own.
  cases expected with
  | @array items kind each =>
    obtain rfl : explode = true := by simpa [joinsAtoms] using joins
    refine ⟨items.map fun item => (name, atomText item), ?_, ?_⟩
    · rw [delimitedPairs, itemAtoms_of_isScalar fun item member => (each item member).scalar]
      simp [Except.map]
    · have own : ((items.map fun item => (name, atomText item)).filter fun pair => pair.1 = name).map
          Prod.snd = items.map atomText := by
        simp [List.filter_map, Function.comp_def]
      simp only [decodeDelimited, own, kind, if_true]
      rw [typed_of_kind_array kind, coerce_items each]
  | @object members kind distinct each =>
    have spread : (explode && style == .form) = true := by simpa [joinsAtoms] using joins
    refine ⟨memberTexts members, ?_, ?_⟩
    · rw [delimitedPairs, memberAtoms_of_isScalar fun member listed => (each member listed).scalar]
      simp [Except.map, spread]
    · simp only [decodeDelimited, kind, spread, if_true]
      exact objectOf_memberTexts distinct each

/-- Arrays and objects are read as they were written with a separator. Where it stands between atoms,
it has to tell them apart; and only an object that is spread over pairs has to have these alone. -/
theorem decodePairs_encodePairs (delimited : pairSeparator? style = some separator)
    (expected : hint.Expects value)
    (splits : joinsAtoms style explode value = true → Splits separator (flatTexts value)) :
    ∃ pairs, encodePairs name style explode value = .ok pairs ∧
      decodePairs name style explode pairs hint = .ok value ∧
        (takesAllPairs style explode value = false →
          ∀ mixed, Mixes (fun pair => pair.1 ≠ name) pairs mixed →
            decodePairs name style explode mixed hint = .ok value) := by
  obtain ⟨pairs, written, read⟩ := exists_encodePairs name delimited expected splits
  refine ⟨pairs, written, ?_, fun single mixed mixes => ?_⟩
  · rw [decodePairs_of_separator delimited, read]
  · rw [decodePairs_of_separator delimited, decodeDelimited_of_mixes mixes expected single, read]

/-- An exploded object in a style that has no pairs for its members, among pairs of other names. -/
theorem decodePairs_emptyBox :
    pairSeparator? .pipeDelimited = some '|' ∧ (boxCatalog.hint 2).Expects emptyBox ∧
      Splits '|' (flatTexts emptyBox) ∧
      decodePairs "box" .pipeDelimited true
        [("boxes", "1"), ("box", "weight|7|size|-3"), ("Box", "")] (boxCatalog.hint 2) =
          .ok emptyBox := by
  have splits : Splits '|' (flatTexts emptyBox) := ⟨by decide, by decide⟩
  obtain ⟨pairs, written, -, read⟩ :=
    @decodePairs_encodePairs "box" .pipeDelimited '|' true (boxCatalog.hint 2) emptyBox rfl
      expects_emptyBox fun _ => splits
  obtain rfl : [("box", "weight|7|size|-3")] = pairs := Except.ok.inj written
  refine ⟨rfl, expects_emptyBox, splits, read rfl _ ?_⟩
  exact .other (by decide) (.own _ (.other (by decide) .nil))

end Parameter

end ApiContract
