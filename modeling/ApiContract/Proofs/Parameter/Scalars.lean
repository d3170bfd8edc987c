import ApiContract.Proofs.Decimal.Integers
import ApiContract.Proofs.Parameter.Pairs
import ApiContract.Proofs.Parameter.TextStyles
/-!
# Scalars read back

A scalar is written as it is, whatever characters it has, and read back in every style but
`deepObject`, which writes objects alone (`transmit_scalar`). The scalars that do not come back are
the integers from `2^63` on: a text is read as an integer with a sign, or else as a real number.
-/

namespace ApiContract

open Json (Value)
open Decimal (Binary64 integerText isSigned64 isUnsigned64)
open Text

/-- The scalars of a type; of the numbers the integers of 64 bits, with a sign or without. -/
inductive Primitive.Holds : Primitive → Value → Prop
  | string (s : String) : Holds .string (.string s)
  | boolean (b : Bool) : Holds .boolean (.bool b)
  | integer {n : Int} : isSigned64 n = true ∨ isUnsigned64 n = true → Holds .integer (.ofInt n)
  | number {n : Int} : isSigned64 n = true ∨ isUnsigned64 n = true → Holds .number (.ofInt n)

theorem Primitive.Holds.isScalar {type : Primitive} {value : Value} (held : type.Holds value) :
    value.isScalar = true := by
  cases held <;> rfl

namespace Parameter

/-- What is read, where a hint expects something, of what is written of a value: pairs or a text, as
the style has it. -/
def transmit (name : String) (style : ParameterStyle) (explode : Bool) (hint : Hint) (value : Value) :
    Except CodecError Value :=
  if style.writesPairs then
    (encodePairs name style explode value).bind fun pairs => decodePairs name style explode pairs hint
  else (encodeText name style explode value).bind fun text => decodeText name style explode text hint

/-- What comes back of a scalar: an integer that is too large to have a sign as the nearest real
number, all others as they are. -/
def returned : Value → Value
  | .number (.integer n) => if isSigned64 n then .ofInt n else .number (.real (Binary64.ofInt n))
  | value => value

variable {name shape text written : String} {style : ParameterStyle} {separator : Char}
  {explode : Bool} {hint : Hint} {type : Primitive} {value : Value}

theorem returned_eq_self_iff :
    returned value = value ↔ ∀ n, value = .ofInt n → isSigned64 n = true := by
  unfold returned
  split
  · next n =>
    by_cases signed : isSigned64 n = true <;> simp [signed, Value.ofInt]
  · next other => exact ⟨fun _ n same => absurd same (other n), fun _ => rfl⟩

/-! ### Reading the atom of a scalar -/

theorem coerceNumber_integerText {n : Int} (h : isSigned64 n = true ∨ isUnsigned64 n = true) :
    Hint.coerceNumber (integerText n) = returned (.ofInt n) := by
  simp only [Hint.coerceNumber, Decimal.readInteger?_integerText, returned, Value.ofInt]
  by_cases signed : isSigned64 n = true
  · simp [Option.filter, signed]
  · obtain ⟨least, most⟩ : 0 ≤ n ∧ n < Int.pow 2 64 := by
      simpa [isUnsigned64] using h.resolve_left signed
    simp [Option.filter, signed, Decimal.readReal?_integerText least most]

/-- Where a scalar of a type is expected, its text is read as what comes back of it. -/
theorem coerce_atomText (kind : hint.kind = .scalar type) (held : type.Holds value) :
    hint.coerce (atomText value) = returned value := by
  unfold Hint.coerce
  cases held with
  | string s => simp only [kind, atomText, returned]
  | boolean b => cases b <;> simp only [kind, atomText, returned, Hint.coerceBoolean]
  | integer fits =>
    simp only [kind]
    exact coerceNumber_integerText fits
  | number fits =>
    simp only [kind]
    exact coerceNumber_integerText fits

/-! ### Reading the text of a scalar -/

/-- Cutting a text and joining the atoms gives the text. -/
theorem intercalate_atoms (separator : Char) (text : String) :
    (String.singleton separator).intercalate (atoms separator text.toList) = text := by
  apply String.toList_inj.mp
  rw [toList_intercalate]
  unfold atoms
  split
  · next blank => simpa [joined] using (List.isEmpty_iff.mp blank).symm
  · simp [Function.comp_def, joined_pieces]

/-- In the styles that write one text, the text of a scalar is read as its atom: there is nothing in it
to tell apart. -/
theorem decodeText_scalarText (kind : hint.kind = .scalar type)
    (h : scalarText style name shape text = .ok written) :
    decodeText name style explode written hint = .ok (hint.coerce text) := by
  cases style with
  | simple =>
    obtain rfl : text = written := Except.ok.inj h
    have whole : ",".intercalate (atoms ',' text.toList) = text := intercalate_atoms ',' text
    simp only [decodeText, typed, kind, whole]
  | label =>
    obtain rfl : "." ++ text = written := Except.ok.inj h
    have body : afterFront? ['.'] ("." ++ text).toList = some text.toList := by
      rw [afterFront?_eq_some_iff]
      simp
    simp only [decodeText, decodeLabel, body, kind, Option.map_some, String.ofList_toList]
  | matrix =>
    obtain rfl : (if text = "" then ";" ++ name else ";" ++ name ++ "=" ++ text) = written :=
      Except.ok.inj h
    by_cases bare : text = ""
    · subst bare
      simp [decodeText, decodeMatrix, kind]
    · have body : afterFront? ((';' :: name.toList) ++ ['=']) (";" ++ name ++ "=" ++ text).toList =
          some text.toList := by
        rw [afterFront?_eq_some_iff]
        simp
      rw [if_neg bare, decodeText, decodeMatrix, if_neg (toList_assigned_ne name text), body]
      simp [kind]
  | form | spaceDelimited | pipeDelimited | deepObject => cases h

/-! ### Scalars as they travel -/

theorem transmit_text (kind : hint.kind = .scalar type) (scalar : value.isScalar = true)
    (oneText : style.writesPairs = false) :
    transmit name style explode hint value = .ok (hint.coerce (atomText value)) := by
  obtain ⟨written, writes⟩ : ∃ written,
      scalarText style name value.typeName (atomText value) = .ok written := by
    cases style <;> first | exact ⟨_, rfl⟩ | cases oneText
  have encoded : encodeText name style explode value = .ok written := by
    cases value with
    | null | number n | string s => exact writes
    | bool b => cases b <;> exact writes
    | array items | object members => cases scalar
  rw [transmit, oneText, if_neg (by decide), encoded]
  exact decodeText_scalarText kind writes

theorem transmit_pair (kind : hint.kind = .scalar type) (scalar : value.isScalar = true)
    (delimited : pairSeparator? style = some separator) :
    transmit name style explode hint value = .ok (hint.coerce (atomText value)) := by
  have pairs : style.writesPairs = true := by cases style <;> first | rfl | cases delimited
  have encoded : encodePairs name style explode value = .ok [(name, atomText value)] := by
    rw [encodePairs_of_separator delimited]
    cases value with
    | null | number n | string s => rfl
    | bool b => cases b <;> rfl
    | array items | object members => cases scalar
  rw [transmit, pairs, if_pos rfl, encoded]
  show decodePairs name style explode _ hint = _
  rw [decodePairs_of_separator delimited]
  simp [decodeDelimited, kind]

/-- Every scalar that is expected comes back in every style that writes scalars, exploded or not and
under every name, and nothing else than `returned` says: strings with any characters, truth values and
the integers below `2^63` as they are, and larger integers as real numbers. -/
theorem transmit_scalar (kind : hint.kind = .scalar type) (held : type.Holds value)
    (flat : style ≠ .deepObject) :
    transmit name style explode hint value = .ok (returned value) ∧
      (returned value = value ↔ ∀ n, value = .ofInt n → isSigned64 n = true) := by
  refine ⟨?_, returned_eq_self_iff⟩
  rw [← coerce_atomText kind held]
  cases style with
  | simple | label | matrix => exact transmit_text kind held.isScalar rfl
  | form | spaceDelimited | pipeDelimited => exact transmit_pair kind held.isScalar rfl
  | deepObject => exact absurd rfl flat

/-- The least integer of 64 bits, with the name before it. -/
theorem transmit_leastSize :
    (boxCatalog.hint 0).kind = .scalar .integer ∧ Primitive.integer.Holds (.ofInt (-Int.pow 2 63)) ∧
      transmit "size" .matrix true (boxCatalog.hint 0) (.ofInt (-Int.pow 2 63)) =
        .ok (.ofInt (-Int.pow 2 63)) := by
  have held : Primitive.integer.Holds (.ofInt (-Int.pow 2 63)) := .integer (.inl (by decide))
  obtain ⟨comes, same⟩ :=
    @transmit_scalar "size" .matrix true (boxCatalog.hint 0) .integer _ rfl held (by decide)
  refine ⟨rfl, held, comes.trans (congrArg Except.ok (same.mpr ?_))⟩
  rintro n ⟨rfl⟩
  decide

/-- The greatest integer of 64 bits does not come back, though it is one that is expected. -/
theorem transmit_greatestSize :
    (boxCatalog.hint 0).kind = .scalar .integer ∧
      Primitive.integer.Holds (.ofInt (Int.pow 2 64 - 1)) ∧
      ¬ transmit "size" .simple false (boxCatalog.hint 0) (.ofInt (Int.pow 2 64 - 1)) =
        .ok (.ofInt (Int.pow 2 64 - 1)) := by
  have held : Primitive.integer.Holds (.ofInt (Int.pow 2 64 - 1)) := .integer (.inr (by decide))
  refine ⟨rfl, held, fun comes => ?_⟩
  rw [@transmit_text _ _ _ _ .integer _ rfl rfl rfl, coerce_atomText rfl held] at comes
  have signed := returned_eq_self_iff.mp (Except.ok.inj comes) _ rfl
  exact absurd signed (by decide)

end Parameter

end ApiContract
