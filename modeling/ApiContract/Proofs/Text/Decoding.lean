import ApiContract.Proofs.Text.Percent
import Mathlib.Data.List.Basic
/-!
# Octets read back

A text is read back from its octets (`Utf8.decodeLossy_encode`), an octet from the percent sign and the
two digits that stand for it. A set of characters without percent signs and digits can be encoded in a
text that is to be decoded anyway: it means the same (`Percent.decodeText_encode`).
-/

namespace ApiContract.Text

namespace Utf8

/-- An octet that is a number below 256 is that number. -/
theorem toNat_octet {n : Nat} (h : n < 0x100) : (UInt8.ofNat n).toNat = n := by
  rw [UInt8.toNat_ofNat']
  omega

section
variable {a b c d : UInt8} (rest : Octets)

theorem takeChar_one (ha : a.toNat < 0x80) : takeChar a rest = (some (Char.ofNat a.toNat), rest) := by
  simp [takeChar, UInt8.lt_iff_toNat_lt, ha]

theorem takeChar_two (least : 0xC2 ≤ a.toNat) (most : a.toNat ≤ 0xDF) (hb : isTail b = true) :
    takeChar a (b :: rest) = (some (ofGroups (a.toNat % 32) [b]), rest) := by
  have notOne : ¬ a.toNat < 0x80 := by omega
  simp [takeChar, UInt8.lt_iff_toNat_lt, UInt8.le_iff_toNat_le, least, most, notOne, hb]

theorem takeChar_three (least : 0xE0 ≤ a.toNat) (most : a.toNat ≤ 0xEF)
    (hb : isSecondOfThree a b = true) (hc : isTail c = true) :
    takeChar a (b :: c :: rest) = (some (ofGroups (a.toNat % 16) [b, c]), rest) := by
  have notOne : ¬ a.toNat < 0x80 := by omega
  have notTwo : ¬ a.toNat ≤ 0xDF := by omega
  simp [takeChar, UInt8.lt_iff_toNat_lt, UInt8.le_iff_toNat_le, least, most, notOne, notTwo, hb, hc]

theorem takeChar_four (least : 0xF0 ≤ a.toNat) (most : a.toNat ≤ 0xF4)
    (hb : isSecondOfFour a b = true) (hc : isTail c = true) (hd : isTail d = true) :
    takeChar a (b :: c :: d :: rest) = (some (ofGroups (a.toNat % 8) [b, c, d]), rest) := by
  have notOne : ¬ a.toNat < 0x80 := by omega
  have notTwo : ¬ a.toNat ≤ 0xDF := by omega
  have notThree : ¬ a.toNat ≤ 0xEF := by omega
  simp [takeChar, UInt8.lt_iff_toNat_lt, UInt8.le_iff_toNat_le, least, most, notOne, notTwo, notThree,
    hb, hc, hd]

end

/-- The octet that carries six bits of a code point behind the first octet. -/
theorem toNat_tail (n : Nat) : (UInt8.ofNat (0x80 + n % 64)).toNat = 0x80 + n % 64 :=
  toNat_octet (by omega)

theorem isTail_tail (n : Nat) : isTail (UInt8.ofNat (0x80 + n % 64)) = true := by
  simp only [isTail, Bool.and_eq_true, decide_eq_true_eq, UInt8.le_iff_toNat_le, toNat_tail,
    UInt8.reduceToNat]
  omega

/-- A character is found where its octets are, whatever follows them. -/
theorem takeChar_encodeChar {c : Char} {a : UInt8} {tails : Octets} (h : encodeChar c = a :: tails)
    (rest : Octets) : takeChar a (tails ++ rest) = (some c, rest) := by
  have valid : c.toNat < 0xD800 ∨ 0xDFFF < c.toNat ∧ c.toNat < 0x110000 := c.valid
  -- The bits of the code point, six in each octet but the first, make it up again.
  have whole {first : Nat} {tails : List UInt8}
      (bits : tails.foldl (fun n b => n * 64 + b.toNat % 64) first = c.toNat) :
      (some (ofGroups first tails), rest) = (some c, rest) := by
    rw [ofGroups, bits, Char.ofNat_toNat]
  simp only [encodeChar] at h
  split at h
  · obtain ⟨rfl, rfl⟩ := List.cons.inj h
    have code := toNat_octet (n := c.toNat) (by omega)
    rw [List.nil_append, takeChar_one rest (by omega), code, Char.ofNat_toNat]
  split at h
  · obtain ⟨rfl, rfl⟩ := List.cons.inj h
    have code := toNat_octet (n := 0xC0 + c.toNat / 64) (by omega)
    refine (takeChar_two rest (by omega) (by omega) (isTail_tail _)).trans (whole ?_)
    simp only [List.foldl_cons, List.foldl_nil, code, toNat_tail]
    omega
  split at h
  · obtain ⟨rfl, rfl⟩ := List.cons.inj h
    have code := toNat_octet (n := 0xE0 + c.toNat / 4096) (by omega)
    have second : isSecondOfThree (UInt8.ofNat (0xE0 + c.toNat / 4096))
        (UInt8.ofNat (0x80 + c.toNat / 64 % 64)) = true := by
      simp only [isSecondOfThree, isTail_tail, Bool.true_and, Bool.and_eq_true, Bool.or_eq_true,
        bne_iff_ne, ne_eq, ← UInt8.toNat_inj, decide_eq_true_eq, UInt8.le_iff_toNat_le, code,
        toNat_tail, UInt8.reduceToNat]
      omega
    refine (takeChar_three rest (by omega) (by omega) second (isTail_tail _)).trans (whole ?_)
    simp only [List.foldl_cons, List.foldl_nil, code, toNat_tail]
    omega
  · obtain ⟨rfl, rfl⟩ := List.cons.inj h
    have code := toNat_octet (n := 0xF0 + c.toNat / 262144) (by omega)
    have second : isSecondOfFour (UInt8.ofNat (0xF0 + c.toNat / 262144))
        (UInt8.ofNat (0x80 + c.toNat / 4096 % 64)) = true := by
      simp only [isSecondOfFour, isTail_tail, Bool.true_and, Bool.and_eq_true, Bool.or_eq_true,
        bne_iff_ne, ne_eq, ← UInt8.toNat_inj, decide_eq_true_eq, UInt8.le_iff_toNat_le, code,
        toNat_tail, UInt8.reduceToNat]
      omega
    refine (takeChar_four rest (by omega) (by omega) second (isTail_tail _)
      (isTail_tail _)).trans (whole ?_)
    simp only [List.foldl_cons, List.foldl_nil, code, toNat_tail]
    omega

theorem parts_encodeChar (c : Char) (rest : Octets) :
    parts (encodeChar c ++ rest) = some c :: parts rest := by
  obtain ⟨a, tails, octets⟩ := List.exists_cons_of_ne_nil (encodeChar_ne_nil c)
  rw [octets, List.cons_append, parts, takeChar_encodeChar octets]

/-- A text is read back from its octets. -/
theorem parts_encode (s : String) : parts (encode s) = s.toList.map some := by
  rw [encode]
  induction s.toList with
  | nil => simp [parts]
  | cons c rest ih => rw [List.flatMap_cons, parts_encodeChar, ih, List.map_cons]

theorem decodeLossy_encode (s : String) : decodeLossy (encode s) = s := by
  simp [decodeLossy, parts_encode, Function.comp_def]

/-- The octets of ASCII characters. -/
def asciiOctets (cs : List Char) : Octets := cs.map fun c => UInt8.ofNat c.toNat

theorem encode_ascii {cs : List Char} (ascii : ∀ c ∈ cs, c.toNat < 0x80) :
    encode (String.ofList cs) = asciiOctets cs := by
  have single : ∀ c ∈ cs, encodeChar c = [UInt8.ofNat c.toNat] := fun c member =>
    if_pos (ascii c member)
  rw [encode, String.toList_ofList, asciiOctets, List.map_eq_flatMap, List.flatMap_congr single]

end Utf8

namespace Percent

/-! ### Percent signs read -/

theorem hexValue?_upperHex :
    ∀ n < 16, hexValue? (UInt8.ofNat (upperHex n).toNat) = some n := by decide

theorem decode_cons {b : UInt8} (other : b ≠ 0x25) (rest : Octets) :
    decode (b :: rest) = b :: decode rest := by
  rw [decode]
  rintro - - - rfl
  exact absurd rfl other

/-- The octets of the characters that encode an octet. -/
theorem decode_encodeOctet (b : UInt8) (rest : Octets) :
    decode (Utf8.asciiOctets (encodeOctet b) ++ rest) = b :: decode rest := by
  have small := b.toNat_lt
  have high := hexValue?_upperHex (b.toNat / 16) (by omega)
  have low := hexValue?_upperHex (b.toNat % 16) (by omega)
  have whole : UInt8.ofNat (b.toNat / 16 * 16 + b.toNat % 16) = b := by
    rw [← UInt8.toNat_inj, Utf8.toNat_octet (by omega)]
    omega
  simp only [Utf8.asciiOctets, encodeOctet, List.map_cons, List.map_nil, List.cons_append,
    List.nil_append, show UInt8.ofNat '%'.toNat = 0x25 from rfl, decode, high, low, whole]

/-- Whether two hexadecimal digits stand at the front. -/
def leadsDigits : Octets → Bool
  | a :: b :: _ => (hexValue? a).isSome && (hexValue? b).isSome
  | _ => false

theorem decode_percent {bytes : Octets} (plain : leadsDigits bytes = false) :
    decode (0x25 :: bytes) = 0x25 :: decode bytes := by
  match bytes with
  | [] => simp [decode]
  | [a] => simp [decode]
  | a :: b :: rest =>
    rw [decode]
    split
    · next high low first second => simp [leadsDigits, first, second] at plain
    · rfl

variable {inSet : Nat → Bool}

/-- The octets of the characters that stand for an octet. -/
def octetsOf (inSet : Nat → Bool) (b : UInt8) : Octets := Utf8.asciiOctets (octetChars inSet b)

theorem encode_encode (inSet : Nat → Bool) (s : String) :
    Utf8.encode (encode inSet s) = (Utf8.encode s).flatMap (octetsOf inSet) := by
  have ascii : ∀ c ∈ encodeOctets inSet (Utf8.encode s), c.toNat < 0x80 := by
    intro c member
    have member : c ∈ (encode inSet s).toList := by rwa [encode, String.toList_ofList]
    exact ascii_of_mem_encode member
  rw [encode, Utf8.encode_ascii ascii, encodeOctets, Utf8.asciiOctets, List.map_flatMap]
  rfl

/-- The set has neither the percent sign nor digits, so that what is encoded already stays so. -/
structure KeepsEncoded (inSet : Nat → Bool) : Prop where
  percent : inSet 0x25 = false
  digits : ∀ b, (hexValue? b).isSome = true → inSet b.toNat = false

theorem lt_of_hexValue? {b : UInt8} (digit : (hexValue? b).isSome = true) : b.toNat < 0x80 := by
  simp only [hexValue?, Bool.and_eq_true, decide_eq_true_eq] at digit
  repeat' split at digit
  · omega
  · omega
  · omega
  · cases digit

theorem octetsOf_of_plain {b : UInt8} (ascii : b.toNat < 0x80) (plain : inSet b.toNat = false) :
    octetsOf inSet b = [b] := by
  have own : octetChars inSet b = [Char.ofNat b.toNat] := by
    rw [octetChars, if_neg (by simp [plain, ascii])]
  rw [octetsOf, own]
  simp [Utf8.asciiOctets, toNat_ofNat _ ascii]

/-- An octet stands for itself, or is no digit and begins with a percent sign. -/
theorem octetsOf_cases (keeps : KeepsEncoded inSet) (b : UInt8) : octetsOf inSet b = [b] ∨
    hexValue? b = none ∧ b ≠ 0x25 ∧ octetsOf inSet b = Utf8.asciiOctets (encodeOctet b) := by
  by_cases plain : b.toNat < 0x80 ∧ inSet b.toNat = false
  · exact .inl (octetsOf_of_plain plain.1 plain.2)
  · have encoded : octetChars inSet b = encodeOctet b := by
      rw [octetChars, if_pos]
      simp only [Bool.or_eq_true, decide_eq_true_eq]
      by_contra neither
      simp only [not_or, Nat.not_le, Bool.not_eq_true] at neither
      exact plain neither
    refine .inr ⟨?_, ?_, by rw [octetsOf, encoded]⟩
    · by_contra digit
      have digit := Option.isSome_iff_ne_none.mpr digit
      exact plain ⟨lt_of_hexValue? digit, keeps.digits b digit⟩
    · rintro rfl
      exact plain ⟨by decide, keeps.percent⟩

theorem leadsDigits_octetsOf (keeps : KeepsEncoded inSet) (bytes : Octets) :
    leadsDigits (bytes.flatMap (octetsOf inSet)) = leadsDigits bytes := by
  have sign : hexValue? 0x25 = none := rfl
  have percent (b : UInt8) (rest : Octets) :
      ∃ more, Utf8.asciiOctets (encodeOctet b) ++ rest = 0x25 :: more := ⟨_, rfl⟩
  match bytes with
  | [] => rfl
  | [a] =>
    rcases octetsOf_cases keeps a with own | ⟨-, -, own⟩
    · simp [own]
    · obtain ⟨more, leads⟩ := percent a []
      rw [List.flatMap_cons, own, List.flatMap_nil, leads]
      cases more <;> simp [leadsDigits, sign]
  | a :: b :: rest =>
    rcases octetsOf_cases keeps a with own | ⟨other, -, own⟩
    · rcases octetsOf_cases keeps b with own' | ⟨other', -, own'⟩
      · simp [own, own', leadsDigits]
      · obtain ⟨more, leads⟩ := percent b (rest.flatMap (octetsOf inSet))
        rw [List.flatMap_cons, own, List.flatMap_cons, own', leads]
        simp [leadsDigits, sign, other']
    · obtain ⟨more, leads⟩ := percent a ((b :: rest).flatMap (octetsOf inSet))
      rw [List.flatMap_cons, own, leads]
      cases more <;> simp [leadsDigits, sign, other]

theorem decode_octetsOf (keeps : KeepsEncoded inSet) (bytes : Octets) :
    decode (bytes.flatMap (octetsOf inSet)) = decode bytes := by
  have sign : octetsOf inSet 0x25 = [0x25] := octetsOf_of_plain (by decide) keeps.percent
  have digit {b : UInt8} {n : Nat} (value : hexValue? b = some n) : octetsOf inSet b = [b] :=
    have digit : (hexValue? b).isSome = true := by rw [value]; rfl
    octetsOf_of_plain (lt_of_hexValue? digit) (keeps.digits b digit)
  induction bytes using decode.induct with
  | case1 a b rest high low first second ih =>
    simp [sign, digit first, digit second, decode, first, second, ih]
  | case2 a b rest plain ih =>
    have plain : leadsDigits (a :: b :: rest) = false := by
      cases first : hexValue? a with
      | none => simp [leadsDigits, first]
      | some high =>
        cases second : hexValue? b with
        | none => simp [leadsDigits, second]
        | some low => exact absurd second (plain high low first)
    rw [List.flatMap_cons, sign, List.singleton_append,
      decode_percent ((leadsDigits_octetsOf keeps _).trans plain), ih, decode_percent plain]
  | case3 b rest short ih =>
    by_cases same : b = 0x25
    · have plain : leadsDigits rest = false := by
        match rest with
        | [] => rfl
        | [a] => rfl
        | a :: c :: more => exact (short a c more same rfl).elim
      rw [same, List.flatMap_cons, sign, List.singleton_append,
        decode_percent ((leadsDigits_octetsOf keeps _).trans plain), ih, decode_percent plain]
    · rw [List.flatMap_cons, decode_cons same]
      rcases octetsOf_cases keeps b with own | ⟨-, -, own⟩
      · rw [own, List.singleton_append, decode_cons same, ih]
      · rw [own, decode_encodeOctet, ih]
  | case4 => rfl

/-- A text means the same when characters are encoded in it that mean themselves. -/
theorem decodeText_encode (keeps : KeepsEncoded inSet) (s : String) :
    decodeText (encode inSet s) = decodeText s := by
  rw [decodeText, encode_encode, decode_octetsOf keeps, decodeText]

end Percent

end ApiContract.Text
