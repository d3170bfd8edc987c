import ApiContract.Text.Percent
/-!
# Encoded texts

Which characters a percent-encoded text is made of: percent signs, digits, and those characters of
the text itself that need no encoding. Where percent signs are encoded too, the text can be told from
its encoded form (`Percent.encode_inj`).
-/

namespace ApiContract.Text

namespace Utf8

theorem toNat_lt (c : Char) : c.toNat < 0x110000 := by
  have valid := c.valid
  simp only [UInt32.isValidChar, Nat.isValidChar] at valid
  show c.val.toNat < _
  omega

/-- An octet that is an ASCII character belongs to that character alone. -/
theorem toNat_eq_of_mem_encodeChar {c : Char} {b : UInt8} (h : b ∈ encodeChar c)
    (ascii : b.toNat < 0x80) : b.toNat = c.toNat := by
  have most := toNat_lt c
  have high {m : Nat} (least : 0x80 ≤ m) (octet : m < 0x100) : ¬ (UInt8.ofNat m).toNat < 0x80 := by
    rw [UInt8.toNat_ofNat']
    omega
  -- Each octet of a longer sequence has its highest bit set.
  unfold encodeChar at h
  simp only [] at h
  split at h
  · rw [List.mem_singleton.mp h, UInt8.toNat_ofNat']
    omega
  split at h
  · simp only [List.mem_cons, List.not_mem_nil, or_false] at h
    rcases h with rfl | rfl <;> exact absurd ascii (high (by omega) (by omega))
  split at h
  · simp only [List.mem_cons, List.not_mem_nil, or_false] at h
    rcases h with rfl | rfl | rfl <;> exact absurd ascii (high (by omega) (by omega))
  · simp only [List.mem_cons, List.not_mem_nil, or_false] at h
    rcases h with rfl | rfl | rfl | rfl <;> exact absurd ascii (high (by omega) (by omega))

theorem encodeChar_ne_nil (c : Char) : encodeChar c ≠ [] := by
  unfold encodeChar
  simp only []
  split
  · simp
  split
  · simp
  split <;> simp

/-- The octets of a character are those that the standard library has for it. -/
theorem encodeChar_eq (c : Char) : encodeChar c = String.utf8EncodeChar c := by
  have most := toNat_lt c
  have value : c.val.toNat = c.toNat := rfl
  have one : c.toNat ≤ 127 ↔ c.toNat < 0x80 := by omega
  have two : c.toNat ≤ 2047 ↔ c.toNat < 0x800 := by omega
  have three : c.toNat ≤ 65535 ↔ c.toNat < 0x10000 := by omega
  simp only [encodeChar, String.utf8EncodeChar, value, one, two, three, Nat.add_comm]
  -- The first octet has room for all bits that are left.
  split
  · rfl
  split
  · rw [Nat.mod_eq_of_lt (show c.toNat / 64 < 32 by omega)]
  split
  · rw [Nat.mod_eq_of_lt (show c.toNat / 4096 < 16 by omega)]
  · rw [Nat.mod_eq_of_lt (show c.toNat / 262144 < 8 by omega)]

/-- Different texts have different octets. -/
theorem encode_inj {s t : String} (h : encode s = encode t) : s = t := by
  have bytes (s : String) : (encode s).toByteArray = s.toByteArray := by
    rw [← String.utf8Encode_toList, List.utf8Encode, encode, funext encodeChar_eq]
  rw [← String.toByteArray_inj, ← bytes, ← bytes, h]

end Utf8

namespace Percent

theorem mem_encode {inSet : Nat → Bool} {s : String} {c : Char}
    (h : c ∈ (encode inSet s).toList) :
    c = '%' ∨ (∃ n < 16, c = upperHex n) ∨ c ∈ s.toList ∧ inSet c.toNat = false := by
  rw [encode, String.toList_ofList, encodeOctets, List.mem_flatMap] at h
  obtain ⟨b, octet, own⟩ := h
  split at own
  · simp only [encodeOctet, List.mem_cons, List.not_mem_nil, or_false] at own
    have := b.toNat_lt
    rcases own with rfl | rfl | rfl
    · exact .inl rfl
    · exact .inr (.inl ⟨_, by omega, rfl⟩)
    · exact .inr (.inl ⟨_, by omega, rfl⟩)
  · next plain =>
    obtain ⟨d, member, there⟩ := List.mem_flatMap.mp octet
    simp only [Bool.or_eq_true, decide_eq_true_eq, not_or, Bool.not_eq_true] at plain
    have same := Utf8.toNat_eq_of_mem_encodeChar there (by omega)
    rw [List.mem_singleton.mp own, same, Char.ofNat_toNat]
    exact .inr (.inr ⟨member, by rw [← same]; exact plain.2⟩)

theorem ascii_of_mem_encodeOctet {b : UInt8} {c : Char} (h : c ∈ encodeOctet b) : c.toNat < 0x80 := by
  have digits : ∀ n < 16, (upperHex n).toNat < 0x80 := by decide
  have := b.toNat_lt
  simp only [encodeOctet, List.mem_cons, List.not_mem_nil, or_false] at h
  rcases h with rfl | rfl | rfl
  · decide
  · exact digits _ (by omega)
  · exact digits _ (by omega)

/-- An encoded text consists of ASCII characters. -/
theorem ascii_of_mem_encode {inSet : Nat → Bool} {s : String} {c : Char}
    (h : c ∈ (encode inSet s).toList) : c.toNat < 0x80 := by
  rw [encode, String.toList_ofList, encodeOctets, List.mem_flatMap] at h
  obtain ⟨b, octet, own⟩ := h
  split at own
  · exact ascii_of_mem_encodeOctet own
  · next plain =>
    obtain ⟨d, -, there⟩ := List.mem_flatMap.mp octet
    simp only [Bool.or_eq_true, decide_eq_true_eq, not_or, Nat.not_le] at plain
    have same := Utf8.toNat_eq_of_mem_encodeChar there plain.1
    rw [List.mem_singleton.mp own, same, Char.ofNat_toNat]
    omega

/-- A text and its encoded form begin alike, unless the first character is encoded. -/
theorem head?_encode {inSet : Nat → Bool} {s : String} {c : Char}
    (h : (encode inSet s).toList.head? = some c) : c = '%' ∨ s.toList.head? = some c := by
  rw [encode, String.toList_ofList, encodeOctets, Utf8.encode] at h
  cases chars : s.toList with
  | nil => simp [chars] at h
  | cons d rest =>
    obtain ⟨b, others, octets⟩ := List.exists_cons_of_ne_nil (Utf8.encodeChar_ne_nil d)
    rw [chars, List.flatMap_cons, octets, List.cons_append, List.flatMap_cons] at h
    split at h
    · exact .inl (Option.some.inj h).symm
    · next plain =>
      simp only [Bool.or_eq_true, decide_eq_true_eq, not_or] at plain
      have same : b.toNat = d.toNat :=
        Utf8.toNat_eq_of_mem_encodeChar (octets ▸ List.mem_cons_self) (by omega)
      rw [same, Char.ofNat_toNat] at h
      exact .inr h

/-- Whether a character can come up in a text only because it is written there. -/
def isForeign (c : Char) : Bool := c != '%' && (List.range 16).all fun n => c != upperHex n

theorem not_mem_encode {inSet : Nat → Bool} {s : String} {c : Char} (foreign : isForeign c = true)
    (h : c ∉ s.toList ∨ inSet c.toNat = true) : c ∉ (encode inSet s).toList := by
  simp only [isForeign, Bool.and_eq_true, bne_iff_ne, List.all_eq_true, List.mem_range] at foreign
  intro member
  rcases mem_encode member with percent | ⟨n, small, digit⟩ | ⟨own, admitted⟩
  · exact foreign.1 percent
  · exact foreign.2 n small digit
  · rcases h with other | encoded
    · exact other own
    · rw [encoded] at admitted
      cases admitted

/-! ### Telling encoded texts apart -/

theorem upperHex_inj : ∀ m < 16, ∀ n < 16, upperHex m = upperHex n → m = n := by decide

theorem toNat_ofNat : ∀ n < 0x80, (Char.ofNat n).toNat = n := by decide

/-- The characters that stand for an octet. -/
def octetChars (inSet : Nat → Bool) (b : UInt8) : List Char :=
  if 0x80 ≤ b.toNat || inSet b.toNat then encodeOctet b else [Char.ofNat b.toNat]

variable {inSet : Nat → Bool}

/-- An octet that is not encoded is an ASCII character, and no percent sign where these are. -/
theorem octetChars_cases (percent : inSet 0x25 = true) (b : UInt8) :
    octetChars inSet b = encodeOctet b ∨
      octetChars inSet b = [Char.ofNat b.toNat] ∧ b.toNat < 0x80 ∧ Char.ofNat b.toNat ≠ '%' := by
  unfold octetChars
  split
  · exact .inl rfl
  · next plain =>
    simp only [Bool.or_eq_true, decide_eq_true_eq, not_or, Nat.not_le] at plain
    refine .inr ⟨rfl, plain.1, fun same => plain.2 ?_⟩
    have code := congrArg Char.toNat same
    rw [toNat_ofNat _ plain.1] at code
    rw [code]
    exact percent

/-- An octet can be told from the characters that stand for it, whatever follows. -/
theorem octetChars_append_inj (percent : inSet 0x25 = true) {a b : UInt8} {x y : List Char}
    (h : octetChars inSet a ++ x = octetChars inSet b ++ y) : a = b ∧ x = y := by
  have ha := a.toNat_lt
  have hb := b.toNat_lt
  rcases octetChars_cases percent a with own | ⟨own, small, other⟩ <;>
    rcases octetChars_cases percent b with own' | ⟨own', small', other'⟩ <;>
    rw [own, own'] at h
  · simp only [encodeOctet, List.cons_append, List.nil_append, List.cons.injEq, true_and] at h
    obtain ⟨high, low, rest⟩ := h
    have high := upperHex_inj _ (by omega) _ (by omega) high
    have low := upperHex_inj _ (by omega) _ (by omega) low
    exact ⟨UInt8.toNat_inj.mp (by omega), rest⟩
  · exact absurd (List.cons.inj h).1.symm other'
  · exact absurd (List.cons.inj h).1 other
  · obtain ⟨same, rest⟩ := List.cons.inj h
    have code := congrArg Char.toNat same
    rw [toNat_ofNat _ small, toNat_ofNat _ small'] at code
    exact ⟨UInt8.toNat_inj.mp code, rest⟩

theorem encodeOctets_inj (percent : inSet 0x25 = true) {xs ys : Octets}
    (h : encodeOctets inSet xs = encodeOctets inSet ys) : xs = ys := by
  have nonempty (b : UInt8) (cs : List Char) : octetChars inSet b ++ cs ≠ [] := by
    rcases octetChars_cases percent b with own | ⟨own, -⟩ <;> simp [own, encodeOctet]
  induction xs generalizing ys with
  | nil =>
    cases ys with
    | nil => rfl
    | cons b ys => exact absurd h.symm (nonempty b _)
  | cons a xs ih =>
    cases ys with
    | nil => exact absurd h (nonempty a _)
    | cons b ys =>
      obtain ⟨rfl, rest⟩ := octetChars_append_inj percent h
      rw [ih rest]

/-- Different texts are encoded differently, as long as percent signs are encoded. -/
theorem encode_inj (percent : inSet 0x25 = true) {s t : String} (h : encode inSet s = encode inSet t) :
    s = t :=
  Utf8.encode_inj (encodeOctets_inj percent (String.ofList_injective h))

/-! ### Percent signs -/

/-- Each percent sign stands before two hexadecimal digits. -/
def Escapes (cs : List Char) : Prop :=
  ∀ before after, cs = before ++ '%' :: after → ∃ a b rest, after = a :: b :: rest ∧
    a ∈ "0123456789ABCDEF".toList ∧ b ∈ "0123456789ABCDEF".toList

namespace Escapes

theorem of_not_mem {cs : List Char} (free : '%' ∉ cs) : Escapes cs := by
  rintro before after rfl
  exact absurd (by simp) free

theorem append {x y : List Char} (hx : Escapes x) (hy : Escapes y) : Escapes (x ++ y) := by
  intro before after same
  rcases List.append_eq_append_iff.mp same with ⟨between, rfl, later⟩ | ⟨between, rfl, own⟩
  · exact hy between after later
  · cases between with
    | nil => exact hy [] after own.symm
    | cons c between =>
      obtain ⟨rfl, rfl⟩ := List.cons.inj own
      obtain ⟨a, b, rest, rfl, digits⟩ := hx before between rfl
      exact ⟨a, b, rest ++ y, rfl, digits⟩

theorem flatMap {α : Type} {f : α → List Char} {l : List α} (h : ∀ a ∈ l, Escapes (f a)) :
    Escapes (l.flatMap f) := by
  induction l with
  | nil => exact of_not_mem (by simp)
  | cons a l ih =>
    obtain ⟨own, h⟩ := List.forall_mem_cons.mp h
    exact own.append (ih h)

end Escapes

theorem escapes_octetChars (percent : inSet 0x25 = true) (b : UInt8) :
    Escapes (octetChars inSet b) := by
  have digits : ∀ n < 16, upperHex n ∈ "0123456789ABCDEF".toList ∧ upperHex n ≠ '%' := by decide
  have small := b.toNat_lt
  rcases octetChars_cases percent b with encoded | ⟨plain, -, other⟩
  · obtain ⟨high, notHigh⟩ := digits (b.toNat / 16) (by omega)
    obtain ⟨low, notLow⟩ := digits (b.toNat % 16) (by omega)
    rw [encoded]
    intro before after same
    cases before with
    | nil =>
      obtain ⟨-, rfl⟩ := List.cons.inj same
      exact ⟨_, _, [], rfl, high, low⟩
    | cons c before =>
      have member : '%' ∈ [upperHex (b.toNat / 16), upperHex (b.toNat % 16)] := by
        rw [(List.cons.inj same).2]
        simp
      simp [Ne.symm notHigh, Ne.symm notLow] at member
  · rw [plain]
    exact .of_not_mem (by simpa using other.symm)

/-- In an encoded text percent signs stand for nothing but encoded octets. -/
theorem escapes_encode (percent : inSet 0x25 = true) (s : String) :
    Escapes (encode inSet s).toList := by
  rw [encode, String.toList_ofList]
  exact .flatMap fun b _ => escapes_octetChars percent b

end Percent

end ApiContract.Text
