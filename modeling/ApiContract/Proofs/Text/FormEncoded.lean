import ApiContract.Proofs.Text.Decoding
import ApiContract.Text.FormEncoded
/-!
# Pairs read back

Names and values are written so that none of the marks between them comes up in them, and no text is
lost or changed by it: pairs are read back from what is written (`FormEncoded.decode_encode`).
-/

namespace ApiContract.Text.FormEncoded

theorem lt_of_isPlain {n : Nat} (plain : isPlain n = true) : n < 0x80 := by
  simp only [isPlain, Bool.or_eq_true, Bool.and_eq_true, decide_eq_true_eq] at plain
  omega

/-- The octets of the characters that an octet is written with. -/
def octetsOf (b : UInt8) : Octets := Utf8.asciiOctets (encodeOctet b)

theorem octetsOf_cases (b : UInt8) : b = 0x20 ∧ octetsOf b = [0x2B] ∨
    isPlain b.toNat = true ∧ octetsOf b = [b] ∨
      octetsOf b = Utf8.asciiOctets (Percent.encodeOctet b) := by
  by_cases space : b.toNat = 0x20
  · have same : b = 0x20 := UInt8.toNat_inj.mp space
    subst same
    exact .inl ⟨rfl, rfl⟩
  by_cases plain : isPlain b.toNat = true
  · refine .inr (.inl ⟨plain, ?_⟩)
    rw [octetsOf, encodeOctet, if_neg space, if_pos plain]
    simp [Utf8.asciiOctets, Percent.toNat_ofNat _ (lt_of_isPlain plain)]
  · exact .inr (.inr (by rw [octetsOf, encodeOctet, if_neg space, if_neg plain]))

theorem plain_of_isPlain {b : UInt8} (plain : isPlain b.toNat = true) :
    b ≠ 0x25 ∧ b ≠ 0x26 ∧ b ≠ 0x2B ∧ b ≠ 0x3D := by
  refine ⟨?_, ?_, ?_, ?_⟩ <;>
    · rintro rfl
      revert plain
      decide

/-- The digits behind a percent sign are letters and digits. -/
theorem digit_plain : ∀ n < 16, isPlain (UInt8.ofNat (Percent.upperHex n).toNat).toNat = true := by
  decide

/-- The marks between the parts stand in none of them. -/
theorem mark_not_mem_octetsOf (b : UInt8) : 0x26 ∉ octetsOf b ∧ 0x3D ∉ octetsOf b := by
  have small := b.toNat_lt
  rcases octetsOf_cases b with ⟨-, own⟩ | ⟨plain, own⟩ | own
  · rw [own]
    decide
  · obtain ⟨-, amp, -, equals⟩ := plain_of_isPlain plain
    rw [own]
    exact ⟨by simpa using Ne.symm amp, by simpa using Ne.symm equals⟩
  · have high := plain_of_isPlain (digit_plain (b.toNat / 16) (by omega))
    have low := plain_of_isPlain (digit_plain (b.toNat % 16) (by omega))
    rw [own]
    simp only [Utf8.asciiOctets, Percent.encodeOctet, List.map_cons, List.map_nil, List.mem_cons,
      List.not_mem_nil, or_false, not_or]
    exact ⟨⟨by decide, high.2.1.symm, low.2.1.symm⟩, ⟨by decide, high.2.2.2.symm, low.2.2.2.symm⟩⟩

/-- The octet that is meant where plus signs mean spaces. -/
def unplus (b : UInt8) : UInt8 := if b = 0x2B then 0x20 else b

/-- An octet is read back from the characters that it is written with, whatever follows. -/
theorem decode_octetsOf (b : UInt8) (rest : Octets) :
    Percent.decode ((octetsOf b).map unplus ++ rest) = b :: Percent.decode rest := by
  have small := b.toNat_lt
  rcases octetsOf_cases b with ⟨rfl, own⟩ | ⟨plain, own⟩ | own
  · rw [own]
    exact Percent.decode_cons (by decide) rest
  · obtain ⟨percent, -, plus, -⟩ := plain_of_isPlain plain
    rw [own, List.map_singleton, unplus, if_neg plus]
    exact Percent.decode_cons percent rest
  · have high := plain_of_isPlain (digit_plain (b.toNat / 16) (by omega))
    have low := plain_of_isPlain (digit_plain (b.toNat % 16) (by omega))
    have same : (octetsOf b).map unplus = octetsOf b := by
      rw [own]
      simp only [Utf8.asciiOctets, Percent.encodeOctet, List.map_cons, List.map_nil, unplus,
        if_neg high.2.2.1, if_neg low.2.2.1]
      rfl
    rw [same, own, Percent.decode_encodeOctet]

/-- The octets of a name or value that is written. -/
def partOctets (s : String) : Octets := (Utf8.encode s).flatMap octetsOf

theorem decodePart_partOctets (s : String) : decodePart (partOctets s) = s := by
  have octets (bytes : Octets) :
      Percent.decode ((bytes.flatMap octetsOf).map unplus) = bytes := by
    induction bytes with
    | nil => rfl
    | cons b rest ih => rw [List.flatMap_cons, List.map_append, decode_octetsOf, ih]
  have read : decodePart (partOctets s) =
      Utf8.decodeLossy (Percent.decode ((partOctets s).map unplus)) := rfl
  rw [read, partOctets, octets, Utf8.decodeLossy_encode]

theorem mark_not_mem_partOctets (s : String) : 0x26 ∉ partOctets s ∧ 0x3D ∉ partOctets s := by
  simp only [partOctets, List.mem_flatMap, not_exists, not_and]
  exact ⟨fun b _ => (mark_not_mem_octetsOf b).1, fun b _ => (mark_not_mem_octetsOf b).2⟩

/-- The octets of a pair that is written. -/
def pairOctets (pair : String × String) : Octets := partOctets pair.1 ++ 0x3D :: partOctets pair.2

theorem decodePair_pairOctets (pair : String × String) : decodePair (pairOctets pair) = pair := by
  have name : ∀ b ∈ partOctets pair.1, (b != 0x3D) = true := by
    intro b member
    rw [bne_iff_ne]
    rintro rfl
    exact (mark_not_mem_partOctets pair.1).2 member
  rw [decodePair, pairOctets, List.takeWhile_append_of_pos name, List.dropWhile_append_of_pos name]
  simp [decodePart_partOctets]

theorem amp_not_mem_pairOctets (pair : String × String) : 0x26 ∉ pairOctets pair := by
  simp only [pairOctets, List.mem_append, List.mem_cons, not_or]
  exact ⟨(mark_not_mem_partOctets _).1, by decide, (mark_not_mem_partOctets _).1⟩

theorem splitOctets_of_not_mem {separator : UInt8} {bytes : Octets} (free : separator ∉ bytes) :
    splitOctets separator bytes = [bytes] := by
  induction bytes with
  | nil => rfl
  | cons b rest ih =>
    simp only [List.mem_cons, not_or] at free
    rw [splitOctets, if_neg (Ne.symm free.1), ih free.2]

theorem splitOctets_append {separator : UInt8} {front : Octets} (free : separator ∉ front)
    (rest : Octets) :
    splitOctets separator (front ++ separator :: rest) = front :: splitOctets separator rest := by
  induction front with
  | nil => simp [splitOctets]
  | cons b front ih =>
    simp only [List.mem_cons, not_or] at free
    rw [List.cons_append, splitOctets, if_neg (Ne.symm free.1), ih free.2]

theorem ascii_of_mem_encodeOctet {b : UInt8} {c : Char} (h : c ∈ encodeOctet b) :
    c.toNat < 0x80 := by
  unfold encodeOctet at h
  split at h
  · rw [List.mem_singleton.mp h]
    decide
  split at h
  · next plain =>
    rw [List.mem_singleton.mp h, Percent.toNat_ofNat _ (lt_of_isPlain plain)]
    exact lt_of_isPlain plain
  · exact Percent.ascii_of_mem_encodeOctet h

theorem ascii_of_mem_encodePair {pair : String × String} {c : Char} (h : c ∈ encodePair pair) :
    c.toNat < 0x80 := by
  simp only [encodePair, encodePart, List.mem_append, List.mem_cons, List.mem_flatMap] at h
  rcases h with ⟨b, -, own⟩ | rfl | ⟨b, -, own⟩
  · exact ascii_of_mem_encodeOctet own
  · decide
  · exact ascii_of_mem_encodeOctet own

theorem ascii_of_mem_encodePairs {pairs : List (String × String)} {c : Char}
    (h : c ∈ encodePairs pairs) : c.toNat < 0x80 := by
  induction pairs using encodePairs.induct with
  | case1 => cases h
  | case2 pair => exact ascii_of_mem_encodePair h
  | case3 pair rest more ih =>
    rw [encodePairs, List.mem_append, List.mem_cons] at h
    · rcases h with own | rfl | further
      · exact ascii_of_mem_encodePair own
      · decide
      · exact ih further
    · exact more

theorem asciiOctets_encodePair (pair : String × String) :
    Utf8.asciiOctets (encodePair pair) = pairOctets pair := by
  have part (s : String) : Utf8.asciiOctets (encodePart s) = partOctets s := List.map_flatMap
  have parts : Utf8.asciiOctets (encodePair pair) =
      Utf8.asciiOctets (encodePart pair.1) ++ 0x3D :: Utf8.asciiOctets (encodePart pair.2) :=
    List.map_append
  rw [parts, part, part, pairOctets]

/-- The pairs are found between the ampersands. -/
theorem splitOctets_encodePairs {pairs : List (String × String)} (nonempty : pairs ≠ []) :
    splitOctets 0x26 (Utf8.asciiOctets (encodePairs pairs)) = pairs.map pairOctets := by
  induction pairs using encodePairs.induct with
  | case1 => exact absurd rfl nonempty
  | case2 pair =>
    rw [encodePairs, asciiOctets_encodePair]
    exact splitOctets_of_not_mem (amp_not_mem_pairOctets pair)
  | case3 pair rest more ih =>
    have octets : Utf8.asciiOctets (encodePairs (pair :: rest)) =
        pairOctets pair ++ 0x26 :: Utf8.asciiOctets (encodePairs rest) := by
      rw [encodePairs, ← asciiOctets_encodePair]
      · exact List.map_append
      · exact more
    rw [octets, splitOctets_append (amp_not_mem_pairOctets pair), ih more, List.map_cons]

/-- Pairs are read back from their text, whatever their names and values are. -/
theorem decode_encode (pairs : List (String × String)) : decode (encode pairs) = pairs := by
  have octets : Utf8.encode (encode pairs) = Utf8.asciiOctets (encodePairs pairs) :=
    Utf8.encode_ascii fun c => ascii_of_mem_encodePairs
  rw [decode, octets]
  by_cases none : pairs = []
  · rw [none]
    rfl
  · -- No piece is empty, since each has an equals sign.
    have full : ∀ piece ∈ pairs.map pairOctets, (!piece.isEmpty) = true := by
      rw [List.forall_mem_map]
      intro pair _
      simp [pairOctets]
    have own : decodePair ∘ pairOctets = id := funext decodePair_pairOctets
    rw [splitOctets_encodePairs none, List.filter_eq_self.mpr full, List.map_map, own, List.map_id]

end ApiContract.Text.FormEncoded
