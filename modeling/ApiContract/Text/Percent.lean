import ApiContract.Text.Utf8
/-!
# Percent-encoding

Octets that a place in a URL does not admit are written as a percent sign and two hexadecimal
digits. Which octets those are depends on the place: a set is a predicate on ASCII octets, and
octets outside ASCII are always encoded.
-/

namespace ApiContract.Text.Percent

/-- A hexadecimal digit, in upper case. -/
def upperHex (n : Nat) : Char :=
  if n < 10 then Char.ofNat ('0'.toNat + n) else Char.ofNat ('A'.toNat + (n - 10))

/-- The three characters that encode an octet. -/
def encodeOctet (b : UInt8) : List Char :=
  ['%', upperHex (b.toNat / 16), upperHex (b.toNat % 16)]

/-- The control characters of ASCII. -/
def isControl (n : Nat) : Bool := n < 0x20 || n = 0x7F

/-- The characters of a sequence of octets, with those of a set encoded. -/
def encodeOctets (inSet : Nat → Bool) (bytes : Octets) : List Char :=
  bytes.flatMap fun b =>
    if 0x80 ≤ b.toNat || inSet b.toNat then encodeOctet b else [Char.ofNat b.toNat]

/-- A text with the octets of a set encoded. -/
def encode (inSet : Nat → Bool) (s : String) : String :=
  String.ofList (encodeOctets inSet (Utf8.encode s))

/-- The value of an octet that is a hexadecimal digit. -/
def hexValue? (b : UInt8) : Option Nat :=
  let n := b.toNat
  if 0x30 ≤ n && n ≤ 0x39 then some (n - 0x30)
  else if 0x41 ≤ n && n ≤ 0x46 then some (n - 0x41 + 10)
  else if 0x61 ≤ n && n ≤ 0x66 then some (n - 0x61 + 10)
  else none

/-- The octets that a percent-encoded sequence of octets stands for. A percent sign without two
digits stands for itself. -/
def decode : Octets → Octets
  | 0x25 :: a :: b :: rest =>
    match hexValue? a, hexValue? b with
    | some high, some low => UInt8.ofNat (high * 16 + low) :: decode rest
    | _, _ => 0x25 :: decode (a :: b :: rest)
  | x :: rest => x :: decode rest
  | [] => []

/-- The text that a percent-encoded text stands for, with `U+FFFD` where it is not UTF-8. -/
def decodeText (s : String) : String := Utf8.decodeLossy (decode (Utf8.encode s))

end ApiContract.Text.Percent
