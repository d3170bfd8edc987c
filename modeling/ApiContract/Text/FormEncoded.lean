import ApiContract.Text.Percent
/-!
# Form-encoded pairs

The format `application/x-www-form-urlencoded`: pairs of a name and a value, a name and its value
around an equals sign, pairs around ampersands, spaces as plus signs and all but letters, digits
and four marks percent-encoded.
-/

namespace ApiContract.Text.FormEncoded

/-- Whether an octet stands for itself: letters, digits and `*`, `-`, `.`, `_`. -/
def isPlain (n : Nat) : Bool :=
  (0x30 ≤ n && n ≤ 0x39) || (0x41 ≤ n && n ≤ 0x5A) || (0x61 ≤ n && n ≤ 0x7A)
    || n = 0x2A || n = 0x2D || n = 0x2E || n = 0x5F

/-- An octet of a name or value. -/
def encodeOctet (b : UInt8) : List Char :=
  if b.toNat = 0x20 then ['+']
  else if isPlain b.toNat then [Char.ofNat b.toNat]
  else Percent.encodeOctet b

/-- A name or a value. -/
def encodePart (s : String) : List Char := (Utf8.encode s).flatMap encodeOctet

/-- A pair. -/
def encodePair (pair : String × String) : List Char :=
  encodePart pair.1 ++ '=' :: encodePart pair.2

/-- A list of pairs. -/
def encodePairs : List (String × String) → List Char
  | [] => []
  | [pair] => encodePair pair
  | pair :: rest => encodePair pair ++ '&' :: encodePairs rest

/-- The text of a list of pairs. -/
def encode (pairs : List (String × String)) : String := String.ofList (encodePairs pairs)

/-- The octets cut at each occurrence of one. -/
def splitOctets (separator : UInt8) : Octets → List Octets
  | [] => [[]]
  | b :: rest =>
    if b = separator then [] :: splitOctets separator rest
    else
      match splitOctets separator rest with
      | first :: others => (b :: first) :: others
      | [] => [[b]]

/-- The text of a name or a value, as octets. -/
def decodePart (bytes : Octets) : String :=
  Utf8.decodeLossy (Percent.decode (bytes.map fun b => if b = 0x2B then 0x20 else b))

/-- The pair that a piece between ampersands writes. -/
def decodePair (bytes : Octets) : String × String :=
  (decodePart (bytes.takeWhile (· != 0x3D)), decodePart ((bytes.dropWhile (· != 0x3D)).drop 1))

/-- The pairs that a text writes; pieces with nothing in them are skipped. -/
def decode (s : String) : List (String × String) :=
  ((splitOctets 0x26 (Utf8.encode s)).filter fun piece => !piece.isEmpty).map decodePair

end ApiContract.Text.FormEncoded
