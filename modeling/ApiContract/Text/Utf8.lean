/-!
# Octets and characters

Texts travel as octets. `encode` writes a text in UTF-8; `decode?` reads a sequence that is
UTF-8 throughout; `decodeLossy` reads any sequence and puts `U+FFFD` for each ill-formed part,
where a part is the longest run of octets that could have begun a character.
-/

namespace ApiContract

/-- A sequence of octets: a message body, the value of a header, the contents of a file. -/
abbrev Octets := List UInt8

namespace Text.Utf8

/-- The octets of one character. -/
def encodeChar (c : Char) : Octets :=
  let n := c.toNat
  if n < 0x80 then [UInt8.ofNat n]
  else if n < 0x800 then [UInt8.ofNat (0xC0 + n / 64), UInt8.ofNat (0x80 + n % 64)]
  else if n < 0x10000 then
    [UInt8.ofNat (0xE0 + n / 4096), UInt8.ofNat (0x80 + n / 64 % 64), UInt8.ofNat (0x80 + n % 64)]
  else
    [UInt8.ofNat (0xF0 + n / 262144), UInt8.ofNat (0x80 + n / 4096 % 64),
      UInt8.ofNat (0x80 + n / 64 % 64), UInt8.ofNat (0x80 + n % 64)]

/-- The octets of a text. -/
def encode (s : String) : Octets := s.toList.flatMap encodeChar

/-- Whether `b` continues a character whose first octet came before. -/
def isTail (b : UInt8) : Bool := 0x80 ≤ b && b ≤ 0xBF

/-- Whether `b` may follow the first octet `a` of a character of three octets. -/
def isSecondOfThree (a b : UInt8) : Bool :=
  isTail b && (a != 0xE0 || 0xA0 ≤ b) && (a != 0xED || b ≤ 0x9F)

/-- Whether `b` may follow the first octet `a` of a character of four octets. -/
def isSecondOfFour (a b : UInt8) : Bool :=
  isTail b && (a != 0xF0 || 0x90 ≤ b) && (a != 0xF4 || b ≤ 0x8F)

/-- The character whose code point has the given groups of bits, most significant first. -/
def ofGroups (first : Nat) (tails : List UInt8) : Char :=
  Char.ofNat (tails.foldl (fun n b => n * 64 + b.toNat % 64) first)

/-- The character at the front of `a :: rest` and what follows it. Where no character stands there
the answer is none, with what follows the ill-formed part. -/
def takeChar (a : UInt8) (rest : Octets) : Option Char × Octets :=
  if a < 0x80 then (some (Char.ofNat a.toNat), rest)
  else if 0xC2 ≤ a && a ≤ 0xDF then
    match rest with
    | b :: r => if isTail b then (some (ofGroups (a.toNat % 32) [b]), r) else (none, rest)
    | [] => (none, rest)
  else if 0xE0 ≤ a && a ≤ 0xEF then
    match rest with
    | b :: r =>
      if isSecondOfThree a b then
        match r with
        | c :: r' => if isTail c then (some (ofGroups (a.toNat % 16) [b, c]), r') else (none, r)
        | [] => (none, r)
      else (none, rest)
    | [] => (none, rest)
  else if 0xF0 ≤ a && a ≤ 0xF4 then
    match rest with
    | b :: r =>
      if isSecondOfFour a b then
        match r with
        | c :: r' =>
          if isTail c then
            match r' with
            | d :: r'' =>
              if isTail d then (some (ofGroups (a.toNat % 8) [b, c, d]), r'') else (none, r')
            | [] => (none, r')
          else (none, r)
        | [] => (none, r)
      else (none, rest)
    | [] => (none, rest)
  else (none, rest)

/-- What follows the first character is no longer than what followed its first octet. -/
theorem length_takeChar_le (a : UInt8) (rest : Octets) :
    (takeChar a rest).2.length ≤ rest.length := by
  unfold takeChar
  repeat' split
  all_goals simp_all <;> omega

/-- The characters of a sequence of octets, none for each ill-formed part. -/
def parts : Octets → List (Option Char)
  | [] => []
  | a :: rest => (takeChar a rest).1 :: parts (takeChar a rest).2
termination_by bs => bs.length
decreasing_by
  have := length_takeChar_le a rest
  simp only [List.length_cons]
  omega

/-- The text a sequence of octets writes, if it is UTF-8. -/
def decode? (bytes : Octets) : Option String :=
  ((parts bytes).mapM id).map String.ofList

/-- The text of a sequence of octets, with `U+FFFD` for each ill-formed part. -/
def decodeLossy (bytes : Octets) : String :=
  String.ofList ((parts bytes).map fun c => c.getD '\uFFFD')

end Text.Utf8

end ApiContract
