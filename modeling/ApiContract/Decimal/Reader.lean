import ApiContract.Decimal.Binary64
/-!
# Reading numbers

Reading a whole text as an integer or as a number. A sign may stand in front; a number has digits
before or after its point, and may have an exponent. Anything else is not a number.
-/

namespace ApiContract.Decimal

/-- The value of a digit in a base of at most sixteen. -/
def digitValue? (base : Nat) (c : Char) : Option Nat :=
  let v? : Option Nat :=
    if '0' ≤ c && c ≤ '9' then some (c.toNat - '0'.toNat)
    else if 'a' ≤ c && c ≤ 'f' then some (c.toNat - 'a'.toNat + 10)
    else if 'A' ≤ c && c ≤ 'F' then some (c.toNat - 'A'.toNat + 10)
    else none
  v?.bind fun v => if v < base then some v else none

/-- The value of a non-empty sequence of digits. -/
def readDigits? (base : Nat) (cs : List Char) : Option Nat :=
  if cs.isEmpty then none
  else cs.foldlM (fun n c => (digitValue? base c).map fun d => n * base + d) 0

/-- A sign, if there is one, and the rest. -/
def splitSign : List Char → Bool × List Char
  | '-' :: rest => (true, rest)
  | '+' :: rest => (false, rest)
  | cs => (false, cs)

/-- The integer a text writes in a base: a sign, if any, and digits. -/
def readInteger? (base : Nat) (cs : List Char) : Option Int :=
  let (negative, digits) := splitSign cs
  (readDigits? base digits).map fun n => if negative then -(n : Int) else n

/-- The bounds of signed integers of 64 bits. -/
def isSigned64 (n : Int) : Bool := -(Int.pow 2 63) ≤ n && n < Int.pow 2 63

/-- The bounds of unsigned integers of 64 bits. -/
def isUnsigned64 (n : Int) : Bool := 0 ≤ n && n < Int.pow 2 64

/-- The number nearest to `±digits · 10^exponent`. Exponents that no digit can bring back into the
range of the format are decided without a power of ten. -/
def nearest? (negative : Bool) (digits : Nat) (exponent : Int) : Option Binary64 :=
  if digits = 0 then some (Binary64.zero negative)
  else
    let magnitude : Int := (digits.log2 : Int) * 30103 / 100000 + exponent
    if 400 < magnitude then none
    else if magnitude < -400 then some (Binary64.zero negative)
    else Binary64.ofDecimal negative digits exponent

/-- The finite number a text writes, if it writes one. -/
def readReal? (cs : List Char) : Option Binary64 :=
  let (negative, unsigned) := splitSign cs
  let whole := unsigned.takeWhile Char.isDigit
  let afterWhole := unsigned.dropWhile Char.isDigit
  let (fraction, afterFraction) :=
    match afterWhole with
    | '.' :: rest => (rest.takeWhile Char.isDigit, rest.dropWhile Char.isDigit)
    | rest => ([], rest)
  match readDigits? 10 (whole ++ fraction) with
  | none => none
  | some digits =>
    let exponent? : Option Int :=
      match afterFraction with
      | [] => some 0
      | e :: rest => if e = 'e' || e = 'E' then readInteger? 10 rest else none
    exponent?.bind fun exponent => nearest? negative digits (exponent - fraction.length)

end ApiContract.Decimal
