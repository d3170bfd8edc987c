import ApiContract.Decimal.Shortest
/-!
# Written numbers

How the digits of a number are laid out. A `Layout` says which numbers are written with the digits
in their places and which with an exponent, and whether a whole number keeps a fraction.
-/

namespace ApiContract.Decimal

/-- The digits of a natural number, most significant first. -/
def digitChars (n : Nat) : List Char := Nat.toDigits 10 n

/-- The decimal text of an integer. -/
def integerText (n : Int) : String :=
  if n < 0 then String.ofList ('-' :: digitChars n.natAbs) else String.ofList (digitChars n.natAbs)

/-- The decisions of a number format. -/
structure Layout where
  /-- Whether a number whose first digit stands for `10^k` has its digits in their places. -/
  inPlace : Int → Bool
  /-- Whether a whole number is written with the fraction `.0`. -/
  keepsFraction : Bool

namespace Layout

/-- Numbers inside JSON: in place from `10^-5` below `10^16`, always with a fraction. -/
def json : Layout := ⟨fun k => -5 ≤ k && k < 16, true⟩

/-- Bounds inside messages: never an exponent, and a fraction only where there is one. -/
def plain : Layout := ⟨fun _ => true, false⟩

/-- Digits in their places; the point stands after the first `point` of them. -/
def writeInPlace (layout : Layout) (digits : List Char) (point : Int) : List Char :=
  if point ≤ 0 then '0' :: '.' :: (List.replicate (-point).toNat '0' ++ digits)
  else
    let whole := digits.take point.toNat
    let fraction := digits.drop point.toNat
    let padded := whole ++ List.replicate (point.toNat - whole.length) '0'
    if fraction.isEmpty then (if layout.keepsFraction then padded ++ ['.', '0'] else padded)
    else padded ++ '.' :: fraction

/-- One digit before the point, and the exponent with its sign. -/
def writeExponent (digits : List Char) (exponent : Int) : List Char :=
  let mantissa :=
    match digits with
    | [] => ['0']
    | [d] => [d]
    | d :: rest => d :: '.' :: rest
  let sign := if exponent < 0 then '-' else '+'
  mantissa ++ 'e' :: sign :: digitChars exponent.natAbs

/-- The text of a number in this format. -/
def write (layout : Layout) (x : Binary64) : String :=
  let magnitude :=
    if x.significand = 0 then (if layout.keepsFraction then ['0', '.', '0'] else ['0'])
    else
      let decimal := x.shortest
      let digits := digitChars decimal.digits
      let point : Int := decimal.exponent + digits.length
      if layout.inPlace (point - 1) then layout.writeInPlace digits point
      else writeExponent digits (point - 1)
  String.ofList (if x.negative then '-' :: magnitude else magnitude)

end Layout

end ApiContract.Decimal
