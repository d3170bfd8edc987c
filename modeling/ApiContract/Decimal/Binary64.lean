/-!
# Finite binary floating-point numbers

A `Binary64` is a finite number of the 64-bit binary format, as a sign, a significand and an
exponent of two. Rounding is done once, in `ofRatio`, on exact natural numbers: to the nearest
representable value, a tie to the even significand. Comparison and the tests for whole numbers are
exact.
-/

namespace ApiContract.Decimal

/-- The number `±significand · 2^exponent`. Numbers made here have a significand below `2^53`, and
one of at least `2^52` unless the exponent is the least one, `-1074`. -/
structure Binary64 where
  negative : Bool
  significand : Nat
  exponent : Int
deriving DecidableEq, Repr, Inhabited

namespace Binary64

/-- The least exponent of the format. -/
def leastExponent : Int := -1074

/-- The greatest exponent of the format. -/
def greatestExponent : Int := 971

/-- Zero of either sign. -/
def zero (negative : Bool) : Binary64 := ⟨negative, 0, leastExponent⟩

/-- The greatest `k` with `2^k ≤ num / den`, for positive `num` and `den`. -/
def floorLog2 (num den : Nat) : Int :=
  let k : Int := (num.log2 : Int) - (den.log2 : Int)
  let reached := if 0 ≤ k then den * Nat.pow 2 k.toNat ≤ num else den ≤ num * Nat.pow 2 (-k).toNat
  if reached then k else k - 1

/-- `num / den` rounded to the nearest natural number, a tie to the even one. -/
def roundQuotient (num den : Nat) : Nat :=
  let q := num / den
  let r := num % den
  if 2 * r < den then q
  else if den < 2 * r then q + 1
  else if q % 2 = 0 then q
  else q + 1

/-- The number nearest to `±num / den`, a tie to the even significand; none when it is too large
for the format. -/
def ofRatio (negative : Bool) (num den : Nat) : Option Binary64 :=
  if num = 0 then some (zero negative)
  else
    let e := max (floorLog2 num den - 52) leastExponent
    let q :=
      if 0 ≤ e then roundQuotient num (den * Nat.pow 2 e.toNat)
      else roundQuotient (num * Nat.pow 2 (-e).toNat) den
    let rounded : Binary64 :=
      if q = Nat.pow 2 53 then ⟨negative, Nat.pow 2 52, e + 1⟩
      else if q = 0 then zero negative
      else ⟨negative, q, e⟩
    if greatestExponent < rounded.exponent then none else some rounded

/-- The number nearest to an integer of at most 64 bits. -/
def ofInt (n : Int) : Binary64 := (ofRatio (decide (n < 0)) n.natAbs 1).getD (zero false)

/-- The number nearest to `±digits · 10^exponent`; none when it is too large. -/
def ofDecimal (negative : Bool) (digits : Nat) (exponent : Int) : Option Binary64 :=
  if 0 ≤ exponent then ofRatio negative (digits * Nat.pow 10 exponent.toNat) 1
  else ofRatio negative digits (Nat.pow 10 (-exponent).toNat)

/-- The magnitude as a multiple of `2^e`, exact for every `e` up to the exponent. -/
def magnitudeAt (x : Binary64) (e : Int) : Nat := x.significand * Nat.pow 2 (x.exponent - e).toNat

/-- The number as a multiple of `2^e`, exact for every `e` up to the exponent. -/
def scaledAt (x : Binary64) (e : Int) : Int :=
  if x.negative then -(x.magnitudeAt e : Int) else (x.magnitudeAt e : Int)

/-- Whether `x` is below `y`, as numbers: the two zeros are equal. -/
def lt (x y : Binary64) : Bool :=
  let e := min x.exponent y.exponent
  x.scaledAt e < y.scaledAt e

/-- Whether `x` is at most `y`, as numbers. -/
def le (x y : Binary64) : Bool := !lt y x

/-- Whether `x` and `y` are the same number: the two zeros are equal. -/
def same (x y : Binary64) : Bool :=
  x == y || (x.significand == 0 && y.significand == 0)

/-- The product rounded; none when it is too large. -/
def mul (x y : Binary64) : Option Binary64 :=
  let e := x.exponent + y.exponent
  let m := x.significand * y.significand
  let negative := x.negative != y.negative
  if 0 ≤ e then ofRatio negative (m * Nat.pow 2 e.toNat) 1
  else ofRatio negative m (Nat.pow 2 (-e).toNat)

/-- The quotient rounded, for a divisor other than zero; none when it is too large. -/
def div (x y : Binary64) : Option Binary64 :=
  let e := x.exponent - y.exponent
  let negative := x.negative != y.negative
  if 0 ≤ e then ofRatio negative (x.significand * Nat.pow 2 e.toNat) y.significand
  else ofRatio negative x.significand (y.significand * Nat.pow 2 (-e).toNat)

/-- The integer that the number is, if it has no fractional part. -/
def toInt? (x : Binary64) : Option Int :=
  let whole (magnitude : Nat) : Int := if x.negative then -(magnitude : Int) else magnitude
  if 0 ≤ x.exponent then some (whole (x.significand * Nat.pow 2 x.exponent.toNat))
  else
    let unit := Nat.pow 2 (-x.exponent).toNat
    if x.significand % unit = 0 then some (whole (x.significand / unit)) else none

/-- The distance to the nearest integer. -/
def distanceToInt (x : Binary64) : Binary64 :=
  if 0 ≤ x.exponent then zero false
  else
    let unit := Nat.pow 2 (-x.exponent).toNat
    let r := x.significand % unit
    ⟨false, min r (unit - r), x.exponent⟩

end Binary64

end ApiContract.Decimal
