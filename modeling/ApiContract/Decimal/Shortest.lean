import ApiContract.Decimal.Binary64
/-!
# Shortest decimal digits

`Binary64.shortest` gives the decimal with the fewest digits among those that round to a number,
and of these the nearest to it. The reals that round to a number form an interval about it; a
decimal grid has a point in the interval exactly when one of the number's two neighbours on the
grid lies in it, so only those are tried, on the grids of one to seventeen digits.
-/

namespace ApiContract.Decimal

/-- The decimal number `digits · 10^exponent`. -/
structure Scientific where
  digits : Nat
  exponent : Int
deriving DecidableEq, Repr, Inhabited

namespace Binary64

/-- The reals that round to a positive number, in units of a quarter of its last place: the number
itself, the ends of the interval, and whether the ends belong to it. -/
structure RoundingInterval where
  low : Nat
  centre : Nat
  high : Nat
  closed : Bool

/-- The interval of `x`. Below a power of two the numbers lie twice as dense. -/
def roundingInterval (x : Binary64) : RoundingInterval where
  low :=
    if x.significand = Nat.pow 2 52 && leastExponent < x.exponent then 4 * x.significand - 1
    else 4 * x.significand - 2
  centre := 4 * x.significand
  high := 4 * x.significand + 2
  closed := x.significand % 2 == 0

/-- Of the two neighbours of `x` on the grid of multiples of `10^t` the nearer one that rounds to
`x`, a tie to the lower. -/
def neighbour? (x : Binary64) (t : Int) : Option Nat :=
  let i := x.roundingInterval
  let s := x.exponent - 2
  let quarter := Nat.pow 2 s.toNat * Nat.pow 10 (-t).toNat
  let step := Nat.pow 10 t.toNat * Nat.pow 2 (-s).toNat
  let inside (c : Nat) : Bool :=
    if i.closed then i.low * quarter ≤ c * step && c * step ≤ i.high * quarter
    else i.low * quarter < c * step && c * step < i.high * quarter
  let below := i.centre * quarter / step
  let above := below + 1
  let gapBelow := i.centre * quarter - below * step
  let gapAbove := above * step - i.centre * quarter
  if inside below && (gapBelow ≤ gapAbove || !inside above) then some below
  else if inside above then some above
  else none

/-- The least `k` with `x < 10^k`, for a positive `x`. -/
def decimalPoint (x : Binary64) : Int :=
  let log : Int := (x.significand.log2 : Int) + x.exponent
  let guess := log * 30103 / 100000
  let below (k : Int) : Bool :=
    x.significand * Nat.pow 2 x.exponent.toNat * Nat.pow 10 (-k).toNat
      < Nat.pow 10 k.toNat * Nat.pow 2 (-x.exponent).toNat
  if below guess then guess else if below (guess + 1) then guess + 1 else guess + 2

/-- The decimal `c · 10^t` of a `c` of at most `n` digits, or of `10^n`, whose one digit is a one. -/
def carried (c : Nat) (t : Int) (n : Nat) : Scientific :=
  if c = Nat.pow 10 n then ⟨1, t + n⟩ else ⟨c, t⟩

/-- The shortest decimal that rounds to the magnitude of `x`. -/
def shortest (x : Binary64) : Scientific :=
  if x.significand = 0 then ⟨0, 0⟩
  else
    let k := x.decimalPoint
    let found := (List.range 17).findSome? fun n =>
      let t := k - (n + 1 : Nat)
      (x.neighbour? t).bind fun c => if c = 0 then none else some (carried c t (n + 1))
    found.getD ⟨0, 0⟩

end Binary64

end ApiContract.Decimal
