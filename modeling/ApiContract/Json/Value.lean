import ApiContract.Entries
import ApiContract.Decimal.Binary64
/-!
# JSON values

The values of payloads and of descriptions. A number is either an integer of 64 bits, signed or
unsigned, or a binary floating-point number; the two are never the same value, so `1` differs from
`1.0`. Objects keep the order of their members, which equality disregards.
-/

namespace ApiContract.Json

open Decimal (Binary64)

/-- A number: an integer between `-2^63` and `2^64 - 1`, or a finite floating-point number. -/
inductive Number where
  | integer (value : Int)
  | real (value : Binary64)
deriving DecidableEq, Repr, Inhabited

namespace Number

/-- Whether two numbers are the same value: integers and floating-point numbers are told apart,
the two floating-point zeros are not. -/
def same : Number → Number → Bool
  | integer m, integer n => m == n
  | real x, real y => x.same y
  | _, _ => false

/-- The nearest floating-point number. -/
def toBinary64 : Number → Binary64
  | integer n => Binary64.ofInt n
  | real x => x

/-- The integer a number is, if it has no fractional part; so `1.0` counts. -/
def toInt? : Number → Option Int
  | integer n => some n
  | real x => x.toInt?

end Number

/-- A JSON value. -/
inductive Value where
  | null
  | bool (b : Bool)
  | number (n : Number)
  | string (s : String)
  | array (items : List Value)
  | object (members : List (String × Value))
deriving Repr, Inhabited

namespace Value

/-- The integer `n` as a value. -/
def ofInt (n : Int) : Value := number (.integer n)

/-- The name of a value's type, as messages give it. -/
def typeName : Value → String
  | null => "null"
  | bool _ => "boolean"
  | number _ => "number"
  | string _ => "string"
  | array _ => "array"
  | object _ => "object"

/-- The members of an object. -/
def members? : Value → Option (Entries Value)
  | object members => some members
  | _ => none

/-- The items of an array. -/
def items? : Value → Option (List Value)
  | array items => some items
  | _ => none

/-- The text of a string. -/
def text? : Value → Option String
  | string s => some s
  | _ => none

/-- The truth value of a boolean. -/
def bool? : Value → Option Bool
  | bool b => some b
  | _ => none

/-- The nearest floating-point number of a number. -/
def real? : Value → Option Binary64
  | number n => some n.toBinary64
  | _ => none

/-- The value of an integer that is not negative. -/
def natural? : Value → Option Nat
  | number (.integer n) => if 0 ≤ n then some n.toNat else none
  | _ => none

/-- The member of this name, when the value is an object that has it. -/
def member? (name : String) (value : Value) : Option Value :=
  value.members?.bind (Entries.get? name)

mutual

/-- Whether two values are the same: numbers as `Number.same` says, arrays item by item, objects
by their members in any order. -/
def same : Value → Value → Bool
  | null, null => true
  | bool a, bool b => a == b
  | number m, number n => m.same n
  | string s, string t => s == t
  | array xs, array ys => sameItems xs ys
  | object xs, object ys => xs.length == ys.length && sameMembers xs ys
  | _, _ => false

/-- Whether two lists hold the same values in the same order. -/
def sameItems : List Value → List Value → Bool
  | [], [] => true
  | x :: xs, y :: ys => same x y && sameItems xs ys
  | _, _ => false

/-- Whether every member of the first list has its like among the members of the second. -/
def sameMembers : List (String × Value) → List (String × Value) → Bool
  | [], _ => true
  | (key, x) :: xs, ys =>
    (match Entries.get? key ys with
      | some y => same x y
      | none => false) && sameMembers xs ys

end

mutual

/-- The number of nodes of a value, itself included. -/
def nodes : Value → Nat
  | array items => nodesOfItems items + 1
  | object members => nodesOfMembers members + 1
  | _ => 1

/-- The number of nodes of all values of a list. -/
def nodesOfItems : List Value → Nat
  | [] => 0
  | x :: xs => nodes x + nodesOfItems xs

/-- The number of nodes of all values of a list of members. -/
def nodesOfMembers : List (String × Value) → Nat
  | [] => 0
  | (_, x) :: xs => nodes x + nodesOfMembers xs

end

end Value

end ApiContract.Json
