import ApiContract.Json.Value
import ApiContract.Decimal.Reader
import ApiContract.Text.Utf8
/-!
# Reading JSON text

`parse?` reads a whole text as one JSON value. Of two members of one name the later value counts,
at the place of the earlier. Arrays and objects may be nested up to 127 deep.

An integer literal that fits 64 bits is an integer. Any other literal is a floating-point number,
made in two roundings: its digits, as many of the leading ones as fit an unsigned integer of 64
bits, are rounded to a floating-point number, and that is multiplied or divided by the power of ten.
A literal too large for the format is an error.
-/

namespace ApiContract.Json

open Decimal (Binary64)

namespace Number

/-- The greatest power of ten that the format holds. -/
def greatestPower : Nat := 308

/-- The floating-point number nearest to a power of ten within the format. -/
def powerOfTen (k : Nat) : Binary64 := (Binary64.ofDecimal false 1 k).getD (Binary64.zero false)

/-- Divide by `10^exponent`, by at most `10^308` at a time. -/
def divideByPower : (fuel : Nat) → Binary64 → Nat → Option Binary64
  | 0, x, _ => some x
  | fuel + 1, x, exponent =>
    if exponent ≤ greatestPower then x.div (powerOfTen exponent)
    else if x.significand = 0 then some x
    else (x.div (powerOfTen greatestPower)).bind fun y =>
      divideByPower fuel y (exponent - greatestPower)

/-- The number `±significand · 10^exponent` of a literal that is not an integer. -/
def ofParts (negative : Bool) (significand : Nat) (exponent : Int) : Option Binary64 :=
  let x := Binary64.ofInt significand
  let magnitude? :=
    if exponent < 0 then divideByPower 4 x (-exponent).toNat
    else if exponent ≤ greatestPower then x.mul (powerOfTen exponent.toNat)
    else if x.significand = 0 then some x
    else none
  magnitude?.map fun y => { y with negative }

/-- Add a digit to a significand unless it would no longer fit 64 bits. -/
def pushDigit? (significand digit : Nat) : Option Nat :=
  let next := significand * 10 + digit
  if next < Nat.pow 2 64 then some next else none

/-- The digits of a literal, read one after the other: the significand they make, how many of them
it holds, and how many came after it was full. -/
def takeDigits (significand : Nat) : List Char → Nat × Nat × Nat
  | [] => (significand, 0, 0)
  | c :: cs =>
    match pushDigit? significand (c.toNat - '0'.toNat) with
    | some next =>
      let (s, held, dropped) := takeDigits next cs
      (s, held + 1, dropped)
    | none => (significand, 0, cs.length + 1)

/-- The exponent part of a literal, none where there is none; an error where its mark has no
digits. -/
def readExponent (cs : List Char) : Option (Option Int × List Char) :=
  match cs with
  | e :: rest =>
    if e = 'e' || e = 'E' then
      let (negative, digits) := Decimal.splitSign rest
      let ds := digits.takeWhile Char.isDigit
      (Decimal.readDigits? 10 ds).map fun n =>
        (some (if negative then -(n : Int) else n), digits.dropWhile Char.isDigit)
    else some (none, cs)
  | [] => some (none, [])

/-- The exponents beyond which only zero is still a number of the format. -/
def exponentLimit : Int := Int.pow 2 31 - 1

/-- The number of a literal with a fraction, an exponent or more digits than an integer holds. -/
def ofLiteral (negative : Bool) (significand : Nat) (shift : Int) (exponent? : Option Int) :
    Option Binary64 :=
  match exponent? with
  | none => ofParts negative significand shift
  | some exponent =>
    if exponentLimit < exponent.natAbs then
      if significand ≠ 0 && 0 < exponent then none else some (Binary64.zero negative)
    else ofParts negative significand (shift + exponent)

/-- The number literal at the front of a text, and what follows it. -/
def read (cs : List Char) : Option (Number × List Char) :=
  let (negative, unsigned) :=
    match cs with
    | '-' :: rest => (true, rest)
    | rest => (false, rest)
  let whole := unsigned.takeWhile Char.isDigit
  let afterWhole := unsigned.dropWhile Char.isDigit
  if whole.isEmpty || (whole.head? = some '0' && 1 < whole.length) then none
  else
    let (significand, _, dropped) := takeDigits 0 whole
    match afterWhole with
    | '.' :: rest =>
      let fraction := rest.takeWhile Char.isDigit
      if fraction.isEmpty then none
      else
        let (digits, held, _) := takeDigits significand fraction
        (readExponent (rest.dropWhile Char.isDigit)).bind fun (exponent?, after) =>
          (ofLiteral negative digits ((dropped : Int) - held) exponent?).map fun x =>
            (real x, after)
    | _ =>
      (readExponent afterWhole).bind fun (exponent?, after) =>
        if exponent?.isSome || dropped ≠ 0 then
          (ofLiteral negative significand dropped exponent?).map fun x => (real x, after)
        else if negative && (significand = 0 || Nat.pow 2 63 < significand) then
          some (real { Binary64.ofInt significand with negative := true }, after)
        else
          some (integer (if negative then -(significand : Int) else significand), after)

end Number

namespace Parser

/-- Drop the blanks at the front. -/
def skipBlanks (cs : List Char) : List Char :=
  cs.dropWhile fun c => c = ' ' || c = '\n' || c = '\t' || c = '\r'

/-- The value of four hexadecimal digits. -/
def readHex4 : List Char → Option (Nat × List Char)
  | a :: b :: c :: d :: rest => (Decimal.readDigits? 16 [a, b, c, d]).map fun n => (n, rest)
  | _ => none

/-- The character that a `\u` escape writes, after its mark. A high surrogate needs the escape of a
low one next to it. -/
def readUnicodeEscape (cs : List Char) : Option (Char × List Char) :=
  (readHex4 cs).bind fun (high, rest) =>
    if 0xDC00 ≤ high && high ≤ 0xDFFF then none
    else if 0xD800 ≤ high && high ≤ 0xDBFF then
      match rest with
      | '\\' :: 'u' :: rest' =>
        (readHex4 rest').bind fun (low, after) =>
          if 0xDC00 ≤ low && low ≤ 0xDFFF then
            some (Char.ofNat (0x10000 + (high - 0xD800) * 0x400 + (low - 0xDC00)), after)
          else none
      | _ => none
    else some (Char.ofNat high, rest)

/-- The character of an escape of one letter. -/
def simpleEscape? : Char → Option Char
  | '"' => some '"'
  | '\\' => some '\\'
  | '/' => some '/'
  | 'b' => some '\x08'
  | 'f' => some '\x0c'
  | 'n' => some '\n'
  | 'r' => some '\r'
  | 't' => some '\t'
  | _ => none

/-- The characters of a string, after its opening quote, and what follows its closing quote. -/
def readString : (fuel : Nat) → List Char → Option (List Char × List Char)
  | 0, _ => none
  | _ + 1, [] => none
  | fuel + 1, c :: cs =>
    if c = '"' then some ([], cs)
    else if c = '\\' then
      match cs with
      | [] => none
      | e :: rest =>
        let escaped? :=
          if e = 'u' then readUnicodeEscape rest else (simpleEscape? e).map fun x => (x, rest)
        escaped?.bind fun (x, after) =>
          (readString fuel after).map fun (xs, end') => (x :: xs, end')
    else if c.toNat < 0x20 then none
    else (readString fuel cs).map fun (xs, end') => (c :: xs, end')

/-- A string and what follows it. -/
def readText (cs : List Char) : Option (String × List Char) :=
  match cs with
  | '"' :: rest => (readString (rest.length + 1) rest).map fun (xs, after) => (String.ofList xs, after)
  | _ => none

/-- The rest of a text after a given word at its front. -/
def dropWord (word : List Char) (cs : List Char) : Option (List Char) :=
  if word.isPrefixOf cs then some (cs.drop word.length) else none

/-- How deep arrays and objects may be nested. -/
def depthLimit : Nat := 127

mutual

/-- A value and what follows it. `depth` levels of nesting are still allowed. -/
def readValue : (fuel : Nat) → (depth : Nat) → List Char → Option (Value × List Char)
  | 0, _, _ => none
  | fuel + 1, depth, text =>
    match skipBlanks text with
    | 'n' :: rest => (dropWord ['u', 'l', 'l'] rest).map fun after => (.null, after)
    | 't' :: rest => (dropWord ['r', 'u', 'e'] rest).map fun after => (.bool true, after)
    | 'f' :: rest => (dropWord ['a', 'l', 's', 'e'] rest).map fun after => (.bool false, after)
    | '"' :: rest => (readText ('"' :: rest)).map fun (s, after) => (.string s, after)
    | '[' :: rest =>
      if depth = 0 then none
      else
        match skipBlanks rest with
        | ']' :: after => some (.array [], after)
        | first => (readItems fuel (depth - 1) first).map fun (xs, after) => (.array xs, after)
    | '\x7b' :: rest =>
      if depth = 0 then none
      else
        match skipBlanks rest with
        | '\x7d' :: after => some (.object [], after)
        | first =>
          (readMembers fuel (depth - 1) first).map fun (ms, after) =>
            (.object (Entries.ofPairs ms), after)
    | c :: rest =>
      if c = '-' || c.isDigit then
        (Number.read (c :: rest)).map fun (n, after) => (.number n, after)
      else none
    | [] => none

/-- The items of an array that is not empty, up to its closing bracket. -/
def readItems : (fuel : Nat) → (depth : Nat) → List Char → Option (List Value × List Char)
  | 0, _, _ => none
  | fuel + 1, depth, text =>
    (readValue fuel depth text).bind fun (x, after) =>
      match skipBlanks after with
      | ']' :: rest => some ([x], rest)
      | ',' :: rest => (readItems fuel depth rest).map fun (xs, end') => (x :: xs, end')
      | _ => none

/-- The members of an object that is not empty, up to its closing brace. -/
def readMembers :
    (fuel : Nat) → (depth : Nat) → List Char → Option (List (String × Value) × List Char)
  | 0, _, _ => none
  | fuel + 1, depth, text =>
    (readText (skipBlanks text)).bind fun (name, afterName) =>
      match skipBlanks afterName with
      | ':' :: rest =>
        (readValue fuel depth rest).bind fun (x, after) =>
          match skipBlanks after with
          | '\x7d' :: rest' => some ([(name, x)], rest')
          | ',' :: rest' =>
            (readMembers fuel depth rest').map fun (ms, end') => ((name, x) :: ms, end')
          | _ => none
      | _ => none

end

end Parser

/-- The value that a whole text writes, if it is JSON. -/
def parse? (text : String) : Option Value :=
  let cs := text.toList
  (Parser.readValue (2 * cs.length + 1) Parser.depthLimit cs).bind fun (value, after) =>
    if (Parser.skipBlanks after).isEmpty then some value else none

/-- The value that a sequence of octets writes, if it is JSON in UTF-8. -/
def parseOctets? (bytes : Octets) : Option Value := (Text.Utf8.decode? bytes).bind parse?

end ApiContract.Json
