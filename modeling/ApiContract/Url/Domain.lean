import ApiContract.Url.Basic
import ApiContract.Text.CaseFolding
import ApiContract.Text.Category
/-!
# Domain names

`toAscii?` takes a domain name to the form in which it is looked up: letters in lower case, labels
with other than ASCII characters in Punycode. A name with a character that no domain may hold has
no such form.

Of the compatibility mapping that UTS 46 prescribes for names, only what `isIgnored` and `mapChar` say is
done: case, the full-width forms of ASCII characters, the ideographic full stops, and a few characters
that are left out. Other compatibility characters, as ligatures and superscripts, stay what they are, and
names are not brought into the composed normal form (NFC). Which characters outside ASCII may stand in a
name is decided by their general category, so that joiners are refused, and the rules for right-to-left
labels are not checked.
-/

namespace ApiContract.Domain

open Text

namespace Punycode

/-- A digit of base 36. -/
def digit (n : Nat) : Char :=
  if n < 26 then Char.ofNat ('a'.toNat + n) else Char.ofNat ('0'.toNat + (n - 26))

/-- The value of a digit of base 36. -/
def digitValue? (c : Char) : Option Nat :=
  if 'a' ≤ c && c ≤ 'z' then some (c.toNat - 'a'.toNat)
  else if 'A' ≤ c && c ≤ 'Z' then some (c.toNat - 'A'.toNat)
  else if c.isDigit then some (c.toNat - '0'.toNat + 26)
  else none

/-- The bound below which a digit at position `k` is the last one. -/
def threshold (k bias : Nat) : Nat :=
  if k ≤ bias then 1 else if bias + 26 ≤ k then 26 else k - bias

/-- Divide by 35 until at most 455 is left, counting 36 for each time. -/
def scaleDown : (fuel delta k : Nat) → Nat × Nat
  | 0, delta, k => (delta, k)
  | fuel + 1, delta, k => if 455 < delta then scaleDown fuel (delta / 35) (k + 36) else (delta, k)

/-- The bias after a number has been written. -/
def adapt (delta points : Nat) (first : Bool) : Nat :=
  let start := if first then delta / 700 else delta / 2
  let (rest, k) := scaleDown 64 (start + start / points) 0
  k + 36 * rest / (rest + 38)

/-- A number of variable length. -/
def writeNumber (bias : Nat) : (fuel k q : Nat) → List Char
  | 0, _, _ => []
  | fuel + 1, k, q =>
    let t := threshold k bias
    if q < t then [digit q]
    else digit (t + (q - t) % (36 - t)) :: writeNumber bias fuel (k + 36) ((q - t) / (36 - t))

/-- The state of writing: the distance since the last number, the bias, and how many characters are
written. -/
structure Progress where
  delta : Nat
  bias : Nat
  handled : Nat

/-- Go over the characters once for one code point. -/
def writePoint (basic point : Nat) : Progress → List Char → List Char × Progress
  | p, [] => ([], p)
  | p, c :: cs =>
    if c.toNat < point then writePoint basic point { p with delta := p.delta + 1 } cs
    else if c.toNat = point then
      let bias := adapt p.delta (p.handled + 1) (p.handled == basic)
      let (rest, last) := writePoint basic point ⟨0, bias, p.handled + 1⟩ cs
      (writeNumber p.bias 64 36 p.delta ++ rest, last)
    else writePoint basic point p cs

/-- Write the characters at or above each of the given code points, in ascending order. -/
def writePoints (basic : Nat) (cs : List Char) : (reached : Nat) → Progress → List Nat → List Char
  | _, _, [] => []
  | reached, p, point :: points =>
    let start := { p with delta := p.delta + (point - reached) * (p.handled + 1) }
    let (out, last) := writePoint basic point start cs
    out ++ writePoints basic cs (point + 1) { last with delta := last.delta + 1 } points

/-- The Punycode of a label. -/
def encode (cs : List Char) : List Char :=
  let basic := cs.filter fun c => c.toNat < 0x80
  let points := ((cs.map Char.toNat).filter (0x80 ≤ ·)).mergeSort.eraseDups
  basic ++ (if basic.isEmpty then [] else ['-'])
    ++ writePoints basic.length cs 0x80 ⟨0, 72, basic.length⟩ points

/-- A number of variable length and what follows it. -/
def readNumber (bias : Nat) : (k weight sum : Nat) → List Char → Option (Nat × List Char)
  | _, _, _, [] => none
  | k, weight, sum, c :: cs =>
    (digitValue? c).bind fun d =>
      let t := threshold k bias
      let next := sum + d * weight
      if d < t then some (next, cs) else readNumber bias (k + 36) (weight * (36 - t)) next cs

/-- Put the characters that the numbers of a text stand for among those already there. -/
def readPoints : (fuel point index bias : Nat) → List Char → List Char → Option (List Char)
  | 0, _, _, _, _, _ => none
  | _ + 1, _, _, _, out, [] => some out
  | fuel + 1, point, index, bias, out, cs =>
    (readNumber bias 36 1 index cs).bind fun (reached, rest) =>
      let length := out.length + 1
      let code := point + reached / length
      let place := reached % length
      if 0x110000 ≤ code || (0xD800 ≤ code && code ≤ 0xDFFF) then none
      else
        let grown := out.take place ++ Char.ofNat code :: out.drop place
        readPoints fuel code (place + 1) (adapt (reached - index) length (index == 0)) grown rest

/-- The label that Punycode writes, if it writes one. -/
def decode? (cs : List Char) : Option (List Char) :=
  let reversed := cs.reverse
  let tail := (reversed.takeWhile (· != '-')).reverse
  let basic := ((reversed.dropWhile (· != '-')).drop 1).reverse
  if cs.all (·.toNat < 0x80) then readPoints (cs.length + 1) 0x80 0 72 basic tail else none

end Punycode

/-- Whether a character is left out of a name. -/
def isIgnored (c : Char) : Bool :=
  let n := c.toNat
  n = 0xAD || n = 0x200B || n = 0x2060 || n = 0xFEFF || (0xFE00 ≤ n && n ≤ 0xFE0F)

/-- A character of a name in the form in which names are compared, as far as case, full-width forms and
ideographic full stops go. -/
def mapChar (c : Char) : Char :=
  let n := c.toNat
  if n = 0x3002 || n = 0xFF0E || n = 0xFF61 then '.'
  else if 0xFF01 ≤ n && n ≤ 0xFF5E then (Char.ofNat (n - 0xFEE0)).toLower
  else foldCase c

/-- Whether an ASCII character may not stand in a name. -/
def isForbidden (c : Char) : Bool :=
  let n := c.toNat
  n ≤ 0x20 || n = 0x7F || ['#', '/', ':', '<', '>', '?', '@', '[', '\\', ']', '^', '|', '%'].contains c

/-- Whether a character outside ASCII may stand in a name. -/
def isNameCharacter (c : Char) : Bool :=
  (Category.of c).group != 'C' && (Category.of c).group != 'Z'

/-- The marks at the front of a label in Punycode. -/
def punycodeMark : List Char := ['x', 'n', '-', '-']

/-- A label in the form in which it is looked up. -/
def labelToAscii? (label : List Char) : Option (List Char) :=
  if label.all (·.toNat < 0x80) then
    if label.any isForbidden then none
    else if punycodeMark.isPrefixOf label then
      match Punycode.decode? (label.drop 4) with
      | some decoded =>
        if decoded.any (0x80 ≤ ·.toNat) && decoded.all (fun c => c.toNat < 0x80 || isNameCharacter c)
        then some label
        else none
      | none => none
    else some label
  else if label.any (fun c => if c.toNat < 0x80 then isForbidden c else !isNameCharacter c) then none
  else if (label.head?.map fun c => (Category.of c).group == 'M').getD false then none
  else some (punycodeMark ++ Punycode.encode label)

/-- The labels of a name. -/
def labels : List Char → List (List Char)
  | [] => [[]]
  | c :: rest =>
    if c = '.' then [] :: labels rest
    else
      match labels rest with
      | first :: others => (c :: first) :: others
      | [] => [[c]]

/-- Labels with points between them. -/
def joinLabels : List (List Char) → List Char
  | [] => []
  | [label] => label
  | label :: rest => label ++ '.' :: joinLabels rest

/-- A name in the form in which it is looked up. The limits are those of `mapChar`: a name outside ASCII
that has other compatibility characters, or letters that are not composed with their marks, has another
form here than after the whole mapping and the normal form NFC. -/
def toAscii? (name : String) : Option String :=
  let mapped := (name.toList.filter fun c => !isIgnored c).map mapChar
  ((labels mapped).mapM labelToAscii?).map fun ls => String.ofList (joinLabels ls)

end ApiContract.Domain
