import ApiContract.Url.Domain
import ApiContract.Decimal.Reader
/-!
# Reading hosts

A host in brackets is an IPv6 address. Of the schemes with an authority, any other host is a domain
name, percent-encoded or not, and one whose last label is a number is an IPv4 address. For other
schemes a host is text.
-/

namespace ApiContract.Host

open Text

/-- The value of a part of an IPv4 address: decimal, or with a mark octal or hexadecimal. A part too
large for an address has the value none. -/
def ipv4Number? (part : List Char) : Option (Option Nat) :=
  let value (base : Nat) (digits : List Char) : Option (Option Nat) :=
    if digits.isEmpty then some (some 0)
    else (Decimal.readDigits? base digits).map fun n => if n < Nat.pow 2 32 then some n else none
  match part with
  | [] => none
  | '0' :: 'x' :: digits => value 16 digits
  | '0' :: 'X' :: digits => value 16 digits
  | '0' :: d :: digits => value 8 (d :: digits)
  | digits => value 10 digits

/-- Whether the last label of a name, or the one before an empty last one, is a number. -/
def endsInNumber (name : String) : Bool :=
  let isNumber (label : List Char) : Bool :=
    (!label.isEmpty && label.all Char.isDigit) || (ipv4Number? label).isSome
  match (Domain.labels name.toList).reverse with
  | [] :: label :: _ => isNumber label
  | [] :: [] => false
  | label :: _ => isNumber label
  | [] => false

/-- The address of up to four numbers: the last one fills the places that are left. -/
def ipv4OfNumbers? (numbers : List Nat) : Option Nat :=
  match numbers.reverse with
  | [] => none
  | last :: front =>
    if Nat.pow 2 (32 - 8 * front.length) ≤ last || front.any (255 < ·) then none
    else
      some (((front.reverse.zip [16777216, 65536, 256]).map fun (n, unit) => n * unit).foldl (· + ·) last)

/-- The IPv4 address that a name writes. -/
def readIpv4 (name : String) : Except UrlError Host :=
  let parts := Domain.labels name.toList
  let parts := if parts.getLast? = some [] then parts.dropLast else parts
  if 4 < parts.length then .error .invalidIpv4
  else
    match (parts.mapM fun part => (ipv4Number? part).join).bind ipv4OfNumbers? with
    | some address => .ok (.ipv4 address)
    | none => .error .invalidIpv4

/-- A decimal number below 256 without zeros in front. -/
def octet? (digits : List Char) : Option Nat :=
  if 1 < digits.length && digits.head? = some '0' then none
  else (Decimal.readDigits? 10 digits).bind fun n => if n < 256 then some n else none

/-- The two pieces that an IPv4 address at the end of an IPv6 address stands for. -/
def embeddedIpv4? (cs : List Char) : Option (List Nat) :=
  ((Domain.labels cs).mapM octet?).bind fun numbers =>
    match numbers with
    | [a, b, c, d] => some [a * 256 + b, c * 256 + d]
    | _ => none

/-- The text before the next colon, and what follows the colon. -/
def untilColon (cs : List Char) : List Char × Option (List Char) :=
  match cs.dropWhile (· != ':') with
  | _ :: rest => (cs.takeWhile (· != ':'), some rest)
  | [] => (cs, none)

/-- The pieces of a part of an IPv6 address that has no gap. -/
def ipv6Pieces? : (fuel : Nat) → List Char → Option (List Nat)
  | 0, _ => none
  | fuel + 1, cs =>
    match untilColon cs with
    | (last, none) =>
      if last.contains '.' then embeddedIpv4? last
      else if 4 < last.length then none
      else (Decimal.readDigits? 16 last).map fun n => [n]
    | (piece, some rest) =>
      if 4 < piece.length then none
      else (Decimal.readDigits? 16 piece).bind fun n => (ipv6Pieces? fuel rest).map (n :: ·)

/-- What stands before and after the first two colons next to each other. -/
def splitGap : List Char → Option (List Char × List Char)
  | ':' :: ':' :: rest => some ([], rest)
  | c :: rest => (splitGap rest).map fun (before, after) => (c :: before, after)
  | [] => none

/-- The IPv6 address that a text between brackets writes. -/
def readIpv6 (cs : List Char) : Except UrlError Host :=
  let part? (part : List Char) : Option (List Nat) :=
    if part.isEmpty then some [] else ipv6Pieces? (part.length + 1) part
  let pieces? : Option (List Nat) :=
    match splitGap cs with
    | none => (ipv6Pieces? (cs.length + 1) cs).filter (·.length = 8)
    | some (before, after) =>
      if before.contains '.' then none
      else
        (part? before).bind fun front => (part? after).bind fun back =>
          if front.length + back.length < 8 then
            some (front ++ List.replicate (8 - front.length - back.length) 0 ++ back)
          else none
  match pieces? with
  | some pieces => .ok (.ipv6 pieces)
  | none => .error .invalidIpv6

/-- A host in brackets, if the text begins with one. -/
def readBracketed? (text : String) : Option (Except UrlError Host) :=
  match text.toList with
  | '[' :: rest =>
    if rest.getLast? = some ']' then some (readIpv6 rest.dropLast) else some (.error .invalidIpv6)
  | _ => none

/-- The host of a URL whose scheme has an authority. -/
def readDomain (text : String) : Except UrlError Host :=
  match readBracketed? text with
  | some host => host
  | none =>
    match (Utf8.decode? (Percent.decode (Utf8.encode text))).bind Domain.toAscii? with
    | none => .error .invalidDomain
    | some domain =>
      if domain = "" then .error .emptyHost
      else if endsInNumber domain then readIpv4 domain
      else .ok (.name domain)

/-- Whether a character may not stand in a host that is text. -/
def isForbidden (c : Char) : Bool :=
  ['\x00', '\t', '\n', '\r', ' ', '#', '/', ':', '<', '>', '?', '@', '[', '\\', ']', '^', '|'].contains c

/-- The host of a URL of any other scheme. -/
def readText (text : String) : Except UrlError Host :=
  match readBracketed? text with
  | some host => host
  | none =>
    if text.toList.any isForbidden then .error .invalidHostCharacter
    else .ok (.name (Percent.encode Percent.isControl text))

end ApiContract.Host
