import ApiContract.Decimal.Reader
import ApiContract.Text.Utf8
import ApiContract.Yaml.Cursor
/-!
# Anchors and tags

A node can have a name, by which aliases refer to it, and a tag. A tag is written in full, or short
with a handle that stands for the beginning of it. Tags are octets, since an escaped character in one
is written octet by octet.
-/

namespace ApiContract.Yaml

/-- The name of an anchor or an alias after its indicator, and the place after it. -/
def anchorName? (c : Cursor) : Option (String × Cursor) :=
  let (name, c) := c.next.span isNameChar
  let ends : Bool := c.head?.all fun x => isGap x || "?:,]\x7d%@\x60".toList.contains x
  if !name.isEmpty && ends then some (String.ofList name, c) else none

/-- Whether a character may stand in a tag. The characters that structure collections in brackets may
do so only where a tag is written in full. -/
def isTagChar (full : Bool) (c : Char) : Bool :=
  isNameChar c || ";/?:@&=+$.%!~*'()".toList.contains c || (full && ",[]".toList.contains c)

/-- The octet that an escape at the front of a text stands for. -/
def escapedOctet? : List Char → Option UInt8
  | '%' :: a :: b :: _ => (Decimal.readDigits? 16 [a, b]).map UInt8.ofNat
  | _ => none

/-- The number of octets of a character, from the first of them. -/
def octetCount? (first : UInt8) : Option Nat :=
  if first < 0x80 then some 1
  else if first < 0xC0 then none
  else if first < 0xE0 then some 2
  else if first < 0xF0 then some 3
  else if first < 0xF8 then some 4
  else none

/-- So many escaped octets at a place that continue a character. -/
def escapedTail? : (count : Nat) → Cursor → Option (Octets × Cursor)
  | 0, c => some ([], c)
  | count + 1, c =>
    match escapedOctet? c.rest with
    | none => none
    | some b =>
      if Text.Utf8.isTail b then
        (escapedTail? count (c.skip 3)).map fun (tail, c) => (b :: tail, c)
      else none

/-- The octets of the escaped character at a place. -/
def escapedChar? (c : Cursor) : Option (Octets × Cursor) :=
  (escapedOctet? c.rest).bind fun first =>
    (octetCount? first).bind fun count =>
      (escapedTail? (count - 1) (c.skip 3)).map fun (tail, c) => (first :: tail, c)

/-- The octets of a tag, or of a part of one, that goes on at a place; `sofar` holds those before,
latest first. -/
def tagOctetsFrom (full : Bool) : (fuel : Nat) → Cursor → (sofar : Octets) → Option (Octets × Cursor)
  | 0, _, _ => none
  | fuel + 1, c, sofar =>
    match c.head? with
    | some '%' =>
      match escapedChar? c with
      | none => none
      | some (octets, c) => tagOctetsFrom full fuel c (octets.reverse ++ sofar)
    | some x =>
      if isTagChar full x then
        tagOctetsFrom full fuel c.next ((Text.Utf8.encodeChar x).reverse ++ sofar)
      else some (sofar.reverse, c)
    | none => some (sofar.reverse, c)

/-- The octets of a tag, or of a part of one, that begins at a place. They end before a zero. -/
def tagOctets? (full : Bool) (c : Cursor) : Option (Octets × Cursor) :=
  let width := (c.rest.takeWhile (isTagChar full)).length
  (tagOctetsFrom full (width + 1) c []).map fun (octets, c) =>
    (octets.takeWhile (· != 0), c)

/-- A tag as it is written. -/
structure TagText where
  /-- The handle; no characters where the tag is written in full. -/
  handle : String
  suffix : Octets
deriving DecidableEq, Repr, Inhabited

/-- The handle at a place, as far as there is one: an exclamation mark, a name and another
exclamation mark, of which the first alone has to be there. -/
def tagHandle (c : Cursor) : List Char × Cursor :=
  let (name, c) := c.next.span isNameChar
  if c.isAt '!' then ('!' :: (name ++ ['!']), c.next) else ('!' :: name, c)

/-- A tag in full, between angle brackets. -/
def fullTag? (c : Cursor) : Option (TagText × Cursor) :=
  let start := c.skip 2
  (tagOctets? true start).bind fun (suffix, c) =>
    if c.isAt '>' && c.rest.length < start.rest.length then some (⟨"", suffix⟩, c.next) else none

/-- A tag with a handle. The mark by itself is a tag in full. -/
def shortTag? (c : Cursor) : Option (TagText × Cursor) :=
  let (handle, afterHandle) := tagHandle c
  if 1 < handle.length && handle.getLast? = some '!' then
    (tagOctets? false afterHandle).bind fun (suffix, c) =>
      if c.rest.length < afterHandle.rest.length then some (⟨String.ofList handle, suffix⟩, c)
      else none
  else
    (tagOctets? false c.next).map fun (suffix, c) =>
      if suffix.isEmpty then (⟨"", Text.Utf8.encode "!"⟩, c) else (⟨"!", suffix⟩, c)

/-- The tag at a place, and the place after it. -/
def tagText? (inBrackets : Bool) (c : Cursor) : Option (TagText × Cursor) :=
  (if c.rest[1]? = some '<' then fullTag? c else shortTag? c).bind fun (tag, c) =>
    if Cursor.endsWord c.rest || (inBrackets && c.isAt ',') then some (tag, c) else none

end ApiContract.Yaml
