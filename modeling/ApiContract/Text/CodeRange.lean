/-!
# Ranges of code points

Tables of code points are written as texts of words, with numbers in hexadecimal: a code point by
itself, or the first and the last of a range with a hyphen between.
-/

namespace ApiContract.Text

/-- The code points from one to another. -/
structure CodeRange where
  first : Nat
  last : Nat
deriving DecidableEq, Repr, Inhabited

namespace CodeRange

/-- Whether a code point is in a range. -/
def contains (range : CodeRange) (code : Nat) : Bool := range.first ≤ code && code ≤ range.last

/-- The words of a text; `word` holds what has been read of one, latest first. -/
def wordsFrom : (word : List Char) → List Char → List (List Char)
  | word, [] => if word.isEmpty then [] else [word.reverse]
  | word, c :: rest =>
    if c = ' ' || c = '\n' then
      if word.isEmpty then wordsFrom [] rest else word.reverse :: wordsFrom [] rest
    else wordsFrom (c :: word) rest

/-- The words of a table. -/
def words (table : String) : List (List Char) := wordsFrom [] table.toList

/-- The value of a hexadecimal digit in lower case. -/
def digit (c : Char) : Nat :=
  if '0' ≤ c && c ≤ '9' then c.toNat - '0'.toNat else c.toNat - 'a'.toNat + 10

/-- The value of a hexadecimal number. -/
def number (cs : List Char) : Nat := cs.foldl (fun n c => n * 16 + digit c) 0

/-- The range that a word writes. -/
def ofWord (word : List Char) : CodeRange :=
  let first := word.takeWhile (· != '-')
  let last := (word.dropWhile (· != '-')).drop 1
  ⟨number first, if last.isEmpty then number first else number last⟩

/-- The ranges that a table writes. -/
def table (text : String) : List CodeRange := (words text).map ofWord

end CodeRange

end ApiContract.Text
