import ApiContract.Text.Blank
import ApiContract.Text.CaseFolding
import ApiContract.Text.Category
import ApiContract.Text.Letters
import ApiContract.Text.Script
/-!
# Sets of characters

The sets that one position of a pattern admits, as descriptions with a test for membership. The sets
with names are those of the Unicode standard; `folded` closes a set under differences of case.
-/

namespace ApiContract.Pattern

open Text (Category)

/-- A described set of characters. -/
inductive CharSet where
  | everything
  | range (low high : Char)
  | category (k : Category)
  /-- The categories whose first letter is this one. -/
  | group (letter : Char)
  | blank
  | alphabetic
  | lowercase
  | uppercase
  /-- The characters of a script, by its four letters. -/
  | script (code : String)
  /-- The characters that are used in a script. -/
  | usedIn (code : String)
  /-- Letters, marks, decimal digits, letter numbers, connectors, and what joins or encircles
  letters. -/
  | word
  | union (a b : CharSet)
  | intersection (a b : CharSet)
  | difference (a b : CharSet)
  | symmetricDifference (a b : CharSet)
  | complement (a : CharSet)
  /-- The characters that differ at most in case from one of the set. -/
  | folded (a : CharSet)
deriving Repr, Inhabited

namespace CharSet

/-- The set of one character. -/
def single (c : Char) : CharSet := range c c

/-- The set of no character. -/
def nothing : CharSet := complement everything

/-- The union of several sets. -/
def unions (sets : List CharSet) : CharSet := sets.foldl union nothing

/-- The decimal digits. -/
def digit : CharSet := category .nd

/-- The code points that join letters or are encircled letters, beside the categories of `word`. -/
def isJoinerOrCircled (n : Nat) : Bool :=
  (0x200C ≤ n && n ≤ 0x200D) || (0x24B6 ≤ n && n ≤ 0x24E9) || (0x1F130 ≤ n && n ≤ 0x1F149)
    || (0x1F150 ≤ n && n ≤ 0x1F169) || (0x1F170 ≤ n && n ≤ 0x1F189)

/-- Whether a character is part of a word. -/
def isWord (c : Char) : Bool :=
  if c.toNat < 0x80 then c.isAlphanum || c = '_'
  else
    let category := Category.of c
    category.group = 'L' || category.group = 'M' || category = .nd || category = .nl
      || category = .pc || isJoinerOrCircled c.toNat

/-- The code points that a run of the folding table takes to a code point. -/
def sourceOf? (code : Nat) (run : Text.FoldRun) : Option Nat :=
  if code < run.target then none
  else
    let source := run.first + (code - run.target)
    if run.target? source = some code then some source else none

/-- The characters that differ at most in case from `c`. -/
def caseVariants (c : Char) : List Char :=
  let base := Text.foldCase c
  let others := Text.FoldRun.runs.toList.filterMap (sourceOf? base.toNat)
  base :: others.map Char.ofNat

/-- Whether a character is in a set. -/
def contains : CharSet → Char → Bool
  | everything, _ => true
  | range low high, c => low ≤ c && c ≤ high
  | category k, c => Category.of c = k
  | group letter, c => (Category.of c).group = letter
  | blank, c => Text.isBlank c
  | alphabetic, c => Text.isAlphabetic c
  | lowercase, c => Text.isLowercase c
  | uppercase, c => Text.isUppercase c
  | script code, c => Text.Script.of c = code
  | usedIn code, c => (Text.Script.usesOf c).contains code
  | word, c => isWord c
  | union a b, c => a.contains c || b.contains c
  | intersection a b, c => a.contains c && b.contains c
  | difference a b, c => a.contains c && !b.contains c
  | symmetricDifference a b, c => a.contains c != b.contains c
  | complement a, c => !a.contains c
  | folded a, c => a.contains c || (caseVariants c).any a.contains

theorem contains_complement (a : CharSet) (c : Char) :
    (complement a).contains c = !a.contains c := rfl

theorem contains_union (a b : CharSet) (c : Char) :
    (union a b).contains c = (a.contains c || b.contains c) := rfl

end CharSet

end ApiContract.Pattern
