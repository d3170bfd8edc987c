import ApiContract.Pattern.CharSet
/-!
# The structure of a pattern

A `Node` is a pattern as a tree. Parts that only say which texts they match are *plain*; the others
look around, remember what a group matched, or commit to a choice.
-/

namespace ApiContract.Pattern

/-- A condition on a position between characters. -/
inductive Assertion where
  | textStart
  | textEnd
  | lineStart
  | lineEnd
  | wordStart
  | wordEnd
  | wordBoundary
  | notWordBoundary
deriving DecidableEq, Repr, Inhabited

/-- A pattern, or a part of one. -/
inductive Node where
  | empty
  | assertion (a : Assertion)
  | one (set : CharSet)
  | sequence (parts : List Node)
  | choice (parts : List Node)
  /-- A part whose match is remembered under a number. -/
  | group (index : Nat) (body : Node)
  | repeated (least : Nat) (most : Option Nat) (greedy : Bool) (body : Node)
  /-- A part that has to match, or must not, after or before the position. -/
  | look (behind negated : Bool) (body : Node)
  /-- A part of which only the first match counts. -/
  | atomic (body : Node)
  /-- The text that a group matched. -/
  | sameAs (group : Nat)
  /-- Whether a group has matched. -/
  | hasMatched (group : Nat)
  | conditional (condition yes no : Node)
  /-- The place from which on the match is reported; it matches everywhere. -/
  | keep
  /-- The position at which the search began. -/
  | searchStart
deriving Inhabited

namespace Assertion

/-- Whether the character before a position is part of a word. -/
def wordBefore (text : Array Char) (position : Nat) : Bool :=
  0 < position && (text[position - 1]?.map CharSet.isWord).getD false

/-- Whether the character after a position is part of a word. -/
def wordAfter (text : Array Char) (position : Nat) : Bool :=
  (text[position]?.map CharSet.isWord).getD false

/-- Whether a condition holds at a position of a text. -/
def holds (text : Array Char) (position : Nat) : Assertion → Bool
  | textStart => position = 0
  | textEnd => position = text.size
  | lineStart => position = 0 || text[position - 1]? = some '\n'
  | lineEnd => position = text.size || text[position]? = some '\n'
  | wordStart => !wordBefore text position && wordAfter text position
  | wordEnd => wordBefore text position && !wordAfter text position
  | wordBoundary => wordBefore text position != wordAfter text position
  | notWordBoundary => wordBefore text position == wordAfter text position

/-- Whether a condition is on words. -/
def isOnWords : Assertion → Bool
  | wordStart | wordEnd | wordBoundary | notWordBoundary => true
  | textStart | textEnd | lineStart | lineEnd => false

end Assertion

namespace Node

/-- Whether a repetition sign may follow a part. -/
def isRepeatable : Node → Bool
  | empty | assertion _ | look .. => false
  | _ => true

mutual

/-- The number of groups in a part. -/
def groupCount : Node → Nat
  | sequence parts | choice parts => groupCountAll parts
  | group _ body => body.groupCount + 1
  | repeated _ _ _ body | look _ _ body | atomic body => body.groupCount
  | conditional a b c => a.groupCount + b.groupCount + c.groupCount
  | _ => 0

/-- The number of groups in several parts. -/
def groupCountAll : List Node → Nat
  | [] => 0
  | part :: rest => part.groupCount + groupCountAll rest

end

mutual

/-- Whether a part is plain, where some groups are referred to from elsewhere. -/
def isPlain (referenced : List Nat) : Node → Bool
  | empty | one _ => true
  | assertion a => !a.isOnWords
  | sequence parts | choice parts => areAllPlain referenced parts
  | group index body => !referenced.contains index && body.isPlain referenced
  | repeated _ _ _ body => body.isPlain referenced
  | _ => false

/-- Whether several parts are plain. -/
def areAllPlain (referenced : List Nat) : List Node → Bool
  | [] => true
  | part :: rest => part.isPlain referenced && areAllPlain referenced rest

end

mutual

/-- The least number of characters that a part matches. -/
def minLength : Node → Nat
  | one _ => 1
  | sequence parts => minLengthSum parts
  | choice parts => (leastLength? parts).getD 0
  | group _ body | atomic body => body.minLength
  | repeated least _ _ body => body.minLength * least
  | conditional a b c => a.minLength + min b.minLength c.minLength
  | _ => 0

/-- The sum of the least numbers of several parts. -/
def minLengthSum : List Node → Nat
  | [] => 0
  | part :: rest => part.minLength + minLengthSum rest

/-- The least of the least numbers of several parts. -/
def leastLength? : List Node → Option Nat
  | [] => none
  | part :: rest =>
    match leastLength? rest with
    | some n => some (min part.minLength n)
    | none => some part.minLength

end

mutual

/-- Whether all matches of a part have the same number of characters, as far as its form shows. -/
def hasFixedLength : Node → Bool
  | empty | assertion _ | one _ | look .. | hasMatched _ | keep | searchStart => true
  | sequence parts => haveFixedLength parts
  | choice parts => haveFixedLength parts && haveMinLength (minLength (.choice parts)) parts
  | group _ body | atomic body => body.hasFixedLength
  | repeated least most _ body => most == some least && body.hasFixedLength
  | conditional a b c =>
    a.hasFixedLength && b.hasFixedLength && c.hasFixedLength
      && a.minLength + b.minLength == c.minLength
  | sameAs _ => false

/-- Whether each of several parts has a fixed length. -/
def haveFixedLength : List Node → Bool
  | [] => true
  | part :: rest => part.hasFixedLength && haveFixedLength rest

/-- Whether each of several parts has this least length. -/
def haveMinLength (n : Nat) : List Node → Bool
  | [] => true
  | part :: rest => part.minLength == n && haveMinLength n rest

end

end Node

end ApiContract.Pattern
