import ApiContract.Pattern.Node
/-!
# Matching plain patterns

A plain part leads from a position of a text to the positions where its matches end. `reach` takes
a set of positions to the set of all such ends, in time that no pattern makes explode; `ends` lists
the ends for one position in the order in which the pattern prefers them.
-/

namespace ApiContract.Pattern

/-- A list of positions without repetitions, and which positions it has. -/
structure Positions where
  /-- The members, latest first. -/
  members : List Nat
  /-- The bits at the members are set. -/
  seen : Nat

namespace Positions

/-- No position. -/
def empty : Positions := ⟨[], 0⟩

/-- Add a position unless it is there. -/
def insert (positions : Positions) (p : Nat) : Positions :=
  if positions.seen.testBit p then positions
  else ⟨p :: positions.members, positions.seen ||| 1 <<< p⟩

/-- Add several positions. -/
def insertAll (positions : Positions) (ps : List Nat) : Positions := ps.foldl insert positions

/-- The members in the order in which they came. -/
def toList (positions : Positions) : List Nat := positions.members.reverse

end Positions

/-- A list without its repetitions; of equal members the first stays. -/
def distinct (ps : List Nat) : List Nat := (Positions.empty.insertAll ps).toList

/-- Apply a step so many times. -/
def iterate (step : List Nat → List Nat) : Nat → List Nat → List Nat
  | 0, ps => ps
  | n + 1, ps => if ps.isEmpty then [] else iterate step n (step ps)

/-- The positions that are reached in up to so many steps, beside those that are there. -/
def spread (step : List Nat → List Nat) : (steps : Nat) → Positions → (newest : List Nat) → Positions
  | 0, positions, _ => positions
  | n + 1, positions, newest =>
    let fresh := (distinct (step newest)).filter fun p => !positions.seen.testBit p
    if fresh.isEmpty then positions else spread step n (positions.insertAll fresh) fresh

/-- How many times a step has to be repeated to be repeated so many times: beyond the number of
positions, a repetition more changes nothing. -/
def enoughSteps (text : Array Char) (n : Nat) : Nat := min n (text.size + 1)

/-- The ends of repetitions of a step. -/
def reachRepeated (text : Array Char) (least : Nat) (most : Option Nat) (step : List Nat → List Nat)
    (ps : List Nat) : List Nat :=
  let first := iterate step (enoughSteps text least) ps
  let more :=
    match most with
    | some n => enoughSteps text (n - least)
    | none => text.size + 1
  (spread step more (Positions.empty.insertAll first) first).toList

mutual

/-- The ends of all matches of a plain part that begin at one of the given positions. -/
def reach (text : Array Char) : Node → List Nat → List Nat
  | .empty, ps => ps
  | .assertion a, ps => ps.filter fun p => a.holds text p
  | .one set, ps =>
    ps.filterMap fun p =>
      match text[p]? with
      | some c => if set.contains c then some (p + 1) else none
      | none => none
  | .sequence parts, ps => reachSequence text parts ps
  | .choice parts, ps => (reachChoice text parts ps Positions.empty).toList
  | .group _ body, ps => reach text body ps
  | .repeated least most _ body, ps =>
    reachRepeated text least most (fun ps => reach text body ps) ps
  | _, _ => []

/-- The ends of parts one after the other. -/
def reachSequence (text : Array Char) : List Node → List Nat → List Nat
  | [], ps => ps
  | part :: rest, ps => reachSequence text rest (reach text part ps)

/-- The ends of any of several parts. -/
def reachChoice (text : Array Char) : List Node → List Nat → Positions → Positions
  | [], _, found => found
  | part :: rest, ps, found => reachChoice text rest ps (found.insertAll (reach text part ps))

end

/-- The search through the repetitions that follow a position: the positions whose repetitions have
been tried, and the ends in order. -/
structure Search where
  tried : Positions
  found : Positions

/-- The ends of one more repetition or several, from a position. `left` is the number of repetitions
that are still allowed. A repetition that matches nothing is not repeated. -/
def searchMore (width : Nat) (greedy : Bool) (step : Nat → List Nat) :
    (fuel : Nat) → (left : Option Nat) → Nat → Search → Search
  | 0, _, _, search => search
  | fuel + 1, left, p, search =>
    let key := (left.getD 0) * width + p
    if left = some 0 || search.tried.seen.testBit key then search
    else
      (step p).foldl
        (fun search q =>
          let more (search : Search) : Search :=
            if q = p then search
            else searchMore width greedy step fuel (left.map fun n => n - 1) q search
          let add (search : Search) : Search := { search with found := search.found.insert q }
          if greedy then add (more search) else more (add search))
        { search with tried := search.tried.insert key }

/-- The ends of up to so many repetitions from a position, in order of preference. -/
def searchUpTo (text : Array Char) (greedy : Bool) (step : Nat → List Nat) (left : Option Nat)
    (p : Nat) : List Nat :=
  let start : Search := ⟨Positions.empty, Positions.empty⟩
  let here (search : Search) : Search := { search with found := search.found.insert p }
  let more (search : Search) : Search :=
    searchMore (text.size + 1) greedy step (text.size + 2) left p search
  (if greedy then here (more start) else more (here start)).found.toList

mutual

/-- The ends of the matches of a plain part that begin at a position, the preferred one first. -/
def ends (text : Array Char) : Node → Nat → List Nat
  | .empty, p => [p]
  | .assertion a, p => if a.holds text p then [p] else []
  | .one set, p =>
    match text[p]? with
    | some c => if set.contains c then [p + 1] else []
    | none => []
  | .sequence parts, p => endsSequence text parts p
  | .choice parts, p => endsChoice text parts p
  | .group _ body, p => ends text body p
  | .repeated least most greedy body, p =>
    let step (q : Nat) : List Nat := ends text body q
    let first := iterate (fun ps => distinct (ps.flatMap step)) (enoughSteps text least) [p]
    distinct (first.flatMap (searchUpTo text greedy step (most.map fun n => n - least)))
  | _, _ => []

/-- The ends of parts one after the other. -/
def endsSequence (text : Array Char) : List Node → Nat → List Nat
  | [], p => [p]
  | part :: rest, p => distinct ((ends text part p).flatMap fun q => endsSequence text rest q)

/-- The ends of any of several parts, those of the earlier parts first. -/
def endsChoice (text : Array Char) : List Node → Nat → List Nat
  | [], _ => []
  | part :: rest, p => distinct (ends text part p ++ endsChoice text rest p)

end

/-- Whether a plain pattern matches somewhere in a text. -/
def matchesPlain (text : Array Char) (node : Node) : Bool :=
  !(reach text node (List.range (text.size + 1))).isEmpty

namespace CharSet

/-- About how many states an automaton on octets has for a set. -/
def weight : CharSet → Nat
  | everything => 20
  | range _ high => if high.toNat < 0x80 then 1 else 4
  | category _ | script _ | usedIn _ => 150
  | group _ | alphabetic | lowercase | uppercase => 600
  | blank => 15
  | word => 700
  | union a b | intersection a b | difference a b | symmetricDifference a b => a.weight + b.weight
  | complement a => a.weight + 20
  | folded a => a.weight + 1

end CharSet

namespace Node

/-- How many states a plain pattern may have at most, as `weight` counts them. The limit and the count are
this library's own: near the limit another matcher may decide otherwise. -/
def weightLimit : Nat := 400000

mutual

/-- About how many states a plain part has once its repetitions are written out. -/
def weight : Node → Nat
  | one set => set.weight
  | sequence parts | choice parts => weightSum parts
  | group _ body => body.weight + 2
  | repeated least most _ body => (body.weight + 1) * (most.getD (least + 1))
  | _ => 1

/-- The sum of the weights of several parts. -/
def weightSum : List Node → Nat
  | [] => 0
  | part :: rest => part.weight + weightSum rest

end

mutual

/-- Whether no repetition of a plain part has a greatest number below its least. -/
def hasOrderedCounts : Node → Bool
  | sequence parts | choice parts => haveOrderedCounts parts
  | group _ body => body.hasOrderedCounts
  | repeated least most _ body =>
    (match most with
      | some n => least ≤ n
      | none => true) && body.hasOrderedCounts
  | _ => true

/-- Whether this holds of several parts. -/
def haveOrderedCounts : List Node → Bool
  | [] => true
  | part :: rest => part.hasOrderedCounts && haveOrderedCounts rest

end

/-- Whether a plain part can be matched. -/
def isAdmitted (node : Node) : Bool := node.hasOrderedCounts && node.weight ≤ weightLimit

end Node

end ApiContract.Pattern
