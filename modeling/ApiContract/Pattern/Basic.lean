import ApiContract.Pattern.Parser
import ApiContract.Pattern.Backtracking
/-!
# Patterns

A pattern is a text that says which texts match. Plain patterns always have an answer; the search
of others is given up after too many alternatives.
-/

namespace ApiContract

/-- How a pattern is matched. -/
inductive Pattern.Method where
  | plain (node : Node)
  | backtracking (groups : Nat) (plan : Plan)
deriving Inhabited

/-- A pattern. -/
structure Pattern where
  source : String
  method : Pattern.Method
deriving Inhabited

namespace Pattern

/-- The pattern that a text writes. Besides texts that are not well-formed, two kinds are refused by
limits of this library: patterns whose plain parts are too large, where the size is the estimate
`Node.weight` and the bound `Node.weightLimit`, and patterns that name a property other than a general
category, a script or one of `Property.otherNames`. A matcher that measures its automata, or knows all
properties, admits some of these. -/
def compile? (source : String) : Option Pattern :=
  (parse? source).bind fun structure' =>
    let node := structure'.node
    if node.isPlain structure'.referenced then
      if node.isAdmitted then some ⟨source, .plain node⟩ else none
    else
      (Plan.ofNode? structure'.referenced true node).map fun plan =>
        ⟨source, .backtracking node.groupCount plan⟩

/-- Whether a pattern matches somewhere in a text; none when the search was given up. -/
def isMatch? (pattern : Pattern) (s : String) : Option Bool :=
  let text := s.toList.toArray
  match pattern.method with
  | .plain node => some (matchesPlain text node)
  | .backtracking groups plan => matchesByBacktracking text groups plan

/-- What messages say of a search that was given up. -/
def givenUp : String := "Error executing regex: Max limit for backtracking count exceeded"

end Pattern

end ApiContract
