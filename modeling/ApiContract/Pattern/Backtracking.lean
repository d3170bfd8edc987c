import ApiContract.Pattern.Reach
/-!
# Matching by backtracking

Patterns that are not plain are matched by trying alternatives one after the other. A `Plan` says
which parts are tried that way; the others are taken at their preferred end. A thread of the search
is an agenda of tasks at a position. When it fails, the latest alternative is taken up again, and
how often that may happen is limited.
-/

namespace ApiContract.Pattern

/-- How a pattern is matched by backtracking. -/
inductive Plan where
  | nothing
  /-- A plain part, of which only the preferred end is taken. -/
  | whole (part : Node)
  | assertion (a : Assertion)
  | sequence (parts : List Plan)
  | choice (parts : List Plan)
  | group (index : Nat) (body : Plan)
  | optional (greedy : Bool) (body : Plan)
  | star (greedy : Bool) (body : Plan)
  | plus (greedy : Bool) (body : Plan)
  | counted (least most : Nat) (greedy : Bool) (body : Plan)
  /-- Repetitions without bound of a part that can match nothing. -/
  | guarded (least : Nat) (greedy : Bool) (body : Plan)
  | atLeast (least : Nat) (greedy : Bool) (body : Plan)
  /-- A part that has to match, beginning so many characters before the position. -/
  | look (back : Nat) (body : Plan)
  | lookNot (back : Nat) (body : Plan)
  | atomic (body : Plan)
  | sameAs (group : Nat)
  | hasMatched (group : Nat)
  | conditional (condition yes no : Plan)
  | searchStart
deriving Inhabited

namespace Plan

/-- A plain part as a plan, unless it is too large. -/
def ofPlain? (part : Node) : Option Plan := if part.isAdmitted then some (whole part) else none

/-- The plan of repetitions. -/
def repetition (least : Nat) (most : Option Nat) (greedy canBeEmpty : Bool) (body : Plan) : Plan :=
  match least, most with
  | 0, some 1 => optional greedy body
  | least, some n => counted least n greedy body
  | least, none =>
    if canBeEmpty then guarded least greedy body
    else
      match least with
      | 0 => star greedy body
      | 1 => plus greedy body
      | n => atLeast n greedy body

/-- The plan of a part that is looked for behind the position, from the plans of its alternatives. -/
def behind (negated : Bool) (alternatives : List (Nat × Plan)) : Plan :=
  if negated then
    match alternatives.map fun (back, body) => lookNot back body with
    | [one] => one
    | several => sequence several
  else
    match alternatives.map fun (back, body) => look back body with
    | [one] => one
    | several => choice several

mutual

/-- The plan of a part. Unless the part is `exposed` to alternatives after it, it is taken as a whole
where it is plain. A part that is looked for behind the position needs a fixed length. -/
def ofNode? (referenced : List Nat) (exposed : Bool) (node : Node) : Option Plan :=
  if !exposed && node.isPlain referenced then ofPlain? node
  else
    match node with
    | .empty | .keep => some nothing
    | .assertion a => some (assertion a)
    | .one set => some (whole (.one set))
    | .sequence parts => (ofSequence? referenced exposed true parts).map sequence
    | .choice parts => (ofAll? referenced exposed parts).map choice
    | .group index body => (ofNode? referenced exposed body).map (group index)
    | .repeated least most greedy body =>
      let single := least == 0 && most == some 1
      (ofNode? referenced (exposed || !single) body).map
        (repetition least most greedy (body.minLength == 0))
    | .look false negated body =>
      (ofNode? referenced false body).map (if negated then lookNot 0 else look 0)
    | .look true negated body => (ofBehind? referenced body).map (behind negated)
    | .atomic body => (ofNode? referenced false body).map atomic
    | .sameAs index => some (sameAs index)
    | .hasMatched index => some (hasMatched index)
    | .conditional condition yes no =>
      (ofNode? referenced exposed condition).bind fun condition =>
        (ofNode? referenced exposed yes).bind fun yes =>
          (ofNode? referenced exposed no).map fun no => conditional condition yes no
    | .searchStart => some searchStart

/-- The plans of parts one after the other. Plain parts of fixed length in front are taken as they
are, and so are the plain parts at the end; those need a fixed length too when exposed. -/
def ofSequence? (referenced : List Nat) (exposed front : Bool) :
    List Node → Option (List Plan)
  | [] => some []
  | part :: rest =>
    let parts := part :: rest
    if front && part.isPlain referenced && part.hasFixedLength then
      (ofPlain? part).bind fun plan =>
        (ofSequence? referenced exposed true rest).map fun plans => plan :: plans
    else if Node.areAllPlain referenced parts && (!exposed || Node.haveFixedLength parts) then
      (ofPlain? (.sequence parts)).map fun plan => [plan]
    else
      (ofNode? referenced true part).bind fun plan =>
        (ofSequence? referenced exposed false rest).map fun plans => plan :: plans

/-- The plans of several parts. -/
def ofAll? (referenced : List Nat) (exposed : Bool) : List Node → Option (List Plan)
  | [] => some []
  | part :: rest =>
    (ofNode? referenced exposed part).bind fun plan =>
      (ofAll? referenced exposed rest).map fun plans => plan :: plans

/-- The plans of the alternatives of a part that is looked for behind the position, each with its
length. -/
def ofBehind? (referenced : List Nat) (body : Node) : Option (List (Nat × Plan)) :=
  if body.hasFixedLength then
    (ofNode? referenced false body).map fun plan => [(body.minLength, plan)]
  else
    match body with
    | .choice parts => ofAllBehind? referenced parts
    | _ => none

/-- The plans of several alternatives, each of a fixed length. -/
def ofAllBehind? (referenced : List Nat) : List Node → Option (List (Nat × Plan))
  | [] => some []
  | part :: rest =>
    if part.hasFixedLength then
      (ofNode? referenced false part).bind fun plan =>
        (ofAllBehind? referenced rest).map fun plans => (part.minLength, plan) :: plans
    else none

end

end Plan

/-- Something a thread has still to do. -/
inductive Task where
  | run (plan : Plan)
  /-- A group ends here. -/
  | close (index : Nat)
  /-- One more repetition, or none. -/
  | again (greedy : Bool) (body : Plan)
  | count (least : Nat) (most : Option Nat) (greedy : Bool) (done : Nat) (body : Plan)
  /-- As `count`, unless the last repetition began at this position. -/
  | guard (least : Nat) (greedy : Bool) (done : Nat) (last : Option Nat) (body : Plan)
  | goTo (position : Nat)
  /-- Go back so many characters, or fail where there are fewer. -/
  | goBack (count : Nat)
  /-- Forget the alternatives above a height. -/
  | commit (height : Nat)
  /-- Forget the alternatives above a height and fail. -/
  | refute (height : Nat)
deriving Inhabited

/-- A thread of the search. -/
structure Thread where
  agenda : List Task
  position : Nat
  /-- Where the groups began, at even places, and ended, at odd ones. -/
  marks : Array (Option Nat)
deriving Inhabited

/-- What comes of a task. -/
inductive Effect where
  | go (thread : Thread)
  /-- Go on with the first thread; the second is an alternative. -/
  | goOr (first second : Thread)
  | commit (height : Nat) (thread : Thread)
  | fail
  | failTo (height : Nat)

namespace Thread

/-- Mark the position. -/
def mark (thread : Thread) (place : Nat) : Thread :=
  { thread with marks := thread.marks.setIfInBounds place (some thread.position) }

/-- The position that was marked. -/
def marked? (thread : Thread) (place : Nat) : Option Nat := (thread.marks[place]?).join

/-- Whether the same characters stand in a stretch of a text and at a position. -/
def sameStretch (text : Array Char) (start : Nat) (position : Nat) : (length : Nat) → Bool
  | 0 => true
  | n + 1 =>
    match text[position + n]? with
    | some c => text[start + n]? = some c && sameStretch text start position n
    | none => false

/-- One thread or the other, the first preferred when greedy. -/
def either (greedy : Bool) (first second : Thread) : Effect :=
  if greedy then .goOr first second else .goOr second first

/-- Begin a plan, with `rest` to do after it. -/
def begin (text : Array Char) (height : Nat) (thread : Thread) (rest : List Task) :
    Plan → Effect
  | .nothing => .go { thread with agenda := rest }
  | .whole part =>
    match ends text part thread.position with
    | q :: _ => .go { thread with agenda := rest, position := q }
    | [] => .fail
  | .assertion a =>
    if a.holds text thread.position then .go { thread with agenda := rest } else .fail
  | .sequence parts => .go { thread with agenda := parts.map .run ++ rest }
  | .choice [] => .fail
  | .choice [part] => .go { thread with agenda := .run part :: rest }
  | .choice (part :: others) =>
    .goOr { thread with agenda := .run part :: rest }
      { thread with agenda := .run (.choice others) :: rest }
  | .group index body =>
    .go { thread.mark (2 * index) with agenda := .run body :: .close index :: rest }
  | .optional greedy body =>
    either greedy { thread with agenda := .run body :: rest } { thread with agenda := rest }
  | .star greedy body => .go { thread with agenda := .again greedy body :: rest }
  | .plus greedy body => .go { thread with agenda := .run body :: .again greedy body :: rest }
  | .counted least most greedy body =>
    .go { thread with agenda := .count least (some most) greedy 0 body :: rest }
  | .atLeast least greedy body =>
    .go { thread with agenda := .count least none greedy 0 body :: rest }
  | .guarded least greedy body =>
    .go { thread with agenda := .guard least greedy 0 none body :: rest }
  | .look back body =>
    .go { thread with agenda := .goBack back :: .run body :: .goTo thread.position :: rest }
  | .lookNot back body =>
    .goOr { thread with agenda := [.goBack back, .run body, .refute height] }
      { thread with agenda := rest }
  | .atomic body => .go { thread with agenda := .run body :: .commit height :: rest }
  | .sameAs group =>
    match thread.marked? (2 * group), thread.marked? (2 * group + 1) with
    | some start, some stop =>
      let length := stop - start
      if sameStretch text start thread.position length then
        .go { thread with agenda := rest, position := thread.position + length }
      else .fail
    | _, _ => .fail
  | .hasMatched group =>
    if (thread.marked? (2 * group)).isSome then .go { thread with agenda := rest } else .fail
  | .conditional condition yes no =>
    .goOr { thread with agenda := .run condition :: .commit height :: .run yes :: rest }
      { thread with agenda := .run no :: rest }
  | .searchStart => if thread.position = 0 then .go { thread with agenda := rest } else .fail

/-- Do a task, with `rest` to do after it. -/
def perform (text : Array Char) (height : Nat) (thread : Thread) (rest : List Task) :
    Task → Effect
  | .run plan => begin text height thread rest plan
  | .close index => .go { thread.mark (2 * index + 1) with agenda := rest }
  | .again greedy body =>
    either greedy { thread with agenda := .run body :: .again greedy body :: rest }
      { thread with agenda := rest }
  | .count least most greedy done body =>
    if most = some done then .go { thread with agenda := rest }
    else
      let more := .run body :: .count least most greedy (done + 1) body :: rest
      if done < least then .go { thread with agenda := more }
      else either greedy { thread with agenda := more } { thread with agenda := rest }
  | .guard least greedy done last body =>
    if 0 < done && last = some thread.position then .fail
    else if done < least then
      .go { thread with agenda := .run body :: .guard least greedy (done + 1) last body :: rest }
    else
      let last := some thread.position
      either greedy
        { thread with agenda := .run body :: .guard least greedy (done + 1) last body :: rest }
        { thread with agenda := rest }
  | .goTo position => .go { thread with agenda := rest, position := position }
  | .goBack count =>
    if thread.position < count then .fail
    else .go { thread with agenda := rest, position := thread.position - count }
  | .commit height => .commit height { thread with agenda := rest }
  | .refute height => .failTo height

end Thread

/-- How often an alternative may be taken up again. -/
def resumptionLimit : Nat := 1000000

/-- Run a thread to the end of its agenda, or the latest alternative when it fails. None when the
limit does not allow to find out whether there is a match. -/
def search (text : Array Char) :
    (fuel resumptions : Nat) → (alternatives : List Thread) → (height : Nat) → Thread → Option Bool
  | 0, _, _, _, _ => none
  | fuel + 1, resumptions, alternatives, height, thread =>
    let resume (alternatives : List Thread) (height : Nat) : Option Bool :=
      match resumptions, alternatives with
      | _, [] => some false
      | 0, _ => none
      | left + 1, next :: others => search text fuel left others (height - 1) next
    match thread.agenda with
    | [] => some true
    | task :: rest =>
      match thread.perform text height rest task with
      | .go thread => search text fuel resumptions alternatives height thread
      | .goOr first second =>
        search text fuel resumptions (second :: alternatives) (height + 1) first
      | .commit kept thread =>
        search text fuel resumptions (alternatives.drop (height - kept)) kept thread
      | .fail => resume alternatives height
      | .failTo kept => resume (alternatives.drop (height - kept)) kept

/-- Whether a plan matches somewhere in a text: at its start, or else further on. -/
def matchesByBacktracking (text : Array Char) (groups : Nat) (plan : Plan) : Option Bool :=
  let anywhere := [Task.again false (.whole (.one .everything)), Task.run plan]
  let start : Thread := ⟨anywhere, 0, Array.replicate (2 * groups + 2) none⟩
  search text ((resumptionLimit + 2) * (text.size + 2) * 64) resumptionLimit [] 0 start

end ApiContract.Pattern
