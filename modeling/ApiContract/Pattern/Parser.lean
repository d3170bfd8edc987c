import ApiContract.Pattern.Node
import ApiContract.Pattern.Bracket
/-!
# Reading patterns

From the text of a pattern to its structure. `Node.parse?` refuses a text that is no pattern; which
flaw it has does not matter.
-/

namespace ApiContract.Pattern

/-- The switches that a pattern can set for what follows in it. -/
structure Flags where
  ignoreCase : Bool
  /-- Whether `^` and `$` hold at every line. -/
  everyLine : Bool
  /-- Whether `.` includes the end of a line. -/
  dotAll : Bool
  /-- Whether greedy and reluctant repetitions trade places. -/
  swapGreed : Bool
  /-- Whether blanks and comments are skipped. -/
  spaced : Bool

/-- How far a pattern has been read. -/
structure Scan where
  rest : List Char
  flags : Flags
  /-- The number of groups opened so far. -/
  groups : Nat
  names : Entries Nat
  /-- Whether a group has been referred to by its number. -/
  numbered : Bool
  referenced : List Nat

/-- A step of reading, which fails on a text that is no pattern. -/
abbrev Reader := StateT Scan Option

namespace Reader

/-- Fail. -/
def refuse {α : Type} : Reader α := fun _ => none

/-- What has not been read yet. -/
def rest : Reader (List Char) := fun s => some (s.rest, s)

/-- Go on at a text. -/
def goOn (cs : List Char) : Reader Unit := fun s => some ((), { s with rest := cs })

/-- The switches in force. -/
def flags : Reader Flags := fun s => some (s.flags, s)

/-- Set the switches. -/
def setFlags (flags : Flags) : Reader Unit := fun s => some ((), { s with flags := flags })

/-- The number of groups opened so far. -/
def groups : Reader Nat := fun s => some (s.groups, s)

/-- Open a group, with a name or without, and return its number. -/
def openGroup (name : Option String) : Reader Nat := fun s =>
  let index := s.groups + 1
  let names :=
    match name with
    | some name => Entries.put name index s.names
    | none => s.names
  some (index, { s with groups := index, names := names })

/-- The number of the group of a name. -/
def named? (name : String) : Reader (Option Nat) := fun s => some (Entries.get? name s.names, s)

/-- Note that a group is referred to. -/
def refer (group : Nat) : Reader Unit := fun s =>
  some ((), { s with referenced := group :: s.referenced })

/-- Note that a group is referred to by its number. -/
def referByNumber : Reader Unit := fun s => some ((), { s with numbered := true })

/-- Refuse a pattern that has named groups and refers to groups by their numbers. -/
def refuseMixedReferences : Reader Unit := fun s =>
  if s.numbered && !s.names.isEmpty then none else some ((), s)

/-- What follows a comment, given what follows its opening. -/
def afterComment? : List Char → Option (List Char)
  | ')' :: rest => some rest
  | '\\' :: _ :: rest => afterComment? rest
  | _ :: rest => afterComment? rest
  | [] => none

/-- A text without the blanks and comments at its front. -/
def dropIgnored? (spaced : Bool) : (fuel : Nat) → List Char → Option (List Char)
  | 0, cs => some cs
  | fuel + 1, cs =>
    match cs with
    | '(' :: '?' :: '#' :: rest => (afterComment? rest).bind (dropIgnored? spaced fuel)
    | c :: rest =>
      if spaced && (c = ' ' || c = '\t' || c = '\n' || c = '\r') then dropIgnored? spaced fuel rest
      else if spaced && c = '#' then
        dropIgnored? spaced fuel ((rest.dropWhile (· != '\n')).drop 1)
      else some cs
    | [] => some []

/-- Skip comments, and blanks where they are skipped. -/
def skipIgnored : Reader Unit := fun s =>
  (dropIgnored? s.flags.spaced s.rest.length s.rest).map fun rest => ((), { s with rest := rest })

/-- Skip to behind a closing parenthesis. -/
def close : Reader Unit := do
  skipIgnored
  match ← rest with
  | ')' :: after => goOn after
  | _ => refuse

end Reader

open Reader

/-- Whether a character may stand in the name of a group. -/
def isNameChar (c : Char) : Bool :=
  let group := (Text.Category.of c).group
  c = '_' || group = 'L' || group = 'N'

/-- A name up to its closing text, and what follows. A hyphen may stand in front where it is
admitted. -/
def groupName? (signed : Bool) (closing cs : List Char) : Option (String × List Char) :=
  let (sign, body) :=
    match cs with
    | '-' :: more => if signed then (['-'], more) else ([], cs)
    | _ => ([], cs)
  let name := body.takeWhile isNameChar
  let after := body.drop name.length
  if name.isEmpty || !closing.isPrefixOf after then none
  else some (String.ofList (sign ++ name), after.drop closing.length)

/-- The group that a text refers to: by name, by number, or counted back from the last one opened. -/
def referenceByName (name : String) : Reader Nat := do
  match ← named? name with
  | some index => refer index; return index
  | none =>
    match Decimal.readInteger? 10 name.toList with
    | none => refuse
    | some n =>
      let opened ← groups
      let index : Int := if n < 0 then opened + n + 1 else n
      if index < 0 then refuse
      else
        refer index.toNat
        return index.toNat

/-- A number in digits below `2^64`, and what follows it. -/
def number? (cs : List Char) : Option (Nat × List Char) :=
  let digits := cs.takeWhile Char.isDigit
  (Decimal.readDigits? 10 digits).bind fun n =>
    if n < Nat.pow 2 64 then some (n, cs.drop digits.length) else none

/-- A reference by number. Numbers from half the length of the pattern on are refused. -/
def referenceByNumber (limit : Nat) (cs : List Char) : Reader Nat := do
  match number? cs with
  | some (n, after) =>
    if n < limit then
      referByNumber
      refer n
      goOn after
      return n
    else refuse
  | none => refuse

/-- The set of one character, closed under case where it does not count. -/
def characterSet (ignoreCase : Bool) (c : Char) : CharSet :=
  if ignoreCase then .folded (.single c) else .single c

/-- All characters but the end of a line. -/
def withinLine : CharSet := .complement (.single '\n')

/-- The end of a text, with line ends between or not. -/
def lastLineEnd : Node :=
  .look false false (.sequence [.repeated 0 none true (.one (.single '\n')), .assertion .textEnd])

/-- The set that an escape outside brackets stands for. -/
def escapeSet (ignoreCase : Bool) : Escape → CharSet
  | .character c => characterSet ignoreCase c
  | .set s => s
  | .property negated s => Escape.propertySet ignoreCase negated s
  | .hexDigit negated => Escape.propertySet false negated Escape.hexDigits

/-- The part that a backslash begins. -/
def readEscape (limit : Nat) : Reader Node := do
  match ← rest with
  | [] => refuse
  | c :: after =>
    if c.isDigit then return .sameAs (← referenceByNumber limit (c :: after))
    else
      let assertion (a : Assertion) : Reader Node := do
        goOn after
        return .assertion a
      match c with
      | 'k' =>
        let named? :=
          match after with
          | '<' :: body => groupName? true ['>'] body
          | '\x27' :: body => groupName? true ['\x27'] body
          | _ => none
        match named? with
        | some (name, after) =>
          goOn after
          return .sameAs (← referenceByName name)
        | none => refuse
      | 'A' => assertion .textStart
      | 'z' => assertion .textEnd
      | 'Z' =>
        goOn after
        return lastLineEnd
      | 'b' => if after.head? = some '\x7b' then refuse else assertion .wordBoundary
      | 'B' => if after.head? = some '\x7b' then refuse else assertion .notWordBoundary
      | '<' => assertion .wordStart
      | '>' => assertion .wordEnd
      | 'K' =>
        goOn after
        return .keep
      | 'G' =>
        goOn after
        return .searchStart
      | _ =>
        match Escape.read? c after with
        | some (escape, after) =>
          goOn after
          return .one (escapeSet (← flags).ignoreCase escape)
        | none => refuse

/-- The least and the greatest number of a repetition in braces, after the first of them, with
what follows. Nothing where the braces write something else. -/
def counts? (spaced : Bool) (cs : List Char) : Option ((Nat × Option Nat) × List Char) := do
  let skip (cs : List Char) : Option (List Char) := dropIgnored? spaced cs.length cs
  let cs ← skip cs
  let (least, cs) ← if cs.head? = some ',' then some (0, cs) else number? cs
  let cs ← skip cs
  let (most, cs) ←
    match cs with
    | '\x7d' :: _ => some (some least, cs)
    | ',' :: after => do
      let after ← skip after
      match number? after with
      | some (n, after) => some (some n, after)
      | none => some (none, after)
    | _ => none
  match ← skip cs with
  | '\x7d' :: after => some ((least, most), after)
  | _ => none

/-- The least and the greatest number of the repetition sign at the front, with what follows. -/
def repetition? (spaced : Bool) : List Char → Option ((Nat × Option Nat) × List Char)
  | '?' :: after => some ((0, some 1), after)
  | '*' :: after => some ((0, none), after)
  | '+' :: after => some ((1, none), after)
  | '\x7b' :: after => counts? spaced after
  | _ => none

/-- A part under the repetition sign at the front, if there is one. -/
def readRepetition (part : Node) : Reader Node := do
  skipIgnored
  let flags ← flags
  match repetition? flags.spaced (← rest) with
  | none => return part
  | some ((least, most), after) =>
    if !part.isRepeatable then refuse
    else
      goOn after
      skipIgnored
      let reluctant := (← rest).head? = some '?'
      if reluctant then goOn ((← rest).drop 1)
      let node := Node.repeated least most (reluctant == flags.swapGreed) part
      if (← rest).head? = some '+' then
        goOn ((← rest).drop 1)
        return .atomic node
      else return node

/-- The switches after a letter has set or cleared one of them; none when the letter is no switch. -/
def Flags.set? (flags : Flags) (on : Bool) : Char → Option Flags
  | 'i' => some { flags with ignoreCase := on }
  | 'm' => some { flags with everyLine := on }
  | 's' => some { flags with dotAll := on }
  | 'U' => some { flags with swapGreed := on }
  | 'x' => some { flags with spaced := on }
  | 'u' => if on then some flags else none
  | _ => none

/-- How a list of switches ends. -/
inductive FlagsEnd where
  /-- They hold from here on. -/
  | here
  /-- They hold in the group that begins here. -/
  | group

/-- Set the switches of a list. `started` tells whether one has been read, `cleared` whether the sign
before switches that are cleared has. -/
def readFlags : (fuel : Nat) → (started cleared afterSign : Bool) → Reader FlagsEnd
  | 0, _, _, _ => refuse
  | fuel + 1, started, cleared, afterSign => do
    skipIgnored
    match ← rest with
    | [] => refuse
    | ')' :: after =>
      if !started || afterSign then refuse
      else
        goOn after
        return .here
    | ':' :: after =>
      if afterSign then refuse
      else
        goOn after
        return .group
    | '-' :: after =>
      if cleared then refuse
      else
        goOn after
        readFlags fuel true true (!started)
    | c :: after =>
      match (← flags).set? (!cleared) c with
      | some flags =>
        setFlags flags
        goOn after
        readFlags fuel true cleared false
      | none => refuse

/-- What the opening of a group says about it. -/
inductive Opening where
  | look (behind negated : Bool)
  | remembered (name : Option String)
  | atomic
  | conditional
  | reference (name : String)
  | flags
  | malformed

/-- The opening of a group after its parenthesis, and what follows. -/
def opening : List Char → Opening × List Char
  | '?' :: '=' :: after => (.look false false, after)
  | '?' :: '!' :: after => (.look false true, after)
  | '?' :: '<' :: '=' :: after => (.look true false, after)
  | '?' :: '<' :: '!' :: after => (.look true true, after)
  | '?' :: '<' :: after =>
    match groupName? false ['>'] after with
    | some (name, after) => (.remembered (some name), after)
    | none => (.malformed, after)
  | '?' :: 'P' :: '<' :: after =>
    match groupName? false ['>'] after with
    | some (name, after) => (.remembered (some name), after)
    | none => (.malformed, after)
  | '?' :: 'P' :: '=' :: after =>
    match groupName? false [')'] after with
    | some (name, after) => (.reference name, after)
    | none => (.malformed, after)
  | '?' :: '>' :: after => (.atomic, after)
  | '?' :: '(' :: after => (.conditional, after)
  | '?' :: after => (.flags, after)
  | after => (.remembered none, after)

/-- The branches of a conditional: the first alternative, and the others. -/
def branches : Node → Node × Node
  | .choice [yes, no] => (yes, no)
  | .choice (yes :: others) => (yes, .choice others)
  | node => (node, .empty)

/-- A condition that names a group asks whether it has matched. -/
def asCondition : Node → Node
  | .sameAs group => .hasMatched group
  | node => node

/-- Groups stand at most so deep in one another. -/
def depthLimit : Nat := 64

mutual

/-- The alternatives up to a closing parenthesis or the end. -/
def readAlternatives (limit : Nat) : (fuel depth : Nat) → Reader Node
  | 0, _ => refuse
  | fuel + 1, depth => do
    let first ← readBranch limit fuel depth
    skipIgnored
    if (← rest).head? = some '|' then
      let others ← readOthers limit fuel depth
      return .choice (first :: others)
    else
      refuseMixedReferences
      return first

/-- The alternatives after the first. -/
def readOthers (limit : Nat) : (fuel depth : Nat) → Reader (List Node)
  | 0, _ => refuse
  | fuel + 1, depth => do
    match ← rest with
    | '|' :: after =>
      goOn after
      let next ← readBranch limit fuel depth
      skipIgnored
      return next :: (← readOthers limit fuel depth)
    | _ => return []

/-- The parts of one alternative. -/
def readBranch (limit : Nat) : (fuel depth : Nat) → Reader Node
  | 0, _ => refuse
  | fuel + 1, depth => do
    match ← readPieces limit fuel depth with
    | [] => return .empty
    | [part] => return part
    | parts => return .sequence parts

/-- Parts one after the other, each with its repetition sign, as long as something is read. -/
def readPieces (limit : Nat) : (fuel depth : Nat) → Reader (List Node)
  | 0, _ => refuse
  | fuel + 1, depth => do
    let before ← rest
    if before.isEmpty then return []
    else
      let part ← readRepetition (← readAtom limit fuel depth)
      if (← rest).length = before.length then return []
      else
        let more ← readPieces limit fuel depth
        match part with
        | .empty => return more
        | part => return part :: more

/-- A part without a repetition sign. -/
def readAtom (limit : Nat) : (fuel depth : Nat) → Reader Node
  | 0, _ => refuse
  | fuel + 1, depth => do
    skipIgnored
    let flags ← flags
    match ← rest with
    | [] => return .empty
    | c :: after =>
      match c with
      | '.' =>
        goOn after
        return .one (if flags.dotAll then .everything else withinLine)
      | '^' =>
        goOn after
        return .assertion (if flags.everyLine then .lineStart else .textStart)
      | '$' =>
        goOn after
        return .assertion (if flags.everyLine then .lineEnd else .textEnd)
      | '(' =>
        goOn after
        readGroup limit fuel (depth + 1)
      | '\\' =>
        goOn after
        readEscape limit
      | '[' =>
        match Bracket.read? flags.ignoreCase after with
        | some ([set], after) =>
          goOn after
          return .one set
        | some (sets, after) =>
          goOn after
          return .sequence (sets.map .one)
        | none => refuse
      | _ =>
        if "+*?|)".toList.contains c then return .empty
        else
          goOn after
          return .one (characterSet flags.ignoreCase c)

/-- A part in parentheses, after the opening one. -/
def readGroup (limit : Nat) : (fuel depth : Nat) → Reader Node
  | 0, _ => refuse
  | fuel + 1, depth => do
    if depthLimit ≤ depth then refuse
    else
      skipIgnored
      let (kind, after) := opening (← rest)
      goOn after
      match kind with
      | .look behind negated =>
        let body ← readAlternatives limit fuel depth
        close
        return .look behind negated body
      | .remembered name =>
        let index ← openGroup name
        let body ← readAlternatives limit fuel depth
        close
        return .group index body
      | .atomic =>
        let body ← readAlternatives limit fuel depth
        close
        return .atomic body
      | .reference name => return .sameAs (← referenceByName name)
      | .conditional => readConditional limit fuel depth
      | .flags =>
        let before ← flags
        match ← readFlags (after.length + 1) false false false with
        | .here => return .empty
        | .group =>
          let body ← readAlternatives limit fuel depth
          match ← rest with
          | ')' :: after =>
            goOn after
            setFlags before
            return body
          | _ => refuse
      | .malformed => refuse

/-- A conditional, after the parenthesis of its condition. -/
def readConditional (limit : Nat) : (fuel depth : Nat) → Reader Node
  | 0, _ => refuse
  | fuel + 1, depth => do
    let condition ← readCondition limit fuel depth
    close
    let before ← rest
    let body ← readAlternatives limit fuel depth
    let unread := (← rest).length = before.length
    close
    if unread then
      match condition with
      | .sameAs group => return .hasMatched group
      | _ => refuse
    else
      match branches body with
      | (.empty, .empty) => return asCondition condition
      | (yes, no) => return .conditional (asCondition condition) yes no

/-- The condition of a conditional: a group by number or name, or a pattern. -/
def readCondition (limit : Nat) : (fuel depth : Nat) → Reader Node
  | 0, _ => refuse
  | fuel + 1, depth => do
    let cs ← rest
    let named? :=
      match cs with
      | '<' :: body => some (groupName? true ['>'] body)
      | '\x27' :: body => some (groupName? true ['\x27'] body)
      | _ => none
    match named? with
    | some (some (name, after)) =>
      goOn after
      return .sameAs (← referenceByName name)
    | some none => refuse
    | none =>
      match cs with
      | c :: _ =>
        if c.isDigit then return .sameAs (← referenceByNumber limit cs)
        else readAlternatives limit fuel depth
      | [] => refuse

end

/-- The structure of a pattern and the groups that are referred to. -/
structure Structure where
  node : Node
  referenced : List Nat

/-- The structure that a text writes. Groups that are referred to have to be there. -/
def parse? (source : String) : Option Structure :=
  let cs := source.toList
  let start : Scan := ⟨cs, ⟨false, false, false, false, false⟩, 0, [], false, []⟩
  match (readAlternatives (source.utf8ByteSize / 2) (8 * cs.length + 16) 0).run start with
  | some (node, scan) =>
    if scan.rest.isEmpty && scan.referenced.all fun n => 1 ≤ n && n ≤ node.groupCount then
      some ⟨node, scan.referenced⟩
    else none
  | none => none

end ApiContract.Pattern
