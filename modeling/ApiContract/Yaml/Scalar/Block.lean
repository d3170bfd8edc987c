import ApiContract.Yaml.Cursor
import ApiContract.Yaml.Scalar.Quoted
/-!
# Block scalars

A block scalar is a run of lines with a common indentation, kept as they are or folded. A header says
what becomes of the breaks at the end, and may say how far the lines are indented.
-/

namespace ApiContract.Yaml

/-- What becomes of the breaks at the end of a block scalar. -/
inductive Chomping where
  /-- All are dropped. -/
  | strip
  /-- The first is kept. -/
  | clip
  /-- All are kept. -/
  | keep
deriving DecidableEq, Repr, Inhabited

/-- The header of a block scalar. -/
structure BlockHeader where
  folded : Bool
  chomping : Chomping
  /-- How much further than the collection around it the scalar is indented, where it says so. -/
  increment : Option Nat
deriving DecidableEq, Repr, Inhabited

/-- The way of chomping that a character stands for. -/
def chomping? : Char → Option Chomping
  | '-' => some .strip
  | '+' => some .keep
  | _ => none

/-- The increment at the front of a text: a digit, and not zero. None in none is a zero. -/
def increment? (cs : List Char) : Option (Option Nat) :=
  match cs.head? with
  | some '0' => none
  | some x => some (if x.isDigit then some (x.toNat - '0'.toNat) else none)
  | none => some none

/-- The header of a block scalar at a place, and the place after it. The way of chomping and the
increment come in either order. -/
def blockHeader? (c : Cursor) : Option (BlockHeader × Cursor) :=
  let folded := c.isAt '>'
  let c := c.next
  let chompingAt (c : Cursor) : Option Chomping := c.head?.bind chomping?
  match chompingAt c with
  | some chomping =>
    (increment? c.next.rest).map fun increment =>
      (⟨folded, chomping, increment⟩, if increment.isSome then c.skip 2 else c.next)
  | none =>
    (increment? c.rest).map fun increment =>
      match increment with
      | none => (⟨folded, .clip, none⟩, c)
      | some n =>
        match chompingAt c.next with
        | some chomping => (⟨folded, chomping, some n⟩, c.skip 2)
        | none => (⟨folded, .clip, some n⟩, c.next)

/-- Breaks before a line of a block scalar, with the indentation of that line. -/
structure BlockMargin where
  breaks : List Char
  /-- The greatest column that was reached by blanks. -/
  widest : Nat
  after : Cursor
deriving DecidableEq, Repr, Inhabited

/-- Skip empty lines and indentation, of the width of a scalar where that is known. A tab is no
indentation. `breaks` holds the breaks so far, latest first. -/
def blockMarginFrom (indent : Option Nat) :
    (fuel : Nat) → Cursor → (breaks : List Char) → (widest : Nat) → Option BlockMargin
  | 0, _, _, _ => none
  | fuel + 1, c, breaks, widest =>
    let blanks := (c.rest.takeWhile (· = ' ')).length
    let c := c.skip (indent.elim blanks fun n => min blanks (n - c.column))
    let widest := max widest c.column
    let inIndent := indent.all (c.column < ·)
    if inIndent && c.isAt '\t' then none
    else
      match c.head? with
      | some x =>
        if isBreak x then blockMarginFrom indent fuel c.next (x :: breaks) widest
        else some ⟨breaks.reverse, widest, c⟩
      | none => some ⟨breaks.reverse, widest, c⟩

/-- Skip empty lines and indentation. `limit` is more than the number of characters that follow. -/
def blockMargin? (limit : Nat) (indent : Option Nat) (c : Cursor) : Option BlockMargin :=
  blockMarginFrom indent limit c [] 0

/-- What has been read of a block scalar. -/
structure BlockText where
  /-- The text before the last break, latest first. -/
  text : List Char
  /-- The break that ended the last line, if there was one. -/
  lastBreak : List Char
  /-- The breaks of the empty lines after it. -/
  moreBreaks : List Char
  /-- Whether the last line began with a blank. -/
  beganBlank : Bool
deriving DecidableEq, Repr, Inhabited

namespace BlockText

/-- The text with the breaks before another line. A line feed between two lines that begin with no
blank is folded. -/
def joined (b : BlockText) (folded beginsBlank : Bool) : List Char :=
  let breaks :=
    if folded && b.lastBreak = ['\n'] && !b.beganBlank && !beginsBlank then
      foldBreaks (b.lastBreak ++ b.moreBreaks)
    else b.lastBreak ++ b.moreBreaks
  breaks.reverse ++ b.text

/-- The whole text with its breaks at the end. -/
def chomped (b : BlockText) : Chomping → List Char
  | .strip => b.text.reverse
  | .clip => b.text.reverse ++ b.lastBreak
  | .keep => b.text.reverse ++ b.lastBreak ++ b.moreBreaks

end BlockText

/-- Read the lines of a block scalar that are indented to a column. -/
def blockLines (limit : Nat) (folded : Bool) (indent : Nat) :
    (fuel : Nat) → Cursor → BlockText → Option (BlockText × Cursor)
  | 0, _, _ => none
  | fuel + 1, c, b =>
    if c.column = indent && !c.rest.isEmpty then
      let beginsBlank := c.head?.any isBlank
      let (line, ended) := c.span fun x => !isBreak x
      let lastBreak := ended.head?.toList
      match blockMargin? limit (some indent) ended.next with
      | none => none
      | some margin =>
        blockLines limit folded indent fuel margin.after
          ⟨line.reverse ++ b.joined folded beginsBlank, lastBreak, margin.breaks, beginsBlank⟩
    else some (b, c)

/-- The text of the block scalar at a place, and the place after it. `outer` is the column of the
collection around it, if there is one; `limit` is more than the number of characters that follow. -/
def block? (limit : Nat) (outer : Option Nat) (c : Cursor) : Option (List Char × Cursor) :=
  (blockHeader? c).bind fun (header, c) =>
    c.lineEnd?.bind fun c =>
      let c := c.next
      let given := header.increment.map fun n => outer.getD 0 + n
      (blockMargin? limit given c).bind fun margin =>
        let least := outer.elim 1 (· + 1)
        let indent := given.getD (max margin.widest least)
        (blockLines limit header.folded indent limit margin.after
          ⟨[], [], margin.breaks, false⟩).map fun (b, c) => (b.chomped header.chomping, c)

end ApiContract.Yaml
