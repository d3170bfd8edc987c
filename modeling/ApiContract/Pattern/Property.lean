import ApiContract.Entries
import ApiContract.Pattern.CharSet
/-!
# Named properties

The sets that `\p` names: general categories and scripts by their short or long names, and a few sets
beside them (`otherNames`). Case, blanks, hyphens, underscores and a leading `is` do not matter in a name.
-/

namespace ApiContract.Pattern.Property

open Text (Category)

/-- The long names of the general categories. -/
def categoryNames : List (String × Category) :=
  [("uppercaseletter", .lu), ("lowercaseletter", .ll), ("titlecaseletter", .lt),
    ("modifierletter", .lm), ("otherletter", .lo), ("nonspacingmark", .mn), ("spacingmark", .mc),
    ("enclosingmark", .me), ("decimalnumber", .nd), ("digit", .nd), ("letternumber", .nl),
    ("othernumber", .no), ("connectorpunctuation", .pc), ("dashpunctuation", .pd),
    ("openpunctuation", .ps), ("closepunctuation", .pe), ("initialpunctuation", .pi),
    ("finalpunctuation", .pf), ("otherpunctuation", .po), ("mathsymbol", .sm),
    ("currencysymbol", .sc), ("modifiersymbol", .sk), ("othersymbol", .so),
    ("spaceseparator", .zs), ("lineseparator", .zl), ("paragraphseparator", .zp),
    ("control", .cc), ("cntrl", .cc), ("format", .cf), ("surrogate", .cs), ("privateuse", .co),
    ("unassigned", .cn)]

/-- The long names of the groups of general categories. -/
def groupNames : List (String × Char) :=
  [("letter", 'L'), ("mark", 'M'), ("combiningmark", 'M'), ("number", 'N'), ("punctuation", 'P'),
    ("punct", 'P'), ("symbol", 'S'), ("separator", 'Z'), ("other", 'C')]

/-- The letters that have case. -/
def casedLetter : CharSet := .unions [.category .lu, .category .ll, .category .lt]

/-- The sets beside the categories and scripts. Other properties that characters have or have not, as
`Emoji` or `Dash`, are not known, and a pattern that names one is refused. -/
def otherNames : List (String × CharSet) :=
  [("any", .everything), ("ascii", .range '\x00' '\x7f'),
    ("assigned", .complement (.category .cn)), ("lc", casedLetter), ("casedletter", casedLetter),
    ("whitespace", .blank), ("space", .blank), ("wspace", .blank), ("alphabetic", .alphabetic),
    ("alpha", .alphabetic), ("lowercase", .lowercase), ("lower", .lowercase),
    ("uppercase", .uppercase), ("upper", .uppercase)]

/-- A name without what does not matter in it. -/
def normalize (name : String) : List Char :=
  let kept := (name.toList.filter fun c => c != ' ' && c != '-' && c != '_').map Char.toLower
  match kept with
  | 'i' :: 's' :: rest => if rest.isEmpty || rest = ['c'] then kept else rest
  | _ => kept

/-- The set of a general category or of a group of them, by its short name. -/
def shortName? : List Char → Option CharSet
  | [letter] => if groupNames.any (·.2 = letter.toUpper) then some (.group letter.toUpper) else none
  | [first, second] => (Category.ofCode? first.toUpper second).map .category
  | _ => none

/-- The four letters of the script of a name. -/
def scriptCode? (name : String) : Option String :=
  let normal := normalize name
  (Text.Script.names.find? fun names => names.any fun known => normalize known = normal).bind
    List.head?

/-- The set of a general category or of a group of them, by its short or long name. -/
def categoryNamed? (name : String) : Option CharSet :=
  let normal := normalize name
  let text := String.ofList normal
  ((shortName? normal).orElse fun _ => (Entries.get? text categoryNames).map .category).orElse
    fun _ => (Entries.get? text groupNames).map .group

/-- The set of a name. -/
def named? (name : String) : Option CharSet :=
  let text := String.ofList (normalize name)
  ((Entries.get? text otherNames).orElse fun _ => categoryNamed? name).orElse fun _ =>
    (scriptCode? name).map .script

/-- The sets that are values of the property of general categories and no categories themselves. -/
def isCategoryValue (name : String) : Bool :=
  ["any", "ascii", "assigned", "lc", "casedletter"].contains (String.ofList (normalize name))

/-- The set that a property with a value names. -/
def valued? (property value : String) : Option CharSet :=
  match String.ofList (normalize property) with
  | "generalcategory" | "gc" => if isCategoryValue value then named? value else categoryNamed? value
  | "script" | "sc" => (scriptCode? value).map .script
  | "scriptextensions" | "scx" => (scriptCode? value).map .usedIn
  | _ => none

/-- The parts of a name around the first occurrence of a character. -/
def cut? (mark : Char) (cs : List Char) : Option (List Char × List Char) :=
  if cs.contains mark then some (cs.takeWhile (· != mark), (cs.dropWhile (· != mark)).drop 1)
  else none

/-- The set of what stands in braces after `\p`: a name, or a property and its value with `=`, `:`
or `!=` between. -/
def ofBraces? (cs : List Char) : Option CharSet :=
  match cut? '=' cs, cut? ':' cs with
  | some (property, value), none =>
    match property.reverse with
    | '!' :: rest =>
      (valued? (String.ofList rest.reverse) (String.ofList value)).map .complement
    | _ => valued? (String.ofList property) (String.ofList value)
  | _, some (property, value) => valued? (String.ofList property) (String.ofList value)
  | none, none => named? (String.ofList cs)

end ApiContract.Pattern.Property
