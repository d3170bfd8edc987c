import ApiContract.Parameter.Encoding
import ApiContract.Schema.Hint
import ApiContract.Text.Pieces
/-!
# Reading parameter values

Reading undoes writing as far as the text allows: a hint says which shape to read and which scalars
the atoms are.
-/

namespace ApiContract

open Json (Value)

namespace Parameter

/-- The atoms of a text; there are none in the empty text. -/
def atoms (separator : Char) (text : List Char) : List String :=
  if text.isEmpty then [] else (Text.pieces separator text).map String.ofList

/-- The names and texts of atoms with equals signs. -/
def assigned (texts : List String) : List (String × String) :=
  texts.filterMap fun text =>
    (Text.cutAt? '=' text.toList).map fun (key, value) => (String.ofList key, String.ofList value)

/-- Names and texts that take turns. A name at the end has no text. -/
def turns : List String → List (String × String)
  | [] => []
  | [key] => [(key, "")]
  | key :: value :: rest => (key, value) :: turns rest

/-- The object of names and texts; a name that comes again replaces its value. -/
def objectOf (hint : Hint) (pairs : List (String × String)) : Value :=
  .object (Entries.ofPairs (pairs.map fun (key, text) => (key, (hint.property key).coerce text)))

/-- The value of the expected shape that atoms write. Objects are read from assignments where these
are expected and every atom is one, else from names and texts in turns. -/
def typed (hint : Hint) (texts : List String) (assignments : Bool) : Value :=
  match hint.kind with
  | .scalar _ => hint.coerce (",".intercalate texts)
  | .array => .array (texts.map hint.items.coerce)
  | .object =>
    if assignments && texts.all fun text => text.toList.contains '=' then
      objectOf hint (assigned texts)
    else objectOf hint (turns texts)

/-- The value of a `label` text. -/
def decodeLabel (explode : Bool) (text : List Char) (hint : Hint) : Option Value :=
  (Text.afterFront? ['.'] text).map fun body =>
    match hint.kind with
    | .scalar _ => hint.coerce (String.ofList body)
    | _ => typed hint (atoms '.' body) explode

/-- The texts that assignments to one name write; other assignments are refused. -/
def ownTexts? (assigned : List Char) : List (List Char) → Option (List String)
  | [] => some []
  | piece :: rest =>
    (Text.afterFront? assigned piece).bind fun text =>
      (ownTexts? assigned rest).map (String.ofList text :: ·)

/-- The value of a `matrix` text. -/
def decodeMatrix (name : String) (explode : Bool) (text : List Char) (hint : Hint) : Option Value :=
  let bare := ';' :: name.toList
  if text = bare then
    some (match hint.kind with
      | .scalar _ => hint.coerce ""
      | .array => .array []
      | .object => .object [])
  else
    let whole : Option Value :=
      (Text.afterFront? (bare ++ ['=']) text).map fun body =>
        match hint.kind with
        | .scalar _ => hint.coerce (String.ofList body)
        | _ => typed hint (atoms ',' body) false
    match hint.kind with
    | .object =>
      if explode then
        (Text.afterFront? [';'] text).map fun body => typed hint (atoms ';' body) true
      else whole
    | .array =>
      if explode then
        let pieces := (Text.pieces ';' text).filter fun piece => !piece.isEmpty
        (ownTexts? (name.toList ++ ['=']) pieces).map fun texts => typed hint texts explode
      else whole
    | .scalar _ => whole

/-- The value that a text writes in a style of one text. -/
def decodeText (name : String) (style : ParameterStyle) (explode : Bool) (text : String)
    (hint : Hint) : Except CodecError Value :=
  let orMalformed (value? : Option Value) : Except CodecError Value :=
    match value? with
    | some value => .ok value
    | none => .error (.malformed style text)
  match style with
  | .simple => .ok (typed hint (atoms ',' text.toList) explode)
  | .label => orMalformed (decodeLabel explode text.toList hint)
  | .matrix => orMalformed (decodeMatrix name explode text.toList hint)
  | style => .error (.unsupportedShape style "text")

/-- The segments of a path in brackets, when a text consists of one or more. `segment` holds what has
been read of the one that is open. -/
def bracketPath? : (segment : Option (List Char)) → List Char → Option (List String)
  | none, [] => some []
  | some _, [] => none
  | none, c :: rest => if c = '[' then bracketPath? (some []) rest else none
  | some segment, c :: rest =>
    if c = ']' then (bracketPath? none rest).map (String.ofList segment.reverse :: ·)
    else bracketPath? (some (c :: segment)) rest

/-- The members with a text set at a path. What stands in the way is replaced by an object. -/
def setDeep (hint : Hint) (text : String) : (path : List String) → Entries Value → Entries Value
  | [], members => members
  | [last], members => Entries.put last ((hint.property last).coerce text) members
  | head :: rest, members =>
    let inner := ((Entries.get? head members).bind Value.members?).getD []
    Entries.put head (.object (setDeep (hint.property head) text rest inner)) members

/-- The object that pairs write whose names begin with the parameter's. -/
def decodeDeep (name : String) (pairs : List (String × String)) (hint : Hint) : Value :=
  .object (pairs.foldl
    (fun members (key, text) =>
      match (Text.afterFront? name.toList key.toList).bind (bracketPath? none) with
      | some path => setDeep hint text path members
      | none => members)
    [])

/-- The value that pairs write in a style with a separator. Pairs of other names do not count, but an
object that is spread over pairs takes all of them. -/
def decodeDelimited (name : String) (style : ParameterStyle) (separator : Char) (explode : Bool)
    (pairs : List (String × String)) (hint : Hint) : Value :=
  let own := (pairs.filter fun pair => pair.1 = name).map Prod.snd
  let first : Value := typed hint (atoms separator (own.headD "").toList) false
  match hint.kind with
  | .scalar _ =>
    match own with
    | text :: _ => hint.coerce text
    | [] => .null
  | .array => if explode then typed hint own true else first
  | .object => if explode && style == .form then objectOf hint pairs else first

/-- The value that pairs write in a style of pairs. -/
def decodePairs (name : String) (style : ParameterStyle) (explode : Bool)
    (pairs : List (String × String)) (hint : Hint) : Except CodecError Value :=
  match style with
  | .deepObject => .ok (decodeDeep name pairs hint)
  | style =>
    match pairSeparator? style with
    | some separator => .ok (decodeDelimited name style separator explode pairs hint)
    | none => .error (.unsupportedShape style "pair")

end Parameter

end ApiContract
