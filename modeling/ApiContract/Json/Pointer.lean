import ApiContract.Json.Value
import ApiContract.Decimal.Reader
import ApiContract.Text.Pieces
/-!
# JSON pointers

A pointer addresses a node of a value by a list of tokens: member names, and positions in arrays.
In a pointer's text each token follows a slash, with `~` and `/` in it written `~0` and `~1`.
-/

namespace ApiContract.Json.Pointer

/-- A token with its tildes and slashes escaped. -/
def escape (token : String) : String :=
  String.ofList (token.toList.flatMap fun c =>
    if c = '~' then ['~', '0'] else if c = '/' then ['~', '1'] else [c])

/-- The slashes that `~1` stands for. -/
def unescapeSlashes : List Char → List Char
  | '~' :: '1' :: rest => '/' :: unescapeSlashes rest
  | c :: rest => c :: unescapeSlashes rest
  | [] => []

/-- The tildes that `~0` stands for. -/
def unescapeTildes : List Char → List Char
  | '~' :: '0' :: rest => '~' :: unescapeTildes rest
  | c :: rest => c :: unescapeTildes rest
  | [] => []

/-- The token that an escaped token stands for: first the slashes are put back, then the tildes. -/
def unescape (token : List Char) : String :=
  String.ofList (unescapeTildes (unescapeSlashes token))

/-- The text of the pointer one token further. -/
def child (pointer token : String) : String := pointer ++ "/" ++ escape token

/-- The text of a pointer with the given tokens. -/
def ofTokens (tokens : List String) : String := tokens.foldl child ""

/-- The tokens of a pointer's text. A slash missing at the front is taken as written. -/
def tokens (pointer : String) : List String :=
  match pointer.toList with
  | [] => []
  | '/' :: rest => (Text.pieces '/' rest).map unescape
  | cs => (Text.pieces '/' cs).map unescape

/-- The position that a token gives in an array: digits, with a plus sign or zeros in front or not,
below `2^64`. -/
def index? (token : String) : Option Nat :=
  let cs := token.toList
  let digits :=
    match cs with
    | '+' :: rest => rest
    | _ => cs
  (Decimal.readDigits? 10 digits).bind fun n => if n < Nat.pow 2 64 then some n else none

/-- The node one token below a value. -/
def step? (value : Value) (token : String) : Option Value :=
  match value with
  | .object members => Entries.get? token members
  | .array items => (index? token).bind fun i => items[i]?
  | _ => none

/-- The node that a list of tokens addresses. -/
def follow? (value : Value) : List String → Option Value
  | [] => some value
  | token :: rest => (step? value token).bind fun next => follow? next rest

/-- The node that a pointer's text addresses. -/
def navigate? (value : Value) (pointer : String) : Option Value := follow? value (tokens pointer)

end ApiContract.Json.Pointer
