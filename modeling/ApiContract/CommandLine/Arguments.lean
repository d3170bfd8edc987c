/-!
# Arguments of the command line

The commands and their arguments. An option can stand before or after what it belongs to, and its
value can follow an equals sign; after `--` nothing is an option.
-/

namespace ApiContract.CommandLine

/-- What the command line is asked to do. -/
inductive Command where
  /-- Read a description. -/
  | check (document : String)
  /-- List the operations of a description, or those with a tag. -/
  | operations (document : String) (tag : Option String)
  /-- Check a payload against a schema of a description. -/
  | validate (payload document schema : String) (json strict : Bool)
deriving DecidableEq, Repr, Inhabited

/-- The arguments of a command, sorted. -/
structure Arguments where
  /-- What is no option, in order. -/
  plain : List String
  /-- The options with values, in order. -/
  options : List (String × String)
  flags : List String
deriving DecidableEq, Repr, Inhabited

namespace Arguments

/-- No arguments. -/
def empty : Arguments := ⟨[], [], []⟩

/-- Add an argument that is no option. -/
def addPlain (arguments : Arguments) (text : String) : Arguments :=
  { arguments with plain := arguments.plain ++ [text] }

/-- Add an option, unless it is there already. -/
def addOption? (arguments : Arguments) (name value : String) : Option Arguments :=
  if arguments.options.any fun option => option.1 = name then none
  else some { arguments with options := arguments.options ++ [(name, value)] }

/-- Add a flag, unless it is there already. -/
def addFlag? (arguments : Arguments) (name : String) : Option Arguments :=
  if arguments.flags.contains name then none
  else some { arguments with flags := arguments.flags ++ [name] }

/-- The value of an option. -/
def option? (arguments : Arguments) (name : String) : Option String :=
  (arguments.options.find? fun option => option.1 = name).map Prod.snd

/-- The name and the value of an option that is written with an equals sign. -/
def cutOption? (text : String) : Option (String × String) :=
  let cs := text.toList
  if cs.contains '=' then
    some (String.ofList (cs.takeWhile (· != '=')), String.ofList ((cs.dropWhile (· != '=')).drop 1))
  else none

/-- Whether a text is written like an option. A hyphen alone is not. -/
def looksLikeOption (text : String) : Bool :=
  match text.toList with
  | '-' :: _ :: _ => true
  | _ => false

/-- Sort arguments, given the names of the options with values and of the flags. None when an
argument is not understood. -/
def sort? (options flags : List String) : Arguments → List String → Option Arguments
  | sofar, [] => some sofar
  | sofar, "--" :: rest => some { sofar with plain := sofar.plain ++ rest }
  | sofar, [text] =>
    if flags.contains text then sofar.addFlag? text
    else if looksLikeOption text then
      match cutOption? text with
      | some (name, value) => if options.contains name then sofar.addOption? name value else none
      | none => none
    else some (sofar.addPlain text)
  | sofar, text :: next :: rest =>
    if flags.contains text then
      (sofar.addFlag? text).bind fun sofar => sort? options flags sofar (next :: rest)
    else if options.contains text then
      if looksLikeOption next then none
      else (sofar.addOption? text next).bind fun sofar => sort? options flags sofar rest
    else if looksLikeOption text then
      match cutOption? text with
      | some (name, value) =>
        if options.contains name then
          (sofar.addOption? name value).bind fun sofar => sort? options flags sofar (next :: rest)
        else none
      | none => none
    else sort? options flags (sofar.addPlain text) (next :: rest)

end Arguments

/-- The command that arguments write. -/
def Command.parse? : List String → Option Command
  | "check" :: rest =>
    match Arguments.sort? [] [] .empty rest with
    | some ⟨[document], _, _⟩ => some (.check document)
    | _ => none
  | "operations" :: rest =>
    match Arguments.sort? ["--tag"] [] .empty rest with
    | some arguments =>
      match arguments.plain with
      | [document] => some (.operations document (arguments.option? "--tag"))
      | _ => none
    | none => none
  | "validate" :: rest =>
    match Arguments.sort? ["--doc", "--schema"] ["--json", "--strict"] .empty rest with
    | some arguments =>
      match arguments.plain, arguments.option? "--doc", arguments.option? "--schema" with
      | [payload], some document, some schema =>
        some (.validate payload document schema (arguments.flags.contains "--json")
          (arguments.flags.contains "--strict"))
      | _, _, _ => none
    | none => none
  | _ => none

end ApiContract.CommandLine
