import ApiContract.Yaml.Node
import ApiContract.Yaml.Tokens
/-!
# Documents

`document?` reads a text that holds one document, or none.
-/

namespace ApiContract.Yaml

/-- What the handles of tags stand for. -/
abbrev Handles := List (String × Octets)

/-- The handles that need no directive. -/
def standardHandles : Handles :=
  [("!", Text.Utf8.encode "!"), ("!!", Text.Utf8.encode "tag:yaml.org,2002:")]

/-- The tag that a text writes. -/
def tagOf? (handles : Handles) (text : TagText) : Option Tag :=
  if text.handle.isEmpty then some text.suffix
  else (handles.find? fun entry => entry.1 = text.handle).map fun entry => entry.2 ++ text.suffix

/-- The properties at the front of tokens: an anchor and a tag in either order. -/
def takeProperties? (handles : Handles) (tokens : List Token) :
    Option (Properties String × List Token) :=
  match tokens with
  | .anchor name :: .tag text :: rest =>
    (tagOf? handles text).map fun tag => (⟨some name, some tag⟩, rest)
  | .tag text :: .anchor name :: rest =>
    (tagOf? handles text).map fun tag => (⟨some name, some tag⟩, rest)
  | .anchor name :: rest => some (⟨some name, none⟩, rest)
  | .tag text :: rest => (tagOf? handles text).map fun tag => (⟨none, some tag⟩, rest)
  | rest => some (Node.bare, rest)

/-- Whether no node stands at the front of tokens because one of a few tokens does. -/
def lacksNode (enders : List Token) (tokens : List Token) : Bool := tokens.head?.any enders.contains

/-- A scalar with its properties. The tag `!` on a scalar says nothing. -/
def scalarNode (properties : Properties String) (text : String) (plain : Bool) : Node String :=
  let tag := properties.tag.filter fun tag => tag != Text.Utf8.encode "!"
  .scalar { properties with tag := tag } plain text

/-- A node of which nothing but properties is written. -/
def emptyNode (properties : Properties String) (rest : List Token) :
    Option (Node String × List Token) :=
  if properties = Node.bare then none else some (scalarNode properties "" true, rest)

/-- The tokens after the comma that all members of a collection in brackets but the first need. -/
def afterComma (first : Bool) (tokens : List Token) : Option (List Token) :=
  if first then some tokens
  else
    match tokens with
    | .comma :: rest => some rest
    | _ => none

mutual

/-- The node at the front of tokens, and the tokens after it. `inBlock` says whether it may be a
collection by indentation, `atKey` whether it may be a sequence whose dashes stand at the column of
the key. -/
def readNode (handles : Handles) (inBlock atKey : Bool) :
    (fuel : Nat) → List Token → Option (Node String × List Token)
  | 0, _ => none
  | fuel + 1, tokens =>
    match tokens with
    | .aliasOf name :: rest => some (.aliasOf name, rest)
    | tokens =>
      match takeProperties? handles tokens with
      | none => none
      | some (properties, rest) =>
        match rest with
        | .scalar text plain :: rest => some (scalarNode properties text plain, rest)
        | .bracketOpen :: rest =>
          (readBracketItems handles true fuel rest).map fun (items, rest) =>
            (.sequence properties items, rest)
        | .braceOpen :: rest =>
          (readBraceEntries handles true fuel rest).map fun (entries, rest) =>
            (.mapping properties entries, rest)
        | .dash :: _ =>
          if atKey then
            (readItemsAtKey handles fuel rest).map fun (items, rest) =>
              (.sequence properties items, rest)
          else emptyNode properties rest
        | .sequenceStart :: after =>
          if inBlock then
            (readItems handles fuel after).map fun (items, rest) =>
              (.sequence properties items, rest)
          else emptyNode properties rest
        | .mappingStart :: after =>
          if inBlock then
            (readEntries handles fuel after).map fun (entries, rest) =>
              (.mapping properties entries, rest)
          else emptyNode properties rest
        | rest => emptyNode properties rest
/-- The node at the front of tokens, which is missing before one of a few tokens. -/
def readOptional (handles : Handles) (inBlock atKey : Bool) (enders : List Token) :
    (fuel : Nat) → List Token → Option (Node String × List Token)
  | 0, _ => none
  | fuel + 1, tokens =>
    if lacksNode enders tokens then some (.missing Node.bare, tokens)
    else readNode handles inBlock atKey fuel tokens

/-- The items of a sequence by indentation, up to its end. -/
def readItems (handles : Handles) :
    (fuel : Nat) → List Token → Option (List (Node String) × List Token)
  | 0, _ => none
  | fuel + 1, tokens =>
    match tokens with
    | .dash :: rest =>
      match readOptional handles true false [.dash, .blockEnd] fuel rest with
      | none => none
      | some (item, rest) =>
        (readItems handles fuel rest).map fun (items, rest) => (item :: items, rest)
    | .blockEnd :: rest => some ([], rest)
    | _ => none

/-- The items of a sequence whose dashes stand at the column of a key, as many as there are. -/
def readItemsAtKey (handles : Handles) :
    (fuel : Nat) → List Token → Option (List (Node String) × List Token)
  | 0, _ => none
  | fuel + 1, tokens =>
    match tokens with
    | .dash :: rest =>
      match readOptional handles true false [.dash, .key, .value, .blockEnd] fuel rest with
      | none => none
      | some (item, rest) =>
        (readItemsAtKey handles fuel rest).map fun (items, rest) => (item :: items, rest)
    | rest => some ([], rest)

/-- The entries of a mapping by indentation, up to its end. -/
def readEntries (handles : Handles) :
    (fuel : Nat) → List Token → Option (List (Node String × Node String) × List Token)
  | 0, _ => none
  | fuel + 1, tokens =>
    match tokens with
    | .key :: rest =>
      match readOptional handles true true [.key, .value, .blockEnd] fuel rest with
      | none => none
      | some (key, rest) =>
        let value :=
          match rest with
          | .value :: rest => readOptional handles true true [.key, .value, .blockEnd] fuel rest
          | rest => some (.missing Node.bare, rest)
        match value with
        | none => none
        | some (value, rest) =>
          (readEntries handles fuel rest).map fun (entries, rest) => ((key, value) :: entries, rest)
    | .blockEnd :: rest => some ([], rest)
    | _ => none

/-- The items of a sequence in brackets, up to its end. Each but the first follows a comma, and the
last may be followed by one. -/
def readBracketItems (handles : Handles) (first : Bool) :
    (fuel : Nat) → List Token → Option (List (Node String) × List Token)
  | 0, _ => none
  | fuel + 1, tokens =>
    match tokens with
    | .bracketClose :: rest => some ([], rest)
    | tokens =>
      match afterComma first tokens with
      | none => none
      | some (.bracketClose :: rest) => some ([], rest)
      | some rest =>
        let item :=
          match rest with
          | .key :: rest => readPair handles fuel rest
          | rest => readNode handles false false fuel rest
        match item with
        | none => none
        | some (item, rest) =>
          (readBracketItems handles false fuel rest).map fun (items, rest) => (item :: items, rest)
/-- The mapping of one entry that an item of a sequence in brackets is. A missing key takes the token
by which it is seen to be missing. -/
def readPair (handles : Handles) : (fuel : Nat) → List Token → Option (Node String × List Token)
  | 0, _ => none
  | fuel + 1, tokens =>
    let key :=
      if lacksNode [.value, .comma, .bracketClose] tokens then
        some (.missing Node.bare, tokens.drop 1)
      else readNode handles false false fuel tokens
    match key with
    | none => none
    | some (key, rest) =>
      let value :=
        match rest with
        | .value :: rest => readOptional handles false false [.comma, .bracketClose] fuel rest
        | rest => some (.missing Node.bare, rest)
      value.map fun (value, rest) => (.mapping Node.bare [(key, value)], rest)

/-- The entries of a mapping in braces, up to its end. -/
def readBraceEntries (handles : Handles) (first : Bool) :
    (fuel : Nat) → List Token → Option (List (Node String × Node String) × List Token)
  | 0, _ => none
  | fuel + 1, tokens =>
    match tokens with
    | .braceClose :: rest => some ([], rest)
    | tokens =>
      match afterComma first tokens with
      | none => none
      | some (.braceClose :: rest) => some ([], rest)
      | some rest =>
        let key :=
          match rest with
          | .key :: rest => readOptional handles false false [.value, .comma, .braceClose] fuel rest
          | rest => readNode handles false false fuel rest
        match key with
        | none => none
        | some (key, after) =>
          let value :=
            match rest, after with
            | .key :: _, .value :: after =>
              readOptional handles false false [.comma, .braceClose] fuel after
            | _, after => some (.missing Node.bare, after)
          match value with
          | none => none
          | some (value, rest) =>
            (readBraceEntries handles false fuel rest).map fun (entries, rest) =>
              ((key, value) :: entries, rest)

end

/-- The directives at the front of tokens: at most one version, which has to be supported, and
handles that differ. -/
def readDirectives (versioned : Bool) (handles : Handles) : List Token → Option (Handles × List Token)
  | .version major minor :: rest =>
    if versioned || major != 1 || (minor != 1 && minor != 2) then none
    else readDirectives true handles rest
  | .handle name meaning :: rest =>
    if handles.any fun entry => entry.1 = name then none
    else readDirectives versioned ((name, meaning) :: handles) rest
  | rest => some (handles, rest)

/-- Whether tokens begin with what stands before the content of a document. -/
def beginsHead : List Token → Bool
  | .version .. :: _ | .handle .. :: _ | .documentStart :: _ => true
  | _ => false

/-- Whether the content of a document that is marked at its beginning is missing. -/
def lacksContent (tokens : List Token) : Bool :=
  tokens.head?.all (· == .documentEnd) || beginsHead tokens

/-- Whether nothing but ends of documents is left. -/
def isOver (tokens : List Token) : Bool := tokens.all (· == .documentEnd)

/-- A bound of how deep the readers of nodes call one another. -/
def nodeFuel (tokens : List Token) : Nat := 3 * tokens.length + 3

/-- The content of a document. -/
def readContent (handles : Handles) (tokens : List Token) : Option (Node String × List Token) :=
  readNode (handles ++ standardHandles) true false (nodeFuel tokens) tokens

/-- The document at the front of tokens. After directives its beginning has to be marked. -/
def readDocument (tokens : List Token) : Option (Node String × List Token) :=
  if beginsHead tokens then
    match readDirectives false [] tokens with
    | some (handles, .documentStart :: rest) =>
      if lacksContent rest then some (.missing Node.bare, rest) else readContent handles rest
    | _ => none
  else readContent [] tokens

/-- The document that tokens write, if there is one. -/
def documentOfTokens? : List Token → Option (Option (Node String))
  | [] => some none
  | tokens =>
    (readDocument tokens).bind fun (node, rest) => if isOver rest then some (some node) else none

/-- The document that a text holds, if it holds one. -/
def document? (text : String) : Option (Option (Node String)) :=
  (tokens? text).bind documentOfTokens?

end ApiContract.Yaml
