import ApiContract.Source.Document
import ApiContract.Url.FilePath
/-!
# Files

Documents in files. A `FileTree` is what is known of a file system: the directory in which relative
paths begin, files with their contents, and directories.
-/

namespace ApiContract

open Json (Value)

/-- A file system, as far as it is known. Paths are given by their components from the root. -/
structure FileTree where
  workingDirectory : List String
  files : List (List String × Octets)
  directories : List (List String)

/-- What stands at a path. -/
inductive FileEntry where
  | directory
  | file (contents : Octets)
deriving Inhabited

namespace FileTree

/-- What stands at a path of plain components. Whatever contains something is a directory. -/
def entryAt? (tree : FileTree) (components : List String) : Option FileEntry :=
  match tree.files.find? fun entry => entry.1 = components with
  | some (_, contents) => some (.file contents)
  | none =>
    let known := tree.workingDirectory :: (tree.directories ++ tree.files.map Prod.fst)
    if components.isEmpty || known.any fun path => components.isPrefixOf path then some .directory
    else none

/-- Whether a directory stands at a path of plain components. -/
def isDirectory (tree : FileTree) (components : List String) : Bool :=
  tree.entryAt? components matches some .directory

/-- Go along the components of a path, from the one reached; each step needs a directory to begin
in. The answer is the path of plain components that is meant. -/
def follow? (tree : FileTree) : List (List Char) → List String → Option (List String)
  | [], reached => some reached
  | piece :: rest, reached =>
    if !tree.isDirectory reached then none
    else if piece.isEmpty || piece = ['.'] then follow? tree rest reached
    else if piece = ['.', '.'] then follow? tree rest reached.dropLast
    else follow? tree rest (reached ++ [String.ofList piece])

/-- The places that a path leads through and the one that it leads to, if everything before that is a
directory. -/
def places : List (List Char) → (reached : List String) → List (List String) × List String
  | [], reached => ([], reached)
  | piece :: rest, reached =>
    let further :=
      if piece.isEmpty || piece = ['.'] then reached
      else if piece = ['.', '.'] then reached.dropLast
      else reached ++ [String.ofList piece]
    let (through, last) := places rest further
    (reached :: through, last)

/-- Take note of what stands at a path. -/
def withEntry (tree : FileTree) (path : String) (entry : FileEntry) : FileTree :=
  let cs := path.toList
  let start := if cs.head? = some '/' then [] else tree.workingDirectory
  let (through, last) := places (Text.pieces '/' cs) start
  match entry with
  | .directory => { tree with directories := last :: (through ++ tree.directories) }
  | .file contents =>
    { tree with
      files := (last, contents) :: tree.files
      directories := through ++ tree.directories }

/-- What stands at a path, relative to the working directory or not. -/
def entry? (tree : FileTree) (path : String) : Option FileEntry :=
  let cs := path.toList
  let start := if cs.head? = some '/' then [] else tree.workingDirectory
  if cs.isEmpty || cs.contains '\x00' then none
  else
    (tree.follow? (Text.pieces '/' cs) start).bind fun components =>
      match tree.entryAt? components with
      | some (.file contents) => if cs.getLast? = some '/' then none else some (.file contents)
      | other => other

/-- The text of a file. -/
def readText (tree : FileTree) (path : String) : Except LoadError String :=
  match tree.entry? path with
  | none => .error (.fileNotFound path)
  | some .directory => .error (.unreadable path "Is a directory (os error 21)")
  | some (.file contents) =>
    match Text.Utf8.decode? contents with
    | some text => .ok text
    | none => .error (.unreadable path "stream did not contain valid UTF-8")

/-- The document in a file. -/
def loadDocument (tree : FileTree) (path : String) : Except LoadError Value :=
  (tree.readText path).bind parseDocument

/-- The document at a URL of the scheme of files. -/
def loadUrl (tree : FileTree) (uri : Url) : Except LoadError Value :=
  match (if uri.scheme = "file" then uri.filePath? else none) with
  | some path => tree.loadDocument (Text.Utf8.decodeLossy path)
  | none => .error (.unsupportedLocation uri.text)

/-- The number of nodes of the documents in all files. -/
def capacity (tree : FileTree) : Nat :=
  let nodesOf (entry : List String × Octets) : Nat :=
    (StoredDocument.text (Text.Utf8.decodeLossy entry.2)).nodes
  (tree.files.map nodesOf).foldl (· + ·) 0

/-- The loader of documents in files. -/
def loader (tree : FileTree) : Loader := ⟨tree.loadUrl, tree.capacity⟩

end FileTree

/-- Whether a text is an address on a network rather than a path. -/
def isNetworkAddress (s : String) : Bool :=
  "http://".toList.isPrefixOf s.toList || "https://".toList.isPrefixOf s.toList

namespace FileTree

/-- The document at a path. Addresses on a network are not supported. -/
def loadSource (tree : FileTree) (source : String) : Except LoadError Value :=
  if isNetworkAddress source then .error (.unsupportedLocation source)
  else tree.loadDocument source

/-- An absolute path: the path itself, or one that begins in the working directory. -/
def absolutePath (tree : FileTree) (path : String) : String :=
  if path.toList.head? = some '/' then path
  else String.join (tree.workingDirectory.map fun part => "/" ++ part) ++ "/" ++ path

/-- The URL of a document, from its path or its address. -/
def baseUrl? (tree : FileTree) (source : String) : Option Url :=
  if isNetworkAddress source then
    match Url.parse source with
    | .ok url => some url
    | .error _ => none
  else Url.ofFilePath? (tree.absolutePath source)

end FileTree

end ApiContract
