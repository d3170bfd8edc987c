import ApiContract.Url.Host
/-!
# Reading URLs

`Url.parse` reads an absolute URL, `Url.join` a reference relative to a base. Blanks and control
characters at the ends are dropped, tabs and line ends anywhere. Path segments `.` and `..` are
resolved while they are read; characters that a part does not admit are percent-encoded.
-/

namespace ApiContract.Url

open Text

/-! ## The characters that each part encodes -/

/-- Characters encoded in a fragment. -/
def encodedInFragment (n : Nat) : Bool :=
  Percent.isControl n || n = 0x20 || n = 0x22 || n = 0x3C || n = 0x3E || n = 0x60

/-- Characters encoded in a path. -/
def encodedInPath (n : Nat) : Bool :=
  encodedInFragment n || n = 0x23 || n = 0x3F || n = 0x7B || n = 0x7D

/-- Characters encoded in a user name or password. -/
def encodedInUserInfo (n : Nat) : Bool :=
  encodedInPath n || n = 0x2F || n = 0x3A || n = 0x3B || n = 0x3D || n = 0x40
    || (0x5B ≤ n && n ≤ 0x5E) || n = 0x7C

/-- Characters encoded in a query; the apostrophe only where the scheme has an authority. -/
def encodedInQuery (special : Bool) (n : Nat) : Bool :=
  Percent.isControl n || n = 0x20 || n = 0x22 || n = 0x23 || n = 0x3C || n = 0x3E
    || (special && n = 0x27)

/-- Characters encoded where a whole segment is given: also what would end it. -/
def encodedInSegment (n : Nat) : Bool :=
  encodedInPath n || n = 0x2F || n = 0x25 || n = 0x5C

/-- Characters in their encoded form. -/
def encodeChars (inSet : Nat → Bool) (cs : List Char) : String :=
  Percent.encode inSet (String.ofList cs)

/-! ## Paths -/

/-- Whether a character ends a path segment. -/
def isSlash (special : Bool) (c : Char) : Bool := c = '/' || (special && c = '\\')

/-- Whether a segment is a letter and a colon or bar, as drives are named. -/
def isDrive (segment : String) : Bool :=
  match segment.toList with
  | [a, b] => a.isAlpha && (b = ':' || b = '|')
  | _ => false

/-- Whether a segment is a letter and a colon. -/
def isNormalDrive (segment : String) : Bool :=
  match segment.toList with
  | [a, b] => a.isAlpha && b = ':'
  | _ => false

/-- Whether a text begins with a segment that names a drive. -/
def startsWithDrive (cs : List Char) : Bool :=
  match cs with
  | a :: b :: rest =>
    isDrive (String.ofList [a, b]) &&
      (match rest with
        | [] => true
        | c :: _ => c = '/' || c = '\\' || c = '?' || c = '#')
  | _ => false

/-- The spellings of the segment that means the one it stands in. -/
def singleDots : List String := [".", "%2e", "%2E"]

/-- The spellings of the segment that means the one above. -/
def doubleDots : List String :=
  ["..", "%2e%2e", "%2e%2E", "%2E%2e", "%2E%2E", "%2e.", "%2E.", ".%2e", ".%2E"]

/-- A path without its last segment; a file's path keeps its drive. -/
def shorten (file : Bool) (path : List String) : List String :=
  if file && (path.getLast?.map isNormalDrive).getD false then path else path.dropLast

/-- A path with one more segment. A dot segment at the end leaves an empty one, so that the path ends
with a slash; a drive at the front of a file's path is written with a colon. -/
def addSegment (file : Bool) (path : List String) (segment : String) (last : Bool) : List String :=
  if doubleDots.contains segment then
    if last then shorten file path ++ [""] else shorten file path
  else if singleDots.contains segment then
    if last then path ++ [""] else path
  else if file && path.isEmpty && isDrive segment then
    path ++ [String.ofList (segment.toList.take 1 ++ [':'])]
  else path ++ [segment]

/-- A path with more segments. -/
def addSegments (file : Bool) : List String → List String → List String
  | path, [] => path
  | path, [segment] => addSegment file path segment true
  | path, segment :: rest => addSegments file (addSegment file path segment false) rest

/-- The segments of a text. -/
def splitSegments (special : Bool) : List Char → List (List Char)
  | [] => [[]]
  | c :: rest =>
    if isSlash special c then [] :: splitSegments special rest
    else
      match splitSegments special rest with
      | first :: others => (c :: first) :: others
      | [] => [[c]]

/-- A first segment that goes on after a drive is cut behind the drive. -/
def cutDrive (path : List String) : List (List Char) → List (List Char)
  | (a :: ':' :: c :: cs) :: rest =>
    if path.isEmpty && a.isAlpha then [a, ':'] :: (c :: cs) :: rest else (a :: ':' :: c :: cs) :: rest
  | segments => segments

/-- A file's path has no empty segments at its front, except as its only one. -/
def dropEmptyFront (path : List String) : List String :=
  match path.dropWhile (· = "") with
  | [] => [""]
  | segments => segments

/-- The path that a text leads to from a given one. -/
def extendPath (scheme : String) (start : List String) (cs : List Char) : List String :=
  let file := scheme = "file"
  let pieces := splitSegments (isSpecialScheme scheme) cs
  let pieces := if file then cutDrive start pieces else pieces
  let path := addSegments file start (pieces.map (encodeChars encodedInPath))
  if file then dropEmptyFront path else path

/-- The text without one slash at its front. -/
def dropSlash (special : Bool) : List Char → List Char
  | c :: rest => if isSlash special c then rest else c :: rest
  | [] => []

/-! ## Query and fragment -/

/-- Whether a character ends a path. -/
def endsPath (c : Char) : Bool := c = '?' || c = '#'

/-- The part of a text before its query and fragment. -/
def beforeQuery (cs : List Char) : List Char := cs.takeWhile fun c => !endsPath c

/-- The part of a text from its query or fragment on. -/
def fromQuery (cs : List Char) : List Char := cs.dropWhile fun c => !endsPath c

/-- The URL with the query and fragment that a text gives it. -/
def withTail (url : Url) (tail : List Char) : Url :=
  let fragmentOf (cs : List Char) : Option String :=
    match cs with
    | '#' :: rest => some (encodeChars encodedInFragment rest)
    | _ => none
  match tail with
  | '?' :: rest =>
    { url with
      query := some (encodeChars (encodedInQuery (isSpecialScheme url.scheme)) (rest.takeWhile (· != '#')))
      fragment := fragmentOf (rest.dropWhile (· != '#')) }
  | cs => { url with query := none, fragment := fragmentOf cs }

/-- A base with another fragment. -/
def withFragmentOf (base : Url) (cs : List Char) : Url :=
  { base with fragment := some (encodeChars encodedInFragment (cs.drop 1)) }

/-! ## Authorities -/

/-- The parts of an authority, before it is known what follows it. -/
structure Authority where
  username : String
  password : String
  host : Host
  port : Option Nat
  /-- What stands between the port and the path, which only some schemes allow. -/
  rest : List Char

/-- The text before the last occurrence of a character, if it occurs, and the text after it. -/
def splitLast (mark : Char) (cs : List Char) : Option (List Char) × List Char :=
  match cs.reverse.dropWhile (· != mark) with
  | [] => (none, cs)
  | _ :: before => (some before.reverse, (cs.reverse.takeWhile (· != mark)).reverse)

/-- The text before the first colon that is not in brackets, and the text from it on. -/
def splitHost : (bracketed : Bool) → List Char → List Char × List Char
  | _, [] => ([], [])
  | bracketed, c :: rest =>
    if c = ':' && !bracketed then ([], c :: rest)
    else
      let (host, after) := splitHost ((bracketed || c = '[') && c != ']') rest
      (c :: host, after)

/-- The port that a text gives, and what follows it. The default port of a scheme is none. -/
def readPort (scheme : String) (cs : List Char) : Except UrlError (Option Nat × List Char) :=
  match cs with
  | ':' :: rest =>
    let digits := rest.takeWhile Char.isDigit
    let after := rest.dropWhile Char.isDigit
    let port? := Decimal.readDigits? 10 digits
    if (port?.map fun n => decide (65535 < n)).getD false then .error .invalidPort
    else if (after.head?.map (· != '\\')).getD false then .error .invalidPort
    else .ok (if port? = defaultPort? scheme then none else port?, after)
  | _ => .ok (none, cs)

/-- The authority that a text before the path writes. `ended` says that a path, query or fragment
follows it. -/
def readAuthority (scheme : String) (cs : List Char) (ended : Bool) : Except UrlError Authority := do
  let special := isSpecialScheme scheme
  let (info?, location) := splitLast '@' cs
  if info? = some [] && location.isEmpty && ended then throw .emptyHost
  let info := info?.getD []
  let username := encodeChars encodedInUserInfo (info.takeWhile (· != ':'))
  let password := encodeChars encodedInUserInfo ((info.dropWhile (· != ':')).drop 1)
  let (hostText, afterHost) := splitHost false location
  if special && hostText.isEmpty then throw .emptyHost
  let host ← if special then Host.readDomain (String.ofList hostText)
    else Host.readText (String.ofList hostText)
  if host = .name "" && !afterHost.isEmpty then throw .emptyHost
  let (port, rest) ← readPort scheme afterHost
  if host = .name "" && (username != "" || password != "") then throw .emptyHost
  return ⟨username, password, host, port, rest⟩

/-- The URL that the text after a scheme and two slashes writes. -/
def readAfterSlashes (scheme : String) (cs : List Char) : Except UrlError Url := do
  let special := isSpecialScheme scheme
  let isInside (c : Char) : Bool := !(isSlash special c || endsPath c)
  let after := cs.dropWhile isInside
  let authority ← readAuthority scheme (cs.takeWhile isInside) (!after.isEmpty)
  let remaining := authority.rest ++ after
  let pathText := beforeQuery remaining
  let path :=
    if pathText.isEmpty && !special then [] else extendPath scheme [] (dropSlash special pathText)
  let url : Url :=
    ⟨scheme, authority.username, authority.password, some authority.host, authority.port,
      .rooted path, none, none⟩
  return url.withTail (fromQuery remaining)

/-! ## Files -/

/-- A file's URL with a host and a path. A path that begins with a drive has no host. -/
def fileUrl (host : Host) (path : List String) : Url :=
  let host := if (path.head?.map isNormalDrive).getD false then .name "" else host
  ⟨"file", "", "", some host, none, .rooted path, none, none⟩

/-- The host of a file: the local host is the empty one. -/
def readFileHost (text : String) : Except UrlError Host :=
  if text = "" then .ok (.name "")
  else (Host.readDomain text).map fun host => if host = .name "localhost" then .name "" else host

/-- The segments of a rooted path. -/
def segments (url : Url) : List String :=
  match url.path with
  | .rooted path => path
  | .rootless _ => []

/-- The URL of a file that the text after two slashes writes. -/
def readFileAfterSlashes (cs : List Char) : Except UrlError Url := do
  let isInside (c : Char) : Bool := !(isSlash true c || endsPath c)
  let hostText := String.ofList (cs.takeWhile isInside)
  let (host, after) ← if isDrive hostText then pure (Host.name "", cs)
    else (readFileHost hostText).map fun host => (host, cs.dropWhile isInside)
  let path := extendPath "file" [] (dropSlash true (beforeQuery after))
  return (fileUrl host path).withTail (fromQuery after)

/-- The host and the segments that a path from the root of a file begins with: those of the base, of
whose segments only a drive counts, unless the path names a drive itself. -/
def fileStart (base? : Option Url) (cs : List Char) : Host × List String :=
  if startsWithDrive cs then (.name "", [])
  else
    match (base?.bind fun base => base.segments.head?).filter isNormalDrive with
    | some drive => (.name "", [drive])
    | none => ((base?.bind Url.host).getD (.name ""), [])

/-- The URL of a file that a text without a host writes, relative to another file or not. -/
def readFilePath (base? : Option Url) (cs : List Char) : Url :=
  match cs, base? with
  | [], some base => base.withoutFragment
  | [], none => fileUrl (.name "") [""]
  | c :: rest, base? =>
    if isSlash true c then
      let (host, start) := fileStart base? rest
      (fileUrl host (extendPath "file" start (beforeQuery rest))).withTail (fromQuery rest)
    else
      match base? with
      | some base =>
        if c = '#' then base.withFragmentOf cs
        else if c = '?' then base.withTail cs
        else if startsWithDrive cs then
          (fileUrl (.name "") (extendPath "file" [] (beforeQuery cs))).withTail (fromQuery cs)
        else
          let path := extendPath "file" (shorten true base.segments) (beforeQuery cs)
          { base with path := .rooted path }.withTail (fromQuery cs)
      | none =>
        (fileUrl (.name "") (extendPath "file" [] (beforeQuery cs))).withTail (fromQuery cs)

/-- The URL of a file that a text writes, relative to another file or not. -/
def readFile (base? : Option Url) (cs : List Char) : Except UrlError Url :=
  match cs with
  | a :: b :: rest =>
    if isSlash true a && isSlash true b then readFileAfterSlashes rest
    else .ok (readFilePath base? cs)
  | _ => .ok (readFilePath base? cs)

/-! ## References -/

/-- The URL that a text without a scheme writes relative to a base that is no file. -/
def readRelative (base : Url) (cs : List Char) : Except UrlError Url :=
  match cs with
  | [] => .ok base.withoutFragment
  | c :: rest =>
    if c = '#' then .ok (base.withFragmentOf cs)
    else if c = '?' then .ok (base.withTail cs)
    else if isSlash true c then
      match rest with
      | d :: after =>
        if isSlash true d then
          if c = '/' && d = '/' then readAfterSlashes base.scheme after
          else readAfterSlashes base.scheme (cs.dropWhile (isSlash true))
        else
          .ok ({ base with path := .rooted (extendPath base.scheme [] (beforeQuery rest)) }.withTail
            (fromQuery rest))
      | [] => .ok ({ base with path := .rooted [""] }.withTail [])
    else
      let path := extendPath base.scheme base.segments.dropLast (beforeQuery cs)
      .ok ({ base with path := .rooted path }.withTail (fromQuery cs))

/-- The URL that the text after a scheme and its colon writes. -/
def readWithScheme (base? : Option Url) (scheme : String) (cs : List Char) : Except UrlError Url :=
  if scheme = "file" then readFile (base?.filter fun base => base.scheme = "file") cs
  else if isSpecialScheme scheme then
    let slashes := (cs.takeWhile (isSlash true)).length
    match base?.filter fun base => base.scheme = scheme with
    | some base =>
      if slashes < 2 then readRelative base cs
      else readAfterSlashes scheme (cs.dropWhile (isSlash true))
    | none => readAfterSlashes scheme (cs.dropWhile (isSlash true))
  else
    match cs with
    | '/' :: '/' :: rest => readAfterSlashes scheme rest
    | '/' :: rest =>
      let path := UrlPath.rooted (extendPath scheme [] (beforeQuery rest))
      .ok ((⟨scheme, "", "", none, none, path, none, none⟩ : Url).withTail (fromQuery rest))
    | _ =>
      let path := UrlPath.rootless (encodeChars Percent.isControl (beforeQuery cs))
      .ok ((⟨scheme, "", "", none, none, path, none, none⟩ : Url).withTail (fromQuery cs))

/-- The scheme at the front of a text, and what follows its colon. -/
def splitScheme (cs : List Char) : Option (String × List Char) :=
  let isSchemeChar (c : Char) : Bool := c.isAlphanum || c = '+' || c = '-' || c = '.'
  match cs.dropWhile isSchemeChar with
  | ':' :: rest =>
    if (cs.head?.map Char.isAlpha).getD false then
      some (String.ofList ((cs.takeWhile isSchemeChar).map Char.toLower), rest)
    else none
  | _ => none

/-- A text without what reading disregards: blanks and control characters at its ends, tabs and line
ends anywhere. -/
def clean (text : String) : List Char :=
  let isEdge (c : Char) : Bool := c.toNat ≤ 0x20
  let cs := ((text.toList.dropWhile isEdge).reverse.dropWhile isEdge).reverse
  cs.filter fun c => c != '\t' && c != '\n' && c != '\r'

/-- The URL that a text writes, relative to a base or not. -/
def read (base? : Option Url) (text : String) : Except UrlError Url :=
  let cs := clean text
  match splitScheme cs with
  | some (scheme, rest) => readWithScheme base? scheme rest
  | none =>
    match base? with
    | none => .error .missingBase
    | some base =>
      if cs.head? = some '#' then .ok (base.withFragmentOf cs)
      else if base.isRootless then .error .rootlessBase
      else if base.scheme = "file" then readFile (some base) cs
      else readRelative base cs

/-- The absolute URL that a text writes. -/
def parse (text : String) : Except UrlError Url := read none text

/-- The URL that a reference means in the document at a base. -/
def join (base : Url) (reference : String) : Except UrlError Url := read (some base) reference

end ApiContract.Url
