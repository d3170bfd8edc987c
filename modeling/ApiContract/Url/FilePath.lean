import ApiContract.Url.Parser
/-!
# URLs and file paths

The URL of an absolute path, and the path of a file's URL. Paths are octets between slashes; a
segment of a URL is an encoded path component.
-/

namespace ApiContract.Url

open Text

/-- The components of a path: what stands between slashes, without empty ones and single dots. -/
def pathComponents (path : String) : List (List Char) :=
  (splitSegments false path.toList).filter fun piece => !piece.isEmpty && piece != ['.']

/-- The URL of a file on this machine. -/
def ofSegments (path : List String) : Url :=
  ⟨"file", "", "", some (.name ""), none, .rooted path, none, none⟩

/-- The URL of an absolute path. Components that mean the one above stay as they are. -/
def ofFilePath? (path : String) : Option Url :=
  if path.toList.head? = some '/' then
    let encoded := (pathComponents path).map (encodeChars encodedInSegment)
    some (ofSegments (if encoded.isEmpty then [""] else encoded))
  else none

/-- The octets of the path that the segments of a URL stand for. A path that ends in a drive ends with
a slash. -/
def filePathOctets (segments : List String) : Octets :=
  let octets := segments.flatMap fun segment => 0x2F :: Percent.decode (Utf8.encode segment)
  match octets.reverse with
  | last :: letter :: _ :: _ =>
    if (Char.ofNat letter.toNat).isAlpha && (last = 0x3A || last = 0x7C) then octets ++ [0x2F] else octets
  | _ => octets

/-- The path of a URL without a host. -/
def filePath? (url : Url) : Option Octets :=
  match url.path, url.host with
  | .rooted segments, none => some (filePathOctets segments)
  | .rooted segments, some host =>
    if host = .name "" || host = .name "localhost" then some (filePathOctets segments) else none
  | .rootless _, _ => none

end ApiContract.Url
