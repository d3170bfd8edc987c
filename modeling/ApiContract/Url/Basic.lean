import ApiContract.Text.Percent
import ApiContract.Decimal.Layout
/-!
# URLs

A `Url` is an absolute URL in parts; `Url.text` writes it. A path is either rooted, a list of
segments that each follow a slash, or rootless text, as in `mailto:me`; a URL with a rootless path
cannot serve as the base of a relative reference.
-/

namespace ApiContract

open Text

/-- The host of a URL. An empty name is a host too, as in `file:///etc`. -/
inductive Host where
  | name (text : String)
  | ipv4 (address : Nat)
  | ipv6 (pieces : List Nat)
deriving DecidableEq, Repr, Inhabited

/-- The path of a URL. -/
inductive UrlPath where
  | rooted (segments : List String)
  | rootless (text : String)
deriving DecidableEq, Repr, Inhabited

/-- An absolute URL. Empty user names and passwords are those that are not there. -/
structure Url where
  scheme : String
  username : String
  password : String
  host : Option Host
  port : Option Nat
  path : UrlPath
  query : Option String
  fragment : Option String
deriving DecidableEq, Repr, Inhabited

/-- Why a text is not a URL. -/
inductive UrlError where
  | emptyHost
  | invalidDomain
  | invalidPort
  | invalidIpv4
  | invalidIpv6
  | invalidHostCharacter
  | missingBase
  | rootlessBase
deriving DecidableEq, Repr, Inhabited

/-- The wording of an error. -/
def UrlError.message : UrlError → String
  | emptyHost => "empty host"
  | invalidDomain => "invalid international domain name"
  | invalidPort => "invalid port number"
  | invalidIpv4 => "invalid IPv4 address"
  | invalidIpv6 => "invalid IPv6 address"
  | invalidHostCharacter => "invalid domain character"
  | missingBase => "relative URL without a base"
  | rootlessBase => "relative URL with a cannot-be-a-base base"

namespace Host

/-- The four numbers of an IPv4 address, with points between them. -/
def ipv4Text (address : Nat) : String :=
  ".".intercalate ([16777216, 65536, 256, 1].map fun unit =>
    Decimal.integerText (address / unit % 256 : Nat))

/-- The length of the run of zeros at the front. -/
def zeroRun : List Nat → Nat
  | 0 :: rest => zeroRun rest + 1
  | _ => 0

/-- The position and length of the first of the longest runs of zeros. -/
def longestZeroRun : (position : Nat) → List Nat → Nat × Nat
  | _, [] => (0, 0)
  | position, piece :: rest =>
    let here := zeroRun (piece :: rest)
    let later := longestZeroRun (position + 1) rest
    if later.2 ≤ here then (position, here) else later

/-- Pieces in hexadecimal, with colons between them. -/
def piecesText (pieces : List Nat) : String :=
  ":".intercalate (pieces.map fun piece => String.ofList (Nat.toDigits 16 piece))

/-- An IPv6 address; the first of the longest runs of two or more zeros is left out. -/
def ipv6Text (pieces : List Nat) : String :=
  let (position, length) := longestZeroRun 0 pieces
  if length < 2 then piecesText pieces
  else piecesText (pieces.take position) ++ "::" ++ piecesText (pieces.drop (position + length))

/-- The text of a host. -/
def text : Host → String
  | name s => s
  | ipv4 address => ipv4Text address
  | ipv6 pieces => "[" ++ ipv6Text pieces ++ "]"

end Host

/-- The text of a path. -/
def UrlPath.text : UrlPath → String
  | rooted segments => String.join (segments.map fun segment => "/" ++ segment)
  | rootless s => s

namespace Url

/-- The user name and the password, with the sign after them. -/
def userInfoText (url : Url) : String :=
  if url.username = "" && url.password = "" then ""
  else
    url.username ++ (if url.password = "" then "" else ":" ++ url.password) ++ "@"

/-- What stands between the scheme and the path. A path that begins with two slashes is marked where
no host stands before it. -/
def authorityText (url : Url) : String :=
  match url.host with
  | some host =>
    let port :=
      match url.port with
      | some n => ":" ++ Decimal.integerText n
      | none => ""
    "//" ++ url.userInfoText ++ host.text ++ port
  | none =>
    match url.path with
    | .rooted ("" :: _ :: _) => "/."
    | _ => ""

/-- A part with its mark, or nothing. -/
def marked (mark : String) : Option String → String
  | some s => mark ++ s
  | none => ""

/-- The text of a URL. -/
def text (url : Url) : String :=
  url.scheme ++ ":" ++ url.authorityText ++ url.path.text ++ marked "?" url.query
    ++ marked "#" url.fragment

/-- The ports that the schemes with an authority have when none is given. -/
def defaultPort? : String → Option Nat
  | "http" | "ws" => some 80
  | "https" | "wss" => some 443
  | "ftp" => some 21
  | _ => none

/-- The schemes whose URLs always have a host, or are files. -/
def isSpecialScheme (scheme : String) : Bool :=
  ["http", "https", "ws", "wss", "ftp", "file"].contains scheme

/-- Whether the path is rootless, so that nothing can be relative to the URL. -/
def isRootless (url : Url) : Bool :=
  match url.path with
  | .rootless _ => true
  | .rooted _ => false

/-- The text without the blanks at its end. -/
def dropTrailingSpaces (s : String) : String :=
  String.ofList (s.toList.reverse.dropWhile (· = ' ')).reverse

/-- The URL of the document that a URL points into. A rootless path loses the blanks that only a
fragment kept in place. -/
def withoutFragment (url : Url) : Url :=
  match url.path with
  | .rootless s =>
    { url with
      fragment := none
      path := .rootless (if url.query.isNone then dropTrailingSpaces s else s) }
  | .rooted _ => { url with fragment := none }

end Url

end ApiContract
