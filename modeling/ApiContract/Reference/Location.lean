import ApiContract.Url.Basic
import ApiContract.Json.Pointer
/-!
# Locations

The address of a node: the URL of its document and a pointer into it.
-/

namespace ApiContract

/-- The address of a node. -/
structure Location where
  document : Url
  /-- The text of a pointer, empty for the whole document. -/
  pointer : String
deriving DecidableEq, Repr, Inhabited

namespace Location

/-- The address of a whole document. -/
def root (document : Url) : Location := ⟨document, ""⟩

/-- The address one token further. -/
def child (location : Location) (token : String) : Location :=
  { location with pointer := Json.Pointer.child location.pointer token }

/-- The tokens of the pointer. -/
def tokens (location : Location) : List String := Json.Pointer.tokens location.pointer

/-- The text of a location, as messages give it. -/
def text (location : Location) : String := location.document.text ++ "#" ++ location.pointer

end Location

end ApiContract
