import ApiContract.Url.Basic
import ApiContract.Text.FormEncoded
/-!
# Queries of pairs

Adding form-encoded pairs to the query of a URL, after what stands there.
-/

namespace ApiContract.Url

open Text

/-- The query after pairs have been added to it. -/
def extendQuery (query : Option String) (pairs : List (String × String)) : Option String :=
  if pairs.isEmpty then query
  else
    match query with
    | some s => if s = "" then some (FormEncoded.encode pairs) else some (s ++ "&" ++ FormEncoded.encode pairs)
    | none => some (FormEncoded.encode pairs)

/-- The URL with pairs added to its query. -/
def addPairs (url : Url) (pairs : List (String × String)) : Url :=
  { url with query := extendQuery url.query pairs }

end ApiContract.Url
