import ApiContract.Source.Error
import ApiContract.Url.Basic
import ApiContract.Text.Quoted
/-!
# Failures of references

Why a reference does not lead to a node.
-/

namespace ApiContract

/-- Why a reference could not be followed to a node of the kind that is needed. -/
inductive ReferenceError where
  | invalidUri (reference base : String) (cause : UrlError)
  | unresolved (reference : String)
  | incompatible (reference expected actual : String)
  | cycle (chain : List String)
  | load (uri : String) (cause : LoadError)
  /-- More steps than the documents that can be loaded hold references. -/
  | endless (reference : String)
deriving DecidableEq, Repr, Inhabited

namespace ReferenceError

/-- The wording of a failure. -/
def message : ReferenceError → String
  | invalidUri reference base cause =>
    "invalid reference " ++ Text.quoted reference ++ " relative to " ++ base ++ ": " ++ cause.message
  | unresolved reference => "unresolved reference " ++ reference
  | incompatible reference expected actual =>
    "reference " ++ reference ++ " resolves to " ++ actual ++ ", expected " ++ expected
  | cycle chain => "reference cycle without a concrete target: " ++ " -> ".intercalate chain
  | load uri cause => "failed to load " ++ uri ++ ": " ++ cause.message
  | endless reference => "endless reference " ++ reference

end ReferenceError

end ApiContract
