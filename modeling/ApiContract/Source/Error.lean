/-!
# Failures of loading

Why a document could not be had from where it is.
-/

namespace ApiContract

/-- What stands in messages for a parser's own account of what is wrong with a text. -/
def parserDetail : String := "<detail>"

/-- Why a document could not be loaded. -/
inductive LoadError where
  | fileNotFound (path : String)
  | unreadable (path cause : String)
  | unsupportedLocation (uri : String)
  | invalidJson
  | invalidYaml
deriving DecidableEq, Repr, Inhabited

namespace LoadError

/-- The wording of a failure. -/
def message : LoadError → String
  | fileNotFound path => "file not found: " ++ path
  | unreadable path cause => "cannot read " ++ path ++ ": " ++ cause
  | unsupportedLocation uri => "no loader handles " ++ uri
  | invalidJson => "invalid JSON: " ++ parserDetail
  | invalidYaml => "invalid YAML: " ++ parserDetail

/-- The exit code of a command that ends with this failure. -/
def exitCode : LoadError → Nat
  | invalidJson | invalidYaml => 2
  | fileNotFound _ | unreadable _ _ | unsupportedLocation _ => 3

end LoadError

end ApiContract
