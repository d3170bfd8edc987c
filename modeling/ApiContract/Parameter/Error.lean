import ApiContract.Parameter.Style
import ApiContract.Text.Quoted
/-!
# Failures of writing and reading parameters

Why a value cannot be written in a style, or a text read in one.
-/

namespace ApiContract

/-- Why a value cannot be written in a style, or a text read. -/
inductive CodecError where
  | unsupportedShape (style : ParameterStyle) (shape : String)
  | nested (style : ParameterStyle) (key : String)
  | malformed (style : ParameterStyle) (text : String)
deriving DecidableEq, Repr, Inhabited

namespace CodecError

/-- The wording of a failure. -/
def message : CodecError → String
  | unsupportedShape style shape =>
    "style " ++ style.name ++ " cannot serialize " ++ shape ++ " values"
  | nested style key => "style " ++ style.name ++ " cannot serialize nested value at " ++ key
  | malformed style text => "malformed " ++ style.name ++ " value " ++ Text.quoted text

end CodecError

end ApiContract
