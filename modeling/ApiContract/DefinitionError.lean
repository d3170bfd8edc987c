import ApiContract.Reference.Error
import ApiContract.Parameter.Style
/-!
# Errors of descriptions

Why a description cannot be used. Each error says where it was found.
-/

namespace ApiContract

open Text (quoted)

/-- Names as messages list them: each in apostrophes, in brackets, with a separator between. -/
def listNames (separator : String) (names : List String) : String :=
  "[" ++ separator.intercalate (names.map fun name => "'" ++ name ++ "'") ++ "]"

/-- Why a description cannot be used. -/
inductive DefinitionError where
  | reference (cause : ReferenceError)
  | unsupportedVersion (version : String)
  | malformed (location problem : String)
  | duplicateOperationId (operationId : String)
  | emptyPropertyName (location : String)
  | conflictingProperty (location property : String)
  | ambiguousDiscriminator (location problem : String)
  | invalidPattern (location pattern : String)
  | invalidParameterNames (operation : String) (names : List String)
  | parameterNotInPath (operation name : String)
  | unboundPlaceholder (operation name : String)
  | duplicateParameter (operation name : String) (location : ParameterLocation)
  | styleNotAllowed (name : String) (style : ParameterStyle) (location : ParameterLocation)
  | missingServerVariables (url : String) (names : List String)
  | linkTarget (name : String)
  | unknownLinkOperation (name operation : String)
  | undefinedSecurityScheme (scheme : String)
  | invalidSecurityScheme (name problem : String)
deriving DecidableEq, Repr, Inhabited

namespace DefinitionError

/-- The wording of an error. -/
def message : DefinitionError → String
  | reference cause => cause.message
  | unsupportedVersion version =>
    "unsupported description version " ++ quoted version ++ ": expected 3.0.x or 3.1.x"
  | malformed location problem => "invalid definition at " ++ location ++ ": " ++ problem
  | duplicateOperationId operationId => "Duplicate operationId " ++ operationId
  | emptyPropertyName location => "empty property name in schema " ++ location
  | conflictingProperty location property =>
    "conflicting definitions of property " ++ quoted property ++ " in allOf of " ++ location
  | ambiguousDiscriminator location problem =>
    "ambiguous discriminator mapping in " ++ location ++ ": " ++ problem
  | invalidPattern location pattern =>
    "invalid pattern " ++ quoted pattern ++ " in " ++ location ++ ": " ++ parserDetail
  | invalidParameterNames _ names => "Parameter names are invalid: " ++ listNames ", " names
  | parameterNotInPath _ name => "Parameter name not found in path: " ++ name
  | unboundPlaceholder _ name => "Parameter name not found in parameters: " ++ name
  | duplicateParameter operation name location =>
    "duplicate " ++ location.name ++ " parameter " ++ name ++ " in " ++ operation
  | styleNotAllowed name style location =>
    "style " ++ style.name ++ " is not allowed for " ++ location.name ++ " parameter " ++ name
  | missingServerVariables _ names => "Missing Server Variables " ++ listNames "," names
  | linkTarget name => "link " ++ name ++ " must specify exactly one of operationId and operationRef"
  | unknownLinkOperation name operation =>
    "link " ++ name ++ " targets unknown operation " ++ operation
  | undefinedSecurityScheme scheme =>
    "security requirement references undefined scheme " ++ scheme
  | invalidSecurityScheme name problem => "invalid security scheme " ++ name ++ ": " ++ problem

/-- The exit code of a command that ends with this error. -/
def exitCode : DefinitionError → Nat
  | reference (.load _ cause) => cause.exitCode
  | _ => 2

end DefinitionError

end ApiContract
