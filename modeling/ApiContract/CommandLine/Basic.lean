import ApiContract.CommandLine.Arguments
import ApiContract.Session.Basic
import ApiContract.Source.Files
/-!
# The command line

What each command prints and how it ends, given the files that there are.
-/

namespace ApiContract.CommandLine

open Json (Value)

/-- What a command has printed and its exit code. -/
structure Outcome where
  code : Nat
  stdout : String
  stderr : String
  /-- The path of the file that was not found, if that ended the command. -/
  missing : Option String
deriving DecidableEq, Repr, Inhabited

namespace Outcome

/-- A command that ends well. -/
def success (stdout : String) : Outcome := ⟨0, stdout, "", none⟩

/-- A command that ends with a problem, which is told in JSON or in words. -/
def failure (json : Bool) (code : Nat) (problem : String) (missing : Option String) : Outcome :=
  if json then
    let report := Value.object [("valid", .bool false), ("error", .string problem)]
    ⟨code, report.render ++ "\n", "", missing⟩
  else ⟨code, "", "Error: " ++ problem ++ "\n", missing⟩

end Outcome

/-- The path of the file that was not found. -/
def missingOf : LoadError → Option String
  | .fileNotFound path => some path
  | .unreadable _ _ | .unsupportedLocation _ | .invalidJson | .invalidYaml => none

/-- The path of the file that was not found. -/
def missingOfDefinition : DefinitionError → Option String
  | .reference (.load _ cause) => missingOf cause
  | _ => none

/-- The session on the description in a source, or how the command ends without one. -/
def openSession (tree : FileTree) (source : String) (strict json : Bool) : Except Outcome Session :=
  match tree.loadSource source with
  | .error e => .error (.failure json e.exitCode e.message (missingOf e))
  | .ok document =>
    let base := ((tree.baseUrl? source).map Url.text).getD source
    match Session.readAt tree.loader base document with
    | .error e => .error (.failure json e.exitCode e.message (missingOfDefinition e))
    | .ok reading =>
      .ok (Session.ofReading reading { SessionOptions.default with strictDiscriminator := strict }
        none)

/-- The line of an operation in a list. -/
def operationLine (operation : Operation) : String :=
  operation.operationId.getD "-" ++ " " ++ operation.method ++ " " ++ operation.path ++ "\n"

/-- A violation in JSON. -/
def violationNode (violation : Violation) : Value :=
  .object [("path", .string violation.pointer), ("keyword", .string violation.fault.keyword),
    ("message", .string violation.fault.message)]

/-- A warning in JSON. -/
def warningNode (warning : Warning) : Value :=
  .object [("path", .string warning.pointer), ("message", .string warning.message)]

/-- How the check of a payload ends. -/
def validationOutcome (json : Bool) : Except ValidateError (List Warning) → Outcome
  | .ok warnings =>
    if json then
      let report := Value.object [("valid", .bool true), ("warnings", .array (warnings.map warningNode))]
      .success (report.render ++ "\n")
    else
      let line (warning : Warning) : String :=
        "Warning: " ++ warning.pointer ++ ": " ++ warning.message ++ "\n"
      ⟨0, "Valid\n", String.join (warnings.map line), none⟩
  | .error (.invalid errors) =>
    if json then
      let report := Value.object [("valid", .bool false), ("errors", .array (errors.map violationNode))]
      ⟨1, report.render ++ "\n", "", none⟩
    else
      let line (violation : Violation) : String := "  " ++ violation.text ++ "\n"
      ⟨1, "", "Validation failed:\n" ++ String.join (errors.map line), none⟩
  | .error e => .failure json e.exitCode e.message none

/-- Run a command. -/
def Command.run (tree : FileTree) : Command → Outcome
  | .check source =>
    match openSession tree source false false with
    | .error outcome => outcome
    | .ok session =>
      .success ("OK: " ++ Decimal.integerText session.description.operations.length
        ++ " operations, " ++ Decimal.integerText session.catalog.size ++ " schemas\n")
  | .operations source tag =>
    match openSession tree source false false with
    | .error outcome => outcome
    | .ok session =>
      let operations :=
        match tag with
        | some tag => session.description.operationsTagged tag
        | none => session.description.operations
      .success (String.join (operations.map operationLine))
  | .validate payload source schema json strict =>
    match tree.loadDocument payload with
    | .error e => .failure json e.exitCode ("loading payload: " ++ e.message) (missingOf e)
    | .ok value =>
      match openSession tree source strict json with
      | .error outcome => outcome
      | .ok session => validationOutcome json (session.validate schema value)

/-- What is printed when arguments are not understood. -/
def usage : String :=
  "usage: check DOC | operations DOC [--tag TAG] | "
    ++ "validate PAYLOAD --doc DOC --schema SCHEMA [--json] [--strict]\n"

/-- Run the command that arguments write. -/
def run (tree : FileTree) (arguments : List String) : Outcome :=
  match Command.parse? arguments with
  | some command => command.run tree
  | none => ⟨2, "", usage, none⟩

end ApiContract.CommandLine
