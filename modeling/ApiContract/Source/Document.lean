import ApiContract.Json.Parser
import ApiContract.Reference.Library
import ApiContract.Text.Blank
import ApiContract.Yaml.Basic
/-!
# Documents as texts

A document is a text in JSON or in YAML. A text that begins like a JSON object or array is JSON.
-/

namespace ApiContract

open Json (Value)

/-- Whether a text begins like a JSON object or array. -/
def looksLikeJson (cs : List Char) : Bool :=
  match Text.trimStart cs with
  | c :: _ => c = '\x7b' || c = '['
  | [] => false

/-- The value that a document's text writes. -/
def parseDocument (text : String) : Except LoadError Value :=
  if looksLikeJson text.toList then
    match Json.parse? text with
    | some value => .ok value
    | none => .error .invalidJson
  else
    match Yaml.parse? text with
    | some value => .ok value
    | none => .error .invalidYaml

/-- A document that is at hand, as a value or as a text. -/
inductive StoredDocument where
  | value (v : Value)
  | text (s : String)

namespace StoredDocument

/-- The value of a document. -/
def read : StoredDocument → Except LoadError Value
  | .value v => .ok v
  | .text s => parseDocument s

/-- The number of nodes of a document. -/
def nodes (document : StoredDocument) : Nat :=
  match document.read with
  | .ok v => v.nodes
  | .error _ => 0

end StoredDocument

/-- The text of a URL before its fragment. -/
def beforeFragment (uri : String) : String := String.ofList (uri.toList.takeWhile (· != '#'))

/-- A loader of documents at hand, by the texts of their URLs. -/
def Loader.ofStored (documents : List (String × StoredDocument)) : Loader :=
  let table := Entries.ofPairs (documents.map fun (uri, document) => (beforeFragment uri, document))
  { load := fun uri =>
      match Entries.get? uri.text table with
      | some document => document.read
      | none => .error (.unsupportedLocation uri.text)
    capacity := (table.values.map StoredDocument.nodes).foldl (· + ·) 0 }

end ApiContract
