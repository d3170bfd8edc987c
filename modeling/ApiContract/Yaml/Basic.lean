import ApiContract.Yaml.Document
import ApiContract.Yaml.Expansion
/-!
# YAML

`parse?` reads a text that holds one YAML document as a value. The keys of mappings are the texts of
scalars, and of two equal keys the later value counts. A text without a document is null.
-/

namespace ApiContract.Yaml

/-- The value of a text, if it is one document that has a value. -/
def parse? (text : String) : Option Json.Value :=
  match document? text with
  | none => none
  | some none => some .null
  | some (some document) => document.value?

end ApiContract.Yaml
