import ApiContract.Yaml.Resolution
/-!
# Values of documents

Aliases stand for the nodes that their anchors name. `Node.value?` replaces them and reads the scalars.
A document is refused if it nests too deep or its aliases multiply it too much, so also if a node is a
part of itself.
-/

namespace ApiContract.Yaml

open Json (Value)

/-- The numbers of the names of anchors so far. A name that comes again takes a new number, which is
that of how many names there are. -/
abbrev AnchorNumbers := Entries Nat

/-- A step of numbering anchors, which fails at an alias without an anchor before it. -/
abbrev Numbering := StateT AnchorNumbers Option

namespace Numbering

/-- The number for the anchor of a node that begins. -/
def enter (properties : Properties String) : Numbering (Properties Nat) := fun numbers =>
  match properties.anchor with
  | none => some (⟨none, properties.tag⟩, numbers)
  | some name =>
    let n := numbers.length
    some (⟨some n, properties.tag⟩, Entries.put name n numbers)

/-- The number of the anchor that an alias names. -/
def lookUp (name : String) : Numbering Nat := fun numbers =>
  (Entries.get? name numbers).map fun n => (n, numbers)

end Numbering

namespace Node

mutual

/-- A node with numbers for names. -/
def numbered : Node String → Numbering (Node Nat)
  | aliasOf name => do return aliasOf (← Numbering.lookUp name)
  | scalar properties plain text => do return scalar (← Numbering.enter properties) plain text
  | sequence properties items => do
    let properties ← Numbering.enter properties
    return sequence properties (← numberedItems items)
  | mapping properties entries => do
    let properties ← Numbering.enter properties
    return mapping properties (← numberedEntries entries)

/-- Several nodes with numbers for names. -/
def numberedItems : List (Node String) → Numbering (List (Node Nat))
  | [] => return []
  | node :: rest => do
    let node ← numbered node
    return node :: (← numberedItems rest)

/-- Several entries with numbers for names. -/
def numberedEntries : List (Node String × Node String) → Numbering (List (Node Nat × Node Nat))
  | [] => return []
  | (key, value) :: rest => do
    let key ← numbered key
    let value ← numbered value
    return (key, value) :: (← numberedEntries rest)

end

/-- The node with the number that properties give it. -/
def namedBy (properties : Properties Nat) (node : Node Nat) : List (Nat × Node Nat) :=
  (properties.anchor.map fun n => (n, node)).toList

mutual

/-- The nodes with anchors, by their numbers, in the order in which they begin. -/
def anchored : Node Nat → List (Nat × Node Nat)
  | aliasOf _ => []
  | scalar properties plain text => namedBy properties (scalar properties plain text)
  | sequence properties items =>
    namedBy properties (sequence properties items) ++ anchoredItems items
  | mapping properties entries =>
    namedBy properties (mapping properties entries) ++ anchoredEntries entries

/-- The nodes with anchors among several nodes and below. -/
def anchoredItems : List (Node Nat) → List (Nat × Node Nat)
  | [] => []
  | node :: rest => anchored node ++ anchoredItems rest

/-- The nodes with anchors among several entries and below. -/
def anchoredEntries : List (Node Nat × Node Nat) → List (Nat × Node Nat)
  | [] => []
  | (key, value) :: rest => anchored key ++ anchored value ++ anchoredEntries rest

end

end Node

/-- What aliases stand for. -/
structure AliasTable where
  /-- The nodes with anchors by their numbers, of which the last of a number counts first. -/
  nodes : List (Nat × Node Nat)
  /-- How many aliases may be replaced. -/
  limit : Nat

/-- A step of replacing aliases; the state is how many have been. -/
abbrev Expanding := StateT Nat Option

namespace AliasTable

/-- How many aliases may be replaced for each event of a document. -/
def aliasesPerEvent : Nat := 100

/-- What the aliases of a document stand for. -/
def ofDocument (document : Node Nat) : AliasTable :=
  ⟨document.anchored.reverse, aliasesPerEvent * document.events⟩

/-- The node itself, or the one that it stands for if it is an alias. -/
def follow (table : AliasTable) (node : Node Nat) : Expanding (Node Nat) := fun count =>
  match node with
  | .aliasOf n =>
    if count < table.limit then
      (table.nodes.find? fun entry => entry.1 = n).map fun entry => (entry.2, count + 1)
    else none
  | node => some (node, count)

/-- The text of a key, which has to be a scalar. -/
def keyText (table : AliasTable) (node : Node Nat) : Expanding String := do
  match ← table.follow node with
  | .scalar _ _ text => return text
  | _ => failure

/-- The value of a scalar. -/
def scalarValue (properties : Properties Nat) (plain : Bool) (text : String) : Expanding Value :=
  fun count => (Yaml.scalarValue properties.tag plain text).map fun value => (value, count)

/-- Whether a collection may have these properties. -/
def admits (properties : Properties Nat) : Bool := !properties.tag.any isLocal

/-- The value of an entry. -/
def entryValue (table : AliasTable) (visit : Node Nat → Expanding Value) (entry : Node Nat × Node Nat) :
    Expanding (String × Value) := do
  let key ← table.keyText entry.1
  return (key, ← visit entry.2)

/-- The value of a node that has at most so many collections in one another. -/
def value (table : AliasTable) : (depth : Nat) → Node Nat → Expanding Value
  | 0, node => do
    match ← table.follow node with
    | .scalar properties plain text => scalarValue properties plain text
    | _ => failure
  | depth + 1, node => do
    match ← table.follow node with
    | .aliasOf _ => failure
    | .scalar properties plain text => scalarValue properties plain text
    | .sequence properties items =>
      if admits properties then return .array (← items.mapM (table.value depth)) else failure
    | .mapping properties entries =>
      if admits properties then
        return .object (Entries.ofPairs (← entries.mapM (table.entryValue (table.value depth))))
      else failure

end AliasTable

/-- How deep collections may stand in one another. -/
def depthLimit : Nat := 128

/-- The value of a document, if it has one. -/
def Node.value? (document : Node String) : Option Value :=
  (document.numbered.run []).bind fun (document, _) =>
    (((AliasTable.ofDocument document).value depthLimit document).run 0).map Prod.fst

end ApiContract.Yaml
