import ApiContract.Yaml.Token
/-!
# Nodes

A document as a tree of nodes. Aliases are leaves; what they and the anchors are named by is a
parameter, since names as they are written can be given away more than once.
-/

namespace ApiContract.Yaml

/-- A tag, with its handle replaced by what it stands for. -/
abbrev Tag := Octets

/-- What stands in front of a node. -/
structure Properties (ι : Type) where
  anchor : Option ι
  tag : Option Tag
deriving DecidableEq, Repr, Inhabited

/-- A node. -/
inductive Node (ι : Type) where
  | aliasOf (anchor : ι)
  | scalar (properties : Properties ι) (plain : Bool) (text : String)
  | sequence (properties : Properties ι) (items : List (Node ι))
  | mapping (properties : Properties ι) (entries : List (Node ι × Node ι))
deriving Repr, Inhabited

namespace Node

/-- The properties of a node that has none. -/
def bare {ι : Type} : Properties ι := ⟨none, none⟩

/-- The node that stands where none is written. -/
def missing {ι : Type} (properties : Properties ι) : Node ι := scalar properties true ""

mutual

/-- The number of events of a node: a leaf is one, a collection begins and ends. -/
def events {ι : Type} : Node ι → Nat
  | aliasOf _ => 1
  | scalar .. => 1
  | sequence _ items => eventsOfItems items + 2
  | mapping _ entries => eventsOfEntries entries + 2

/-- The number of events of several nodes. -/
def eventsOfItems {ι : Type} : List (Node ι) → Nat
  | [] => 0
  | node :: rest => events node + eventsOfItems rest

/-- The number of events of several entries. -/
def eventsOfEntries {ι : Type} : List (Node ι × Node ι) → Nat
  | [] => 0
  | (key, value) :: rest => events key + events value + eventsOfEntries rest

end

end Node

end ApiContract.Yaml
