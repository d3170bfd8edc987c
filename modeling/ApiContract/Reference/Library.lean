import ApiContract.Reference.Error
import ApiContract.Reference.Location
import ApiContract.Url.Parser
/-!
# The documents of a description

A `Library` holds the documents that a description consists of, as far as they have been needed.
`resolve` follows a reference to the first node that is not itself a reference; a document that is
not there yet is asked of the loader, once. References that have been followed are remembered by
their absolute URL.
-/

namespace ApiContract

open Json (Value)

/-- A source of documents by the URL of the whole document. -/
structure Loader where
  /-- The document at a URL. -/
  load : Url → Except LoadError Value
  /-- An upper bound of the number of nodes of all documents that the loader serves. -/
  capacity : Nat

/-- The documents that have been loaded and the references that have been followed. -/
structure Library where
  root : Url
  documents : List (Url × Value)
  /-- The node that each absolute reference followed so far leads to. -/
  resolved : Entries Location
  /-- The URLs that the loader was asked for, in order. -/
  asked : List Url

namespace Library

/-- A library of one document. -/
def ofRoot (root : Url) (document : Value) : Library :=
  ⟨root.withoutFragment, [(root.withoutFragment, document)], [], []⟩

/-- The document at a URL. -/
def document? (library : Library) (url : Url) : Option Value :=
  (library.documents.find? fun entry => entry.1 = url).map Prod.snd

/-- The node at a location. -/
def node? (library : Library) (location : Location) : Option Value :=
  (library.document? location.document).bind fun value => Json.Pointer.navigate? value location.pointer

/-- The members of the object at a location. -/
def object (library : Library) (location : Location) : Except ReferenceError (Entries Value) :=
  match library.node? location with
  | none => .error (.unresolved location.text)
  | some (.object members) => .ok members
  | some other => .error (.incompatible location.text "object" other.typeName)

/-- The reference that a node consists of, if it is a reference object. -/
def reference? (node : Value) : Option String := (node.member? "$ref").bind Value.text?

/-- Record that each of several absolute references leads to a location. -/
def remember (library : Library) (keys : List String) (location : Location) : Library :=
  { library with
    resolved := keys.foldl (fun resolved key => Entries.put key location resolved) library.resolved }

/-- The library with the document at a URL, asked of the loader unless it is there. -/
def fetch (library : Library) (loader : Loader) (document : Url) :
    Except ReferenceError Unit × Library :=
  if (library.document? document).isSome then (.ok (), library)
  else
    let library := { library with asked := library.asked ++ [document] }
    match loader.load document with
    | .error cause => (.error (.load document.text cause), library)
    | .ok value => (.ok (), { library with documents := library.documents ++ [(document, value)] })

/-- The location that an absolute reference addresses, when there is a node. -/
def locate (library : Library) (loader : Loader) (absolute : Url) :
    Except ReferenceError Location × Library :=
  let document := absolute.withoutFragment
  let location : Location := ⟨document, Text.Percent.decodeText (absolute.fragment.getD "")⟩
  match library.fetch loader document with
  | (.error e, library) => (.error e, library)
  | (.ok (), library) =>
    if (library.node? location).isSome then (.ok location, library)
    else (.error (.unresolved absolute.text), library)

/-- Follow a reference that stands in the document at `base`. `chain` holds the absolute references
followed so far. -/
def follow (loader : Loader) :
    (fuel : Nat) → Library → (chain : List String) → (base : Url) → (reference : String) →
      Except ReferenceError Location × Library
  | 0, library, _, _, reference => (.error (.endless reference), library)
  | fuel + 1, library, chain, base, reference =>
    match base.join reference with
    | .error cause => (.error (.invalidUri reference base.text cause), library)
    | .ok absolute =>
      let key := absolute.text
      match Entries.get? key library.resolved with
      | some location => (.ok location, library.remember chain location)
      | none =>
        if chain.contains key then (.error (.cycle (chain ++ [key])), library)
        else
          match library.locate loader absolute with
          | (.error e, library) => (.error e, library)
          | (.ok location, library) =>
            match (library.node? location).bind reference? with
            | some next => follow loader fuel library (chain ++ [key]) location.document next
            | none => (.ok location, library.remember (chain ++ [key]) location)

/-- The number of nodes of the documents that are there. -/
def size (library : Library) : Nat :=
  (library.documents.map fun entry => entry.2.nodes).foldl (· + ·) 0

/-- How many references can be followed one after the other without one coming up twice: each but the
first is the content of a node. -/
def stepLimit (library : Library) (loader : Loader) : Nat := library.size + loader.capacity + 2

/-- The location that a reference in the document at `base` leads to. -/
def resolve (library : Library) (loader : Loader) (base : Url) (reference : String) :
    Except ReferenceError Location × Library :=
  follow loader (library.stepLimit loader) library [] base reference

/-- The location itself, or where it leads if a reference stands there. -/
def dereference (library : Library) (loader : Loader) (location : Location) :
    Except ReferenceError Location × Library :=
  match (library.node? location).bind reference? with
  | some reference => library.resolve loader location.document reference
  | none => (.ok location, library)

end Library

end ApiContract
