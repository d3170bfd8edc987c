import ApiContract.Proofs.Description.Sites
import ApiContract.Proofs.Reference.Caching
import ApiContract.Proofs.Reference.Chain
import ApiContract.Proofs.Text.Decoding
import ApiContract.Proofs.Url.Tail
/-!
# Links and references

A link may name its operation by a reference, of which only the pointer behind the number sign is
looked at, and the method in any case. Where a reference is followed to a node, its document and the
spelling of the method count: the operation that a link leads to stands where its reference leads
exactly if the reference means the document of the description and gives the key of the operation
(`addressedBy_iff_of_linkTarget?`).
-/

namespace ApiContract

open Json (Value)

theorem Url.keepsEncoded_inFragment : Text.Percent.KeepsEncoded encodedInFragment where
  percent := by decide
  digits := by
    have small : ∀ n < 0x80, (Text.Percent.hexValue? (UInt8.ofNat n)).isSome = true →
        encodedInFragment n = false := by decide
    intro b digit
    exact small b.toNat (Text.Percent.lt_of_hexValue? digit) (by rwa [UInt8.ofNat_toNat])

namespace Location

@[simp] theorem tokens_root (document : Url) : (root document).tokens = [] := by
  change Json.Pointer.tokens "" = []
  decide

@[simp] theorem tokens_child (location : Location) (token : String) :
    (location.child token).tokens = location.tokens ++ [token] :=
  Json.Pointer.tokens_child location.pointer token

/-- A reference that stands in the document at a base addresses a location, in whatever way its pointer
is spelled. -/
def AddressedBy (location : Location) (base : Url) (reference : String) : Prop :=
  ∃ absolute, base.join reference = .ok absolute ∧
    (addressed absolute).document = location.document ∧
    (addressed absolute).tokens = location.tokens

end Location

namespace Description

variable {reference path method : String} {tokens : List String} {base absolute : Url}
  {operation : Operation}

/-- The tokens of the pointer behind the number sign of a reference. -/
def tokensBehind? (reference : String) : Option (List String) :=
  (Text.cutAt? '#' reference.toList).map fun parts =>
    Json.Pointer.tokens (Text.Percent.decodeText (String.ofList parts.2))

/-- Reading a reference disregards nothing that stands behind its number sign. -/
def KeepsPointer (reference : String) : Prop :=
  Url.fragmentIn (Url.clean reference) = Url.fragmentIn reference.toList

instance : DecidablePred KeepsPointer := fun reference =>
  inferInstanceAs (Decidable (Url.fragmentIn (Url.clean reference) = _))

theorem referencedOperation?_eq_some_iff : referencedOperation? reference = some (path, method) ↔
    ∃ token, tokensBehind? reference = some ["paths", path, token] ∧
      method = Text.upperAscii token := by
  unfold referencedOperation? tokensBehind?
  cases Text.cutAt? '#' reference.toList with
  | none => simp
  | some parts =>
    simp only [Option.bind_some, Option.map_some, Option.some.injEq]
    split
    · next written token tokens =>
      simp only [Option.some.injEq, Prod.mk.injEq, tokens, List.cons.injEq, and_true, true_and]
      constructor
      · rintro ⟨rfl, rfl⟩
        exact ⟨token, ⟨rfl, rfl⟩, rfl⟩
      · rintro ⟨_, ⟨rfl, rfl⟩, rfl⟩
        exact ⟨rfl, rfl⟩
    · next other =>
      simp only [reduceCtorEq, false_iff, not_exists, not_and]
      intro token tokens
      exact absurd tokens (other path token)

/-- What a reference addresses in a document is given by the pointer behind its number sign. -/
theorem tokens_addressed_of_join (kept : KeepsPointer reference)
    (joined : base.join reference = .ok absolute) (behind : tokensBehind? reference = some tokens) :
    (Location.addressed absolute).tokens = tokens := by
  obtain ⟨parts, cut, rfl⟩ := Option.map_eq_some_iff.mp behind
  have fragment := (Url.fragment_of_join joined).trans kept
  simp only [Url.fragmentIn, cut, Option.map_some, Url.encodeChars] at fragment
  rw [Location.tokens, Location.addressed, fragment, Option.getD_some,
    Text.Percent.decodeText_encode Url.keepsEncoded_inFragment]

theorem mem_of_operationAt? {description : Description}
    (h : description.operationAt? path method = some operation) :
    operation ∈ description.operations ∧ operation.path = path ∧ operation.method = method := by
  refine ⟨List.mem_of_find?_eq_some h, ?_⟩
  simpa using List.find?_some h

/-- The operation that a link leads to by a reference is the one of the path and of the method, in any
case, in the pointer behind the number sign. The reference addresses the place of this operation, under
its key in the paths of the description, exactly if it means the document of the description and has
that key for the method. A reference that begins with the number sign means that document
(`Url.exists_join_of_hash`). Where the path item is not itself a reference, the operation has been read
from this very place. -/
theorem addressedBy_iff_of_linkTarget? {loader : Loader} {document : Value} {reading : Reading}
    {link : Link} (read : read loader base document = .ok reading)
    (target : link.target = .operationRef reference) (kept : KeepsPointer reference)
    (found : reading.description.linkTarget? link = some operation) :
    let root := Location.root base.withoutFragment
    let item := (root.child "paths").child operation.path
    operation ∈ reading.description.operations ∧
      ∃ key site token, reading.library.StandsAt root operation key site ∧
        ((reading.library.node? item).bind Library.reference? = none → site = item.child key) ∧
        tokensBehind? reference = some ["paths", operation.path, token] ∧
        Text.upperAscii token = operation.method ∧
        ((item.child key).AddressedBy root.document reference ↔
          (∃ absolute, root.document.join reference = .ok absolute ∧
            absolute.withoutFragment = root.document) ∧ token = key) := by
  intro root item
  simp only [linkTarget?, target] at found
  obtain ⟨⟨path, method⟩, parts, at'⟩ := Option.bind_eq_some_iff.mp found
  obtain ⟨listed, rfl, rfl⟩ := mem_of_operationAt? at'
  obtain ⟨token, behind, named⟩ := referencedOperation?_eq_some_iff.mp parts
  obtain ⟨key, site, stands⟩ := exists_standsAt read listed
  have place : (item.child key).tokens = ["paths", operation.path, key] := by simp [item, root]
  refine ⟨listed, key, site, token, stands, ?_, behind, named.symm, ?_⟩
  · intro plain
    obtain ⟨-, -, place, members, ⟨⟨node, there, leads⟩, -⟩, -, rfl⟩ := stands
    rw [there, Option.bind_some] at plain
    rw [plain] at leads
    rw [leads]
  constructor
  · rintro ⟨absolute, joined, same, tokens⟩
    rw [tokens_addressed_of_join kept joined behind, place] at tokens
    exact ⟨⟨absolute, joined, same⟩, by simpa using tokens⟩
  · rintro ⟨⟨absolute, joined, same⟩, rfl⟩
    exact ⟨absolute, joined, same, (tokens_addressed_of_join kept joined behind).trans place.symm⟩

/-! ### Links between pets -/

/-- The path item of pets, of which a list can be read. Its response has three links to the list: one
that is written for it, one for another key and one for another document. -/
def petsMembers : Entries Value :=
  let link (reference : String) := Value.object [("operationRef", .string reference)]
  let links := Value.object [("own", link "#/paths/~1pets/get"),
    ("upper", link "#/paths/~1pets/GET"), ("foreign", link "b#/paths/~1pets/get")]
  let response := Value.object [("description", .string "pets"), ("links", links)]
  [("get", .object [("responses", .object [("200", response)])])]

/-- A description of pets. -/
def petsDocument : Value :=
  .object [("openapi", .string "3.1.0"), ("paths", .object [("/pets", .object petsMembers)])]

/-- The place of the list of pets. -/
def petsSite : Location := ⟨Library.shelfRoot, "/paths/~1pets/get"⟩

/-- The place of the path item of pets. -/
def petsItem : Location := ⟨Library.shelfRoot, "/paths/~1pets"⟩

/-- A link of a description of pets, by a reference, and the operation to which it leads. -/
structure PetsLink (reading : Reading) (name reference : String) (link : Link) (operation : Operation) :
    Prop where
  listed : ∃ owner ∈ reading.description.operations, ∃ response ∈ owner.responses,
    (name, link) ∈ response.2.links
  target : link.target = .operationRef reference
  found : reading.description.linkTarget? link = some operation
  address : operation.path = "/pets" ∧ operation.method = "GET"

/-- Whether computing shows a link. -/
def showsLink (name reference : String) (reading : Reading) : Bool :=
  reading.description.operations.any fun owner => owner.responses.any fun response =>
    response.2.links.any fun entry =>
      decide (entry.1 = name ∧ entry.2.target = .operationRef reference) &&
        (reading.description.linkTarget? entry.2).any fun operation =>
          decide (operation.path = "/pets" ∧ operation.method = "GET")

theorem exists_petsLink {reading : Reading} {name : String}
    (h : showsLink name reference reading = true) :
    ∃ link operation, PetsLink reading name reference link operation := by
  simp only [showsLink, List.any_eq_true, Bool.and_eq_true, decide_eq_true_eq,
    Option.any_eq_true] at h
  obtain ⟨owner, declared, response, answer, ⟨_, link⟩, listed, ⟨rfl, target⟩, operation, found,
    address⟩ := h
  exact ⟨link, operation, ⟨owner, declared, response, answer, listed⟩, target, found, address⟩

section Pets

variable {reading : Reading} {name : String} {link : Link}

theorem PetsLink.standsAt (h : PetsLink reading name reference link operation)
    (read : read noLoader Library.shelfRoot petsDocument = .ok reading) :
    reading.library.StandsAt (Location.root Library.shelfRoot.withoutFragment) operation "get"
      petsSite := by
  obtain ⟨path, method⟩ := h.address
  have item : reading.library.Shows petsItem petsItem petsMembers :=
    Library.shows_self (node?_of_read read rfl) rfl
  refine ⟨by decide, method, petsItem, petsMembers, ?_, rfl, by decide⟩
  rw [path]
  exact item

end Pets

/-- The link that is written for the list of pets itself leads to the place that its reference
addresses. -/
theorem addressedBy_ownLink :
    ∃ reading link operation, read noLoader Library.shelfRoot petsDocument = .ok reading ∧
      PetsLink reading "own" "#/paths/~1pets/get" link operation ∧
      KeepsPointer "#/paths/~1pets/get" ∧
      reading.library.StandsAt (Location.root Library.shelfRoot.withoutFragment) operation "get"
        petsSite ∧
      petsSite.AddressedBy Library.shelfRoot "#/paths/~1pets/get" := by
  obtain ⟨reading, h, shown⟩ := @exists_of_any_read noLoader Library.shelfRoot petsDocument
    (showsLink "own" "#/paths/~1pets/get") (by decide +kernel)
  obtain ⟨link, operation, pets⟩ := exists_petsLink shown
  have kept : KeepsPointer "#/paths/~1pets/get" := by decide
  have stands := pets.standsAt h
  obtain ⟨-, key, site, token, stands', -, behind, -, addressed⟩ :=
    addressedBy_iff_of_linkTarget? h pets.target kept pets.found
  obtain ⟨rfl, rfl⟩ := stands'.unique stands
  have own := @Url.exists_join_of_hash Library.shelfRoot "#/paths/~1pets/get" (by decide)
  have tokens : tokensBehind? "#/paths/~1pets/get" = some ["paths", "/pets", "get"] := by
    decide +kernel
  rw [tokens, pets.address.1] at behind
  refine ⟨reading, link, operation, h, pets, kept, stands, ?_⟩
  rw [pets.address.1] at addressed
  exact addressed.mpr ⟨own, by simpa using behind.symm⟩

/-- A link that is written for another document, and one that is written for another key, lead to the
list of pets all the same. -/
theorem links_lead_astray :
    ∃ reading, read noLoader Library.shelfRoot petsDocument = .ok reading ∧
      (∃ link operation, PetsLink reading "foreign" "b#/paths/~1pets/get" link operation ∧
        reading.library.StandsAt (Location.root Library.shelfRoot.withoutFragment) operation "get"
          petsSite ∧
        ¬ petsSite.AddressedBy Library.shelfRoot "b#/paths/~1pets/get") ∧
      ∃ link operation, PetsLink reading "upper" "#/paths/~1pets/GET" link operation ∧
        reading.library.StandsAt (Location.root Library.shelfRoot.withoutFragment) operation "get"
          petsSite ∧
        ¬ petsSite.AddressedBy Library.shelfRoot "#/paths/~1pets/GET" := by
  obtain ⟨reading, h, shown⟩ := @exists_of_any_read noLoader Library.shelfRoot petsDocument
    (fun reading => showsLink "foreign" "b#/paths/~1pets/get" reading &&
      showsLink "upper" "#/paths/~1pets/GET" reading) (by decide +kernel)
  obtain ⟨foreign, upper⟩ := Bool.and_eq_true_iff.mp shown
  obtain ⟨link, operation, pets⟩ := exists_petsLink foreign
  obtain ⟨link', operation', pets'⟩ := exists_petsLink upper
  refine ⟨reading, h, ⟨link, operation, pets, pets.standsAt h, ?_⟩,
    link', operation', pets', pets'.standsAt h, ?_⟩
  · rintro ⟨absolute, joined, same, -⟩
    have other : Library.shelfRoot.join "b#/paths/~1pets/get" =
        .ok { Library.shelfRoot with
          path := .rooted ["b"], fragment := some "/paths/~1pets/get" } := by decide
    obtain rfl := Except.ok.inj (other.symm.trans joined)
    exact absurd same (by decide)
  · rintro ⟨absolute, joined, -, tokens⟩
    have other : Library.shelfRoot.join "#/paths/~1pets/GET" =
        .ok { Library.shelfRoot with fragment := some "/paths/~1pets/GET" } := by decide
    obtain rfl := Except.ok.inj (other.symm.trans joined)
    exact absurd tokens (by decide +kernel)

end Description

end ApiContract
