import ApiContract.Schema.Descriptor
import ApiContract.Reference.Location
/-!
# Catalogs of schemas

A catalog holds the descriptors of all schemas of a description, each under its position, and says
at which location each schema stands. A location has at most one schema.
-/

namespace ApiContract

/-- The schemas of a description. -/
structure Catalog where
  descriptors : Array Descriptor
  /-- The position of the schema at each location. -/
  index : List (Location × SchemaId)
deriving Inhabited

namespace Catalog

/-- A catalog without schemas. -/
def empty : Catalog := ⟨#[], []⟩

/-- The number of schemas. -/
def size (catalog : Catalog) : Nat := catalog.descriptors.size

/-- The descriptor at a position. -/
def descriptor (catalog : Catalog) (id : SchemaId) : Descriptor :=
  catalog.descriptors[id]?.getD (.unrestricted "" none)

/-- The position of the schema at a location. -/
def find? (catalog : Catalog) (location : Location) : Option SchemaId :=
  (catalog.index.find? fun entry => entry.1 = location).map Prod.snd

/-- The catalog with a position for the schema at a location. -/
def reserve (catalog : Catalog) (location : Location) : Catalog :=
  ⟨catalog.descriptors.push (.unrestricted location.text none),
    (location, catalog.size) :: catalog.index⟩

/-- The catalog with another descriptor at a position. -/
def set (catalog : Catalog) (id : SchemaId) (d : Descriptor) : Catalog :=
  { catalog with descriptors := catalog.descriptors.setIfInBounds id d }

/-- What a schema asks of an object, with the schemas it is composed of taken together. -/
def merged (catalog : Catalog) (id : SchemaId) : MergedObject :=
  let d := catalog.descriptor id
  d.merged.getD d.ownObject

theorem size_set (catalog : Catalog) (id : SchemaId) (d : Descriptor) :
    (catalog.set id d).size = catalog.size := by
  simp [set, size]

theorem size_reserve (catalog : Catalog) (location : Location) :
    (catalog.reserve location).size = catalog.size + 1 := by
  simp [reserve, size]

theorem descriptor_set (catalog : Catalog) (id other : SchemaId) (d : Descriptor)
    (h : id < catalog.size) :
    (catalog.set id d).descriptor other = if other = id then d else catalog.descriptor other := by
  by_cases same : other = id
  · subst same
    simp [descriptor, set, show other < catalog.descriptors.size from h]
  · simp [descriptor, set, Ne.symm same, same]

theorem set_of_size_le {catalog : Catalog} {id : SchemaId} (d : Descriptor)
    (h : catalog.size ≤ id) : catalog.set id d = catalog := by
  have outside : ¬ id < catalog.descriptors.size := Nat.not_lt.mpr h
  simp [set, Array.setIfInBounds, outside]

/-- A schema that is not in the catalog says nothing. -/
theorem descriptor_of_size_le {catalog : Catalog} {id : SchemaId} (h : catalog.size ≤ id) :
    catalog.descriptor id = .unrestricted "" none := by
  have missing : catalog.descriptors[id]? = none := by simpa [size] using h
  simp [descriptor, missing]

theorem descriptor_mem {catalog : Catalog} {id : SchemaId} (h : id < catalog.size) :
    catalog.descriptor id ∈ catalog.descriptors.toList := by
  have found : catalog.descriptors[id]? = some catalog.descriptors[id] :=
    Array.getElem?_eq_getElem h
  simp only [descriptor, found, Option.getD_some]
  exact Array.getElem_mem_toList h

end Catalog

end ApiContract
