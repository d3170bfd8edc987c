import ApiContract.Proofs.Json.Pointer
import ApiContract.Proofs.Schema.Verdict
import Mathlib.Data.List.Infix
import Mathlib.Data.List.Perm.Subperm
import Mathlib.Data.List.ProdSigma
/-!
# Frames

The checks that are under way at a point of a validation. A frame is a schema with the path of the
part of the value that is being checked against it. `Catalog.Live` is what holds of the frames at
every point: they are pairwise different, they belong to schemas of the catalog, and their paths
lead to the part that is being checked. So there are never more of them than `checkLimit` allows,
and a check always has fuel left (`Live.fuel_pos`).
-/

namespace ApiContract

open Json (Value)

namespace Descriptor

variable {catalog : Catalog} {d : Descriptor} {value part : Value} {schema : SchemaId}
  {step : ValuePath}

/-- A check calls for checks of the same value or of a smaller part of it one token further. -/
theorem Visits.same_or_below (h : d.Visits catalog value schema part step) :
    step = [] ∧ part = value ∨ step.length = 1 ∧ part.nodes < value.nodes := by
  cases h with
  | part _ => exact .inl ⟨rfl, rfl⟩
  | selected _ _ _ => exact .inl ⟨rfl, rfl⟩
  | item _ found =>
    refine .inr ⟨rfl, ?_⟩
    rw [Value.nodes]
    exact Nat.lt_succ_of_le (Value.nodes_le_nodesOfItems (List.mem_of_getElem? found))
  | property _ member =>
    refine .inr ⟨rfl, ?_⟩
    rw [Value.nodes]
    exact Nat.lt_succ_of_le (Value.nodes_le_nodesOfMembers member)

theorem Visits.length_add_nodes_le (h : d.Visits catalog value schema part step)
    (path : ValuePath) : (path ++ step).length + part.nodes ≤ path.length + value.nodes := by
  rcases h.same_or_below with ⟨rfl, rfl⟩ | ⟨length, smaller⟩
  · simp
  · rw [List.length_append]
    omega

end Descriptor

namespace Catalog

variable {catalog : Catalog} {limit fuel : Nat} {active : List (SchemaId × ValuePath)}
  {value part : Value} {path step : ValuePath} {id schema : SchemaId}

/-- What holds of the frames `active` when a part of a value at a path is about to be checked. -/
structure Live (catalog : Catalog) (limit fuel : Nat) (active : List (SchemaId × ValuePath))
    (value : Value) (path : ValuePath) : Prop where
  length : active.length + fuel = limit
  nodup : active.Nodup
  ids : ∀ frame ∈ active, frame.1 < catalog.size
  paths : ∀ frame ∈ active, frame.2 <+: path
  room : catalog.size * (path.length + value.nodes) < limit

theorem validate_ok_iff (catalog : Catalog) (strict : Bool) (id : SchemaId) (value : Value) :
    (∃ warnings, catalog.validate strict id value = .ok warnings) ↔
      (catalog.report strict id value).isOk = true := by
  unfold validate
  cases found : (catalog.report strict id value).isOk <;> simp [found]

theorem live_checkLimit (catalog : Catalog) (value : Value) :
    catalog.Live (catalog.checkLimit value) (catalog.checkLimit value) [] value [] where
  length := by simp
  nodup := List.nodup_nil
  ids := by simp
  paths := by simp
  room := by simp [checkLimit]

/-- A schema that is not in the catalog refers to no other. -/
theorem lt_size_of_visits (h : (catalog.descriptor id).Visits catalog value schema part step) :
    id < catalog.size := by
  by_contra outside
  rw [descriptor_of_size_le (Nat.le_of_not_lt outside)] at h
  cases h with
  | part member => simp [Descriptor.parts, Descriptor.unrestricted] at member
  | selected union _ _ => simp [Descriptor.isUnion, Descriptor.unrestricted] at union
  | item found _ => simp [Descriptor.unrestricted] at found
  | property found _ => simp [Descriptor.schemaOf?, Descriptor.unrestricted, Entries.get?] at found

/-- There are at most as many frames as schemas times the paths to a part. -/
theorem length_le_of_frames (nodup : active.Nodup) (ids : ∀ frame ∈ active, frame.1 < catalog.size)
    (paths : ∀ frame ∈ active, frame.2 <+: path) :
    active.length ≤ catalog.size * (path.length + 1) := by
  have covered : active ⊆ List.range catalog.size ×ˢ path.inits := by
    intro frame member
    exact List.mem_product.mpr
      ⟨List.mem_range.mpr (ids frame member), (List.mem_inits _ _).mpr (paths frame member)⟩
  have := (List.subperm_of_subset nodup covered).length_le
  rwa [List.length_product, List.length_range, List.length_inits] at this

namespace Live

theorem length_le (h : catalog.Live limit fuel active value path) :
    active.length ≤ catalog.size * (path.length + 1) :=
  length_le_of_frames h.nodup h.ids h.paths

theorem fuel_pos (h : catalog.Live limit fuel active value path) : 0 < fuel := by
  have frames := h.length_le
  have nodes := value.nodes_pos
  have : catalog.size * (path.length + 1) ≤ catalog.size * (path.length + value.nodes) :=
    Nat.mul_le_mul_left _ (by omega)
  have := h.room
  have := h.length
  omega

/-- The frames of a check that another one calls for. -/
theorem visit (h : catalog.Live limit (fuel + 1) active value path) (fresh : (id, path) ∉ active)
    (visits : (catalog.descriptor id).Visits catalog value schema part step) :
    catalog.Live limit fuel ((id, path) :: active) part (path ++ step) where
  length := by
    have := h.length
    simp only [List.length_cons]
    omega
  nodup := List.nodup_cons.mpr ⟨fresh, h.nodup⟩
  ids := by
    intro frame member
    rcases List.mem_cons.mp member with rfl | member
    · exact lt_size_of_visits visits
    · exact h.ids frame member
  paths := by
    intro frame member
    rcases List.mem_cons.mp member with rfl | member
    · exact List.prefix_append path step
    · exact (h.paths frame member).trans (List.prefix_append path step)
  room := Nat.lt_of_le_of_lt
    (Nat.mul_le_mul_left _ (visits.length_add_nodes_le path)) h.room

end Live

end Catalog

end ApiContract
