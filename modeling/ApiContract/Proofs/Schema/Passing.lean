import ApiContract.Proofs.Schema.Frames
import Mathlib.Data.Finset.Card
/-!
# Passing

What a check comes to where schemas may be composed of themselves. A schema that is being checked for
the same part of the value counts as passed. That is all that a check depends on besides the schema and
the value: neither the path that leads to the part, nor what is being checked for other parts, nor the
fuel make a difference (`isOk_check_iff_passes`).
-/

namespace ApiContract

open Json (Value)

namespace Catalog

/-- The schemas that are pending for a part of a value, once a schema is being checked for the value:
none for a smaller part. -/
def pendingBelow (pending : List SchemaId) (id : SchemaId) (value part : Value) : List SchemaId :=
  if part.nodes < value.nodes then [] else id :: pending

theorem pendingBelow_of_lt {pending : List SchemaId} {id : SchemaId} {value part : Value}
    (smaller : part.nodes < value.nodes) : pendingBelow pending id value part = [] :=
  if_pos smaller

theorem pendingBelow_self (pending : List SchemaId) (id : SchemaId) (value : Value) :
    pendingBelow pending id value value = id :: pending :=
  if_neg (Nat.lt_irrefl _)

/-- A value passes a schema that is pending, or that accepts it, where the schemas that it asks accept
what passes them. They are asked of smaller values, or of the same value where the schema is
pending itself. -/
def Passes (catalog : Catalog) (strict : Bool) (pending : List SchemaId) (id : SchemaId)
    (value : Value) : Prop :=
  id ∈ pending ∨
    (catalog.descriptor id).Accepts catalog strict
      (fun schema part =>
        ∃ _ : part.nodes < value.nodes ∨ part = value ∧ id ∉ pending ∧ id < catalog.size,
          catalog.Passes strict (pendingBelow pending id value part) schema part)
      value
termination_by (value.nodes, (Finset.range catalog.size \ pending.toFinset).card)
decreasing_by
  rename_i below
  rcases below with smaller | ⟨rfl, fresh, inside⟩
  · exact Prod.Lex.left _ _ smaller
  · rw [pendingBelow_self]
    refine Prod.Lex.right _ (Finset.card_lt_card (Finset.ssubset_iff_of_subset ?_ |>.mpr ?_))
    · exact Finset.sdiff_subset_sdiff (Finset.Subset.refl _) (by simp)
    · exact ⟨id, by simp [fresh, inside], by simp⟩

/-- The schemas of the frames at a path. -/
def pendingAt (active : List (SchemaId × ValuePath)) (path : ValuePath) : List SchemaId :=
  (active.filter fun frame => frame.2 = path).map Prod.fst

variable {catalog : Catalog} {strict : Bool} {limit fuel : Nat}
  {active : List (SchemaId × ValuePath)} {pending : List SchemaId} {value part : Value}
  {path step : ValuePath} {id schema : SchemaId}

theorem mem_pendingAt_iff : id ∈ pendingAt active path ↔ (id, path) ∈ active := by
  simp [pendingAt]

theorem pendingAt_cons_self :
    pendingAt ((id, path) :: active) path = id :: pendingAt active path := by
  simp [pendingAt]

theorem Live.pendingAt_below (live : catalog.Live limit fuel active value path)
    (longer : step.length = 1) : pendingAt ((id, path) :: active) (path ++ step) = [] := by
  simp only [pendingAt, List.map_eq_nil_iff, List.filter_eq_nil_iff, decide_eq_true_eq]
  -- The frames stand at or above the path, so none is at the part one token further.
  intro frame member same
  have above : frame.2.length ≤ path.length := by
    rcases List.mem_cons.mp member with rfl | member
    · exact Nat.le_refl _
    · exact (live.paths frame member).length_le
  rw [same, List.length_append] at above
  omega

/-- A check finds no violation exactly in the values that pass the schema, where the schemas are
pending that are being checked at the same path. -/
theorem isOk_check_iff_passes (selects : ∀ id, (catalog.descriptor id).SelectsMembers catalog)
    (live : catalog.Live limit fuel active value path) :
    (catalog.check strict fuel active id value path).isOk = true ↔
      catalog.Passes strict (pendingAt active path) id value := by
  induction fuel generalizing active id value path with
  | zero => exact absurd live.fuel_pos (Nat.lt_irrefl 0)
  | succ fuel ih =>
    rw [check, Passes]
    by_cases framed : (id, path) ∈ active
    · simp [framed, mem_pendingAt_iff]
    have fresh : id ∉ pendingAt active path := mt mem_pendingAt_iff.mp framed
    rw [if_neg (by simpa using framed), or_iff_right fresh]
    refine Descriptor.isOk_check_iff (selects id) fun schema part step visits => ?_
    rw [ih (live.visit framed visits)]
    rcases visits.same_or_below with ⟨rfl, rfl⟩ | ⟨longer, smaller⟩
    · rw [List.append_nil, pendingAt_cons_self, pendingBelow_self]
      exact ⟨fun passes => ⟨.inr ⟨rfl, fresh, lt_size_of_visits visits⟩, passes⟩,
        fun ⟨_, passes⟩ => passes⟩
    · rw [live.pendingAt_below longer, pendingBelow_of_lt smaller]
      exact ⟨fun passes => ⟨.inl smaller, passes⟩, fun ⟨_, passes⟩ => passes⟩

/-- Validation succeeds on the values that pass the schema where none is pending. -/
theorem validate_ok_iff_passes (selects : ∀ id, (catalog.descriptor id).SelectsMembers catalog) :
    (∃ warnings, catalog.validate strict id value = .ok warnings) ↔
      catalog.Passes strict [] id value := by
  rw [validate_ok_iff, report, isOk_check_iff_passes selects (live_checkLimit catalog value)]
  rfl

end Catalog

end ApiContract
