import ApiContract.Proofs.Json.Sameness
import ApiContract.Schema.Composition
/-!
# Compatible schemas

Schemas are compared keyword by keyword, so many levels deep. Each keyword is compared by a test that
is an equivalence, so is their conjunction, and so, level by level, is the comparison of schemas
(`equivalenceAt_compatible`): the depth at which it gives up does not break transitivity, since all
three comparisons give up at the same depth.
-/

namespace ApiContract

open Json (Value)

namespace EquivalenceAt

variable {α β : Type} {proper : α → Prop} {same other : α → α → Bool} {x : α}

/-- Two tests at once. -/
theorem and (one : EquivalenceAt proper same x) (two : EquivalenceAt proper other x) :
    EquivalenceAt proper (fun x y => same x y && other x y) x where
  refl own := by rw [one.refl own, two.refl own, Bool.and_self]
  symm y own its h := by
    obtain ⟨first, second⟩ := Bool.and_eq_true_iff.mp h
    rw [one.symm y own its first, two.symm y own its second, Bool.and_self]
  trans y z h h' := by
    obtain ⟨first, second⟩ := Bool.and_eq_true_iff.mp h
    obtain ⟨first', second'⟩ := Bool.and_eq_true_iff.mp h'
    rw [one.trans y z first first', two.trans y z second second', Bool.and_self]

theorem assoc {third : α → α → Bool}
    (h : EquivalenceAt proper (fun x y => same x y && (other x y && third x y)) x) :
    EquivalenceAt proper (fun x y => same x y && other x y && third x y) x := by
  simpa only [Bool.and_assoc] using h

/-- A test of a part. -/
theorem on {whole : β → Prop} {b : β} (part : β → α) (h : EquivalenceAt proper same (part b))
    (inherits : ∀ b, whole b → proper (part b)) :
    EquivalenceAt whole (fun b c => same (part b) (part c)) b where
  refl own := h.refl (inherits b own)
  symm c own its := h.symm (part c) (inherits b own) (inherits c its)
  trans c d := h.trans (part c) (part d)

/-- A test on fewer elements. -/
theorem among {fewer : α → Prop} (h : EquivalenceAt proper same x)
    (proper_of : ∀ y, fewer y → proper y) : EquivalenceAt fewer same x :=
  h.on (fun y => y) proper_of

/-- The equality of a part. -/
theorem eqOn [BEq β] [LawfulBEq β] (part : α → β) :
    EquivalenceAt proper (fun x y => part x == part y) x where
  refl _ := beq_self_eq_true _
  symm y _ _ h := by rw [eq_of_beq h, beq_self_eq_true]
  trans y z h h' := by rw [eq_of_beq h, eq_of_beq h', beq_self_eq_true]

/-- Equality, or else a test. -/
theorem orEq [BEq α] [LawfulBEq α] (h : EquivalenceAt proper same x) :
    EquivalenceAt proper (fun x y => x == y || same x y) x where
  refl _ := by rw [beq_self_eq_true, Bool.true_or]
  symm y own its alike := by
    rcases Bool.or_eq_true_iff.mp alike with equal | alike
    · rw [eq_of_beq equal, beq_self_eq_true, Bool.true_or]
    · rw [h.symm y own its alike, Bool.or_true]
  trans y z alike alike' := by
    rcases Bool.or_eq_true_iff.mp alike with equal | alike
    · rwa [eq_of_beq equal]
    · rcases Bool.or_eq_true_iff.mp alike' with equal | alike'
      · rw [← eq_of_beq equal, alike, Bool.or_true]
      · rw [h.trans y z alike alike', Bool.or_true]

theorem option {x : Option α} (each : ∀ a ∈ x, EquivalenceAt proper same a) :
    EquivalenceAt (fun x => ∀ a ∈ x, proper a) (Catalog.sameOption same) x := by
  cases x with
  | none => exact .of_eq rfl fun y h => by cases y <;> first | rfl | cases h
  | some a =>
    have h := each a rfl
    refine ⟨fun own => h.refl (own a rfl), fun y own its alike => ?_, fun y z alike alike' => ?_⟩
    · cases y with
      | none => cases alike
      | some b => exact h.symm b (own a rfl) (its b rfl) alike
    · cases y with
      | none => cases alike
      | some b =>
        cases z with
        | none => cases alike'
        | some c => exact h.trans b c alike alike'

end EquivalenceAt

/-- What holds of the descriptor of any schema that is read: the names of its properties are
different, and so are those of the objects among its values. -/
structure Descriptor.Proper (d : Descriptor) : Prop where
  properties : d.properties.keys.Nodup
  enumeration : ∀ values ∈ d.enumeration, ∀ value ∈ values, value.hasDistinctNames = true
  constant : ∀ value ∈ d.constant, value.hasDistinctNames = true

namespace Catalog

theorem sameList_iff {α : Type} (same : α → α → Bool) (xs ys : List α) :
    sameList same xs ys = true ↔ List.Forall₂ (fun x y => same x y = true) xs ys := by
  induction xs generalizing ys with
  | nil => cases ys <;> simp [sameList]
  | cons x xs ih => cases ys <;> simp [sameList, ih]

section Keywords

variable {same : SchemaId → SchemaId → Bool}

theorem equivalenceAt_schemas (each : ∀ id, EquivalenceAt (fun _ => True) same id)
    (ids : List SchemaId) : EquivalenceAt (fun _ => True) (sameList same) ids :=
  (EquivalenceAt.list (sameList_iff same) fun id _ => each id).among fun _ _ _ _ => trivial

theorem equivalenceAt_schema? (each : ∀ id, EquivalenceAt (fun _ => True) same id)
    (id? : Option SchemaId) : EquivalenceAt (fun _ => True) (sameOption same) id? :=
  (EquivalenceAt.option fun id _ => each id).among fun _ _ _ _ => trivial

theorem equivalenceAt_bound (bound : Option Decimal.Binary64) :
    EquivalenceAt (fun _ => True) (sameOption Decimal.Binary64.same) bound :=
  (EquivalenceAt.option fun x _ => x.equivalenceAt_same).among fun _ _ _ _ => trivial

theorem equivalenceAt_additional (each : ∀ id, EquivalenceAt (fun _ => True) same id)
    (additional : Additional) :
    EquivalenceAt (fun _ => True)
      (fun a b => match a, b with
        | .schema p, .schema q => same p q
        | p, q => p == q) additional := by
  cases additional with
  | allowed => exact .of_eq rfl fun y h => by cases y <;> first | rfl | cases h
  | forbidden => exact .of_eq rfl fun y h => by cases y <;> first | rfl | cases h
  | schema id =>
    refine ⟨fun _ => (each id).refl trivial, fun y _ _ h => ?_, fun y z h h' => ?_⟩
    · cases y with
      | schema p => exact (each id).symm p trivial trivial h
      | _ => cases h
    · cases y with
      | schema p =>
        cases z with
        | schema q => exact (each id).trans p q h h'
        | _ => cases h'
      | _ => cases h

theorem equivalenceAt_properties (each : ∀ id, EquivalenceAt (fun _ => True) same id)
    (properties : Entries SchemaId) :
    EquivalenceAt (fun properties : Entries SchemaId => properties.keys.Nodup)
      (fun xs ys => xs.length == ys.length && xs.all fun entry =>
        match Entries.get? entry.1 ys with
        | some other => same entry.2 other
        | none => false) properties := by
  have agree (xs ys : Entries SchemaId) :
      (xs.length == ys.length && xs.all fun entry =>
        match Entries.get? entry.1 ys with
        | some other => same entry.2 other
        | none => false) = true ↔ xs.length = ys.length ∧
      ∀ entry ∈ xs, ∃ y, Entries.get? entry.1 ys = some y ∧ same entry.2 y = true := by
    rw [Bool.and_eq_true, beq_iff_eq, List.all_eq_true]
    refine and_congr Iff.rfl (forall₂_congr fun entry _ => ?_)
    cases Entries.get? entry.1 ys <;> simp
  exact (EquivalenceAt.entries agree fun entry _ => each entry.2).among
    fun _ distinct => ⟨distinct, fun _ _ => trivial⟩

/-- Descriptors are compared by an equivalence if the schemas that they refer to are. -/
theorem equivalenceAt_sameDescriptor (each : ∀ id, EquivalenceAt (fun _ => True) same id)
    (d : Descriptor) : EquivalenceAt Descriptor.Proper (sameDescriptor same) d := by
  have bound (part : Descriptor → Option Decimal.Binary64) :
      EquivalenceAt Descriptor.Proper
        (fun x y => sameOption Decimal.Binary64.same (part x) (part y)) d :=
    (equivalenceAt_bound (part d)).on part fun _ _ => trivial
  have schemas (part : Descriptor → List SchemaId) :
      EquivalenceAt Descriptor.Proper (fun x y => sameList same (part x) (part y)) d :=
    (equivalenceAt_schemas each (part d)).on part fun _ _ => trivial
  have schema? (part : Descriptor → Option SchemaId) :
      EquivalenceAt Descriptor.Proper (fun x y => sameOption same (part x) (part y)) d :=
    (equivalenceAt_schema? each (part d)).on part fun _ _ => trivial
  have properties := (equivalenceAt_properties each d.properties).on Descriptor.properties
    fun _ proper => Descriptor.Proper.properties proper
  have enumeration : EquivalenceAt Descriptor.Proper
      (fun x y => sameOption (sameList Value.same) x.enumeration y.enumeration) d :=
    (EquivalenceAt.option fun values _ => .list (sameList_iff _) fun value _ =>
      value.equivalenceAt_same).on Descriptor.enumeration fun _ => Descriptor.Proper.enumeration
  have constant : EquivalenceAt Descriptor.Proper
      (fun x y => sameOption Value.same x.constant y.constant) d :=
    (EquivalenceAt.option fun value _ => value.equivalenceAt_same).on Descriptor.constant
      fun _ => Descriptor.Proper.constant
  have additional := (equivalenceAt_additional each d.additional).on Descriptor.additional
    fun (x : Descriptor) (_ : x.Proper) => trivial
  -- The parts stand in the order in which they are compared.
  refine .and (.and (.and (.and (.and (.and (.and (.and
    (.assoc (.and ?upToItems properties)) (.eqOn fun x : Descriptor => sorted x.required)) additional)
    (.eqOn _)) (.eqOn _)) (schemas _)) (schemas _)) (schemas _)) (schema? _)
  case upToItems =>
    exact .and (.and (.and (.and (.and (.and (.and (.and (.and (.and (.and (.and (.and (.and
      (.and (.and (.and (.eqOn _) (.eqOn _)) (.eqOn _)) (.eqOn _)) enumeration) constant)
      (bound _)) (bound _)) (bound _)) (bound _)) (bound _)) (.eqOn _)) (.eqOn _))
      (.eqOn fun x : Descriptor => x.pattern.map Pattern.source)) (schema? _)) (.eqOn _)) (.eqOn _)) (.eqOn _)

end Keywords

/-- At any depth, the schemas of a catalog are compared by an equivalence. -/
theorem equivalenceAt_sameConstraints {catalog : Catalog}
    (proper : ∀ id, (catalog.descriptor id).Proper) (depth : Nat) (id : SchemaId) :
    EquivalenceAt (fun _ => True) (catalog.sameConstraints depth) id := by
  induction depth generalizing id with
  | zero => exact .eqOn fun id => id
  | succ depth ih =>
    have descriptors := (equivalenceAt_sameDescriptor ih (catalog.descriptor id)).on
      catalog.descriptor fun other (_ : True) => proper other
    exact descriptors.orEq

/-- In a catalog, the schemas that may be those of one property are so by an equivalence. -/
theorem equivalenceAt_compatible {catalog : Catalog}
    (proper : ∀ id, (catalog.descriptor id).Proper) (id : SchemaId) :
    EquivalenceAt (fun _ => True) catalog.compatible id :=
  equivalenceAt_sameConstraints proper comparisonDepth id

end Catalog

end ApiContract
