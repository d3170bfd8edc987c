import ApiContract.Proofs.RelatedLists
import ApiContract.Proofs.Schema.Compatibility
import ApiContract.Proofs.Schema.Verdict
/-!
# Descriptors that are alike

What the comparison of two descriptors says about them: `Descriptor.Alike` lists it, keyword by
keyword, where the schemas that they refer to are related at each place. If the related schemas accept
the same values, so do the descriptors (`Alike.accepts_of_accepts`), provided that the two choose alike
among the members of their unions: discriminators are not compared.
-/

namespace ApiContract

open Json (Value Number)
open Decimal (Binary64)

namespace Decimal.Binary64

variable {x y z : Binary64}

theorem eq_or_zero_of_same (h : x.same y = true) :
    x = y ∨ x.significand = 0 ∧ y.significand = 0 := by
  simpa [same] using h

theorem scaledAt_of_zero (zero : x.significand = 0) (e : Int) : x.scaledAt e = 0 := by
  simp [scaledAt, magnitudeAt, zero]

theorem magnitudeAt_pos {e : Int} (nonzero : x.significand ≠ 0) : 0 < x.magnitudeAt e :=
  Nat.mul_pos (Nat.pos_of_ne_zero nonzero) (Nat.pow_pos Nat.two_pos)

theorem scaledAt_neg_iff {e : Int} :
    x.scaledAt e < 0 ↔ x.negative = true ∧ x.significand ≠ 0 := by
  by_cases zero : x.significand = 0
  · simp [scaledAt_of_zero zero, zero]
  · have := magnitudeAt_pos (e := e) zero
    grind [scaledAt]

theorem scaledAt_pos_iff {e : Int} :
    0 < x.scaledAt e ↔ x.negative = false ∧ x.significand ≠ 0 := by
  by_cases zero : x.significand = 0
  · simp [scaledAt_of_zero zero, zero]
  · have := magnitudeAt_pos (e := e) zero
    grind [scaledAt]

/-- Numbers that are the same compare alike with others. Zeros may differ in sign and exponent. -/
theorem lt_congr_right (h : y.same z = true) : x.lt y = x.lt z := by
  rcases eq_or_zero_of_same h with rfl | ⟨one, other⟩
  · rfl
  · simp only [lt, scaledAt_of_zero one, scaledAt_of_zero other, scaledAt_neg_iff]

theorem lt_congr_left (h : x.same y = true) : x.lt z = y.lt z := by
  rcases eq_or_zero_of_same h with rfl | ⟨one, other⟩
  · rfl
  · simp only [lt, scaledAt_of_zero one, scaledAt_of_zero other, scaledAt_pos_iff]

end Decimal.Binary64

theorem Descriptor.missesMultiple_congr {value x y : Binary64} (h : x.same y = true) :
    missesMultiple value x = missesMultiple value y := by
  rcases Binary64.eq_or_zero_of_same h with rfl | ⟨one, other⟩
  · rfl
  · simp [missesMultiple, Binary64.lt, Binary64.scaledAt_of_zero, Binary64.zero, one, other]

section Related

variable {α β : Type} {r : α → β → Prop} {p : α → Prop} {q : β → Prop}

theorem forall_mem_of_rel {x : Option α} {y : Option β} (h : Option.Rel r x y)
    (step : ∀ a b, r a b → p a → q b) (all : ∀ a ∈ x, p a) : ∀ b ∈ y, q b := by
  cases h with
  | none => exact fun _ => nofun
  | some related =>
    rintro b ⟨⟩
    exact step _ _ related (all _ rfl)

theorem ExactlyOne.of_forall₂ {q : α → Prop} {r : α → α → Prop} {xs ys : List α}
    (h : List.Forall₂ r xs ys) (agree : ∀ a b, r a b → (p a ↔ q b)) (one : ExactlyOne p xs) :
    ExactlyOne q ys := by
  induction h with
  | nil => simp [ExactlyOne] at one
  | cons head tail ih =>
    rw [exactlyOne_cons_iff] at one ⊢
    rcases one with ⟨holds, others⟩ | ⟨fails, one⟩
    · refine .inl ⟨(agree _ _ head).mp holds, ?_⟩
      exact forall_mem_of_forall₂ tail (fun a b related => mt (agree a b related).mpr) others
    · exact .inr ⟨mt (agree _ _ head).mpr fails, ih one⟩

end Related

/-- The same is said of other properties, by related schemas if by schemas. -/
inductive Additional.Alike (like : SchemaId → SchemaId → Prop) : Additional → Additional → Prop
  | allowed : Alike like .allowed .allowed
  | forbidden : Alike like .forbidden .forbidden
  | schema {p q : SchemaId} : like p q → Alike like (.schema p) (.schema q)

namespace Descriptor

/-- Two descriptors say the same, keyword by keyword, about values, where the schemas that they refer
to are related at each place. Nothing is said of discriminators. -/
structure Alike (like : SchemaId → SchemaId → Prop) (d e : Descriptor) : Prop where
  types : d.types = e.types
  format : d.format = e.format
  nullable : d.nullable = e.nullable
  never : d.never = e.never
  enumeration : Option.Rel (List.Forall₂ fun x y => Value.same x y = true) d.enumeration e.enumeration
  constant : Option.Rel (fun x y => Value.same y x = true) d.constant e.constant
  minimum : Option.Rel (fun x y => Binary64.same x y = true) d.minimum e.minimum
  maximum : Option.Rel (fun x y => Binary64.same x y = true) d.maximum e.maximum
  exclusiveMinimum :
    Option.Rel (fun x y => Binary64.same x y = true) d.exclusiveMinimum e.exclusiveMinimum
  exclusiveMaximum :
    Option.Rel (fun x y => Binary64.same x y = true) d.exclusiveMaximum e.exclusiveMaximum
  multipleOf : Option.Rel (fun x y => Binary64.same x y = true) d.multipleOf e.multipleOf
  minLength : d.minLength = e.minLength
  maxLength : d.maxLength = e.maxLength
  pattern : d.pattern = e.pattern
  items : Option.Rel like d.items e.items
  minItems : d.minItems = e.minItems
  maxItems : d.maxItems = e.maxItems
  uniqueItems : d.uniqueItems = e.uniqueItems
  properties : ∀ name,
    Option.Rel like (Entries.get? name d.properties) (Entries.get? name e.properties)
  required : d.required.Perm e.required
  additional : d.additional.Alike like e.additional
  minProperties : d.minProperties = e.minProperties
  maxProperties : d.maxProperties = e.maxProperties
  allOf : List.Forall₂ like d.allOf e.allOf
  oneOf : List.Forall₂ like d.oneOf e.oneOf
  anyOf : List.Forall₂ like d.anyOf e.anyOf
  not : Option.Rel like d.not e.not

/-- Two schemas choose alike among the members of their unions: neither has a discriminator, or theirs
read the same property, and each tag of it selects no member of either or members at the same place. -/
def ChoosesAlike (catalog : Catalog) (d e : Descriptor) : Prop :=
  Option.Rel (fun one other => one.property = other.property ∧
    ∀ tag, Option.Rel (fun p q => (p, q) ∈ d.members.zip e.members)
      (d.selected? catalog one tag) (e.selected? catalog other tag)) d.dispatcher? e.dispatcher?

variable {catalog : Catalog} {strict : Bool} {d e : Descriptor} {accepts : SchemaId → Value → Prop}
  {like : SchemaId → SchemaId → Prop} {value : Value}

namespace Alike

theorem admitsNull (h : d.Alike like e) : d.admitsNull = e.admitsNull := by
  rw [Descriptor.admitsNull, Descriptor.admitsNull, h.nullable, h.types]

theorem admitsNumber (h : d.Alike like e) {n : Number} (own : d.AdmitsNumber n) :
    e.AdmitsNumber n where
  minimum := forall_mem_of_rel h.minimum
    (fun _ _ same below => by rwa [← Binary64.lt_congr_right same]) own.minimum
  maximum := forall_mem_of_rel h.maximum
    (fun _ _ same above => by rwa [← Binary64.lt_congr_left same]) own.maximum
  exclusiveMinimum := forall_mem_of_rel h.exclusiveMinimum
    (fun _ _ same below => by rwa [Binary64.le, ← Binary64.lt_congr_left same]) own.exclusiveMinimum
  exclusiveMaximum := forall_mem_of_rel h.exclusiveMaximum
    (fun _ _ same above => by rwa [Binary64.le, ← Binary64.lt_congr_right same]) own.exclusiveMaximum
  multipleOf := forall_mem_of_rel h.multipleOf
    (fun _ _ same misses => by rwa [← missesMultiple_congr same]) own.multipleOf
  int32 format := own.int32 (h.format.trans format)

theorem has_property (h : d.Alike like e) (name : String) :
    Entries.has name d.properties = Entries.has name e.properties := by
  have related := h.properties name
  unfold Entries.has
  generalize Entries.get? name d.properties = one, Entries.get? name e.properties = other at related
  cases related <;> rfl

theorem schemaOf? (h : d.Alike like e) (name : String) :
    Option.Rel like (d.schemaOf? name) (e.schemaOf? name) := by
  have related := h.properties name
  unfold Descriptor.schemaOf?
  generalize Entries.get? name d.properties = one, Entries.get? name e.properties = other at related
  cases related with
  | some related => exact .some related
  | none =>
    have additional := h.additional
    generalize d.additional = one, e.additional = other at additional
    cases additional with
    | allowed | forbidden => exact .none
    | schema related => exact .some related

theorem admitsMembers (h : d.Alike like e) {members : Entries Value} (own : d.AdmitsMembers members) :
    e.AdmitsMembers members where
  required name listed := own.required name (h.required.mem_iff.mpr listed)
  listed forbidden := by
    have additional := h.additional
    rw [forbidden] at additional
    cases said : d.additional with
    | forbidden =>
      intro member there
      rw [← h.has_property]
      exact own.listed said member there
    | _ =>
      rw [said] at additional
      cases additional
  minProperties := h.minProperties ▸ own.minProperties
  maxProperties := h.maxProperties ▸ own.maxProperties

theorem admitsKind (h : d.Alike like e) (own : d.AdmitsKind value) : e.AdmitsKind value := by
  cases value with
  | null | bool _ => trivial
  | number n => exact h.admitsNumber own
  | string s =>
    exact ⟨h.minLength ▸ own.minLength, h.maxLength ▸ own.maxLength, h.pattern ▸ own.pattern⟩
  | array items =>
    exact ⟨h.minItems ▸ own.minItems, h.maxItems ▸ own.maxItems, h.uniqueItems ▸ own.uniqueItems⟩
  | object members => exact h.admitsMembers own

/-- Related schemas stand at the same places among the members of unions. -/
theorem like_of_zip (h : d.Alike like e) {p q : SchemaId} (there : (p, q) ∈ d.members.zip e.members) :
    like p q := by
  rw [members, members, List.zip_append h.oneOf.length_eq] at there
  rcases List.mem_append.mp there with one | any
  · exact List.forall₂_zip h.oneOf one
  · exact List.forall₂_zip h.anyOf any

section Accepts

variable (h : d.Alike like e) (agree : ∀ p q, like p q → ∀ value, accepts p value ↔ accepts q value)
  (chooses : ChoosesAlike catalog d e)
include h agree chooses

theorem unionAccepts (own : d.UnionAccepts catalog strict accepts value) :
    e.UnionAccepts catalog strict accepts value := by
  unfold ChoosesAlike at chooses
  generalize one : d.dispatcher? = first, other : e.dispatcher? = second at chooses
  cases chooses with
  | none =>
    rw [unionAccepts_of_undispatched one] at own
    rw [unionAccepts_of_undispatched other]
    obtain ⟨oneOf, anyOf⟩ := own
    refine ⟨oneOf.imp (fun nil => ?_) fun exactly => ?_, anyOf.imp (fun nil => ?_) fun some => ?_⟩
    · exact List.forall₂_nil_left_iff.mp (nil ▸ h.oneOf)
    · exact exactly.of_forall₂ h.oneOf fun p q related => agree p q related value
    · exact List.forall₂_nil_left_iff.mp (nil ▸ h.anyOf)
    · exact exists_mem_of_forall₂ h.anyOf (fun p q related => (agree p q related value).mp) some
  | some alike =>
    obtain ⟨property, selected⟩ := alike
    rw [unionAccepts_of_dispatcher one] at own
    rw [unionAccepts_of_dispatcher other]
    obtain ⟨tag, there, choice⟩ := own
    refine ⟨tag, property ▸ there, ?_⟩
    have alike := selected tag
    generalize e.selected? catalog _ tag = choice' at alike ⊢
    rcases choice with ⟨p, -, picked, accepted⟩ | ⟨lenient, picked⟩
    · rw [picked] at alike
      cases alike with
      | @some _ q place =>
        exact .inl ⟨q, (List.of_mem_zip place).2, rfl,
          (agree p q (h.like_of_zip place) value).mp accepted⟩
    · rw [picked] at alike
      cases alike
      exact .inr ⟨lenient, rfl⟩

theorem meets (own : d.Meets catalog strict accepts value) : e.Meets catalog strict accepts value where
  types := h.types ▸ own.types
  enumeration := forall_mem_of_rel h.enumeration
    (fun _ _ listed => exists_mem_of_forall₂ listed fun x y same equal =>
      (value.equivalenceAt_same).trans x y equal same) own.enumeration
  constant := forall_mem_of_rel h.constant
    (fun x y same equal => (y.equivalenceAt_same).trans x value same equal) own.constant
  kind := h.admitsKind own.kind
  items items is := forall_mem_of_rel h.items
    (fun p q related all item member => (agree p q related item).mp (all item member))
    (own.items items is)
  properties members is member there := forall_mem_of_rel (h.schemaOf? member.1)
    (fun p q related => (agree p q related member.2).mp) (own.properties members is member there)
  allOf := forall_mem_of_forall₂ h.allOf (fun p q related => (agree p q related value).mp) own.allOf
  union := h.unionAccepts agree chooses own.union
  not := forall_mem_of_rel h.not
    (fun p q related => mt (agree p q related value).mpr) own.not

/-- Of two descriptors that are alike, either accepts what the other does, if the schemas that they
refer to do and they choose alike. -/
theorem accepts_of_accepts (own : d.Accepts catalog strict accepts value) :
    e.Accepts catalog strict accepts value := by
  refine ⟨h.never ▸ own.1, own.2.imp (fun null => ?_) (h.meets agree chooses)⟩
  exact ⟨null.1, h.admitsNull ▸ null.2⟩

end Accepts

end Alike

/-- The schemas that two descriptors refer to at the same places. -/
def besides (d e : Descriptor) : List (SchemaId × SchemaId) :=
  d.items.toList.zip e.items.toList
    ++ d.properties.keys.flatMap (fun name =>
      (Entries.get? name d.properties).toList.zip (Entries.get? name e.properties).toList)
    ++ (match d.additional, e.additional with
      | .schema p, .schema q => [(p, q)]
      | _, _ => [])
    ++ d.allOf.zip e.allOf ++ d.oneOf.zip e.oneOf ++ d.anyOf.zip e.anyOf
    ++ d.not.toList.zip e.not.toList

theorem mem_zip_toList_iff {x y : Option SchemaId} {p q : SchemaId} :
    (p, q) ∈ x.toList.zip y.toList ↔ x = some p ∧ y = some q := by
  cases x <;> cases y <;> simp [eq_comm]

theorem mem_besides_iff {p q : SchemaId} : (p, q) ∈ d.besides e ↔
    (d.items = some p ∧ e.items = some q) ∨
    (∃ name, Entries.get? name d.properties = some p ∧ Entries.get? name e.properties = some q) ∨
    (d.additional = .schema p ∧ e.additional = .schema q) ∨
    (p, q) ∈ d.allOf.zip e.allOf ∨ (p, q) ∈ d.oneOf.zip e.oneOf ∨ (p, q) ∈ d.anyOf.zip e.anyOf ∨
    (d.not = some p ∧ e.not = some q) := by
  have properties : (∃ name ∈ d.properties.keys, Entries.get? name d.properties = some p ∧
      Entries.get? name e.properties = some q) ↔
      ∃ name, Entries.get? name d.properties = some p ∧
        Entries.get? name e.properties = some q := by
    refine exists_congr fun name => and_iff_right_of_imp fun ⟨there, _⟩ => ?_
    exact Entries.get?_isSome_iff.mp (by rw [there]; rfl)
  have additional : (p, q) ∈ (match d.additional, e.additional with
      | .schema p, .schema q => [(p, q)]
      | _, _ => []) ↔ d.additional = .schema p ∧ e.additional = .schema q := by
    cases d.additional <;> cases e.additional <;> simp [eq_comm]
  simp only [besides, List.mem_append, List.mem_flatMap, mem_zip_toList_iff, properties, additional,
    or_assoc]

/-- What holds of the descriptor of any schema that is read: the names in it are different, and its
pattern is what the text of the pattern is compiled to. -/
structure Regular (d : Descriptor) : Prop extends d.Proper where
  pattern : ∀ pattern ∈ d.pattern, Pattern.compile? pattern.source = some pattern

theorem Regular.pattern_eq (regular : d.Regular) (other : e.Regular)
    (sources : d.pattern.map Pattern.source = e.pattern.map Pattern.source) :
    d.pattern = e.pattern := by
  have compiled {d : Descriptor} (regular : d.Regular) :
      (d.pattern.map Pattern.source).bind Pattern.compile? = d.pattern := by
    cases own : d.pattern with
    | none => rfl
    | some pattern => exact regular.pattern pattern own
  rw [← compiled regular, sources, compiled other]

end Descriptor

namespace Catalog

variable {d e : Descriptor} {same : SchemaId → SchemaId → Bool}

theorem sameOption_iff {α : Type} {test : α → α → Bool} {x y : Option α} :
    sameOption test x y = true ↔ Option.Rel (fun a b => test a b = true) x y := by
  cases x <;> cases y <;> simp [sameOption]

theorem rel_properties {xs ys : Entries SchemaId} (distinct : xs.keys.Nodup)
    (lengths : xs.length = ys.length)
    (all : (xs.all fun entry =>
      match Entries.get? entry.1 ys with
      | some other => same entry.2 other
      | none => false) = true) (name : String) :
    Option.Rel (fun p q => same p q = true) (Entries.get? name xs) (Entries.get? name ys) := by
  have found {key : String} {p : SchemaId} (own : Entries.get? key xs = some p) :
      ∃ q, Entries.get? key ys = some q ∧ same p q = true := by
    have holds := List.all_eq_true.mp all _ (Entries.mem_of_get? own)
    split at holds
    · exact ⟨_, ‹_›, holds⟩
    · cases holds
  cases own : Entries.get? name xs with
  | some p =>
    obtain ⟨q, its, same⟩ := found own
    rw [its]
    exact .some same
  | none =>
    -- There are as many names on the one side as on the other, so none is left over.
    have among : xs.keys ⊆ ys.keys := by
      intro key there
      obtain ⟨p, own⟩ := Option.isSome_iff_exists.mp (Entries.get?_isSome_iff.mpr there)
      obtain ⟨q, its, -⟩ := found own
      exact Entries.get?_isSome_iff.mp (Option.isSome_of_mem its)
    have absent : name ∉ ys.keys := fun there => by
      have := Entries.keys_subset_of_length_le distinct among (Nat.le_of_eq lengths.symm) there
      rw [← Entries.get?_isSome_iff, own] at this
      cases this
    rw [Option.not_isSome_iff_eq_none.mp (mt Entries.get?_isSome_iff.mp absent)]
    exact .none

theorem rel_and {p : SchemaId → SchemaId → Prop} {r : SchemaId → SchemaId → Prop}
    {x y : Option SchemaId} (h : Option.Rel r x y) (there : ∀ a b, x = some a → y = some b → p a b) :
    Option.Rel (fun a b => p a b ∧ r a b) x y := by
  cases h with
  | none => exact .none
  | some related => exact .some ⟨there _ _ rfl rfl, related⟩

theorem additional_and {p : SchemaId → SchemaId → Prop} {one other : Additional}
    (h : (match one, other with
      | .schema a, .schema b => same a b
      | a, b => a == b) = true)
    (there : ∀ a b, one = .schema a → other = .schema b → p a b) :
    one.Alike (fun a b => p a b ∧ same a b = true) other := by
  cases one <;> cases other <;> first
    | exact .allowed
    | exact .forbidden
    | exact .schema ⟨there _ _ rfl rfl, h⟩
    | cases h

theorem constant_symm {one other : Option Value}
    (h : Option.Rel (fun x y => Value.same x y = true) one other)
    (own : ∀ value ∈ one, value.hasDistinctNames = true)
    (its : ∀ value ∈ other, value.hasDistinctNames = true) :
    Option.Rel (fun x y => Value.same y x = true) one other := by
  cases h with
  | none => exact .none
  | @some x y same => exact .some (x.equivalenceAt_same.symm y (own x rfl) (its y rfl) same)

theorem sorted_perm (names : List String) : (sorted names).Perm names := List.mergeSort_perm ..

/-- Descriptors that pass the comparison are alike. -/
theorem alike_of_sameDescriptor (h : sameDescriptor same d e = true) (regular : d.Regular)
    (other : e.Regular) :
    d.Alike (fun p q => (p, q) ∈ d.besides e ∧ same p q = true) e := by
  simp only [sameDescriptor, Bool.and_eq_true, beq_iff_eq, sameOption_iff, sameList_iff, and_assoc]
    at h
  obtain ⟨types, format, nullable, never, enumeration, constant, minimum, maximum, exclusiveMinimum,
    exclusiveMaximum, multipleOf, minLength, maxLength, pattern, items, minItems, maxItems,
    uniqueItems, lengths, properties, required, additional, minProperties, maxProperties, allOf,
    oneOf, anyOf, not⟩ := h
  have beside {p q : SchemaId} := (@Descriptor.mem_besides_iff d e p q).mpr
  exact
    { types, format, nullable, never, enumeration, minimum, maximum, exclusiveMinimum
      exclusiveMaximum, multipleOf, minLength, maxLength, minItems, maxItems, uniqueItems
      minProperties, maxProperties
      constant := constant_symm constant regular.constant other.constant
      pattern := regular.pattern_eq other pattern
      items := rel_and items fun p q one two => beside (.inl ⟨one, two⟩)
      properties := fun name =>
        rel_and (rel_properties regular.properties lengths properties name)
          fun p q one two => beside (.inr (.inl ⟨name, one, two⟩))
      required := (sorted_perm d.required).symm.trans (required ▸ sorted_perm e.required)
      additional := additional_and additional
        fun p q one two => beside (.inr (.inr (.inl ⟨one, two⟩)))
      allOf := forall₂_and allOf fun p q there => beside (.inr (.inr (.inr (.inl there))))
      oneOf := forall₂_and oneOf fun p q there => beside (.inr (.inr (.inr (.inr (.inl there)))))
      anyOf := forall₂_and anyOf fun p q there =>
        beside (.inr (.inr (.inr (.inr (.inr (.inl there))))))
      not := rel_and not fun p q one two =>
        beside (.inr (.inr (.inr (.inr (.inr (.inr ⟨one, two⟩)))))) }

end Catalog

end ApiContract
