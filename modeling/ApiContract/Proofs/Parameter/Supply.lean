import ApiContract.Parameter.Basic
import ApiContract.Proofs.Entries
import Mathlib.Data.List.Induction
/-!
# The supplied parameters

When the parameters that a caller supplies are those that are declared, and how the names are listed
where they are not. Errors list names once each, by the place of the first parameter of that name
(`Parameter.ListsOnce`) among the parameters that count, and these stand by location and within each
as declared (`Parameter.SortsByLocation`). For names that are missing the parameters that count are
those that have to be supplied, so that a name can come later in this list than in that of all names
(`listed_by_needed`).
-/

namespace ApiContract

open Json (Value)

namespace Parameter

variable {parameters ordered : List Parameter} {supplied : Entries Value} {names listed : List String}
  {name : String} {p : Parameter}

/-! ### Orders -/

/-- Parameters by location, and as they were within each. -/
structure SortsByLocation (parameters ordered : List Parameter) : Prop where
  perm : ordered.Perm parameters
  sorted : ordered.Pairwise fun p q => p.location.rank ≤ q.location.rank
  stable : ∀ location, (ordered.filter fun p => p.location == location) =
    parameters.filter fun p => p.location == location

/-- Each of some names once, by the place where it first comes up. -/
structure ListsOnce (names listed : List String) : Prop where
  mem : ∀ name, name ∈ listed ↔ name ∈ names
  order : listed.Pairwise fun a b => names.idxOf a < names.idxOf b
  nodup : listed.Nodup := order.imp fun before same => by simp [same] at before

theorem ListsOnce.unique {other : List String} (h : ListsOnce names listed)
    (h' : ListsOnce names other) : listed = other := by
  have irrefl : Std.Irrefl fun a b => names.idxOf a < names.idxOf b := ⟨fun _ => Nat.lt_irrefl _⟩
  have antisymm : Std.Antisymm fun a b => names.idxOf a < names.idxOf b :=
    ⟨fun _ _ before after => absurd before (Nat.lt_asymm after)⟩
  exact List.Pairwise.eq_of_mem_iff h.order h'.order fun name => (h.mem name).trans (h'.mem name).symm

theorem firstOccurrences_concat (names : List String) (name : String) :
    firstOccurrences (names ++ [name]) =
      if (firstOccurrences names).contains name then firstOccurrences names
      else firstOccurrences names ++ [name] := by
  simp [firstOccurrences, List.foldl_append]

/-- One name more changes nothing if it has come up before, and is listed last if it has not. -/
theorem listsOnce_firstOccurrences (names : List String) :
    ListsOnce names (firstOccurrences names) := by
  induction names using List.reverseRecOn with
  | nil => exact { mem := by simp [firstOccurrences], order := by simp [firstOccurrences] }
  | append_singleton names last ih =>
    have order : (firstOccurrences names).Pairwise fun a b =>
        (names ++ [last]).idxOf a < (names ++ [last]).idxOf b := by
      refine ih.order.imp_of_mem fun first second before => ?_
      rw [List.idxOf_append, if_pos ((ih.mem _).mp first), List.idxOf_append,
        if_pos ((ih.mem _).mp second)]
      exact before
    rw [firstOccurrences_concat]
    split
    · next known =>
      have earlier : last ∈ names := (ih.mem last).mp (List.contains_iff_mem.mp known)
      refine { mem := fun name => ?_, order := order }
      rw [ih.mem, List.mem_append, List.mem_singleton]
      exact ⟨.inl, fun either => either.elim id fun same => same ▸ earlier⟩
    · next fresh =>
      have new : last ∉ names := fun member =>
        fresh (List.contains_iff_mem.mpr ((ih.mem last).mpr member))
      refine { mem := fun name => by simp [ih.mem], order := ?_ }
      rw [List.pairwise_append]
      refine ⟨order, List.pairwise_singleton _ _, fun name member _ same => ?_⟩
      rw [List.mem_singleton.mp same, List.idxOf_append, if_pos ((ih.mem name).mp member),
        List.idxOf_append, if_neg new]
      exact Nat.lt_of_lt_of_le (List.idxOf_lt_length_of_mem ((ih.mem name).mp member))
        (Nat.le_add_left _ _)

theorem filter_byLocation (parameters : List Parameter) (location : ParameterLocation) :
    ((byLocation parameters).filter fun p => p.location == location) =
      parameters.filter fun p => p.location == location := by
  have own : ((parameters.filter fun p => p.location == location).filter fun p =>
      p.location == location) = parameters.filter fun p => p.location == location := by simp
  have apart (other : ParameterLocation) (different : other ≠ location) :
      ((parameters.filter fun p => p.location == other).filter fun p =>
        p.location == location) = [] := by
    simp only [List.filter_eq_nil_iff, List.mem_filter, beq_iff_eq]
    rintro p ⟨-, rfl⟩
    exact different
  cases location <;> simp only [byLocation, ParameterLocation.all, List.flatMap_cons,
    List.flatMap_nil, List.filter_append, own, apart, ne_eq, reduceCtorEq, not_false_eq_true,
    List.nil_append, List.append_nil]

theorem sortsByLocation_byLocation (parameters : List Parameter) :
    SortsByLocation parameters (byLocation parameters) where
  perm := by
    rw [List.perm_iff_count]
    intro p
    -- A parameter is counted among those in its location, and these are the same in both lists.
    have counted (l : List Parameter) : (l.filter fun q => q.location == p.location).count p =
        l.count p := List.count_filter (beq_self_eq_true p.location)
    rw [← counted, filter_byLocation, counted]
  sorted := by
    rw [byLocation, List.pairwise_flatMap]
    refine ⟨fun location _ => ?_, ?_⟩
    · refine List.pairwise_of_forall_mem_list fun p first q second => ?_
      rw [beq_iff_eq.mp (List.mem_filter.mp first).2, beq_iff_eq.mp (List.mem_filter.mp second).2]
    · have ascending : ParameterLocation.all.Pairwise fun a b => a.rank ≤ b.rank := by decide
      refine ascending.imp fun below p first q second => ?_
      rwa [beq_iff_eq.mp (List.mem_filter.mp first).2, beq_iff_eq.mp (List.mem_filter.mp second).2]
  stable := filter_byLocation parameters

theorem mem_byLocation_iff : p ∈ byLocation parameters ↔ p ∈ parameters :=
  (sortsByLocation_byLocation parameters).perm.mem_iff

theorem mem_firstOccurrences_iff : name ∈ firstOccurrences names ↔ name ∈ names :=
  (listsOnce_firstOccurrences names).mem name

/-! ### The outcome -/

/-- The names that are supplied and not declared. -/
def undeclared (parameters : List Parameter) (supplied : Entries Value) : List String :=
  supplied.keys.filter fun name => ∀ p ∈ parameters, p.name ≠ name

/-- The parameters that have to be supplied and are not, by location. -/
def lacking (parameters : List Parameter) (supplied : Entries Value) : List Parameter :=
  (byLocation parameters).filter fun p => p.isNeeded && !Entries.has p.name supplied

theorem undeclared_eq_nil_iff : undeclared parameters supplied = [] ↔
    ∀ name ∈ supplied.keys, ∃ p ∈ parameters, p.name = name := by
  simp [undeclared, List.filter_eq_nil_iff]

theorem lacking_eq_nil_iff : lacking parameters supplied = [] ↔
    ∀ p ∈ parameters, p.isNeeded = true → Entries.has p.name supplied = true := by
  simp [lacking, List.filter_eq_nil_iff, mem_byLocation_iff]

theorem firstOccurrences_eq_nil_iff : firstOccurrences names = [] ↔ names = [] := by
  simp only [List.eq_nil_iff_forall_not_mem, mem_firstOccurrences_iff]

theorem checkSupplied_eq (parameters : List Parameter) (supplied : Entries Value) :
    checkSupplied parameters supplied =
      if undeclared parameters supplied ≠ [] then
        .error (.unknown (undeclared parameters supplied)
          (firstOccurrences ((byLocation parameters).map Parameter.name)))
      else if lacking parameters supplied ≠ [] then
        .error (.missing (firstOccurrences ((lacking parameters supplied).map Parameter.name))
          supplied.keys)
      else .ok () := by
  have unknown : (supplied.keys.filter fun name =>
      !(firstOccurrences ((byLocation parameters).map Parameter.name)).contains name) =
        undeclared parameters supplied := by
    refine List.filter_congr fun name _ => ?_
    rw [Bool.eq_iff_iff]
    simp [mem_firstOccurrences_iff, mem_byLocation_iff]
  have missing : (((byLocation parameters).filter isNeeded).map Parameter.name).filter
      (fun name => !Entries.has name supplied) =
        (lacking parameters supplied).map Parameter.name := by
    rw [List.filter_map, List.filter_filter]
    simp only [lacking, Function.comp_def, Bool.and_comm]
  simp only [checkSupplied, unknown, missing, Bool.not_eq_true', List.isEmpty_eq_false_iff,
    ne_eq, firstOccurrences_eq_nil_iff, List.map_eq_nil_iff]

/-- The supplied parameters pass when each of them is declared and none that is needed is
missing. -/
theorem checkSupplied_eq_ok_iff (parameters : List Parameter) (supplied : Entries Value) :
    checkSupplied parameters supplied = .ok () ↔
      (∀ name ∈ supplied.keys, ∃ p ∈ parameters, p.name = name) ∧
        ∀ p ∈ parameters, p.isNeeded = true → Entries.has p.name supplied = true := by
  rw [checkSupplied_eq, ← undeclared_eq_nil_iff, ← lacking_eq_nil_iff]
  by_cases declared : undeclared parameters supplied = []
  · by_cases complete : lacking parameters supplied = [] <;> simp [declared, complete]
  · simp [declared]

theorem isNeeded_iff : p.isNeeded = true ↔ p.required = true ∨ p.location = .path := by
  simp [isNeeded]

theorem eq_undeclared_iff (ascending : supplied.Ascending) :
    names = undeclared parameters supplied ↔ names.Pairwise (· < ·) ∧
      ∀ name, name ∈ names ↔ name ∈ supplied.keys ∧ ∀ p ∈ parameters, p.name ≠ name := by
  have own : (undeclared parameters supplied).Pairwise (· < ·) :=
    List.Pairwise.sublist List.filter_sublist ascending
  have mem (name : String) : name ∈ undeclared parameters supplied ↔
      name ∈ supplied.keys ∧ ∀ p ∈ parameters, p.name ≠ name := by
    simp [undeclared]
  constructor
  · rintro rfl
    exact ⟨own, mem⟩
  · rintro ⟨order, same⟩
    exact List.Pairwise.eq_of_mem_iff order own fun name => (same name).trans (mem name).symm

theorem eq_firstOccurrences_iff : listed = firstOccurrences names ↔ ListsOnce names listed := by
  constructor
  · rintro rfl
    exact listsOnce_firstOccurrences names
  · intro own
    exact own.unique (listsOnce_firstOccurrences names)

/-- What checking the supplied parameters comes to. They pass when each of them is declared and none
that is required or travels in the path is missing. Otherwise names that are not declared come first,
in ascending order and beside all that are declared; and where all are declared, the names of the
needed parameters that are missing. -/
theorem checkSupplied_outcome (parameters : List Parameter) {supplied : Entries Value}
    (ascending : supplied.Ascending) :
    SortsByLocation parameters (byLocation parameters) ∧
    (checkSupplied parameters supplied = .ok () ↔
      (∀ name ∈ supplied.keys, ∃ p ∈ parameters, p.name = name) ∧
        ∀ p ∈ parameters, p.required = true ∨ p.location = .path → p.name ∈ supplied.keys) ∧
    (∀ unknown accepted, checkSupplied parameters supplied = .error (.unknown unknown accepted) ↔
      unknown ≠ [] ∧ unknown.Pairwise (· < ·) ∧
        (∀ name, name ∈ unknown ↔ name ∈ supplied.keys ∧ ∀ p ∈ parameters, p.name ≠ name) ∧
        ListsOnce ((byLocation parameters).map Parameter.name) accepted) ∧
    ∀ missing provided, checkSupplied parameters supplied = .error (.missing missing provided) ↔
      (∀ name ∈ supplied.keys, ∃ p ∈ parameters, p.name = name) ∧ missing ≠ [] ∧
        ListsOnce (((byLocation parameters).filter fun p =>
          (p.required = true ∨ p.location = .path) ∧ p.name ∉ supplied.keys).map Parameter.name)
          missing ∧
        provided = supplied.keys := by
  have needed : ((byLocation parameters).filter fun p =>
      (p.required = true ∨ p.location = .path) ∧ p.name ∉ supplied.keys) =
        lacking parameters supplied := by
    refine List.filter_congr fun p _ => ?_
    rw [Bool.eq_iff_iff, decide_eq_true_iff, Bool.and_eq_true, isNeeded_iff, Bool.not_eq_true',
      ← Entries.has_eq_true_iff, Bool.not_eq_true]
  refine ⟨sortsByLocation_byLocation parameters, ?_, fun unknown accepted => ?_,
    fun missing provided => ?_⟩
  · simp only [checkSupplied_eq_ok_iff, isNeeded_iff, Entries.has_eq_true_iff]
  · rw [← and_assoc (a := unknown.Pairwise (· < ·)), ← eq_undeclared_iff ascending,
      ← eq_firstOccurrences_iff, checkSupplied_eq]
    by_cases declared : undeclared parameters supplied = []
    · refine iff_of_false ?_ fun ⟨listed, same, _⟩ => listed (same.trans declared)
      by_cases complete : lacking parameters supplied = [] <;> simp [declared, complete]
    · simp only [ne_eq, declared, not_false_eq_true, if_true, Except.error.injEq,
        SupplyError.unknown.injEq]
      constructor
      · rintro ⟨rfl, rfl⟩
        exact ⟨declared, rfl, rfl⟩
      · rintro ⟨-, rfl, rfl⟩
        exact ⟨rfl, rfl⟩
  · rw [needed, ← undeclared_eq_nil_iff, ← eq_firstOccurrences_iff, checkSupplied_eq]
    by_cases declared : undeclared parameters supplied = []
    · by_cases complete : lacking parameters supplied = []
      · refine iff_of_false (by simp [declared, complete]) fun ⟨_, listed, same, _⟩ => listed ?_
        simp [same, complete, firstOccurrences]
      · simp only [ne_eq, declared, complete, not_true_eq_false, not_false_eq_true, if_true, if_false,
          Except.error.injEq, SupplyError.missing.injEq, true_and]
        constructor
        · rintro ⟨rfl, rfl⟩
          exact ⟨by simpa [firstOccurrences_eq_nil_iff] using complete, rfl, rfl⟩
        · rintro ⟨-, rfl, rfl⟩
          exact ⟨rfl, rfl⟩
    · simp [declared]

/-- The parameters of a search for bookings: a day and perhaps a text, the agent, and the traveller,
who has to be named in the path and may be named in a cookie. -/
def bookingParameters : List Parameter :=
  let parameter (name : String) (location : ParameterLocation) (required : Bool) : Parameter :=
    ⟨name, location, required, location.defaultStyle, false, none, none⟩
  [parameter "day" .query true, parameter "text" .query false, parameter "traveller" .path true,
    parameter "agent" .header true, parameter "traveller" .cookie false]

theorem checkSupplied_bookingParameters :
    Entries.Ascending [("seat", Value.null), ("text", .string "Oslo")] ∧
      checkSupplied bookingParameters [("seat", Value.null), ("text", .string "Oslo")] =
        .error (.unknown ["seat"] ["traveller", "agent", "day", "text"]) ∧
      ListsOnce ((byLocation bookingParameters).map Parameter.name)
        ["traveller", "agent", "day", "text"] := by
  have ascending : Entries.Ascending [("seat", Value.null), ("text", .string "Oslo")] := by
    simp only [Entries.Ascending, Entries.keys]
    decide
  have unknown : checkSupplied bookingParameters [("seat", Value.null), ("text", .string "Oslo")] =
      .error (.unknown ["seat"] ["traveller", "agent", "day", "text"]) := by rfl
  obtain ⟨-, -, strays, -⟩ := checkSupplied_outcome bookingParameters ascending
  exact ⟨ascending, unknown, ((strays _ _).mp unknown).2.2.2⟩

/-- The traveller comes up before the agent among all parameters, by the cookie, but after the agent
among those that have to be supplied; and this is where the name is listed when it is missing. -/
theorem listed_by_needed :
    ∃ missing provided, checkSupplied bookingParameters [] = .error (.missing missing provided) ∧
      missing = ["agent", "traveller", "day"] ∧
      ((byLocation bookingParameters).map Parameter.name).idxOf "traveller" <
        ((byLocation bookingParameters).map Parameter.name).idxOf "agent" ∧
      ¬ missing.Pairwise fun a b =>
        ((byLocation bookingParameters).map Parameter.name).idxOf a <
          ((byLocation bookingParameters).map Parameter.name).idxOf b :=
  ⟨["agent", "traveller", "day"], [], by rfl, rfl, by decide, by decide⟩

end Parameter

end ApiContract
