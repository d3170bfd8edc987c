import ApiContract.Proofs.Json.Position
import ApiContract.Proofs.Schema.Frames
import ApiContract.Proofs.Schema.Relocation
import Mathlib.Data.List.Nodup
/-!
# Nesting

How deep checks call one another. `Catalog.check` is given a number of calls that may be nested, and
answers with a clean report when they run out. Here the recursion is stated without such a number
(`Catalog.Checks`): a check that is under way already adds nothing, any other one is the check of its
schema with the checks that it calls for. The places of a value are positions in the tree, which
unlike paths say nothing of names, and `Catalog.Underway` lists the checks that are under way when
another one begins, whether for its violations or only for the verdict.

`report_nesting` brings the two together: the recursion ends, in the report of `Catalog.report` and
no other, and the checks that are under way are of different schemas or different nodes.
-/

namespace ApiContract

open Json (Value)

/-- A check: of a part of a value, which stands at a path and a position, against a schema. -/
structure Frame where
  schema : SchemaId
  part : Value
  path : ValuePath
  position : List Nat

namespace Frame

/-- The check of a whole value. -/
def whole (schema : SchemaId) (value : Value) : Frame := ⟨schema, value, [], []⟩

/-- What a check is known by while it is under way: its schema, and the text of the path. -/
def key (frame : Frame) : SchemaId × String := (frame.schema, Json.Pointer.ofTokens frame.path)

/-- The schema and the node of a check. -/
def node (frame : Frame) : SchemaId × List Nat := (frame.schema, frame.position)

/-- The schema and the path of a check. -/
def entry (frame : Frame) : SchemaId × ValuePath := (frame.schema, frame.path)

/-- The checks that a check calls for: of the same part, or of a node right below it. -/
inductive Calls (catalog : Catalog) (caller : Frame) : Frame → Prop
  | here {schema : SchemaId} :
      (catalog.descriptor caller.schema).Visits catalog caller.part schema caller.part [] →
      Calls catalog caller { caller with schema := schema }
  | below {schema : SchemaId} {part : Value} {token : String} {i : Nat} :
      (catalog.descriptor caller.schema).Visits catalog caller.part schema part [token] →
      caller.part.children[i]? = some (token, part) →
      Calls catalog caller ⟨schema, part, caller.path ++ [token], caller.position ++ [i]⟩

variable {catalog : Catalog} {caller callee : Frame}

/-- Whatever a schema wants checked is called for. -/
theorem exists_calls {schema : SchemaId} {part : Value} {step : ValuePath}
    (visits : (catalog.descriptor caller.schema).Visits catalog caller.part schema part step) :
    ∃ position, caller.Calls catalog ⟨schema, part, caller.path ++ step, position⟩ := by
  obtain ⟨own, value, path, position⟩ := caller
  cases visits with
  | part member =>
    rw [List.append_nil]
    exact ⟨position, .here (.part member)⟩
  | selected union tagged selected =>
    rw [List.append_nil]
    exact ⟨position, .here (.selected union tagged selected)⟩
  | @item items _ i item given found =>
    refine ⟨position ++ [i], .below (.item given found) ?_⟩
    simp [Value.children, found]
  | property given member =>
    obtain ⟨i, found⟩ := List.mem_iff_getElem?.mp member
    exact ⟨position ++ [i], .below (.property given member) found⟩

/-- A call leads one step further in the path and in the position, or in neither. -/
theorem Calls.visits (calls : caller.Calls catalog callee) :
    ∃ step, (catalog.descriptor caller.schema).Visits catalog caller.part callee.schema callee.part
        step ∧ callee.path = caller.path ++ step := by
  cases calls with
  | here visits => exact ⟨[], visits, (List.append_nil _).symm⟩
  | below visits _ => exact ⟨_, visits, rfl⟩

/-- A check stands at the place that its position says, as many levels down as its path has
tokens. -/
structure Placed (value : Value) (frame : Frame) : Prop where
  found : value.at? frame.position = some frame.part
  level : frame.path.length = frame.position.length

theorem Placed.call {value : Value} (h : caller.Placed value) (calls : caller.Calls catalog callee) :
    callee.Placed value := by
  cases calls with
  | here _ => exact ⟨h.found, h.level⟩
  | below _ child =>
    refine ⟨Value.at?_concat h.found child, ?_⟩
    simp [h.level]

/-- A check stands on the way to another one. -/
structure Above (frame current : Frame) : Prop where
  path : frame.path <+: current.path
  position : frame.position <+: current.position

theorem Above.refl (frame : Frame) : frame.Above frame := ⟨List.prefix_rfl, List.prefix_rfl⟩

theorem Above.call {frame : Frame} (h : frame.Above caller) (calls : caller.Calls catalog callee) :
    frame.Above callee := by
  cases calls with
  | here _ => exact ⟨h.path, h.position⟩
  | below _ _ =>
    exact ⟨h.path.trans (List.prefix_append _ _), h.position.trans (List.prefix_append _ _)⟩

/-- On the way to one check, paths tell nodes apart. -/
theorem path_eq_iff {value : Value} {first second current : Frame} (one : first.Placed value)
    (two : second.Placed value) (above : first.Above current) (again : second.Above current) :
    first.path = second.path ↔ first.position = second.position := by
  constructor
  · intro same
    have length : first.position.length = second.position.length := by
      rw [← one.level, ← two.level, same]
    exact (List.prefix_of_prefix_length_le above.position again.position length.le).eq_of_length length
  · intro same
    have length : first.path.length = second.path.length := by rw [one.level, two.level, same]
    exact (List.prefix_of_prefix_length_le above.path again.path length.le).eq_of_length length

theorem key_eq_iff {first second : Frame} : first.key = second.key ↔ first.entry = second.entry := by
  simp [key, entry, Json.Pointer.ofTokens_inj]

theorem key_mem_iff {frames : List Frame} :
    caller.key ∈ frames.map key ↔ caller.entry ∈ frames.map entry := by
  simp only [List.mem_map, key_eq_iff]

end Frame

namespace Catalog

/-- The checks that are under way, the latest first, when a check begins. -/
inductive Underway (catalog : Catalog) (first : Frame) : List Frame → Frame → Prop
  | start : Underway catalog first [] first
  | call {frames : List Frame} {caller callee : Frame} :
      Underway catalog first frames caller → caller.key ∉ frames.map Frame.key →
      caller.Calls catalog callee → Underway catalog first (caller :: frames) callee

/-- The check `current` ends in a report while `frames` are under way, and no more than `depth`
checks are nested in it, itself included. -/
inductive Checks (catalog : Catalog) (strict : Bool) :
    (depth : Nat) → (frames : List Frame) → (current : Frame) → Report → Prop
  | again {depth : Nat} {frames : List Frame} {current : Frame} :
      current.key ∈ frames.map Frame.key → Checks catalog strict (depth + 1) frames current .clean
  | enter {depth : Nat} {frames : List Frame} {current : Frame} (visit : Visit) :
      current.key ∉ frames.map Frame.key →
      (∀ callee, current.Calls catalog callee →
        Checks catalog strict depth (current :: frames) callee
          (visit callee.schema callee.part callee.path)) →
      Checks catalog strict (depth + 1) frames current
        ((catalog.descriptor current.schema).check catalog strict visit current.part current.path)

variable {catalog : Catalog} {strict : Bool} {id : SchemaId} {value : Value} {frames : List Frame}
  {current : Frame}

namespace Underway

theorem placed (h : catalog.Underway (.whole id value) frames current) :
    ∀ frame ∈ current :: frames, frame.Placed value := by
  induction h with
  | start =>
    intro frame member
    rw [List.mem_singleton.mp member]
    exact ⟨rfl, rfl⟩
  | call _ _ calls ih =>
    intro frame member
    rcases List.mem_cons.mp member with rfl | earlier
    · exact (ih _ (List.mem_cons_self ..)).call calls
    · exact ih frame earlier

theorem above (h : catalog.Underway (.whole id value) frames current) :
    ∀ frame ∈ current :: frames, frame.Above current := by
  induction h with
  | start =>
    intro frame member
    rw [List.mem_singleton.mp member]
    exact .refl _
  | call _ _ calls ih =>
    intro frame member
    rcases List.mem_cons.mp member with rfl | earlier
    · exact .refl _
    · exact (ih frame earlier).call calls

theorem entry_eq_iff (h : catalog.Underway (.whole id value) frames current) {first second : Frame}
    (one : first ∈ current :: frames) (two : second ∈ current :: frames) :
    first.entry = second.entry ↔ first.node = second.node := by
  have paths := Frame.path_eq_iff (h.placed first one) (h.placed second two) (h.above first one)
    (h.above second two)
  simp [Frame.entry, Frame.node, paths]

/-- What is known of the frames of a run with a bound on its depth holds here. -/
theorem live (h : catalog.Underway (.whole id value) frames current) :
    ∃ fuel, catalog.Live (catalog.checkLimit value) fuel (frames.map Frame.entry) current.part
      current.path := by
  induction h with
  | start => exact ⟨_, live_checkLimit catalog value⟩
  | @call frames caller callee _ fresh calls ih =>
    obtain ⟨fuel, live⟩ := ih
    obtain ⟨less, rfl⟩ := Nat.exists_eq_succ_of_ne_zero live.fuel_pos.ne'
    obtain ⟨step, visits, further⟩ := calls.visits
    rw [further]
    exact ⟨less, live.visit (mt Frame.key_mem_iff.mpr fresh) visits⟩

theorem nodup (h : catalog.Underway (.whole id value) frames current) :
    (frames.map Frame.node).Nodup := by
  obtain ⟨fuel, live⟩ := h.live
  have distinct : frames.Nodup := List.Nodup.of_map Frame.entry live.nodup
  refine distinct.map_on ?_
  intro first one second two same
  exact List.inj_on_of_nodup_map live.nodup one two
    ((h.entry_eq_iff (.tail _ one) (.tail _ two)).mpr same)

/-- A check is refused exactly when one of the same schema and the same node is under way. -/
theorem refused_iff (h : catalog.Underway (.whole id value) frames current) :
    current.key ∈ frames.map Frame.key ↔ current.node ∈ frames.map Frame.node := by
  rw [Frame.key_mem_iff]
  simp only [List.mem_map]
  refine exists_congr fun frame => and_congr_right fun member => ?_
  exact h.entry_eq_iff (.tail _ member) (List.mem_cons_self ..)

theorem length_lt (h : catalog.Underway (.whole id value) frames current) :
    frames.length + 1 ≤ catalog.size * value.nodes + 1 := by
  obtain ⟨fuel, live⟩ := h.live
  have length : frames.length + fuel = catalog.size * value.nodes + 1 := by
    simpa [checkLimit] using live.length
  have := live.fuel_pos
  omega

/-- With as much fuel as is left, the check ends in the report of `Catalog.check`. -/
theorem checks {fuel : Nat} (h : catalog.Underway (.whole id value) frames current)
    (left : frames.length + fuel = catalog.checkLimit value) :
    catalog.Checks strict fuel frames current
      (catalog.check strict fuel (frames.map Frame.entry) current.schema current.part
        current.path) := by
  induction fuel generalizing frames current with
  | zero =>
    have := h.length_lt
    rw [checkLimit] at left
    omega
  | succ fuel ih =>
    by_cases known : current.key ∈ frames.map Frame.key
    · have active : (frames.map Frame.entry).contains (current.schema, current.path) = true :=
        List.contains_iff_mem.mpr (Frame.key_mem_iff.mp known)
      rw [check, if_pos active]
      exact .again known
    · have active : ¬ (frames.map Frame.entry).contains (current.schema, current.path) = true :=
        fun found => known (Frame.key_mem_iff.mpr (List.contains_iff_mem.mp found))
      rw [check, if_neg active]
      refine .enter _ known ?_
      intro callee calls
      refine ih (.call h known calls) ?_
      rw [List.length_cons]
      omega

end Underway

/-- The report that a check ends in does not depend on how deep it may go. -/
theorem Checks.unique {depth other : Nat} {first second : Report}
    (one : catalog.Checks strict depth frames current first)
    (two : catalog.Checks strict other frames current second) : first = second := by
  induction one generalizing other second with
  | again known =>
    cases two with
    | again _ => rfl
    | enter _ fresh _ => exact absurd known fresh
  | enter visit fresh _ ih =>
    cases two with
    | again known => exact absurd known fresh
    | enter visit' _ checks =>
      refine Descriptor.check_congr ?_
      intro schema part step visits
      obtain ⟨position, calls⟩ := Frame.exists_calls visits
      exact ih _ calls (checks _ calls)

/-- Checking a value ends, and no more than `size * nodes + 1` checks are ever nested: those that are
under way are of different schemas or of different nodes of the value, as the text of a path tells
whether two of them are of the same node. -/
theorem report_nesting (catalog : Catalog) (strict : Bool) (id : SchemaId) (value : Value) :
    catalog.Checks strict (catalog.size * value.nodes + 1) [] (.whole id value)
        (catalog.report strict id value) ∧
      (∀ depth report, catalog.Checks strict depth [] (.whole id value) report →
        report = catalog.report strict id value) ∧
      ∀ frames current, catalog.Underway (.whole id value) frames current →
        (frames.map Frame.node).Nodup ∧
          (∀ frame ∈ current :: frames, value.at? frame.position = some frame.part) ∧
          (current.key ∈ frames.map Frame.key ↔ current.node ∈ frames.map Frame.node) ∧
          frames.length + 1 ≤ catalog.size * value.nodes + 1 := by
  have ends : catalog.Checks strict (catalog.checkLimit value) [] (.whole id value)
      (catalog.report strict id value) :=
    Underway.checks .start (by simp)
  refine ⟨ends, ?_, ?_⟩
  · intro depth report checks
    exact checks.unique ends
  · intro frames current underway
    exact ⟨underway.nodup, fun frame member => (underway.placed frame member).found,
      underway.refused_iff, underway.length_lt⟩

end Catalog

end ApiContract
