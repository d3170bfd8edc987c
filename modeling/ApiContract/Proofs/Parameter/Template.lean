import ApiContract.Proofs.Parameter.Interleaving
import ApiContract.Proofs.Parameter.PathText
import ApiContract.Proofs.Url.Extension
/-!
# Segments of a template

A path template consists of segments, and so does the path that it becomes: each segment is one of the
template with its placeholders replaced (`toList_fillPath`). To see this a template is taken for a list
of parts, of which each becomes a text of its own (`fillIn_eq_flatMap`).
-/

namespace ApiContract.Template

open Text
open Url (isUnreserved isPathChar)

/-- A part of a template. -/
inductive Part where
  | literal (c : Char)
  | placeholder (name : String)
deriving DecidableEq, Repr, Inhabited

/-- The parts of a template. `pending` holds what follows an opening brace so far, latest first. -/
def partsFrom : (pending : Option (List Char)) → List Char → List Part
  | none, [] => []
  | some name, [] => ('\x7b' :: name.reverse).map .literal
  | none, c :: rest =>
    if c = '\x7b' then partsFrom (some []) rest else .literal c :: partsFrom none rest
  | some name, c :: rest =>
    if c = '\x7d' then .placeholder (String.ofList name.reverse) :: partsFrom none rest
    else partsFrom (some (c :: name)) rest

/-- The parts of a template. -/
def parts (template : String) : List Part := partsFrom none template.toList

/-- The text of a part where placeholders have values; without one a placeholder is left out. -/
def Part.fill (values : Entries String) : Part → List Char
  | literal c => [c]
  | placeholder name => valueText values name

/-- Parts cut at each slash that is written. -/
def segmentsFrom : List Part → List (List Part)
  | [] => [[]]
  | part :: rest =>
    if part = .literal '/' then [] :: segmentsFrom rest
    else
      match segmentsFrom rest with
      | first :: others => (part :: first) :: others
      | [] => [[part]]

/-- The segments of a path template. A slash at its front stands before the first one. -/
def segments (template : String) : List (List Part) :=
  match parts template with
  | .literal '/' :: rest => segmentsFrom rest
  | parts => segmentsFrom parts

/-- A segment with its placeholders replaced. -/
def fillSegment (values : Entries String) (segment : List Part) : String :=
  String.ofList (segment.flatMap (Part.fill values))

/-- The segments of a template with their placeholders replaced. -/
def fillSegments (values : Entries String) (template : String) : List String :=
  (segments template).map (fillSegment values)

/-- Whether what a part writes besides a placeholder is a slash or a character that means only itself. -/
def Part.isPlain : Part → Bool
  | literal c => isUnreserved c || c = '/'
  | placeholder _ => true

/-- What a template writes besides its placeholders are slashes and characters that mean only
themselves. -/
def IsPlain (template : String) : Prop := ∀ part ∈ parts template, part.isPlain = true

instance : DecidablePred IsPlain := fun template =>
  inferInstanceAs (Decidable (∀ part ∈ parts template, part.isPlain = true))

variable {values : Entries String} {template : String} {part : Part} {ps : List Part}

/-! ### Parts -/

theorem flatMap_literal (values : Entries String) (cs : List Char) :
    (cs.map Part.literal).flatMap (Part.fill values) = cs := by
  simp [List.flatMap_map, Part.fill]

theorem partsFrom_append {before : List Char} (free : '\x7b' ∉ before) (rest : List Char) :
    partsFrom none (before ++ rest) = before.map .literal ++ partsFrom none rest := by
  induction before with
  | nil => rfl
  | cons c before ih =>
    rw [List.mem_cons, not_or] at free
    obtain ⟨own, free⟩ := free
    rw [List.cons_append, partsFrom, if_neg (Ne.symm own), ih free]
    rfl

theorem partsFrom_closed {name : List Char} (free : '\x7d' ∉ name) (pending rest : List Char) :
    partsFrom (some pending) (name ++ '\x7d' :: rest) =
      .placeholder (String.ofList (pending.reverse ++ name)) :: partsFrom none rest := by
  induction name generalizing pending with
  | nil => simp [partsFrom]
  | cons c name ih =>
    rw [List.mem_cons, not_or] at free
    obtain ⟨own, free⟩ := free
    rw [List.cons_append, partsFrom, if_neg (Ne.symm own), ih free]
    simp

theorem partsFrom_unclosed {text : List Char} (free : '\x7d' ∉ text) (pending : List Char) :
    partsFrom (some pending) text = ('\x7b' :: (pending.reverse ++ text)).map .literal := by
  induction text generalizing pending with
  | nil => simp [partsFrom]
  | cons c text ih =>
    rw [List.mem_cons, not_or] at free
    obtain ⟨own, free⟩ := free
    rw [partsFrom, if_neg (Ne.symm own), ih free]
    simp

/-- What is written for a text is what is written for its parts. -/
theorem fillIn_eq_flatMap (values : Entries String) (text : List Char) :
    fillIn values text = (partsFrom none text).flatMap (Part.fill values) := by
  fun_induction fillIn values text with
  | case1 text opened =>
    have parts := partsFrom_append (cutAt?_eq_none_iff.mp opened) []
    rw [List.append_nil] at parts
    rw [parts, List.flatMap_append, flatMap_literal]
    exact (List.append_nil text).symm
  | case2 text before after opened closed ih =>
    obtain ⟨rfl, free⟩ := eq_of_cutAt? opened
    have unclosed := cutAt?_eq_none_iff.mp closed
    rw [partsFrom_append free, partsFrom, if_pos rfl, partsFrom_unclosed unclosed, List.flatMap_append,
      flatMap_literal, flatMap_literal, fillIn_of_not_mem values unclosed]
    rfl
  | case3 text before after opened name rest closed ih =>
    obtain ⟨rfl, free⟩ := eq_of_cutAt? opened
    obtain ⟨rfl, own⟩ := eq_of_cutAt? closed
    rw [partsFrom_append free, partsFrom, if_pos rfl, partsFrom_closed own, List.flatMap_append,
      flatMap_literal, List.flatMap_cons, ih]
    simp [Part.fill]

/-! ### Segments -/

theorem segmentsFrom_ne_nil (ps : List Part) : segmentsFrom ps ≠ [] := by
  cases ps with
  | nil => simp [segmentsFrom]
  | cons part rest =>
    rw [segmentsFrom]
    split
    · simp
    · split <;> simp

theorem fillSegments_ne_nil (values : Entries String) (template : String) :
    fillSegments values template ≠ [] := by
  unfold fillSegments segments
  split <;> simpa using segmentsFrom_ne_nil _

/-- The parts of a segment are parts of the template, and none is a slash. -/
theorem mem_of_mem_segmentsFrom {segment : List Part} (h : segment ∈ segmentsFrom ps)
    (own : part ∈ segment) : part ∈ ps ∧ part ≠ .literal '/' := by
  induction ps generalizing segment with
  | nil =>
    rw [segmentsFrom, List.mem_singleton] at h
    rw [h] at own
    cases own
  | cons first rest ih =>
    rw [segmentsFrom] at h
    split at h
    · rcases List.mem_cons.mp h with rfl | later
      · cases own
      · exact ⟨List.mem_cons_of_mem _ (ih later own).1, (ih later own).2⟩
    · next noSlash =>
      split at h
      · next start others cut =>
        have within {segment : List Part} (listed : segment ∈ start :: others)
            (own : part ∈ segment) : part ∈ first :: rest ∧ part ≠ .literal '/' := by
          have inside := ih (cut ▸ listed) own
          exact ⟨List.mem_cons_of_mem _ inside.1, inside.2⟩
        rcases List.mem_cons.mp h with rfl | later
        · rcases List.mem_cons.mp own with rfl | own
          · exact ⟨List.mem_cons_self, noSlash⟩
          · exact within List.mem_cons_self own
        · exact within (List.mem_cons_of_mem _ later) own
      · rw [List.mem_singleton] at h
        rw [h, List.mem_singleton] at own
        exact ⟨own ▸ List.mem_cons_self, own ▸ noSlash⟩

theorem mem_of_mem_segments {segment : List Part} (h : segment ∈ segments template)
    (own : part ∈ segment) : part ∈ parts template ∧ part ≠ .literal '/' := by
  unfold segments at h
  split at h
  · next rest same =>
    rw [same]
    have inside := mem_of_mem_segmentsFrom h own
    exact ⟨List.mem_cons_of_mem _ inside.1, inside.2⟩
  · exact mem_of_mem_segmentsFrom h own

/-- What parts become are their segments, filled, with a slash between each two. -/
theorem flatMap_fill (values : Entries String) (ps : List Part) :
    ps.flatMap (Part.fill values) =
      Url.segmentText ((segmentsFrom ps).map (fillSegment values)) := by
  have chars (segments : List (List Part)) :
      (segments.map (fillSegment values)).map String.toList =
        segments.map fun segment => segment.flatMap (Part.fill values) := by
    simp [fillSegment, Function.comp_def]
  rw [Url.segmentText, chars]
  induction ps with
  | nil => rfl
  | cons part rest ih =>
    rw [segmentsFrom, List.flatMap_cons, ih]
    obtain ⟨first, others, cut⟩ := List.exists_cons_of_ne_nil (segmentsFrom_ne_nil rest)
    by_cases slash : part = .literal '/'
    · simp [slash, cut, joined, Part.fill]
    · rw [if_neg slash, cut]
      cases others <;> simp [joined]

/-- The path that a template becomes, where the template begins with a slash or the path begins with a
segment that is not empty. -/
theorem toList_fillPath (plain : Url.Plain (fillSegments values template))
    (leads : template.toList.head? = some '/' ∨ (fillSegments values template).head? ≠ some "") :
    (fillPath values template).toList = Url.segmentChars (fillSegments values template) := by
  have nonempty := fillSegments_ne_nil values template
  have becomes : (fillPath values template).toList =
      rooted ((parts template).flatMap (Part.fill values)) := by
    rw [fillPath, String.toList_ofList, fillIn_eq_flatMap]
    rfl
  rw [Url.segmentChars_eq nonempty, becomes]
  by_cases slash : ∃ rest, parts template = .literal '/' :: rest
  · obtain ⟨rest, written⟩ := slash
    have segments : fillSegments values template = (segmentsFrom rest).map (fillSegment values) := by
      simp [fillSegments, segments, written]
    have begins : (parts template).flatMap (Part.fill values) =
        '/' :: rest.flatMap (Part.fill values) := by simp [written, Part.fill]
    rw [begins, rooted, flatMap_fill, segments]
  · have segments : fillSegments values template =
        (segmentsFrom (parts template)).map (fillSegment values) := by
      unfold fillSegments Template.segments
      split
      · next rest written => exact absurd ⟨rest, written⟩ slash
      · rfl
    -- The template begins with no slash, so that the first segment is not empty.
    have named : (fillSegments values template).head? ≠ some "" := by
      refine leads.resolve_left fun first => slash ?_
      obtain ⟨rest, chars⟩ := List.head?_eq_some_iff.mp first
      exact ⟨partsFrom none rest, by simp [parts, chars, partsFrom]⟩
    rw [flatMap_fill, ← segments]
    obtain ⟨first, others, cut⟩ := List.exists_cons_of_ne_nil nonempty
    rw [cut] at plain named ⊢
    unfold rooted
    split
    · next rest same =>
      exact absurd same (plain.segmentText_ne (fun empty => named (by simp [empty])) rest)
    · rfl

/-- The segments that a plain template becomes consist of characters that stand for themselves. -/
theorem plain_fillSegments (plain : IsPlain template)
    (values_plain : ∀ name text, Entries.get? name values = some text → IsPathText text) :
    Url.Plain (fillSegments values template) := by
  intro s member c own
  obtain ⟨segment, listed, rfl⟩ := List.mem_map.mp member
  rw [fillSegment, String.toList_ofList] at own
  obtain ⟨part, inside, own⟩ := List.mem_flatMap.mp own
  obtain ⟨written, noSlash⟩ := mem_of_mem_segments listed inside
  cases part with
  | literal d =>
    rw [List.mem_singleton.mp own]
    have solid : d ≠ '/' := fun slash => noSlash (by rw [slash])
    have unreserved : isUnreserved d = true := by simpa [Part.isPlain, solid] using plain _ written
    exact (Url.isPathChar_of_isUnreserved unreserved).1
  | placeholder name =>
    cases found : Entries.get? name values with
    | none => simp [Part.fill, valueText, found] at own
    | some text =>
      rw [Part.fill, valueText, found] at own
      exact values_plain name text found c own

end ApiContract.Template
