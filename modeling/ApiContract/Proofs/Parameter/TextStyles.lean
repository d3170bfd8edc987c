import ApiContract.Description.Reader
import ApiContract.Proofs.Parameter.Atoms
/-!
# Texts read back

In the styles that write one text an array or object is read as what was written, as long as no atom
holds the character that stands between atoms (`decodeText_encodeText_array`,
`decodeText_encodeText_object`). The one object that is not read back is an empty one that is exploded
in the style `matrix`, whose text is empty.
-/

namespace ApiContract.Parameter

open Json (Value)
open Text
open Description (isPathNameChar)

/-- What stands between atoms, or before each assignment, in the styles that write one text. -/
def textDelimiter? (explode : Bool) : ParameterStyle → Option Char
  | .simple => some ','
  | .label => some '.'
  | .matrix => some (if explode then ';' else ',')
  | .form | .spaceDelimited | .pipeDelimited | .deepObject => none

variable {name : String} {style : ParameterStyle} {delimiter : Char} {explode : Bool} {hint : Hint}
  {items : List Value} {members : Entries Value} {texts : List String} {c : Char}

theorem not_mem_name (named : name.toList.all isPathNameChar = true) (h : isPathNameChar c = false) :
    c ∉ name.toList := by
  intro member
  have := List.all_eq_true.mp named c member
  rw [h] at this
  cases this

theorem toList_marked (mark : String) (texts : List String) :
    (marked mark texts).toList = texts.flatMap fun text => mark.toList ++ text.toList := by
  simp [marked, String.toList_join, List.flatMap_map]

/-- Texts that are each written behind a mark are found behind these. -/
theorem pieces_marked {mark : Char} {own : String} {front : List Char}
    (begins : own.toList = mark :: front) (free : mark ∉ front)
    (apart : ∀ text ∈ texts, mark ∉ text.toList) :
    pieces mark (marked own texts).toList = [] :: texts.map fun text => front ++ text.toList := by
  have each : ∀ text ∈ texts, mark ∉ front ++ text.toList := by
    intro text listed
    simp [free, apart text listed]
  rw [toList_marked, begins]
  exact pieces_append_flatMap _ texts List.not_mem_nil each

/-! ### Writing -/

theorem encodeText_array (each : ∀ item ∈ items, hint.items.Restores item) :
    encodeText name style explode (.array items) =
      arrayText style explode name (items.map atomText) := by
  rw [encodeText, renderText, itemAtoms_of_isScalar fun item member => (each item member).scalar]
  simp [Except.bind]

theorem encodeText_object
    (each : ∀ member ∈ members, (hint.property member.1).Restores member.2) :
    encodeText name style explode (.object members) =
      objectText style explode name (memberTexts members) := by
  rw [encodeText, renderText, memberAtoms_of_isScalar fun member listed => (each member listed).scalar]
  simp [Except.bind]

/-! ### Reading joined atoms -/

theorem decodeText_simple (splits : Splits ',' texts) :
    decodeText name .simple explode (",".intercalate texts) hint = .ok (typed hint texts explode) := by
  have read : atoms ',' (",".intercalate texts).toList = texts :=
    (congrArg (atoms ',') (toList_intercalate ',' texts)).trans (atoms_joined splits)
  rw [decodeText, read]

theorem decodeText_label (structured : ∀ type, hint.kind ≠ .scalar type) (splits : Splits '.' texts) :
    decodeText name .label explode ("." ++ ".".intercalate texts) hint =
      .ok (typed hint texts explode) := by
  have body : afterFront? ['.'] ("." ++ ".".intercalate texts).toList =
      some (joined '.' (texts.map String.toList)) := by
    rw [afterFront?_eq_some_iff, String.toList_append, ← toList_intercalate '.']
    rfl
  rw [decodeText, decodeLabel, body, Option.map_some]
  cases kind : hint.kind with
  | scalar type => exact absurd kind (structured type)
  | array => simp only [atoms_joined splits]
  | object => simp only [atoms_joined splits]

/-- A text that gives a value to a name is not the name alone. -/
theorem toList_assigned_ne (name body : String) :
    (";" ++ name ++ "=" ++ body).toList ≠ ';' :: name.toList := by
  intro same
  have := congrArg List.length same
  simp at this

theorem decodeText_matrix (structured : ∀ type, hint.kind ≠ .scalar type) (splits : Splits ',' texts) :
    decodeText name .matrix false (";" ++ name ++ "=" ++ ",".intercalate texts) hint =
      .ok (typed hint texts false) := by
  have body : afterFront? ((';' :: name.toList) ++ ['='])
      (";" ++ name ++ "=" ++ ",".intercalate texts).toList =
        some (joined ',' (texts.map String.toList)) := by
    rw [afterFront?_eq_some_iff, String.toList_append, ← toList_intercalate ',']
    simp
  rw [decodeText, decodeMatrix, if_neg (toList_assigned_ne name _), body]
  cases kind : hint.kind with
  | scalar type => exact absurd kind (structured type)
  | array => simp [atoms_joined splits]
  | object => simp [atoms_joined splits]

/-- The name alone stands for no atoms. -/
theorem decodeText_bare (structured : ∀ type, hint.kind ≠ .scalar type) :
    decodeText name .matrix explode (";" ++ name) hint = .ok (typed hint [] explode) := by
  cases kind : hint.kind with
  | scalar type => exact absurd kind (structured type)
  | array => simp [decodeText, decodeMatrix, typed, kind]
  | object =>
    simp [decodeText, decodeMatrix, typed, kind, objectOf, assigned, turns, Entries.ofPairs]

/-- Whatever consists of joined atoms is read from these atoms. -/
theorem exists_decodeText (name : String) (structured : ∀ type, hint.kind ≠ .scalar type)
    (delimited : textDelimiter? explode style = some delimiter)
    (joins : ¬ (style = .matrix ∧ explode = true)) (splits : Splits delimiter texts) :
    ∃ text, arrayText style explode name texts = .ok text ∧
      decodeText name style explode text hint = .ok (typed hint texts explode) := by
  cases style with
  | simple =>
    obtain rfl : ',' = delimiter := Option.some.inj delimited
    exact ⟨_, rfl, decodeText_simple splits⟩
  | label =>
    obtain rfl : '.' = delimiter := Option.some.inj delimited
    exact ⟨_, rfl, decodeText_label structured splits⟩
  | matrix =>
    obtain rfl : explode = false := by simpa using joins
    obtain rfl : ',' = delimiter := Option.some.inj delimited
    by_cases empty : texts = []
    · subst empty
      exact ⟨_, rfl, decodeText_bare structured⟩
    · refine ⟨";" ++ name ++ "=" ++ ",".intercalate texts, ?_, decodeText_matrix structured splits⟩
      simp [arrayText, empty]
  | form => cases delimited
  | spaceDelimited => cases delimited
  | pipeDelimited => cases delimited
  | deepObject => cases delimited

/-! ### Reading assignments -/

/-- The texts that are assigned to the one name are found again. -/
theorem ownTexts?_map (front : List Char) (texts : List String) :
    ownTexts? front (texts.map fun text => front ++ text.toList) = some texts := by
  induction texts with
  | nil => rfl
  | cons text rest ih =>
    rw [List.map_cons, ownTexts?, afterFront?_append, Option.bind_some, ih]
    simp

/-- Assignments to the name, one for each item. What is before the first mark is empty and left out. -/
theorem decodeText_exploded_array (kind : hint.kind = .array) (nonempty : texts ≠ [])
    (named : ';' ∉ name.toList) (apart : ∀ text ∈ texts, ';' ∉ text.toList) :
    decodeText name .matrix true (marked (";" ++ name ++ "=") texts) hint =
      .ok (typed hint texts true) := by
  have written : (marked (";" ++ name ++ "=") texts).toList =
      texts.flatMap fun text => ';' :: (name.toList ++ ['='] ++ text.toList) := by
    simp [toList_marked]
  have different : (marked (";" ++ name ++ "=") texts).toList ≠ ';' :: name.toList := by
    obtain ⟨text, rest, rfl⟩ := List.exists_cons_of_ne_nil nonempty
    intro same
    have := congrArg List.length (written.symm.trans same)
    simp at this
  have cut : pieces ';' (marked (";" ++ name ++ "=") texts).toList =
      [] :: texts.map fun text => name.toList ++ ['='] ++ text.toList :=
    pieces_marked (by simp) (by simp [named]) apart
  have own : (pieces ';' (marked (";" ++ name ++ "=") texts).toList).filter
      (fun piece => !piece.isEmpty) = texts.map fun text => name.toList ++ ['='] ++ text.toList := by
    rw [cut, List.filter_cons_of_neg (by simp), List.filter_eq_self]
    intro piece listed
    obtain ⟨text, -, rfl⟩ := List.mem_map.mp listed
    simp
  rw [decodeText, decodeMatrix, if_neg different]
  simp only [kind, own, ownTexts?_map, if_true, Option.map_some]

theorem toList_marked_joined (mark : Char) {texts : List String} (nonempty : texts ≠ []) :
    (marked (String.singleton mark) texts).toList = mark :: joined mark (texts.map String.toList) := by
  obtain ⟨text, rest, rfl⟩ := List.exists_cons_of_ne_nil nonempty
  rw [toList_marked]
  induction rest generalizing text with
  | nil => simp [joined]
  | cons next rest ih =>
    have further := ih next (List.cons_ne_nil _ _)
    rw [List.flatMap_cons, further]
    simp [joined]

/-- Assignments to the names of members. A name of a path has no equals sign, so that they are not taken
for the name alone. -/
theorem decodeText_exploded_object (kind : hint.kind = .object) (nonempty : texts ≠ [])
    (splits : Splits ';' texts) (assigned : ∀ text ∈ texts, '=' ∈ text.toList)
    (named : '=' ∉ name.toList) :
    decodeText name .matrix true (marked ";" texts) hint = .ok (typed hint texts true) := by
  have written : (marked ";" texts).toList = ';' :: joined ';' (texts.map String.toList) :=
    toList_marked_joined ';' nonempty
  have different : (marked ";" texts).toList ≠ ';' :: name.toList := by
    obtain ⟨text, rest, rfl⟩ := List.exists_cons_of_ne_nil nonempty
    intro same
    have inside : '=' ∈ (marked ";" (text :: rest)).toList := by
      rw [toList_marked, List.flatMap_cons]
      simp [assigned text List.mem_cons_self]
    rw [same] at inside
    simp [named] at inside
  have body : afterFront? [';'] (marked ";" texts).toList =
      some (joined ';' (texts.map String.toList)) := by
    rw [afterFront?_eq_some_iff, written]
    rfl
  rw [decodeText, decodeMatrix, if_neg different, body]
  simp only [kind, atoms_joined splits, if_true, Option.map_some]

/-! ### Arrays -/

/-- Arrays are read as they were written. A single empty text looks like no text, except where the name
is written before each. -/
theorem decodeText_encodeText_array (delimited : textDelimiter? explode style = some delimiter)
    (named : name.toList.all isPathNameChar = true) (expected : hint.Expects (.array items))
    (apart : ∀ item ∈ items, delimiter ∉ (atomText item).toList)
    (solid : items.map atomText ≠ [""] ∨ style = .matrix ∧ explode = true) :
    ∃ text, encodeText name style explode (.array items) = .ok text ∧
      decodeText name style explode text hint = .ok (.array items) := by
  cases expected with | array kind each => ?_
  have structured : ∀ type, hint.kind ≠ .scalar type := by simp [kind]
  have free : ∀ text ∈ items.map atomText, delimiter ∉ text.toList := List.forall_mem_map.mpr apart
  have own : typed hint (items.map atomText) explode = .array items := by
    rw [typed_of_kind_array kind, coerce_items each]
  rw [encodeText_array each, ← own]
  by_cases exploded : style = .matrix ∧ explode = true
  · obtain ⟨rfl, rfl⟩ := exploded
    obtain rfl : ';' = delimiter := Option.some.inj delimited
    by_cases empty : items.map atomText = []
    · rw [empty]
      exact ⟨_, rfl, decodeText_bare structured⟩
    · refine ⟨marked (";" ++ name ++ "=") (items.map atomText), ?_, ?_⟩
      · rw [arrayText, if_neg (by simpa using empty), if_pos rfl]
      · exact decodeText_exploded_array kind empty (not_mem_name named (by decide)) free
  · exact exists_decodeText name structured delimited exploded ⟨free, solid.resolve_right exploded⟩

/-- Sizes of which one is absent, with full stops between them, and an absent one alone, after the name
that stands before it. -/
theorem decodeText_absentSize :
    let sizes : List Value := [.ofInt 7, .null, .ofInt (-3)]
    "sizes".toList.all isPathNameChar = true ∧
      (textDelimiter? false .label = some '.' ∧ (boxCatalog.hint 1).Expects (.array sizes) ∧
        (∀ item ∈ sizes, '.' ∉ (atomText item).toList) ∧ sizes.map atomText ≠ [""] ∧
        encodeText "sizes" .label false (.array sizes) = .ok ".7..-3" ∧
        decodeText "sizes" .label false ".7..-3" (boxCatalog.hint 1) = .ok (.array sizes)) ∧
      (textDelimiter? true .matrix = some ';' ∧ (boxCatalog.hint 1).Expects (.array [.null]) ∧
        (∀ item ∈ [Value.null], ';' ∉ (atomText item).toList) ∧
        encodeText "sizes" .matrix true (.array [.null]) = .ok ";sizes=" ∧
        decodeText "sizes" .matrix true ";sizes=" (boxCatalog.hint 1) = .ok (.array [.null])) := by
  intro sizes
  have several : (boxCatalog.hint 1).Expects (.array sizes) := by
    refine .array rfl fun item listed => ?_
    simp only [sizes, List.mem_cons, List.not_mem_nil, or_false] at listed
    rcases listed with rfl | rfl | rfl <;> exact ⟨rfl, rfl⟩
  have apart : ∀ item ∈ sizes, '.' ∉ (atomText item).toList := by decide
  have solid : sizes.map atomText ≠ [""] := by decide
  obtain ⟨text, written, read⟩ :=
    @decodeText_encodeText_array "sizes" .label '.' false (boxCatalog.hint 1) sizes rfl (by decide)
      several apart (.inl solid)
  obtain rfl : ".7..-3" = text := Except.ok.inj written
  have single : (boxCatalog.hint 1).Expects (.array [.null]) :=
    .array rfl (List.forall_mem_singleton.mpr ⟨rfl, rfl⟩)
  have free : ∀ item ∈ [Value.null], ';' ∉ (atomText item).toList := by decide
  obtain ⟨text, written', read'⟩ :=
    @decodeText_encodeText_array "sizes" .matrix ';' true (boxCatalog.hint 1) [.null] rfl (by decide)
      single free (.inr ⟨rfl, rfl⟩)
  obtain rfl : ";sizes=" = text := Except.ok.inj written'
  exact ⟨by decide, ⟨rfl, several, apart, solid, written, read⟩, rfl, single, free, written', read'⟩

/-! ### Objects -/

/-- What is written of pairs, each as one text or as two. -/
def writtenPairs (explode : Bool) (pairs : Entries String) : List String :=
  if explode then assignments pairs else alternating pairs

/-- A pair adds no character but an equals sign. -/
theorem not_mem_writtenPairs {pairs : Entries String} (other : c ≠ '=')
    (free : ∀ pair ∈ pairs, c ∉ pair.1.toList ∧ c ∉ pair.2.toList) :
    ∀ text ∈ writtenPairs explode pairs, c ∉ text.toList := by
  intro text listed
  cases explode with
  | false =>
    obtain ⟨pair, inside, own⟩ := List.mem_flatMap.mp listed
    rcases List.mem_pair.mp own with rfl | rfl
    · exact (free pair inside).1
    · exact (free pair inside).2
  | true =>
    obtain ⟨pair, inside, rfl⟩ := List.mem_map.mp listed
    rw [toList_assignment]
    simp [(free pair inside).1, (free pair inside).2, other]

theorem writtenPairs_ne_blank (explode : Bool) (pairs : Entries String) :
    writtenPairs explode pairs ≠ [""] := by
  cases explode with
  | false => exact alternating_ne_singleton pairs ""
  | true =>
    intro blank
    have listed : "" ∈ assignments pairs := by
      rw [show assignments pairs = [""] from blank]
      exact List.mem_singleton_self ""
    exact absurd (isAssignment_of_mem_assignments listed) (by decide)

/-- What is written of the members of an object, each as one text or as two. -/
def writtenMembers (explode : Bool) (members : Entries Value) : List String :=
  if explode then assignments (memberTexts members) else alternating (memberTexts members)

theorem splits_writtenMembers (other : delimiter ≠ '=')
    (apart : ∀ text ∈ flatTexts (.object members), delimiter ∉ text.toList) :
    Splits delimiter (writtenMembers explode members) where
  apart := by
    refine not_mem_writtenPairs other fun pair inside => ⟨?_, ?_⟩
    · exact apart pair.1 (List.mem_flatMap.mpr ⟨pair, inside, by simp⟩)
    · exact apart pair.2 (List.mem_flatMap.mpr ⟨pair, inside, by simp⟩)
  solid := writtenPairs_ne_blank explode (memberTexts members)

theorem typed_writtenMembers (expected : hint.Expects (.object members))
    (names : explode = true → ∀ key ∈ members.keys, '=' ∉ key.toList) :
    typed hint (writtenMembers explode members) explode = .object members := by
  cases explode with
  | false =>
    have read := typed_flatTexts expected
    rwa [flatTexts] at read
  | true => exact typed_assignments expected (names rfl)

/-- Except where assignments are exploded, names and texts are written as items are. -/
theorem objectText_eq_arrayText (joins : ¬ (style = .matrix ∧ explode = true))
    (delimited : textDelimiter? explode style = some delimiter) (pairs : Entries String) :
    objectText style explode name pairs =
      arrayText style explode name (writtenPairs explode pairs) := by
  cases style with
  | simple => rfl
  | label => rfl
  | matrix =>
    obtain rfl : explode = false := by simpa using joins
    cases pairs <;> rfl
  | form => cases delimited
  | spaceDelimited => cases delimited
  | pipeDelimited => cases delimited
  | deepObject => cases delimited

theorem objectText_memberTexts (joins : ¬ (style = .matrix ∧ explode = true))
    (delimited : textDelimiter? explode style = some delimiter) :
    objectText style explode name (memberTexts members) =
      arrayText style explode name (writtenMembers explode members) :=
  objectText_eq_arrayText joins delimited (memberTexts members)

/-- Objects are read as they were written, except an empty one that is exploded in the style `matrix`:
nothing is written of it, and no text of the style is empty. -/
theorem decodeText_encodeText_object (delimited : textDelimiter? explode style = some delimiter)
    (named : name.toList.all isPathNameChar = true) (expected : hint.Expects (.object members))
    (apart : ∀ text ∈ flatTexts (.object members), delimiter ∉ text.toList)
    (names : explode = true → ∀ key ∈ members.keys, '=' ∉ key.toList) :
    ∃ text, encodeText name style explode (.object members) = .ok text ∧
      decodeText name style explode text hint =
        if style = .matrix ∧ explode = true ∧ members = [] then .error (.malformed .matrix "")
        else .ok (.object members) := by
  have own := typed_writtenMembers expected names
  have splits (other : delimiter ≠ '=') : Splits delimiter (writtenMembers explode members) :=
    splits_writtenMembers other apart
  cases expected with | object kind distinct each => ?_
  have structured : ∀ type, hint.kind ≠ .scalar type := by simp [kind]
  rw [encodeText_object each, ← own]
  by_cases exploded : style = .matrix ∧ explode = true
  · obtain ⟨rfl, rfl⟩ := exploded
    obtain rfl : ';' = delimiter := Option.some.inj delimited
    by_cases empty : members = []
    · -- Nothing is written, not even the mark with which a text of the style begins.
      subst empty
      refine ⟨"", rfl, ?_⟩
      rw [if_pos ⟨rfl, rfl, rfl⟩, decodeText, decodeMatrix, if_neg (by simp)]
      simp [kind, afterFront?]
    · have nonempty : writtenMembers true members ≠ [] := by
        simpa [writtenMembers, assignments, memberTexts] using empty
      refine ⟨marked ";" (writtenMembers true members), rfl, ?_⟩
      rw [if_neg fun h => empty h.2.2]
      exact decodeText_exploded_object kind nonempty (splits (by decide))
        (fun text listed => isAssignment_of_mem_assignments listed) (not_mem_name named (by decide))
  · have other : delimiter ≠ '=' := by
      rintro rfl
      cases style <;> cases explode <;> cases delimited
    rw [objectText_memberTexts exploded delimited, if_neg fun h => exploded ⟨h.1, h.2.1⟩]
    exact exists_decodeText name structured delimited exploded (splits other)

theorem decodeText_emptyBox :
    textDelimiter? true .label = some '.' ∧ "box".toList.all isPathNameChar = true ∧
      (boxCatalog.hint 2).Expects emptyBox ∧ (∀ text ∈ flatTexts emptyBox, '.' ∉ text.toList) ∧
      decodeText "box" .label true ".weight=7.size=-3" (boxCatalog.hint 2) = .ok emptyBox := by
  obtain ⟨text, written, read⟩ :=
    @decodeText_encodeText_object "box" .label '.' true (boxCatalog.hint 2) _ rfl (by decide)
      expects_emptyBox (by decide) (fun _ => by decide)
  obtain rfl : ".weight=7.size=-3" = text := Except.ok.inj written
  exact ⟨rfl, by decide, expects_emptyBox, by decide, read⟩

/-- An object without members is not read back where it is exploded in the style `matrix`, though its
atoms leave nothing to tell apart. -/
theorem exploded_nothing_refused :
    textDelimiter? true .matrix = some ';' ∧ "box".toList.all isPathNameChar = true ∧
      (boxCatalog.hint 2).Expects (.object []) ∧
      (∀ text ∈ flatTexts (.object []), ';' ∉ text.toList) ∧
      ¬ ∃ text, encodeText "box" .matrix true (.object []) = .ok text ∧
        decodeText "box" .matrix true text (boxCatalog.hint 2) = .ok (.object []) := by
  refine ⟨rfl, by decide, .object rfl (by decide) (by simp), by decide, ?_⟩
  rintro ⟨text, written, read⟩
  obtain rfl : "" = text := Except.ok.inj written
  cases read

end ApiContract.Parameter
