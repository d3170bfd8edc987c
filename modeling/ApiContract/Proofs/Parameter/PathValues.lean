import Mathlib.Data.Prod.Basic
import ApiContract.Proofs.Parameter.PathText
import ApiContract.Proofs.Parameter.TextStyles
/-!
# Values told apart in a path

The atoms of a value are encoded before they are put together, so that none of them holds what stands
between atoms in the styles `simple` and `matrix`, nor what ends a segment or a path. So the text shows
the atoms and stays within its segment (`encodePath_delimits`). The style `label` is left out of the
first, as points are not encoded.
-/

namespace ApiContract

open Json (Value)
open Text

/-- A text without delimiters of URLs, whose percent signs stand for encoded octets. -/
structure IsUndelimited (s : String) : Prop where
  visible : ∀ c ∈ s.toList, 0x20 < c.toNat ∧ c.toNat < 0x7F
  apart : ∀ c ∈ s.toList, c ∉ ['/', '?', '#']
  escapes : Percent.Escapes s.toList

theorem IsPathText.visible {s : String} (h : IsPathText s) :
    ∀ c ∈ s.toList, 0x20 < c.toNat ∧ c.toNat < 0x7F ∧ c ∉ ['/', '?', '#'] := by
  intro c member
  obtain ⟨low, marks⟩ := Url.ne_of_isPathChar (h c member)
  have high : c.toNat < 0x7F := by
    have own := h c member
    simp only [Url.isPathChar, Url.encodedInPath, Url.encodedInFragment, Percent.isControl,
      Bool.and_eq_true, Bool.not_eq_true', Bool.or_eq_false_iff, decide_eq_true_eq,
      decide_eq_false_iff_not] at own
    omega
  refine ⟨low, high, fun mark => marks ?_⟩
  simp only [List.mem_cons, List.not_mem_nil, or_false] at mark ⊢
  tauto

namespace Parameter

variable {name : String} {mark : Char} {explode : Bool} {style : ParameterStyle}
  {a b : List String} {p q : Entries String} {items others : List Value} {members fellows : Entries Value}

/-- What is added to encoded atoms has no percent sign. -/
theorem composes_escapes : Composes fun s => Percent.Escapes s.toList where
  empty := .of_not_mem (by simp)
  append hs ht := by
    rw [String.toList_append]
    exact hs.append ht
  marks := by
    rw [List.forall_mem_cons, List.forall_mem_cons, List.forall_mem_cons, List.forall_mem_singleton]
    refine ⟨?_, ?_, ?_, ?_⟩ <;> exact .of_not_mem (by decide)

/-- Whatever the value and the style, nothing that is written for a path ends a segment. -/
theorem isUndelimited_of_encodePath {value : Value} {text : String}
    (written : encodePath name style explode value = .ok text) : IsUndelimited text := by
  have own : IsPathText text := IsPathText.composes.renderText .encode written
  have escapes : Percent.Escapes text.toList :=
    composes_escapes.renderText (Percent.escapes_encode (by decide)) written
  exact ⟨fun c member => ⟨(own.visible c member).1, (own.visible c member).2.1⟩,
    fun c member => (own.visible c member).2.2, escapes⟩

/-! ### Texts from which atoms are read -/

theorem toList_injective : Function.Injective String.toList := fun _ _ => String.toList_inj.mp

/-- Texts with a character between them show what they are, but for none and one that is empty. -/
theorem intercalate_eq_iff (mark : Char) (ha : ∀ text ∈ a, mark ∉ text.toList)
    (hb : ∀ text ∈ b, mark ∉ text.toList) :
    (String.singleton mark).intercalate a = (String.singleton mark).intercalate b ↔
      a = b ∨ a = [] ∧ b = [""] ∨ a = [""] ∧ b = [] := by
  have single {texts : List String} : texts.map String.toList = [[]] ↔ texts = [""] :=
    (List.map_injective_iff.mpr toList_injective).eq_iff (b := [""])
  rw [← String.toList_inj, toList_intercalate, toList_intercalate,
    joined_eq_iff (List.forall_mem_map.mpr ha) (List.forall_mem_map.mpr hb), single, single,
    (List.map_injective_iff.mpr toList_injective).eq_iff, List.map_eq_nil_iff, List.map_eq_nil_iff]

theorem commas_eq_iff (ha : ∀ text ∈ a, Lacks [',', ';'] text)
    (hb : ∀ text ∈ b, Lacks [',', ';'] text) :
    ",".intercalate a = ",".intercalate b ↔ a = b ∨ a = [] ∧ b = [""] ∨ a = [""] ∧ b = [] :=
  intercalate_eq_iff ',' (fun text member => ha text member ',' (by simp))
    fun text member => hb text member ',' (by simp)

/-- Texts that are each written behind a mark show what they are. -/
theorem marked_inj {own : String} {front : List Char} (begins : own.toList = mark :: front)
    (free : mark ∉ front) (ha : ∀ text ∈ a, mark ∉ text.toList) (hb : ∀ text ∈ b, mark ∉ text.toList)
    (same : marked own a = marked own b) : a = b := by
  have cut := pieces_marked begins free ha
  rw [same, pieces_marked begins free hb] at cut
  have injective : Function.Injective fun text : String => front ++ text.toList :=
    fun s t h => String.toList_inj.mp (List.append_cancel_left h)
  exact (List.map_injective_iff.mpr injective (List.cons.inj cut).2).symm

/-- In the style `matrix` items are assigned to the name, which stands alone if there are none. -/
theorem arrayText_matrix_cons (explode : Bool) (name first : String) (rest : List String) :
    ∃ body, arrayText .matrix explode name (first :: rest) = .ok (";" ++ name ++ "=" ++ body) := by
  cases explode with
  | false => exact ⟨_, rfl⟩
  | true =>
    refine ⟨first ++ marked (";" ++ name ++ "=") rest, ?_⟩
    simp [arrayText, marked, String.append_assoc]

theorem arrayText_matrix_inj (named : ';' ∉ name.toList) (ha : ∀ text ∈ a, Lacks [',', ';'] text)
    (hb : ∀ text ∈ b, Lacks [',', ';'] text)
    (same : arrayText .matrix explode name a = arrayText .matrix explode name b) : a = b := by
  have bare (first : String) (rest : List String) :
      arrayText .matrix explode name (first :: rest) ≠ .ok (";" ++ name) := by
    obtain ⟨body, written⟩ := arrayText_matrix_cons explode name first rest
    rw [written]
    intro same
    refine toList_assigned_ne name body ?_
    rw [Except.ok.inj same]
    simp
  -- The name alone is for no items; else the items follow it in both.
  cases a with
  | nil =>
    cases b with
    | nil => rfl
    | cons first rest => exact absurd same.symm (bare first rest)
  | cons first rest =>
    cases b with
    | nil => exact absurd same (bare first rest)
    | cons second others =>
      cases explode with
      | true =>
        have begins : (";" ++ name ++ "=").toList = ';' :: (name.toList ++ ['=']) := by simp
        exact marked_inj begins (by simp [named]) (fun text member => ha text member ';' (by simp))
          (fun text member => hb text member ';' (by simp)) (Except.ok.inj same)
      | false =>
        have written := congrArg String.toList (Except.ok.inj same)
        simp only [String.toList_append] at written
        simpa using (commas_eq_iff ha hb).mp (String.toList_inj.mp (List.append_cancel_left written))

/-- Items that hold no delimiter can be told apart, but for none and one that is empty where their name
is not written. -/
theorem arrayText_eq_iff (explode : Bool) (named : ';' ∉ name.toList)
    (ha : ∀ text ∈ a, Lacks [',', ';'] text) (hb : ∀ text ∈ b, Lacks [',', ';'] text)
    (known : style = .simple ∨ style = .matrix) :
    ∃ s t, arrayText style explode name a = .ok s ∧ arrayText style explode name b = .ok t ∧
      (s = t ↔ a = b ∨ style = .simple ∧ (a = [] ∧ b = [""] ∨ a = [""] ∧ b = [])) := by
  rcases known with rfl | rfl
  · refine ⟨_, _, rfl, rfl, ?_⟩
    rw [commas_eq_iff ha hb]
    simp
  · have written (atoms : List String) : ∃ s, arrayText .matrix explode name atoms = .ok s := by
      cases atoms with
      | nil => exact ⟨_, rfl⟩
      | cons first rest =>
        obtain ⟨body, own⟩ := arrayText_matrix_cons explode name first rest
        exact ⟨_, own⟩
    obtain ⟨s, hs⟩ := written a
    obtain ⟨t, ht⟩ := written b
    refine ⟨s, t, hs, ht, fun same => .inl ?_, ?_⟩
    · exact arrayText_matrix_inj named ha hb (by rw [hs, ht, same])
    · rintro (rfl | ⟨other, -⟩)
      · exact Except.ok.inj (hs.symm.trans ht)
      · cases other

theorem writtenPairs_inj (hp : ∀ pair ∈ p, '=' ∉ pair.1.toList) (hq : ∀ pair ∈ q, '=' ∉ pair.1.toList)
    (same : writtenPairs explode p = writtenPairs explode q) : p = q := by
  cases explode with
  | false => exact (turns_alternating p).symm.trans ((congrArg turns same).trans (turns_alternating q))
  | true =>
    rw [← assigned_assignments hp, ← assigned_assignments hq]
    exact congrArg assigned same

theorem lacks_writtenPairs
    (free : ∀ pair ∈ p, Lacks [',', ';', '='] pair.1 ∧ Lacks [',', ';', '='] pair.2) :
    ∀ text ∈ writtenPairs explode p, Lacks [',', ';'] text := by
  intro text member c mark
  have marks : c ∈ [',', ';', '='] := List.mem_append_left ['='] mark
  have other : c ≠ '=' := by
    rintro rfl
    simp at mark
  exact not_mem_writtenPairs other
    (fun pair present => ⟨(free pair present).1 c marks, (free pair present).2 c marks⟩) text member

/-- Pairs that hold no delimiter can be told apart. -/
theorem objectText_eq_iff (explode : Bool) (named : ';' ∉ name.toList)
    (hp : ∀ pair ∈ p, Lacks [',', ';', '='] pair.1 ∧ Lacks [',', ';', '='] pair.2)
    (hq : ∀ pair ∈ q, Lacks [',', ';', '='] pair.1 ∧ Lacks [',', ';', '='] pair.2)
    (known : style = .simple ∨ style = .matrix) :
    ∃ s t, objectText style explode name p = .ok s ∧ objectText style explode name q = .ok t ∧
      (s = t ↔ p = q) := by
  have injective (same : writtenPairs explode p = writtenPairs explode q) : p = q :=
    writtenPairs_inj (fun pair member => (hp pair member).1 '=' (by simp))
      (fun pair member => (hq pair member).1 '=' (by simp)) same
  by_cases joins : style = .matrix ∧ explode = true
  · obtain ⟨rfl, rfl⟩ := joins
    refine ⟨_, _, rfl, rfl, fun same => injective ?_, fun same => by rw [same]⟩
    have begins : ";".toList = ';' :: [] := rfl
    exact marked_inj begins List.not_mem_nil
      (fun text member => lacks_writtenPairs hp text member ';' (by simp))
      (fun text member => lacks_writtenPairs hq text member ';' (by simp)) same
  · have delimited : textDelimiter? explode style = some ',' := by
      rcases known with rfl | rfl
      · rfl
      · obtain rfl : explode = false := by simpa using joins
        rfl
    obtain ⟨s, t, hs, ht, same⟩ :=
      arrayText_eq_iff explode named (lacks_writtenPairs hp) (lacks_writtenPairs hq) known
    rw [objectText_eq_arrayText joins delimited, objectText_eq_arrayText joins delimited]
    refine ⟨s, t, hs, ht, fun equal => injective ?_, fun equal => same.mpr (.inl (by rw [equal]))⟩
    rcases same.mp equal with own | ⟨-, ⟨-, blank⟩ | ⟨blank, -⟩⟩
    · exact own
    · exact absurd blank (writtenPairs_ne_blank explode q)
    · exact absurd blank (writtenPairs_ne_blank explode p)

/-! ### Encoded atoms -/

/-- An atom as it is encoded for a path. -/
def pathAtom (text : String) : String := Percent.encode isPathReserved text

theorem lacks_pathAtom (text : String) : Lacks [',', ';', '='] (pathAtom text) := by
  have delimiters : [',', ';', '='].all
      (fun c => Percent.isForeign c && isPathReserved c.toNat) = true := by decide
  intro c member
  have own := List.all_eq_true.mp delimiters c member
  rw [Bool.and_eq_true] at own
  exact Percent.not_mem_encode own.1 (.inr own.2)

theorem pathAtom_injective : Function.Injective pathAtom := fun _ _ h =>
  Percent.encode_inj (by decide) h

theorem encodePath_array (scalars : ∀ item ∈ items, item.isScalar = true) :
    encodePath name style explode (.array items) =
      arrayText style explode (pathAtom name) ((items.map atomText).map pathAtom) := by
  rw [encodePath, renderText, itemAtoms_of_isScalar scalars]
  rfl

theorem encodePath_object (scalars : ∀ member ∈ members, member.2.isScalar = true) :
    encodePath name style explode (.object members) =
      objectText style explode (pathAtom name)
        ((memberTexts members).map fun pair => (pathAtom pair.1, pathAtom pair.2)) := by
  rw [encodePath, renderText, memberAtoms_of_isScalar scalars]
  rfl

theorem encodePath_array_eq_iff (name : String) (explode : Bool)
    (known : style = .simple ∨ style = .matrix) (scalars : ∀ item ∈ items, item.isScalar = true)
    (scalars' : ∀ item ∈ others, item.isScalar = true) :
    ∃ s t, encodePath name style explode (.array items) = .ok s ∧
      encodePath name style explode (.array others) = .ok t ∧
      (s = t ↔ items.map atomText = others.map atomText ∨
        style = .simple ∧ (items.map atomText = [] ∧ others.map atomText = [""] ∨
          items.map atomText = [""] ∧ others.map atomText = [])) := by
  have free (texts : List String) : ∀ text ∈ texts.map pathAtom, Lacks [',', ';'] text :=
    List.forall_mem_map.mpr fun text _ c mark =>
      lacks_pathAtom text c (List.mem_append_left ['='] mark)
  have single {texts : List String} : texts.map pathAtom = [""] ↔ texts = [""] :=
    (List.map_injective_iff.mpr pathAtom_injective).eq_iff (b := [""])
  have nothing {texts : List String} : texts.map pathAtom = [] ↔ texts = [] := List.map_eq_nil_iff
  obtain ⟨s, t, hs, ht, same⟩ := arrayText_eq_iff explode
    (lacks_pathAtom name ';' (by simp)) (free (items.map atomText)) (free (others.map atomText)) known
  refine ⟨s, t, (encodePath_array scalars).trans hs, (encodePath_array scalars').trans ht, ?_⟩
  rw [same, single, single, nothing, nothing, (List.map_injective_iff.mpr pathAtom_injective).eq_iff]

theorem encodePath_object_eq_iff (name : String) (explode : Bool)
    (known : style = .simple ∨ style = .matrix)
    (scalars : ∀ member ∈ members, member.2.isScalar = true)
    (scalars' : ∀ member ∈ fellows, member.2.isScalar = true) :
    ∃ s t, encodePath name style explode (.object members) = .ok s ∧
      encodePath name style explode (.object fellows) = .ok t ∧
      (s = t ↔ memberTexts members = memberTexts fellows) := by
  have free (pairs : Entries String) :
      ∀ pair ∈ pairs.map fun pair => (pathAtom pair.1, pathAtom pair.2),
        Lacks [',', ';', '='] pair.1 ∧ Lacks [',', ';', '='] pair.2 :=
    List.forall_mem_map.mpr fun pair _ => ⟨lacks_pathAtom pair.1, lacks_pathAtom pair.2⟩
  have injective : Function.Injective fun pair : String × String => (pathAtom pair.1, pathAtom pair.2) :=
    pathAtom_injective.prodMap pathAtom_injective
  obtain ⟨s, t, hs, ht, same⟩ := objectText_eq_iff explode (lacks_pathAtom name ';' (by simp))
    (free (memberTexts members)) (free (memberTexts fellows)) known
  refine ⟨s, t, (encodePath_object scalars).trans hs, (encodePath_object scalars').trans ht, ?_⟩
  rw [same, (List.map_injective_iff.mpr injective).eq_iff]

/-- No value in a path acts as a delimiter. In the styles `simple` and `matrix` arrays and objects of
scalars are written alike only if their texts are the same, except that no item and one empty item
look alike where the name is not written. And in no style does a value end its segment, or leave a
percent sign that does not stand before two hexadecimal digits. -/
theorem encodePath_delimits (name : String) (explode : Bool) :
    (∀ style, style = .simple ∨ style = .matrix → ∀ items others : List Value,
      (∀ item ∈ items ++ others, item.isScalar = true) →
      ∃ s t, encodePath name style explode (.array items) = .ok s ∧
        encodePath name style explode (.array others) = .ok t ∧
        (s = t ↔ items.map atomText = others.map atomText ∨
          style = .simple ∧ (items.map atomText = [] ∧ others.map atomText = [""] ∨
            items.map atomText = [""] ∧ others.map atomText = []))) ∧
    (∀ style, style = .simple ∨ style = .matrix → ∀ members fellows : Entries Value,
      (∀ member ∈ members ++ fellows, member.2.isScalar = true) →
      ∃ s t, encodePath name style explode (.object members) = .ok s ∧
        encodePath name style explode (.object fellows) = .ok t ∧
        (s = t ↔ memberTexts members = memberTexts fellows)) ∧
    ∀ style value text, encodePath name style explode value = .ok text → IsUndelimited text := by
  refine ⟨fun style known items others scalars => ?_, fun style known members fellows scalars => ?_,
    fun style value text => isUndelimited_of_encodePath⟩
  · obtain ⟨own, own'⟩ := List.forall_mem_append.mp scalars
    exact encodePath_array_eq_iff name explode known own own'
  · obtain ⟨own, own'⟩ := List.forall_mem_append.mp scalars
    exact encodePath_object_eq_iff name explode known own own'

/-- A comma within an item is not one between items. -/
theorem encodePath_comma :
    (∀ item ∈ [Value.string "a,b", .null] ++ [.string "a", .string "b", .null],
      item.isScalar = true) ∧
    encodePath "p" .matrix false (.array [.string "a,b", .null]) = .ok ";p=a%2Cb," ∧
    encodePath "p" .matrix false (.array [.string "a", .string "b", .null]) ≠ .ok ";p=a%2Cb," ∧
    IsUndelimited ";p=a%2Cb," := by
  have written : encodePath "p" .matrix false (.array [.string "a,b", .null]) = .ok ";p=a%2Cb," := by
    decide +kernel
  obtain ⟨arrays, -, undelimited⟩ := encodePath_delimits "p" false
  have scalars : ∀ item ∈ [Value.string "a,b", .null] ++ [.string "a", .string "b", .null],
      item.isScalar = true := by decide
  obtain ⟨s, t, hs, ht, same⟩ := arrays .matrix (.inr rfl) _ _ scalars
  refine ⟨scalars, written, fun other => ?_, undelimited _ _ _ written⟩
  rw [written] at hs
  rw [other] at ht
  rw [← Except.ok.inj hs, ← Except.ok.inj ht] at same
  exact absurd (same.mp rfl) (by decide)

end Parameter

end ApiContract
