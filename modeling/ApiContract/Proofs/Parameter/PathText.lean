import ApiContract.Parameter.Basic
import ApiContract.Proofs.Url.Segments
/-!
# Values in a path

A value that is written for a path consists of characters that stand for themselves there, in
whatever style, so that it neither ends the segment that it stands in nor is changed when the path is
read (`exists_text_of_encode`).
-/

namespace ApiContract

open Json (Value)
open Text
open Url (isPathChar)

/-- A property that a text has if it is put together, the way the styles do, of texts that have it. -/
structure Composes (P : String → Prop) : Prop where
  empty : P ""
  append {s t : String} : P s → P t → P (s ++ t)
  marks : ∀ mark ∈ [",", ".", ";", "="], P mark

namespace Composes

open Parameter

variable {P : String → Prop} {mark : String} {texts : List String} {escape : String → String}
  {style : ParameterStyle} {explode : Bool} {name text : String} {value : Value}

theorem intercalate (h : Composes P) (own : P mark) (each : ∀ text ∈ texts, P text) :
    P (mark.intercalate texts) := by
  induction texts with
  | nil => exact h.empty
  | cons first rest ih =>
    obtain ⟨here, each⟩ := List.forall_mem_cons.mp each
    cases rest with
    | nil => simpa using here
    | cons second others =>
      rw [String.intercalate_cons_cons]
      exact h.append (h.append here own) (ih each)

theorem join (h : Composes P) (each : ∀ text ∈ texts, P text) : P (String.join texts) := by
  induction texts with
  | nil => exact h.empty
  | cons first rest ih =>
    obtain ⟨here, each⟩ := List.forall_mem_cons.mp each
    rw [String.join_cons]
    exact h.append here (ih each)

theorem arrayText {atoms : List String} (h : Composes P) (named : P name)
    (each : ∀ atom ∈ atoms, P atom) (written : arrayText style explode name atoms = .ok text) :
    P text := by
  obtain ⟨comma, dot, semicolon, equals⟩ : P "," ∧ P "." ∧ P ";" ∧ P "=" := by simpa using h.marks
  have listed : P (",".intercalate atoms) := h.intercalate comma each
  cases style with
  | simple =>
    cases written
    exact listed
  | label =>
    cases written
    exact h.append dot (h.intercalate dot each)
  | matrix =>
    simp only [Parameter.arrayText] at written
    split at written
    · cases written
      exact h.append semicolon named
    split at written
    · cases written
      refine h.join fun marked member => ?_
      obtain ⟨atom, present, rfl⟩ := List.mem_map.mp member
      exact h.append (h.append (h.append semicolon named) equals) (each atom present)
    · cases written
      exact h.append (h.append (h.append semicolon named) equals) listed
  | form => cases written
  | spaceDelimited => cases written
  | pipeDelimited => cases written
  | deepObject => cases written

theorem objectText {pairs : Entries String} (h : Composes P) (named : P name)
    (each : ∀ pair ∈ pairs, P pair.1 ∧ P pair.2)
    (written : objectText style explode name pairs = .ok text) : P text := by
  obtain ⟨comma, dot, semicolon, equals⟩ : P "," ∧ P "." ∧ P ";" ∧ P "=" := by simpa using h.marks
  have assigned : ∀ text ∈ assignments pairs, P text := by
    intro text member
    obtain ⟨pair, present, rfl⟩ := List.mem_map.mp member
    exact h.append (h.append (each pair present).1 equals) (each pair present).2
  have alternated : ∀ text ∈ alternating pairs, P text := by
    intro text member
    obtain ⟨pair, present, inside⟩ := List.mem_flatMap.mp member
    rcases List.mem_pair.mp inside with rfl | rfl
    · exact (each pair present).1
    · exact (each pair present).2
  have either : ∀ text ∈ (if explode then assignments pairs else alternating pairs), P text := by
    split
    · exact assigned
    · exact alternated
  cases style with
  | simple =>
    cases written
    exact h.intercalate comma either
  | label =>
    cases written
    exact h.append dot (h.intercalate dot either)
  | matrix =>
    simp only [Parameter.objectText] at written
    split at written
    · cases written
      refine h.join fun marked member => ?_
      obtain ⟨text, present, rfl⟩ := List.mem_map.mp member
      exact h.append semicolon (assigned text present)
    split at written
    · cases written
      exact h.append semicolon named
    · cases written
      exact h.append (h.append (h.append semicolon named) equals) (h.intercalate comma alternated)
  | form => cases written
  | spaceDelimited => cases written
  | pipeDelimited => cases written
  | deepObject => cases written

theorem scalarText {shape own : String} (h : Composes P) (named : P name) (atom : P own)
    (written : scalarText style name shape own = .ok text) : P text := by
  obtain ⟨-, dot, semicolon, equals⟩ : P "," ∧ P "." ∧ P ";" ∧ P "=" := by simpa using h.marks
  cases style with
  | simple =>
    cases written
    exact atom
  | label =>
    cases written
    exact h.append dot atom
  | matrix =>
    simp only [Parameter.scalarText] at written
    split at written
    · cases written
      exact h.append semicolon named
    · cases written
      exact h.append (h.append (h.append semicolon named) equals) atom
  | form => cases written
  | spaceDelimited => cases written
  | pipeDelimited => cases written
  | deepObject => cases written

/-- What is written of a value has a property that its name and atoms have once they are escaped. -/
theorem renderText (h : Composes P) (safe : ∀ s, P (escape s))
    (written : renderText escape name style explode value = .ok text) : P text := by
  have scalar {shape : String} {outcome : Except CodecError String}
      (written : outcome.bind (fun own =>
        Parameter.scalarText style (escape name) shape (escape own)) = .ok text) : P text := by
    cases outcome with
    | error e => cases written
    | ok own => exact h.scalarText (safe name) (safe own) written
  cases value with
  | array items =>
    simp only [Parameter.renderText] at written
    cases atoms : itemAtoms style 0 items with
    | error e => simp [atoms, Except.bind] at written
    | ok atoms' =>
      rw [atoms] at written
      refine h.arrayText (safe name) (fun atom member => ?_) written
      obtain ⟨own, -, rfl⟩ := List.mem_map.mp member
      exact safe own
  | object members =>
    simp only [Parameter.renderText] at written
    cases pairs : memberAtoms style members with
    | error e => simp [pairs, Except.bind] at written
    | ok pairs' =>
      rw [pairs] at written
      refine h.objectText (safe name) (fun pair member => ?_) written
      obtain ⟨own, -, rfl⟩ := List.mem_map.mp member
      exact ⟨safe own.1, safe own.2⟩
  | null => exact @scalar _ (atom style name .null) written
  | bool b => exact @scalar _ (atom style name (.bool b)) written
  | number n => exact @scalar _ (atom style name (.number n)) written
  | string s => exact @scalar _ (atom style name (.string s)) written

end Composes

/-- A text whose characters all stand for themselves in a path. -/
def IsPathText (s : String) : Prop := ∀ c ∈ s.toList, isPathChar c = true

namespace IsPathText

/-- What the styles add to texts needs no escaping. -/
theorem composes : Composes IsPathText where
  empty := by simp [IsPathText]
  append hs ht := by
    unfold IsPathText
    rw [String.toList_append]
    exact List.forall_mem_append.mpr ⟨hs, ht⟩
  marks := by
    rw [List.forall_mem_cons, List.forall_mem_cons, List.forall_mem_cons, List.forall_mem_singleton]
    refine ⟨?_, ?_, ?_, ?_⟩ <;> exact List.all_eq_true.mp (by decide)

/-- An encoded text is one. -/
theorem encode (s : String) : IsPathText (Percent.encode Parameter.isPathReserved s) := by
  have digits : ∀ n < 16, isPathChar (Percent.upperHex n) = true := by decide
  intro c member
  have admitted := Url.forall_ascii
    (fun c => Parameter.isPathReserved c.toNat || isPathChar c) (by decide +kernel)
    (Percent.ascii_of_mem_encode member)
  rcases Percent.mem_encode member with rfl | ⟨n, small, rfl⟩ | ⟨-, plain⟩
  · decide
  · exact digits n small
  · simpa [plain] using admitted

end IsPathText

namespace Parameter

variable {value : Value}

/-- Whatever is written for a path is one text, which stands for itself there. -/
theorem exists_text_of_encode {parameter : Parameter} {encoded : EncodedValue}
    (travels : parameter.location = .path)
    (h : parameter.encode value = .ok encoded) : ∃ text, encoded = .text text ∧ IsPathText text := by
  unfold encode at h
  split at h
  · simp only [encodeContent, travels] at h
    cases h
    exact ⟨_, rfl, .encode _⟩
  · rw [travels] at h
    cases written : encodePath parameter.name parameter.style parameter.explode value with
    | error e => simp [written, Except.map] at h
    | ok own =>
      rw [written] at h
      cases h
      exact ⟨own, rfl, IsPathText.composes.renderText .encode written⟩

end Parameter

end ApiContract
