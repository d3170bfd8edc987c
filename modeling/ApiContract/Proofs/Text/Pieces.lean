import ApiContract.Text.Pieces
/-!
# Pieces found again

A text that is put together with a mark between its pieces shows the pieces, where none of them holds
the mark.
-/

namespace ApiContract.Text

/-- None of the characters comes up in the text. -/
def Lacks (marks : List Char) (s : String) : Prop := ∀ c ∈ marks, c ∉ s.toList

theorem append_cons_inj {α : Type} {mark : α} {a b x y : List α} (ha : mark ∉ a) (hb : mark ∉ b)
    (h : a ++ mark :: x = b ++ mark :: y) : a = b ∧ x = y := by
  induction a generalizing b with
  | nil =>
    cases b with
    | nil => exact ⟨rfl, (List.cons.inj h).2⟩
    | cons c b =>
      obtain ⟨rfl, -⟩ := List.cons.inj h
      exact absurd List.mem_cons_self hb
  | cons c a ih =>
    cases b with
    | nil =>
      obtain ⟨rfl, -⟩ := List.cons.inj h
      exact absurd List.mem_cons_self ha
    | cons d b =>
      obtain ⟨rfl, rest⟩ := List.cons.inj h
      obtain ⟨rfl, same⟩ :=
        ih (fun member => ha (List.mem_cons_of_mem _ member))
          (fun member => hb (List.mem_cons_of_mem _ member)) rest
      exact ⟨rfl, same⟩

/-- A part that is there with a mark before it, or is not there. -/
def markedChars (mark : Char) : Option (List Char) → List Char
  | some cs => mark :: cs
  | none => []

theorem append_marked_inj {mark : Char} {a b : List Char} {p q : Option (List Char)} (ha : mark ∉ a)
    (hb : mark ∉ b) (h : a ++ markedChars mark p = b ++ markedChars mark q) : a = b ∧ p = q := by
  cases p with
  | none =>
    cases q with
    | none => exact ⟨by simpa [markedChars] using h, rfl⟩
    | some y =>
      have : mark ∈ a := by
        rw [show a = b ++ mark :: y by simpa [markedChars] using h]
        simp
      exact absurd this ha
  | some x =>
    cases q with
    | none =>
      have : mark ∈ b := by
        rw [show b = a ++ mark :: x by simpa [markedChars] using h.symm]
        simp
      exact absurd this hb
    | some y =>
      obtain ⟨same, rest⟩ := append_cons_inj ha hb h
      exact ⟨same, congrArg some rest⟩

theorem toList_intercalate (mark : Char) (texts : List String) :
    ((String.singleton mark).intercalate texts).toList = joined mark (texts.map String.toList) := by
  induction texts with
  | nil => rfl
  | cons first rest ih =>
    cases rest with
    | nil => simp [joined]
    | cons second others =>
      rw [String.intercalate_cons_cons]
      simp [ih, joined]

theorem joined_inj {mark : Char} {a b : List (List Char)} (nonempty : a ≠ []) (nonempty' : b ≠ [])
    (ha : ∀ piece ∈ a, mark ∉ piece) (hb : ∀ piece ∈ b, mark ∉ piece)
    (h : joined mark a = joined mark b) : a = b := by
  rw [← pieces_joined mark a nonempty ha, h, pieces_joined mark b nonempty' hb]

/-- The pieces of a text in which some texts are joined: one empty piece where there is none. -/
def joinedPieces (texts : List (List Char)) : List (List Char) :=
  if texts = [] then [[]] else texts

theorem joinedPieces_nil : joinedPieces [] = [[]] := rfl

theorem joinedPieces_of_ne_nil {texts : List (List Char)} (h : texts ≠ []) :
    joinedPieces texts = texts := if_neg h

theorem pieces_joined_append {mark : Char} {texts : List (List Char)}
    (h : ∀ text ∈ texts, mark ∉ text) (rest : List Char) :
    pieces mark (joined mark texts ++ mark :: rest) = joinedPieces texts ++ pieces mark rest := by
  induction texts with
  | nil => simp [joined, pieces, joinedPieces]
  | cons first others ih =>
    obtain ⟨own, h⟩ := List.forall_mem_cons.mp h
    cases others with
    | nil => simpa [joined, joinedPieces] using pieces_append_cons mark first rest own
    | cons second others =>
      have := ih h
      simp only [joinedPieces, reduceCtorEq, if_false] at this ⊢
      rw [joined_cons_cons, List.append_assoc, List.cons_append, pieces_append_cons mark _ _ own, this]
      rfl

theorem pieces_joined_eq {mark : Char} {texts : List (List Char)}
    (h : ∀ text ∈ texts, mark ∉ text) : pieces mark (joined mark texts) = joinedPieces texts := by
  unfold joinedPieces
  split
  · next empty =>
    rw [empty]
    rfl
  · next nonempty => exact pieces_joined mark texts nonempty h

/-- Joined texts show what they are, but for none and one that is empty. -/
theorem joined_eq_iff {mark : Char} {a b : List (List Char)} (ha : ∀ text ∈ a, mark ∉ text)
    (hb : ∀ text ∈ b, mark ∉ text) :
    joined mark a = joined mark b ↔ a = b ∨ a = [] ∧ b = [[]] ∨ a = [[]] ∧ b = [] := by
  constructor
  · intro same
    have parts : joinedPieces a = joinedPieces b := by
      rw [← pieces_joined_eq ha, same, pieces_joined_eq hb]
    unfold joinedPieces at parts
    grind
  · rintro (rfl | ⟨rfl, rfl⟩ | ⟨rfl, rfl⟩) <;> rfl

theorem eq_or_mem_of_mem_joined {mark c : Char} {texts : List (List Char)}
    (h : c ∈ joined mark texts) : c = mark ∨ ∃ text ∈ texts, c ∈ text := by
  induction texts with
  | nil => cases h
  | cons first rest ih =>
    cases rest with
    | nil => exact .inr ⟨first, by simp, h⟩
    | cons second others =>
      rw [joined_cons_cons, List.mem_append, List.mem_cons] at h
      rcases h with own | same | later
      · exact .inr ⟨first, by simp, own⟩
      · exact .inl same
      · rcases ih later with same | ⟨text, member, own⟩
        · exact .inl same
        · exact .inr ⟨text, List.mem_cons_of_mem _ member, own⟩

/-- Cutting a text at one of the marks and then each of the parts. -/
theorem pieces_append (mark : Char) (front rest : List Char) :
    pieces mark (front ++ mark :: rest) = pieces mark front ++ pieces mark rest := by
  induction front with
  | nil => simp [pieces]
  | cons c front ih =>
    by_cases same : c = mark
    · subst same
      simp [pieces, ih]
    · cases cut : pieces mark front with
      | nil => exact absurd cut (pieces_ne_nil mark front)
      | cons first others => simp [pieces, same, ih, cut]

/-- The pieces of a text and of others after it, a mark before each of those. -/
theorem pieces_append_flatMap {α : Type} {mark : Char} {text : List Char} (f : α → List Char)
    (others : List α) (own : mark ∉ text) (free : ∀ a ∈ others, mark ∉ f a) :
    pieces mark (text ++ others.flatMap fun a => mark :: f a) = text :: others.map f := by
  induction others generalizing text with
  | nil => simpa using pieces_of_not_mem mark text own
  | cons a rest ih =>
    obtain ⟨first, free⟩ := List.forall_mem_cons.mp free
    rw [List.flatMap_cons, List.cons_append, pieces_append_cons mark text _ own, ih first free,
      List.map_cons]

theorem afterFront?_eq_some_iff {front cs rest : List Char} :
    afterFront? front cs = some rest ↔ cs = front ++ rest := by
  refine ⟨fun h => ?_, fun h => h ▸ afterFront?_append front rest⟩
  induction front generalizing cs with
  | nil => exact Option.some.inj h
  | cons a front ih =>
    cases cs with
    | nil => cases h
    | cons c cs =>
      rw [afterFront?] at h
      split at h
      · next same => rw [same, ih h, List.cons_append]
      · cases h

theorem cutAt?_append_cons {mark : Char} {front : List Char} (rest : List Char) (h : mark ∉ front) :
    cutAt? mark (front ++ mark :: rest) = some (front, rest) := by
  induction front with
  | nil => simp [cutAt?]
  | cons c front ih =>
    have other : c ≠ mark := fun same => h (by simp [same])
    rw [List.cons_append, cutAt?, if_neg other, ih fun member => h (List.mem_cons_of_mem _ member)]
    rfl

theorem cutAt?_eq_none_iff {mark : Char} {cs : List Char} : cutAt? mark cs = none ↔ mark ∉ cs := by
  induction cs with
  | nil => simp [cutAt?]
  | cons c rest ih =>
    rw [cutAt?]
    split
    · next same => simp [same]
    · next other => simp [ih, Ne.symm other]

/-- A joined text is empty only where there are no pieces, or one that is empty. -/
theorem joined_eq_nil_iff {mark : Char} {texts : List (List Char)} :
    joined mark texts = [] ↔ texts = [] ∨ texts = [[]] := by
  cases texts with
  | nil => simp [joined]
  | cons first rest =>
    cases rest with
    | nil => simp [joined]
    | cons second others => simp [joined]

end ApiContract.Text
