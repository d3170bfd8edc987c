/-!
# Pieces of a text

Cutting a text at each occurrence of a character, and putting pieces together again.
-/

namespace ApiContract.Text

/-- The pieces of a text around each occurrence of a character; there is always at least one. -/
def pieces (separator : Char) : List Char → List (List Char)
  | [] => [[]]
  | c :: rest =>
    if c = separator then [] :: pieces separator rest
    else
      match pieces separator rest with
      | first :: others => (c :: first) :: others
      | [] => [[c]]

/-- Pieces with a character between each two of them. -/
def joined (separator : Char) : List (List Char) → List Char
  | [] => []
  | [piece] => piece
  | piece :: rest => piece ++ separator :: joined separator rest

/-- The parts of a text before and after the first occurrence of a character. -/
def cutAt? (separator : Char) : List Char → Option (List Char × List Char)
  | [] => none
  | c :: rest =>
    if c = separator then some ([], rest)
    else (cutAt? separator rest).map fun (before, after) => (c :: before, after)

/-- What follows a text at the front of another. -/
def afterFront? : (front cs : List Char) → Option (List Char)
  | [], cs => some cs
  | _ :: _, [] => none
  | a :: front, c :: cs => if a = c then afterFront? front cs else none

theorem eq_of_cutAt? {separator : Char} {cs before after : List Char}
    (h : cutAt? separator cs = some (before, after)) :
    cs = before ++ separator :: after ∧ separator ∉ before := by
  induction cs generalizing before with
  | nil => cases h
  | cons c rest ih =>
    rw [cutAt?] at h
    split at h
    · next same =>
      cases h
      simp [same]
    · next other =>
      obtain ⟨⟨front, back⟩, cut, parts⟩ := Option.map_eq_some_iff.mp h
      cases parts
      obtain ⟨rfl, free⟩ := ih cut
      exact ⟨rfl, List.not_mem_cons_of_ne_of_not_mem (Ne.symm other) free⟩

theorem length_lt_of_cutAt? {separator : Char} {cs before after : List Char}
    (h : cutAt? separator cs = some (before, after)) : after.length < cs.length := by
  rw [(eq_of_cutAt? h).1]
  simp only [List.length_append, List.length_cons]
  omega

theorem pieces_ne_nil (separator : Char) (cs : List Char) : pieces separator cs ≠ [] := by
  cases cs with
  | nil => simp [pieces]
  | cons c rest =>
    simp only [pieces]
    split
    · simp
    · split <;> simp

theorem joined_cons_cons (separator : Char) (a b : List Char) (rest : List (List Char)) :
    joined separator (a :: b :: rest) = a ++ separator :: joined separator (b :: rest) := rfl

theorem joined_pieces (separator : Char) (cs : List Char) :
    joined separator (pieces separator cs) = cs := by
  induction cs with
  | nil => rfl
  | cons c rest ih =>
    simp only [pieces]
    split
    · next h =>
      subst h
      match hp : pieces c rest with
      | [] => exact absurd hp (pieces_ne_nil c rest)
      | first :: others => rw [joined_cons_cons, ← hp, ih]; rfl
    · match hp : pieces separator rest with
      | [] => exact absurd hp (pieces_ne_nil separator rest)
      | [first] =>
        rw [hp] at ih
        simp only [joined] at ih ⊢
        rw [ih]
      | first :: second :: others =>
        rw [hp, joined_cons_cons] at ih
        simp only [joined_cons_cons]
        rw [← ih]
        rfl

theorem pieces_of_not_mem (separator : Char) (cs : List Char) (h : separator ∉ cs) :
    pieces separator cs = [cs] := by
  induction cs with
  | nil => rfl
  | cons c rest ih => grind [pieces]

theorem pieces_append_cons (separator : Char) (front rest : List Char) (h : separator ∉ front) :
    pieces separator (front ++ separator :: rest) = front :: pieces separator rest := by
  induction front with
  | nil => simp [pieces]
  | cons c front ih => grind [pieces]

/-- Pieces that do not hold the separator are found again; there has to be one. -/
theorem pieces_joined (separator : Char) (texts : List (List Char)) (hne : texts ≠ [])
    (h : ∀ text ∈ texts, separator ∉ text) : pieces separator (joined separator texts) = texts := by
  induction texts with
  | nil => exact absurd rfl hne
  | cons first rest ih =>
    cases rest with
    | nil => exact pieces_of_not_mem separator first (h first (by simp))
    | cons second others =>
      rw [joined_cons_cons, pieces_append_cons separator first _ (h first (by simp)),
        ih (by simp) fun text ht => h text (List.mem_cons_of_mem _ ht)]

theorem afterFront?_append (front cs : List Char) : afterFront? front (front ++ cs) = some cs := by
  induction front with
  | nil => rfl
  | cons a rest ih => simp [afterFront?, ih]

end ApiContract.Text
