import ApiContract.Parameter.Template
import ApiContract.Proofs.Text.Pieces
/-!
# The two readings of a template

The loop that lists the names of placeholders and the loop that writes their values agree on what a
placeholder is: there are texts between which the one finds its names and the other puts its values
(`exists_literals`). So values are written as they are, whatever braces they hold.
-/

namespace ApiContract.Template

open Text (cutAt? eq_of_cutAt? cutAt?_eq_none_iff)

/-- A placeholder as a template writes it. -/
def braced (name : String) : List Char := '\x7b' :: (name.toList ++ ['\x7d'])

/-- Literals with other texts between them. -/
def interleaved : (literals texts : List (List Char)) → List Char
  | [], _ => []
  | literal :: _, [] => literal
  | literal :: literals, text :: texts => literal ++ text ++ interleaved literals texts

/-- Literals in which there is no placeholder: an opening brace is in the last one alone, and is never
closed there. -/
def Unbraced : List (List Char) → Prop
  | [] => True
  | [last] => ∀ before after, last = before ++ '\x7b' :: after → '\x7d' ∉ after
  | literal :: literals => '\x7b' ∉ literal ∧ Unbraced literals

/-- What a text writes besides its placeholders: before each of them, and behind the last. -/
def literalsIn (text : List Char) : List (List Char) :=
  match _opened : cutAt? '\x7b' text with
  | none => [text]
  | some (before, after) =>
    match _closed : cutAt? '\x7d' after with
    | none => [text]
    | some (_, rest) => before :: literalsIn rest
termination_by text.length
decreasing_by exact Nat.lt_trans (Text.length_lt_of_cutAt? _closed) (Text.length_lt_of_cutAt? _opened)

/-- What a template writes besides its placeholders. -/
def literals (template : String) : List (List Char) := literalsIn template.toList

variable {text : List Char}

theorem length_literalsIn (text : List Char) :
    (literalsIn text).length = (namesIn text).length + 1 := by
  fun_induction literalsIn text with
  | case1 text opened =>
    rw [namesIn_eq]
    simp [opened]
  | case2 text before after opened closed =>
    rw [namesIn_eq]
    simp [opened, closed]
  | case3 text before after opened name rest closed ih =>
    rw [namesIn_eq]
    simp [opened, closed, ih]

theorem not_mem_of_mem_namesIn {name : String} (h : name ∈ namesIn text) : '\x7d' ∉ name.toList := by
  fun_induction namesIn text with
  | case1 text opened => cases h
  | case2 text before after opened closed => cases h
  | case3 text before after opened own rest closed ih =>
    rcases List.mem_cons.mp h with rfl | later
    · rw [String.toList_ofList]
      exact (eq_of_cutAt? closed).2
    · exact ih later

theorem unbraced_cons {literal : List Char} {others : List (List Char)} (nonempty : others ≠ [])
    (free : '\x7b' ∉ literal) (h : Unbraced others) : Unbraced (literal :: others) := by
  cases others with
  | nil => exact absurd rfl nonempty
  | cons first rest => exact ⟨free, h⟩

theorem unbraced_literalsIn (text : List Char) : Unbraced (literalsIn text) := by
  fun_induction literalsIn text with
  | case1 text opened =>
    rintro before after rfl
    exact absurd (cutAt?_eq_none_iff.mp opened) (by simp)
  | case2 text before after opened closed =>
    obtain ⟨rfl, free⟩ := eq_of_cutAt? opened
    have unclosed := cutAt?_eq_none_iff.mp closed
    -- Another opening brace can only come later, where nothing is closed either.
    intro before' after' same
    rcases List.append_eq_append_iff.mp same with ⟨between, -, tail⟩ | ⟨between, head, tail⟩
    · cases between with
      | nil => exact (List.cons.inj tail).2 ▸ unclosed
      | cons c between =>
        rw [(List.cons.inj tail).2] at unclosed
        exact fun member => unclosed (by simp [member])
    · cases between with
      | nil => exact (List.cons.inj tail).2 ▸ unclosed
      | cons c between =>
        obtain ⟨rfl, -⟩ := List.cons.inj tail
        exact absurd (by simp [head]) free
  | case3 text before after opened name rest closed ih =>
    have nonempty : literalsIn rest ≠ [] := List.ne_nil_of_length_eq_add_one (length_literalsIn rest)
    exact unbraced_cons nonempty (eq_of_cutAt? opened).2 ih

/-- With the placeholders between them the literals are the text. -/
theorem interleaved_braced (text : List Char) :
    interleaved (literalsIn text) ((namesIn text).map braced) = text := by
  fun_induction literalsIn text with
  | case1 text opened =>
    rw [namesIn_eq]
    simp [opened, interleaved]
  | case2 text before after opened closed =>
    rw [namesIn_eq]
    simp [opened, closed, interleaved]
  | case3 text before after opened name rest closed ih =>
    obtain ⟨rfl, -⟩ := eq_of_cutAt? opened
    obtain ⟨rfl, -⟩ := eq_of_cutAt? closed
    rw [namesIn_eq]
    simp [opened, closed, interleaved, braced, ih]

/-- Where no placeholder ends, all is written as it is, opening braces too. -/
theorem fillIn_of_not_mem (values : Entries String) (free : '\x7d' ∉ text) :
    fillIn values text = text := by
  fun_induction fillIn values text with
  | case1 text opened => rfl
  | case2 text before after opened closed ih =>
    obtain ⟨rfl, -⟩ := eq_of_cutAt? opened
    rw [ih fun member => free (by simp [member])]
  | case3 text before after opened name rest closed ih =>
    obtain ⟨rfl, -⟩ := eq_of_cutAt? opened
    obtain ⟨rfl, -⟩ := eq_of_cutAt? closed
    simp at free

/-- With the values of the placeholders between them the literals are what is written. -/
theorem interleaved_valueText (values : Entries String) (text : List Char) :
    interleaved (literalsIn text) ((namesIn text).map (valueText values)) = fillIn values text := by
  fun_induction literalsIn text with
  | case1 text opened =>
    rw [namesIn_eq, fillIn_eq]
    simp [opened, interleaved]
  | case2 text before after opened closed =>
    have rest := fillIn_of_not_mem values (cutAt?_eq_none_iff.mp closed)
    rw [namesIn_eq, fillIn_eq]
    simp only [opened, closed, List.map_nil, interleaved, rest]
    exact (eq_of_cutAt? opened).1
  | case3 text before after opened name rest closed ih =>
    rw [namesIn_eq, fillIn_eq]
    simp [opened, closed, interleaved, ih]

/-- What is written for a path template. -/
theorem fillPath_eq_interleaved (values : Entries String) (template : String) :
    fillPath values template = String.ofList
      (rooted (interleaved (literals template) ((names template).map (valueText values)))) :=
  congrArg (String.ofList ∘ rooted) (interleaved_valueText values template.toList).symm

/-- The two readings of a template agree: there are literals without placeholders such that the template
is these with its placeholders between them, and what is written for it is these with the values of
the placeholders between them, whatever the values are, and a slash in front where there would be
none. With each placeholder for its own value that is the template again. -/
theorem exists_literals (template : String) : ∃ literals : List (List Char),
    literals.length = (names template).length + 1 ∧
    Unbraced literals ∧ (∀ name ∈ names template, '\x7d' ∉ name.toList) ∧
    interleaved literals ((names template).map braced) = template.toList ∧
    (∀ values, fillPath values template =
      String.ofList (rooted (interleaved literals ((names template).map (valueText values))))) ∧
    ∀ values,
      (∀ name ∈ names template, Entries.get? name values = some (String.ofList (braced name))) →
        fillPath values template = String.ofList (rooted template.toList) := by
  refine ⟨literals template, length_literalsIn _, unbraced_literalsIn _,
    fun name => not_mem_of_mem_namesIn, interleaved_braced _,
    fun values => fillPath_eq_interleaved values template, fun values own => ?_⟩
  have same : (names template).map (valueText values) = (names template).map braced := by
    refine List.map_congr_left fun name member => ?_
    rw [valueText, own name member, Option.getD_some, String.toList_ofList]
  rw [fillPath_eq_interleaved, same]
  exact congrArg (String.ofList ∘ rooted) (interleaved_braced template.toList)

/-- Braces within braces, with nothing in them, and left open; and a value with braces. -/
example : fillPath [("x\x7ba", "{b}"), ("b", "2")] "\x7bx\x7ba\x7d/\x7b\x7d/\x7bb" = "/{b}//\x7bb" := by
  decide +kernel

end ApiContract.Template
