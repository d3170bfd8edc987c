import ApiContract.Entries
import ApiContract.Text.Pieces
/-!
# Templates

A template is a text with placeholders, names in braces. Two loops go through it, one for the names and
one that writes values for them; they differ at an opening brace that is never closed, where the first
ends and the second writes the brace and goes on.
-/

namespace ApiContract.Template

open Text (cutAt? length_lt_of_cutAt?)

/-- The names of the placeholders in a text, in order. -/
def namesIn (text : List Char) : List String :=
  match _opened : cutAt? '\x7b' text with
  | none => []
  | some (_, after) =>
    match _closed : cutAt? '\x7d' after with
    | none => []
    | some (name, rest) => String.ofList name :: namesIn rest
termination_by text.length
decreasing_by exact Nat.lt_trans (length_lt_of_cutAt? _closed) (length_lt_of_cutAt? _opened)

theorem namesIn_eq (text : List Char) : namesIn text =
    match cutAt? '\x7b' text with
    | none => []
    | some (_, after) =>
      match cutAt? '\x7d' after with
      | none => []
      | some (name, rest) => String.ofList name :: namesIn rest := by
  rw [namesIn]
  split
  · next opened => rw [opened]
  · next opened =>
    simp only [opened]
    split
    · next closed => rw [closed]
    · next closed => rw [closed]

/-- The names of the placeholders, in order. -/
def names (template : String) : List String := namesIn template.toList

/-- What is written for a placeholder: its value, or nothing where it has none. -/
def valueText (values : Entries String) (name : String) : List Char :=
  ((Entries.get? name values).getD "").toList

/-- A text with its placeholders replaced by values, which are not looked at again. -/
def fillIn (values : Entries String) (text : List Char) : List Char :=
  match _opened : cutAt? '\x7b' text with
  | none => text
  | some (before, after) =>
    match _closed : cutAt? '\x7d' after with
    | none => before ++ '\x7b' :: fillIn values after
    | some (name, rest) => before ++ valueText values (String.ofList name) ++ fillIn values rest
termination_by text.length
decreasing_by
  · exact length_lt_of_cutAt? _opened
  · exact Nat.lt_trans (length_lt_of_cutAt? _closed) (length_lt_of_cutAt? _opened)

theorem fillIn_eq (values : Entries String) (text : List Char) : fillIn values text =
    match cutAt? '\x7b' text with
    | none => text
    | some (before, after) =>
      match cutAt? '\x7d' after with
      | none => before ++ '\x7b' :: fillIn values after
      | some (name, rest) =>
        before ++ valueText values (String.ofList name) ++ fillIn values rest := by
  rw [fillIn]
  split
  · next opened => rw [opened]
  · next opened =>
    simp only [opened]
    split
    · next closed => rw [closed]
    · next closed => rw [closed]

/-- A path, which begins with a slash: one is put in front where there is none. -/
def rooted : List Char → List Char
  | '/' :: rest => '/' :: rest
  | cs => '/' :: cs

/-- A path template with its placeholders replaced; the path begins with a slash. -/
def fillPath (values : Entries String) (template : String) : String :=
  String.ofList (rooted (fillIn values template.toList))

end ApiContract.Template
