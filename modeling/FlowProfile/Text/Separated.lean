/-
Separated lists

The two ways in which this library writes several things in a row: on one line, with a
comma and a space between neighbours and nothing before the first or after the last, or
each on a line of its own.
-/

namespace FlowProfile.Text

/-- The texts in order with a comma and a space between neighbours. -/
def separated (texts : List String) : String :=
  ", ".intercalate texts

@[simp] theorem separated_nil : separated [] = "" := by
  simp [separated]

@[simp] theorem separated_singleton (only : String) : separated [only] = only := by
  simp [separated]

theorem separated_cons_cons (first second : String) (rest : List String) :
    separated (first :: second :: rest) = first ++ ", " ++ separated (second :: rest) := by
  simp [separated]

/-- The texts in order with a line end after each. -/
def lines : List String → String
  | [] => ""
  | first :: rest => first ++ "\n" ++ lines rest

theorem lines_append (first second : List String) :
    lines (first ++ second) = lines first ++ lines second := by
  induction first with
  | nil => simp [lines]
  | cons line rest ih => simp [lines, ih, String.append_assoc]

end FlowProfile.Text
