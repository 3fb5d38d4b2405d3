/-
Blank characters

The ten ranges of code points with the `White_Space` property, and trimming by them.
Trimming removes every blank at either end and nothing else.
-/

import FlowProfile.Text.Ranges

namespace FlowProfile.Text

/-- The blank code points, as inclusive ranges in increasing order. -/
def blankRanges : List (Nat × Nat) :=
  [(0x9, 0xD), (0x20, 0x20), (0x85, 0x85), (0xA0, 0xA0), (0x1680, 0x1680), (0x2000, 0x200A),
    (0x2028, 0x2029), (0x202F, 0x202F), (0x205F, 0x205F), (0x3000, 0x3000)]

/-- Whether a character only separates others. -/
def isBlank (c : Char) : Bool :=
  inRanges blankRanges c.toNat

/-- Drop the blanks at both ends. -/
def trimmed (text : List Char) : List Char :=
  ((text.dropWhile isBlank).reverse.dropWhile isBlank).reverse

/-- Capital letters of the ASCII alphabet become small; everything else stays. -/
def lowered (text : List Char) : List Char :=
  text.map Char.toLower

/-- A text is `core` with nothing but blanks around it, and `core` has none at its ends. -/
structure TrimsTo (text core : List Char) : Prop where
  around : ∃ before after, text = before ++ core ++ after ∧
    (∀ c ∈ before, isBlank c = true) ∧ ∀ c ∈ after, isBlank c = true
  first : ∀ c ∈ core.head?, isBlank c = false
  last : ∀ c ∈ core.getLast?, isBlank c = false

theorem dropWhile_isBlank {before : List Char} (rest : List Char)
    (blank : ∀ c ∈ before, isBlank c = true) (first : ∀ c ∈ rest.head?, isBlank c = false) :
    (before ++ rest).dropWhile isBlank = rest := by
  rw [List.dropWhile_append_of_pos blank]
  cases rest with
  | nil => rfl
  | cons c rest => exact List.dropWhile_cons_of_neg (by simp [first c rfl])

theorem isBlank_of_head?_dropWhile {text : List Char} {c : Char}
    (head : c ∈ (text.dropWhile isBlank).head?) : isBlank c = false := by
  have stops := List.head?_dropWhile_not isBlank text
  rw [Option.mem_def.mp head] at stops
  exact stops

/-- Only one text is left when the blanks are dropped. -/
theorem TrimsTo.trimmed_eq {text core : List Char} (trims : TrimsTo text core) :
    trimmed text = core := by
  obtain ⟨⟨before, after, rfl, blank, blank'⟩, first, last⟩ := trims
  cases core with
  | nil =>
      have all : ∀ c ∈ before ++ after, isBlank c = true :=
        fun c mem => (List.mem_append.mp mem).elim (blank c) (blank' c)
      have gone : (before ++ after).dropWhile isBlank = [] := by
        simpa using dropWhile_isBlank [] all nofun
      rw [trimmed, List.append_nil, gone]
      rfl
  | cons c rest =>
      have front : (before ++ (c :: rest) ++ after).dropWhile isBlank = c :: rest ++ after := by
        rw [List.append_assoc]
        exact dropWhile_isBlank _ blank fun d mem => first d mem
      have back : (c :: rest ++ after).reverse.dropWhile isBlank = (c :: rest).reverse := by
        rw [List.reverse_append]
        refine dropWhile_isBlank _ (fun d mem => blank' d (List.mem_reverse.mp mem)) ?_
        rwa [List.head?_reverse]
      rw [trimmed, front, back, List.reverse_reverse]

theorem trimsTo_trimmed (text : List Char) : TrimsTo text (trimmed text) := by
  let rest := text.dropWhile isBlank
  have back : text.dropWhile isBlank =
      trimmed text ++ (rest.reverse.takeWhile isBlank).reverse := by
    rw [trimmed, ← List.reverse_append, List.takeWhile_append_dropWhile, List.reverse_reverse]
  refine ⟨⟨text.takeWhile isBlank, (rest.reverse.takeWhile isBlank).reverse, ?_, ?_, ?_⟩, ?_, ?_⟩
  · rw [List.append_assoc, ← back, List.takeWhile_append_dropWhile]
  · exact fun c mem => List.all_eq_true.mp List.all_takeWhile c mem
  · exact fun c mem => List.all_eq_true.mp List.all_takeWhile c (List.mem_reverse.mp mem)
  · intro c head
    have begins : c ∈ (text.dropWhile isBlank).head? := by
      rw [back, List.head?_append, Option.mem_def.mp head]
      rfl
    exact isBlank_of_head?_dropWhile begins
  · intro c last
    rw [trimmed, List.getLast?_reverse] at last
    exact isBlank_of_head?_dropWhile last

/-- To trim a text is to leave out the blanks around it. -/
theorem trimsTo_iff {text core : List Char} : TrimsTo text core ↔ trimmed text = core :=
  ⟨TrimsTo.trimmed_eq, fun trims => trims ▸ trimsTo_trimmed text⟩

end FlowProfile.Text
