/-
Fragments of texts

A text occurs in another if it can be read there without a gap. The empty text occurs in
every text.
-/

namespace FlowProfile.Text

/-- Whether `part` can be read somewhere in `whole`. -/
def occursIn (part : List Char) : List Char → Bool
  | [] => part.isEmpty
  | c :: rest => part.isPrefixOf (c :: rest) || occursIn part rest

/-- To occur in a text is to be what stands between two parts of it. -/
theorem occursIn_eq_true_iff {part whole : List Char} :
    occursIn part whole = true ↔ ∃ left right, whole = left ++ part ++ right := by
  induction whole with
  | nil =>
      simp only [occursIn, List.isEmpty_iff]
      constructor
      · rintro rfl
        exact ⟨[], [], rfl⟩
      · rintro ⟨left, right, split⟩
        simp_all
  | cons c rest ih =>
      simp only [occursIn, Bool.or_eq_true, List.isPrefixOf_iff_prefix, ih]
      constructor
      · rintro (⟨right, split⟩ | ⟨left, right, split⟩)
        · exact ⟨[], right, by simp [split]⟩
        · exact ⟨c :: left, right, by simp [split]⟩
      · rintro ⟨left, right, split⟩
        cases left with
        | nil => exact .inl ⟨right, by simpa using split.symm⟩
        | cons head tail =>
            simp only [List.cons_append, List.cons.injEq] at split
            exact .inr ⟨tail, right, split.2⟩

end FlowProfile.Text
