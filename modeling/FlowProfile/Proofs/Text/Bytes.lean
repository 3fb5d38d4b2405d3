/-
# The order of texts and that of their bytes

Texts are compared here by their code points, elsewhere byte by byte in UTF-8.  Both are
the same order: a character with the larger code has the larger first byte, or as many
bytes as the other one and a larger byte where the two encodings differ first.  In neither
case is one encoding the beginning of the other, so what follows does not matter.
-/

namespace FlowProfile.Text

/-- The bytes of a text in UTF-8. -/
def bytes (text : String) : List UInt8 :=
  text.toByteArray.data.toList

/-- Two lists of bytes differ at a place that both have, and where they differ first the
byte of the first list is the smaller one. -/
def Below : List UInt8 → List UInt8 → Prop
  | byte :: rest, byte' :: rest' => byte < byte' ∨ byte = byte' ∧ Below rest rest'
  | _, _ => False

namespace Below

/-- Whatever follows, the order stays. -/
theorem append_lt {first second : List UInt8} (below : Below first second)
    (later later' : List UInt8) : first ++ later < second ++ later' := by
  induction first generalizing second with
  | nil => cases second <;> cases below
  | cons byte rest ih =>
      cases second with
      | nil => cases below
      | cons byte' rest' =>
          rw [List.cons_append, List.cons_append, List.cons_lt_cons_iff]
          exact below.imp_right fun ⟨same, below⟩ => ⟨same, ih below⟩

theorem of_lt {byte byte' : Nat} (lt : byte < byte') (small : byte' < 256)
    (rest rest' : List UInt8) : Below (.ofNat byte :: rest) (.ofNat byte' :: rest') := by
  apply Or.inl
  rw [UInt8.lt_iff_toNat_lt, UInt8.toNat_ofNat', UInt8.toNat_ofNat', Nat.mod_eq_of_lt small,
    Nat.mod_eq_of_lt (Nat.lt_trans lt small)]
  exact lt

theorem of_le {byte byte' : Nat} {rest rest' : List UInt8} (le : byte ≤ byte')
    (small : byte' < 256) (later : byte = byte' → Below rest rest') :
    Below (.ofNat byte :: rest) (.ofNat byte' :: rest') := by
  rcases Nat.lt_or_eq_of_le le with lt | same
  · exact .of_lt lt small rest rest'
  · exact .inr ⟨congrArg _ same, later same⟩

/-- The encodings of characters are in the order of the characters. -/
theorem utf8EncodeChar {first second : Char} (below : first < second) :
    Below (String.utf8EncodeChar first) (String.utf8EncodeChar second) := by
  have order : first.val.toNat < second.val.toNat := below
  have bound : second.val.toNat < 0x110000 := by
    have valid := second.valid
    simp only [UInt32.isValidChar, Nat.isValidChar] at valid
    omega
  simp only [String.utf8EncodeChar]
  generalize first.val.toNat = code at order
  generalize second.val.toNat = code' at order bound
  -- the second encoding is as long as the first one, or its first byte is larger
  by_cases one : code ≤ 0x7f
  · rw [if_pos one]
    split
    · exact .of_lt order (by omega) _ _
    · split
      · exact .of_lt (by omega) (by omega) _ _
      · split <;> exact .of_lt (by omega) (by omega) _ _
  rw [if_neg one, if_neg (show ¬ code' ≤ 0x7f by omega)]
  by_cases two : code ≤ 0x7ff
  · rw [if_pos two]
    split
    · refine .of_le (by omega) (by omega) fun lead => ?_
      exact .of_lt (by omega) (by omega) _ _
    · split <;> exact .of_lt (by omega) (by omega) _ _
  rw [if_neg two, if_neg (show ¬ code' ≤ 0x7ff by omega)]
  by_cases three : code ≤ 0xffff
  · rw [if_pos three]
    split
    · refine .of_le (by omega) (by omega) fun lead => ?_
      refine .of_le (by omega) (by omega) fun middle => ?_
      exact .of_lt (by omega) (by omega) _ _
    · exact .of_lt (by omega) (by omega) _ _
  rw [if_neg three, if_neg (show ¬ code' ≤ 0xffff by omega)]
  refine .of_le (by omega) (by omega) fun lead => ?_
  refine .of_le (by omega) (by omega) fun middle => ?_
  refine .of_le (by omega) (by omega) fun middle' => ?_
  exact .of_lt (by omega) (by omega) _ _

end Below

theorem bytes_eq (text : String) : bytes text = text.toList.flatMap String.utf8EncodeChar := by
  rw [bytes, ← String.utf8Encode_toList, List.utf8Encode, List.toList_data_toByteArray]

theorem flatMap_utf8EncodeChar_lt {first second : List Char} (below : first < second) :
    first.flatMap String.utf8EncodeChar < second.flatMap String.utf8EncodeChar := by
  induction first generalizing second with
  | nil =>
      cases second with
      | nil => cases below
      | cons char rest =>
          rw [List.flatMap_nil, List.flatMap_cons]
          cases encoded : String.utf8EncodeChar char with
          | nil => exact absurd encoded String.utf8EncodeChar_ne_nil
          | cons byte later => exact List.nil_lt_cons ..
  | cons char rest ih =>
      cases second with
      | nil => cases below
      | cons char' rest' =>
          rw [List.flatMap_cons, List.flatMap_cons]
          rcases List.cons_lt_cons_iff.mp below with here | ⟨rfl, later⟩
          · exact (Below.utf8EncodeChar here).append_lt _ _
          · exact List.append_left_lt (ih later)

/-- A text that is smaller by its code points is smaller by its bytes. -/
theorem bytes_lt {first second : String} (below : first < second) : bytes first < bytes second := by
  rw [bytes_eq, bytes_eq]
  exact flatMap_utf8EncodeChar_lt (String.lt_iff.mp below)

end FlowProfile.Text
