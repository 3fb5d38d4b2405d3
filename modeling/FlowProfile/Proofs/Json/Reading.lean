/-
# Reading back what was written

The compact text of a value spells it, and so the value is read back from its text.  Texts
keep every character, whether it is escaped or stands for itself.  Values with a number
that is not written with digits alone are left out: such a number is kept as it was
written, and need not be one.

No compact text has a control character in it, and so it stands on one line.
-/

import FlowProfile.Proofs.Json.Grammar

namespace FlowProfile

/-! ## Digits -/

namespace Text

theorem isDigit_of_mem_toDigits {n : Nat} {c : Char} (mem : c ∈ Nat.toDigits 10 n) :
    isDigit c = true :=
  Nat.isDigit_of_mem_toDigits (by decide) (Nat.le_refl 10) mem

/-- Digits denote the number that they were made from. -/
theorem decimal_toDigits (n : Nat) : decimal (Nat.toDigits 10 n) = n := by
  have same := Nat.ofDigitChars_ten_toDigits (n := n)
  rw [Nat.ofDigitChars_eq_foldl] at same
  simp only [decimal, Nat.mul_comm _ 10]
  exact same

/-- Only zero is written with a zero in front. -/
theorem toDigits_of_head_zero {n : Nat} {rest : List Char}
    (begins : Nat.toDigits 10 n = '0' :: rest) : rest = [] := by
  induction n using Nat.base_induction 10 (by decide) generalizing rest with
  | single n small =>
      rw [Nat.toDigits_of_lt_base small] at begins
      exact (List.cons.inj begins).2.symm
  | digit n k small pos ih =>
      rw [← Nat.toDigits_append_toDigits (by decide) pos small] at begins
      cases front : Nat.toDigits 10 n with
      | nil => exact absurd front Nat.toDigits_ne_nil
      | cons first others =>
          rw [front] at begins
          obtain ⟨rfl, -⟩ := List.cons.inj begins
          obtain rfl := ih front
          have zero := decimal_toDigits n
          rw [front] at zero
          exact absurd zero (Nat.ne_of_lt pos)

end Text

namespace Json

/-! ## Numbers -/

theorem digits_toDigits (n : Nat) : Digits (Nat.toDigits 10 n) :=
  ⟨Nat.toDigits_ne_nil, fun _ => Text.isDigit_of_mem_toDigits⟩

/-- The first digit of a number. -/
theorem toDigits_begins (n : Nat) :
    ∃ first others, Nat.toDigits 10 n = first :: others ∧ Text.isDigit first = true :=
  (digits_toDigits n).begins

theorem whole_toDigits (n : Nat) : Whole (Nat.toDigits 10 n) := by
  by_cases zero : (Nat.toDigits 10 n).head? = some '0'
  · obtain ⟨others, front⟩ := List.head?_eq_some_iff.mp zero
    obtain rfl := Text.toDigits_of_head_zero front
    rw [front]
    exact .zero
  · exact .digits (digits_toDigits n) zero

theorem spelledNumber_toDigits (n : Nat) : SpelledNumber (.nat n) (Nat.toDigits 10 n) := by
  have spelled := SpelledNumber.nat (whole_toDigits n)
  rwa [Text.decimal_toDigits] at spelled

/-! ## Texts -/

theorem hexDigit?_digitChar : ∀ digit < 16, hexDigit? (Nat.digitChar digit) = some digit := by
  decide

/-- How a character is written: by a letter that stands for it, by its number, or as it is. -/
theorem escaped_cases (c : Char) :
    (∃ letter, escaped c = ['\\', letter] ∧ letter ≠ 'u' ∧ 0x20 ≤ letter.toNat ∧
        shortEscape? letter = some c) ∨
      (escaped c = '\\' :: 'u' :: '0' :: '0' :: twoDigits c.toNat ∧ c.toNat < 0x20) ∨
      (escaped c = [c] ∧ c ≠ '"' ∧ c ≠ '\\' ∧ ¬ c.toNat < 0x20) := by
  by_cases short : c ∈ ['"', '\\', '\x08', '\t', '\n', '\x0c', '\r']
  · left
    fin_cases short <;> exact ⟨_, rfl, by decide, by decide, rfl⟩
  · right
    simp only [List.mem_cons, List.not_mem_nil, not_or, or_false] at short
    obtain ⟨mark, slash, others⟩ := short
    simp only [escaped, mark, slash, others, if_false]
    by_cases small : c.toNat < 0x20
    · exact .inl ⟨if_pos small, small⟩
    · exact .inr ⟨if_neg small, mark, slash, small⟩

/-- A character with a number below 32 can be named by the number. -/
theorem spelledPiece_numbered {c : Char} (small : c.toNat < 0x20) :
    SpelledPiece (.char c) ('\\' :: 'u' :: '0' :: '0' :: twoDigits c.toNat) := by
  have high := hexDigit?_digitChar (c.toNat / 16) (by omega)
  have low := hexDigit?_digitChar (c.toNat % 16) (by omega)
  have unit : hexUnit? '0' '0' (Nat.digitChar (c.toNat / 16)) (Nat.digitChar (c.toNat % 16)) =
      some c.toNat := by
    have value : c.toNat / 16 * 16 + c.toNat % 16 = c.toNat := by omega
    have zero : hexDigit? '0' = some 0 := rfl
    simpa [hexUnit?, zero, high, low] using value
  have piece : Piece.ofUnit c.toNat = .char c := by
    rw [Piece.ofUnit, if_neg (by omega), Char.ofNat_toNat]
  exact piece ▸ SpelledPiece.unit unit

theorem spelledPiece_escaped (c : Char) : SpelledPiece (.char c) (escaped c) := by
  rcases escaped_cases c with
    ⟨letter, same, -, -, named⟩ | ⟨same, small⟩ | ⟨same, mark, slash, large⟩
  · exact same ▸ .short named
  · exact same ▸ spelledPiece_numbered small
  · exact same ▸ .plain mark slash large

theorem spelledPieces_flatMap (text : List Char) :
    SpelledPieces (text.map .char) (text.flatMap escaped) := by
  induction text with
  | nil => exact .nil
  | cons c text ih => exact .cons (spelledPiece_escaped c) ih

theorem joinPieces_map_char (text : List Char) :
    joinPieces (text.map .char) = some text := by
  induction text with
  | nil => rfl
  | cons c text ih => rw [List.map_cons, joinPieces, ih]; rfl

/-- A text between quotation marks spells the text, and a missing one is missing. -/
theorem spelledText_quote? (text : Option String) : SpelledText text (quote? text) := by
  cases text with
  | none =>
      have half : hexUnit? 'd' '8' '0' '0' = some 0xD800 := rfl
      exact .quoted (.cons (.unit half) .nil)
  | some text =>
      have spelled := SpelledText.quoted (spelledPieces_flatMap text.toList)
      rwa [joinPieces_map_char, Option.map_some, String.ofList_toList] at spelled

/-! ## Values -/

mutual

/-- All numbers of a value are written with digits alone. -/
def Plain : Json → Prop
  | null | bool _ | nat _ | str _ => True
  | number _ => False
  | arr items => PlainItems items
  | obj fields => PlainFields fields

/-- All numbers of some values are written with digits alone. -/
def PlainItems : List Json → Prop
  | [] => True
  | item :: rest => Plain item ∧ PlainItems rest

/-- All numbers of the values of some fields are written with digits alone. -/
def PlainFields : List (Option String × Json) → Prop
  | [] => True
  | (_, value) :: rest => Plain value ∧ PlainFields rest

end

mutual

/-- The compact text of a plain value spells it. -/
theorem spelled_chars : ∀ json : Json, json.Plain → Spelled json json.chars
  | null, _ => .null
  | bool true, _ => .yes
  | bool false, _ => .no
  | nat value, _ => .number (spelledNumber_toDigits value)
  | str text, _ => .str (spelledText_quote? text)
  | arr [], _ => .emptyArr .nil
  | arr (item :: items), plain => by
      obtain ⟨body, same, spelled⟩ := spelledItems_chars item items plain.1 plain.2
      have text : (arr (item :: items)).chars = '[' :: body ++ [']'] := by
        rw [List.cons_append, ← same]
        rfl
      exact text ▸ .arr spelled
  | obj [], _ => .emptyObj .nil
  | obj ((key, value) :: fields), plain => by
      obtain ⟨body, same, spelled⟩ := spelledFields_chars key value fields plain.1 plain.2
      have text : (obj ((key, value) :: fields)).chars = '\x7b' :: body ++ ['\x7d'] := by
        rw [List.cons_append, ← same]
        simp [chars]
      exact text ▸ .obj spelled
termination_by json => sizeOf json

theorem spelledItems_chars : ∀ (item : Json) (items : List Json), item.Plain →
    PlainItems items → ∃ body, item.chars ++ itemsTail items = body ++ [']'] ∧
      SpelledItems (item :: items) body
  | item, [], plain, _ => by
      have spelled := SpelledItems.last .nil (spelled_chars item plain)
        .nil
      exact ⟨_, by simp [itemsTail], spelled⟩
  | item, next :: items, plain, plains => by
      obtain ⟨body, same, others⟩ := spelledItems_chars next items plains.1 plains.2
      have spelled := SpelledItems.more .nil (spelled_chars item plain)
        .nil others
      exact ⟨_, by simp [itemsTail, same], spelled⟩
termination_by item items => sizeOf item + sizeOf items

theorem spelledFields_chars : ∀ (key : Option String) (value : Json)
    (fields : List (Option String × Json)), value.Plain → PlainFields fields →
    ∃ body, quote? key ++ ':' :: (value.chars ++ fieldsTail fields) = body ++ ['\x7d'] ∧
      SpelledFields ((key, value) :: fields) body
  | key, value, [], plain, _ => by
      have field := SpelledField.mk .nil (spelledText_quote? key)
        .nil .nil (spelled_chars value plain)
        .nil
      exact ⟨_, by simp [fieldsTail], .last field⟩
  | key, value, (key', value') :: fields, plain, plains => by
      obtain ⟨body, same, others⟩ := spelledFields_chars key' value' fields plains.1 plains.2
      have field := SpelledField.mk .nil (spelledText_quote? key)
        .nil .nil (spelled_chars value plain)
        .nil
      exact ⟨_, by simp [fieldsTail, same], .more field others⟩
termination_by _ value fields => sizeOf value + sizeOf fields

end

/-- The compact text of a plain value spells it with no space around it. -/
theorem spelledBy_text {json : Json} (plain : json.Plain) : json.SpelledBy json.text :=
  ⟨[], json.chars, [], .nil, spelled_chars json plain, .nil, by simp [text]⟩

/-- A plain value is read back from its text. -/
theorem ofText?_text {json : Json} (plain : json.Plain) : ofText? json.text = some json :=
  ofText?_of_spelledBy (spelledBy_text plain)

/-- A plain value is read back from its text with a line end behind it. -/
theorem ofText?_line {json : Json} (plain : json.Plain) :
    ofText? (json.text ++ "\n") = some json :=
  ofText?_of_spelledBy
    ⟨[], json.chars, ['\n'], .nil, spelled_chars json plain, by decide, by simp [text]⟩

/-! ## One line -/

/-- A character that can stand on a line. -/
def Printable (c : Char) : Prop :=
  0x20 ≤ c.toNat

instance (c : Char) : Decidable (Printable c) :=
  inferInstanceAs (Decidable (0x20 ≤ c.toNat))

theorem printable_digitChar : ∀ digit < 16, Printable (Nat.digitChar digit) := by
  decide

theorem printable_escaped (c : Char) : ∀ d ∈ escaped c, Printable d := by
  rcases escaped_cases c with
    ⟨letter, same, -, printable, -⟩ | ⟨same, small⟩ | ⟨same, -, -, large⟩
  · rw [same]
    simp only [List.forall_mem_cons]
    exact ⟨by decide, printable, nofun⟩
  · have high := printable_digitChar (c.toNat / 16) (by omega)
    have low := printable_digitChar (c.toNat % 16) (by omega)
    rw [same]
    simp only [twoDigits, List.forall_mem_cons]
    exact ⟨by decide, by decide, by decide, by decide, high, low, nofun⟩
  · rw [same]
    exact List.forall_mem_singleton.mpr (Nat.le_of_not_lt large)

theorem printable_quote? (text : Option String) : ∀ c ∈ quote? text, Printable c := by
  cases text with
  | none => simp [quote?, Printable]
  | some text =>
      simp only [quote?, quote, List.mem_append, List.mem_cons, List.mem_flatMap]
      rintro c ((rfl | ⟨d, -, mem⟩) | rfl | none)
      · decide
      · exact printable_escaped d c mem
      · decide
      · cases none

mutual

/-- No control character stands in the text of a plain value. -/
theorem printable_chars : ∀ json : Json, json.Plain → ∀ c ∈ json.chars, Printable c
  | null, _ => by simp [chars, Printable]
  | bool true, _ => by simp [chars, Printable]
  | bool false, _ => by simp [chars, Printable]
  | nat value, _ => fun c mem => by
      have digit := Text.isDigit_of_mem_toDigits mem
      simp only [Text.isDigit, Bool.and_eq_true, decide_eq_true_eq] at digit
      exact Nat.le_trans (by decide) (show '0'.toNat ≤ c.toNat from digit.1)
  | str text, _ => printable_quote? text
  | arr [], _ => by simp [chars, Printable]
  | arr (item :: items), plain => by
      have first := printable_chars item plain.1
      have others := printable_itemsTail items plain.2
      simp only [chars, List.forall_mem_append, List.forall_mem_cons]
      exact ⟨⟨by decide, first⟩, others⟩
  | obj [], _ => by simp [chars, Printable]
  | obj ((key, value) :: fields), plain => by
      have first := printable_chars value plain.1
      have others := printable_fieldsTail fields plain.2
      simp only [chars, List.forall_mem_append, List.forall_mem_cons]
      exact ⟨⟨⟨by decide, printable_quote? key⟩, by decide, first⟩, others⟩
termination_by json => sizeOf json

theorem printable_itemsTail : ∀ items : List Json, PlainItems items →
    ∀ c ∈ itemsTail items, Printable c
  | [], _ => by simp [itemsTail, Printable]
  | item :: items, plain => by
      have first := printable_chars item plain.1
      have others := printable_itemsTail items plain.2
      simp only [itemsTail, List.forall_mem_append, List.forall_mem_cons]
      exact ⟨⟨by decide, first⟩, others⟩
termination_by items => sizeOf items

theorem printable_fieldsTail : ∀ fields : List (Option String × Json), PlainFields fields →
    ∀ c ∈ fieldsTail fields, Printable c
  | [], _ => by simp [fieldsTail, Printable]
  | (key, value) :: fields, plain => by
      have first := printable_chars value plain.1
      have others := printable_fieldsTail fields plain.2
      simp only [fieldsTail, List.forall_mem_append, List.forall_mem_cons]
      exact ⟨⟨⟨by decide, printable_quote? key⟩, by decide, first⟩, others⟩
termination_by fields => sizeOf fields

end

end Json

end FlowProfile
