/-
# Every spelling is read

A value has many spellings: space may stand around all its parts, and a character of a text
may stand for itself, or be named by a letter or by its number, in digits of either case.
The grammar says what spells a value without saying how it is read, and shares with the
reader only what single characters, digits and halves of a pair stand for.  The reader
takes every spelling for the value that it spells, whatever follows, as long as what
follows does not continue a number.

The fuel of the reader is twice the length of the spelling.  It is spent on the way down
from a value to its parts, and each part is shorter than what it is a part of.
-/

import FlowProfile.Json.Reader
import Mathlib.Data.List.Basic
import Mathlib.Tactic.FinCases

namespace FlowProfile.Json

/-! ## The grammar -/

/-- Space and nothing else. -/
def Blank (text : List Char) : Prop :=
  ∀ c ∈ text, isSpace c = true

instance (text : List Char) : Decidable (Blank text) :=
  List.decidableBAll (isSpace · = true) text

theorem Blank.nil : Blank [] :=
  List.forall_mem_nil _

/-- One character of a text, or half of one. -/
inductive SpelledPiece : Piece → List Char → Prop
  | plain {c : Char} (mark : c ≠ '"') (slash : c ≠ '\\') (large : ¬ c.toNat < 0x20) :
      SpelledPiece (.char c) [c]
  | short {c letter : Char} (named : shortEscape? letter = some c) :
      SpelledPiece (.char c) ['\\', letter]
  | unit {a b c d : Char} {unit : Nat} (value : hexUnit? a b c d = some unit) :
      SpelledPiece (.ofUnit unit) ['\\', 'u', a, b, c, d]

/-- What stands between quotation marks. -/
inductive SpelledPieces : List Piece → List Char → Prop
  | nil : SpelledPieces [] []
  | cons {piece : Piece} {pieces : List Piece} {here more : List Char}
      (first : SpelledPiece piece here) (others : SpelledPieces pieces more) :
      SpelledPieces (piece :: pieces) (here ++ more)

/-- A text with its quotation marks. -/
inductive SpelledText : Option String → List Char → Prop
  | quoted {pieces : List Piece} {body : List Char} (spelled : SpelledPieces pieces body) :
      SpelledText ((joinPieces pieces).map String.ofList) ('"' :: body ++ ['"'])

/-- One or more digits. -/
structure Digits (text : List Char) : Prop where
  nonempty : text ≠ []
  digit : ∀ c ∈ text, Text.isDigit c = true

/-- The whole part of a number: zero, or digits of which the first is not zero. -/
inductive Whole : List Char → Prop
  | zero : Whole ['0']
  | digits {text : List Char} (all : Digits text) (first : text.head? ≠ some '0') : Whole text

/-- The fraction of a number. -/
inductive Fraction : List Char → Prop
  | none : Fraction []
  | point {text : List Char} (all : Digits text) : Fraction ('.' :: text)

/-- The exponent of a number. -/
inductive Exponent : List Char → Prop
  | none : Exponent []
  | mark {c : Char} {sign text : List Char} (letter : c = 'e' ∨ c = 'E')
      (signed : sign ∈ [[], ['+'], ['-']]) (all : Digits text) : Exponent (c :: sign ++ text)

/-- A number. Digits alone spell a natural number, and any other number spells itself. -/
inductive SpelledNumber : Json → List Char → Prop
  | nat {whole : List Char} (digits : Whole whole) :
      SpelledNumber (.nat (Text.decimal whole)) whole
  | other {whole fraction exponent : List Char} (digits : Whole whole)
      (point : Fraction fraction) (mark : Exponent exponent)
      (more : fraction ≠ [] ∨ exponent ≠ []) :
      SpelledNumber (.number (String.ofList (whole ++ fraction ++ exponent)))
        (whole ++ fraction ++ exponent)
  | minus {whole fraction exponent : List Char} (digits : Whole whole)
      (point : Fraction fraction) (mark : Exponent exponent) :
      SpelledNumber (.number (String.ofList ('-' :: whole ++ fraction ++ exponent)))
        ('-' :: whole ++ fraction ++ exponent)

mutual

/-- A value without space around it. -/
inductive Spelled : Json → List Char → Prop
  | null : Spelled .null ['n', 'u', 'l', 'l']
  | yes : Spelled (.bool true) ['t', 'r', 'u', 'e']
  | no : Spelled (.bool false) ['f', 'a', 'l', 's', 'e']
  | number {json : Json} {text : List Char} (spelled : SpelledNumber json text) :
      Spelled json text
  | str {text : Option String} {body : List Char} (spelled : SpelledText text body) :
      Spelled (.str text) body
  | emptyArr {space : List Char} (blank : Blank space) : Spelled (.arr []) ('[' :: space ++ [']'])
  | arr {items : List Json} {body : List Char} (spelled : SpelledItems items body) :
      Spelled (.arr items) ('[' :: body ++ [']'])
  | emptyObj {space : List Char} (blank : Blank space) :
      Spelled (.obj []) ('\x7b' :: space ++ ['\x7d'])
  | obj {fields : List (Option String × Json)} {body : List Char}
      (spelled : SpelledFields fields body) : Spelled (.obj fields) ('\x7b' :: body ++ ['\x7d'])

/-- One or more items with commas between them. -/
inductive SpelledItems : List Json → List Char → Prop
  | last {item : Json} {before text after : List Char} (blank : Blank before)
      (spelled : Spelled item text) (blank' : Blank after) :
      SpelledItems [item] (before ++ text ++ after)
  | more {item : Json} {items : List Json} {before text after body : List Char}
      (blank : Blank before) (spelled : Spelled item text) (blank' : Blank after)
      (others : SpelledItems items body) :
      SpelledItems (item :: items) (before ++ text ++ after ++ ',' :: body)

/-- One or more fields with commas between them. -/
inductive SpelledFields : List (Option String × Json) → List Char → Prop
  | last {key : Option String} {value : Json} {body : List Char}
      (spelled : SpelledField key value body) : SpelledFields [(key, value)] body
  | more {key : Option String} {value : Json} {fields : List (Option String × Json)}
      {body others : List Char} (spelled : SpelledField key value body)
      (more : SpelledFields fields others) :
      SpelledFields ((key, value) :: fields) (body ++ ',' :: others)

/-- A name, a colon and a value. -/
inductive SpelledField : Option String → Json → List Char → Prop
  | mk {key : Option String} {value : Json} {before name space space' text after : List Char}
      (blank : Blank before) (named : SpelledText key name) (blank₁ : Blank space)
      (blank₂ : Blank space') (spelled : Spelled value text) (blank₃ : Blank after) :
      SpelledField key value (before ++ name ++ space ++ ':' :: space' ++ text ++ after)

end

/-- A whole text spells a value, with space around it. -/
def SpelledBy (json : Json) (text : String) : Prop :=
  ∃ before body after, Blank before ∧ Spelled json body ∧ Blank after ∧
    text.toList = before ++ body ++ after

/-! ## Space -/

variable {rest : List Char}

theorem skipSpace_blank {space : List Char} (blank : Blank space) (rest : List Char) :
    skipSpace (space ++ rest) = skipSpace rest :=
  List.dropWhile_append_of_pos blank

theorem skipSpace_of_not {c : Char} (dark : isSpace c = false) (rest : List Char) :
    skipSpace (c :: rest) = c :: rest := by
  simp [skipSpace, dark]

theorem skipSpace_mark {space : List Char} (blank : Blank space) {c : Char}
    (dark : isSpace c = false) (rest : List Char) : skipSpace (space ++ c :: rest) = c :: rest :=
  (skipSpace_blank blank _).trans (skipSpace_of_not dark rest)

/-! ## Numbers -/

/-- What stands behind a value: nothing, or space, or a mark that goes on with what the
value is a part of. None of them continues a number. -/
inductive Ends : List Char → Prop
  | nil : Ends []
  | mark {c : Char} (mem : c ∈ [',', ']', '\x7d', ' ', '\n', '\t', '\r']) (rest : List Char) :
      Ends (c :: rest)

theorem Ends.comma (rest : List Char) : Ends (',' :: rest) :=
  .mark (by decide) rest

theorem Ends.bracket (rest : List Char) : Ends (']' :: rest) :=
  .mark (by decide) rest

theorem Ends.brace (rest : List Char) : Ends ('\x7d' :: rest) :=
  .mark (by decide) rest

theorem Ends.blank {space : List Char} (blank : Blank space) (ends : Ends rest) :
    Ends (space ++ rest) := by
  cases space with
  | nil => exact ends
  | cons c space =>
      refine .mark ?_ _
      have known := blank c List.mem_cons_self
      simp only [isSpace, Bool.or_eq_true, decide_eq_true_eq] at known
      rcases known with ((rfl | rfl) | rfl) | rfl <;> decide

/-- No digit stands in front. -/
def Undigited (text : List Char) : Prop :=
  text.takeWhile Text.isDigit = []

theorem Undigited.dropWhile (undigited : Undigited rest) :
    rest.dropWhile Text.isDigit = rest := by
  have whole := List.takeWhile_append_dropWhile (p := Text.isDigit) (l := rest)
  rw [undigited] at whole
  exact whole

theorem Ends.undigited (ends : Ends rest) : Undigited rest := by
  cases ends with
  | nil => rfl
  | mark mem => fin_cases mem <;> rfl

theorem Exponent.undigited {text : List Char} (exponent : Exponent text) (ends : Ends rest) :
    Undigited (text ++ rest) := by
  cases exponent with
  | none => exact ends.undigited
  | mark letter => rcases letter with rfl | rfl <;> rfl

theorem Fraction.undigited {text exponent : List Char} (fraction : Fraction text)
    (marked : Exponent exponent) (ends : Ends rest) : Undigited (text ++ (exponent ++ rest)) := by
  cases fraction with
  | none => exact marked.undigited ends
  | point => rfl

theorem takeWhile_digits {text : List Char} (all : Digits text) (undigited : Undigited rest) :
    (text ++ rest).takeWhile Text.isDigit = text := by
  rw [List.takeWhile_append_of_pos all.digit, undigited, List.append_nil]

theorem dropWhile_digits {text : List Char} (all : Digits text) (undigited : Undigited rest) :
    (text ++ rest).dropWhile Text.isDigit = rest := by
  rw [List.dropWhile_append_of_pos all.digit, undigited.dropWhile]

theorem Digits.begins {text : List Char} (all : Digits text) :
    ∃ first others, text = first :: others ∧ Text.isDigit first = true := by
  cases text with
  | nil => exact absurd rfl all.nonempty
  | cons first others => exact ⟨first, others, rfl, all.digit first List.mem_cons_self⟩

theorem readDigits_digits {text : List Char} (all : Digits text) (undigited : Undigited rest) :
    readDigits (text ++ rest) = some (text, rest) := by
  rw [readDigits, takeWhile_digits all undigited, dropWhile_digits all undigited]
  obtain ⟨first, others, rfl, -⟩ := all.begins
  rfl

theorem readWhole_whole {text : List Char} (whole : Whole text) (undigited : Undigited rest) :
    readWhole (text ++ rest) = some (text, rest) := by
  cases whole with
  | zero => rfl
  | digits all first =>
      have taken := takeWhile_digits all undigited
      have left := dropWhile_digits all undigited
      obtain ⟨c, others, rfl, -⟩ := all.begins
      unfold readWhole
      split
      · next same =>
          obtain ⟨rfl, -⟩ := List.cons.inj same
          exact absurd rfl first
      · rw [taken, left]

theorem readFraction_fraction {text exponent : List Char} (fraction : Fraction text)
    (marked : Exponent exponent) (ends : Ends rest) :
    readFraction (text ++ (exponent ++ rest)) = some (text, exponent ++ rest) := by
  cases fraction with
  | none =>
      cases marked with
      | none =>
          cases ends with
          | nil => rfl
          | mark mem => fin_cases mem <;> rfl
      | mark letter => rcases letter with rfl | rfl <;> rfl
  | point all =>
      rw [List.cons_append, readFraction, readDigits_digits all (marked.undigited ends)]
      rfl

theorem readSign_sign {sign text : List Char} (signed : sign ∈ [[], ['+'], ['-']])
    (all : Digits text) (rest : List Char) :
    readSign (sign ++ (text ++ rest)) = (sign, text ++ rest) := by
  obtain ⟨c, others, rfl, digit⟩ := all.begins
  fin_cases signed
  · show readSign (c :: (others ++ rest)) = ([], c :: (others ++ rest))
    unfold readSign
    split
    · next same =>
        obtain ⟨rfl, -⟩ := List.cons.inj same
        cases digit
    · next same =>
        obtain ⟨rfl, -⟩ := List.cons.inj same
        cases digit
    · rfl
  · rfl
  · rfl

theorem readExponent_exponent {text : List Char} (exponent : Exponent text) (ends : Ends rest) :
    readExponent (text ++ rest) = some (text, rest) := by
  cases exponent with
  | none =>
      cases ends with
      | nil => rfl
      | mark mem => fin_cases mem <;> rfl
  | @mark c _ _ letter signed all =>
      have marked : (decide (c = 'e') || decide (c = 'E')) = true := by simpa using letter
      rw [List.append_assoc, List.cons_append, readExponent, if_pos marked,
        readSign_sign signed all]
      simp [readDigits_digits all ends.undigited]

theorem Whole.begins {text : List Char} (whole : Whole text) :
    ∃ first others, text = first :: others ∧ Text.isDigit first = true := by
  cases whole with
  | zero => exact ⟨_, _, rfl, rfl⟩
  | digits all => exact all.begins

/-- The parts of a number are read one after the other. -/
theorem readUnsigned_parts {whole fraction exponent : List Char} (digits : Whole whole)
    (point : Fraction fraction) (mark : Exponent exponent) (ends : Ends rest) :
    readUnsigned (whole ++ (fraction ++ (exponent ++ rest))) =
      if fraction.isEmpty && exponent.isEmpty then some (.nat (Text.decimal whole), rest)
      else some (.number (String.ofList (whole ++ fraction ++ exponent)), rest) := by
  simp only [readUnsigned, readWhole_whole digits (point.undigited mark ends),
    readFraction_fraction point mark ends, readExponent_exponent mark ends, Option.bind_eq_bind,
    Option.bind_some]
  split <;> rfl

theorem readNumber_digit {first : Char} (digit : Text.isDigit first = true) (others : List Char) :
    readNumber (first :: others) = readUnsigned (first :: others) := by
  unfold readNumber
  split
  · next same =>
      obtain ⟨rfl, -⟩ := List.cons.inj same
      cases digit
  · rfl

theorem readNumber_spelled {json : Json} {text : List Char} (spelled : SpelledNumber json text)
    (ends : Ends rest) : readNumber (text ++ rest) = some (json, rest) := by
  cases spelled with
  | nat digits =>
      have read := readUnsigned_parts digits .none .none ends
      obtain ⟨first, others, rfl, digit⟩ := digits.begins
      exact (readNumber_digit digit _).trans read
  | @other whole fraction exponent digits point mark more =>
      have read := readUnsigned_parts digits point mark ends
      have parts : (fraction.isEmpty && exponent.isEmpty) = false := by
        rcases more with some | some
        · rw [List.isEmpty_eq_false_iff.mpr some, Bool.false_and]
        · rw [List.isEmpty_eq_false_iff.mpr some, Bool.and_false]
      rw [parts, if_neg Bool.false_ne_true] at read
      rw [List.append_assoc, List.append_assoc, ← read]
      obtain ⟨first, others, rfl, digit⟩ := digits.begins
      exact readNumber_digit digit _
  | @minus whole fraction exponent digits point mark =>
      rw [List.append_assoc, List.append_assoc, List.cons_append, readNumber,
        readWhole_whole digits (point.undigited mark ends)]
      simp only [Option.bind_eq_bind, Option.bind_some, readFraction_fraction point mark ends,
        readExponent_exponent mark ends]
      rfl

/-! ## Texts -/

/-- A piece is read from what spells it. -/
theorem readPieces_piece {piece : Piece} {here : List Char} (spelled : SpelledPiece piece here)
    (rest : List Char) :
    readPieces (here ++ rest) =
      (readPieces rest).map fun (pieces, rest) => (piece :: pieces, rest) := by
  cases spelled with
  | @plain c mark slash large =>
      rw [List.singleton_append, readPieces.eq_def]
      split
      · next same => cases same
      · next same => exact absurd (List.cons.inj same).1 mark
      · next same => exact absurd (List.cons.inj same).1 slash
      · next same => exact absurd (List.cons.inj same).1 slash
      · next same =>
          obtain ⟨rfl, rfl⟩ := List.cons.inj same
          rw [if_neg (by simp [slash, Nat.le_of_not_lt large])]
          cases readPieces rest <;> rfl
  | @short c letter named =>
      show readPieces ('\\' :: letter :: rest) = _
      rw [readPieces.eq_def]
      split
      · next same => cases same
      · next same => cases same
      · next same =>
          obtain ⟨rfl, -⟩ := List.cons.inj (List.cons.inj same).2
          cases named
      · next same =>
          obtain ⟨rfl, rfl⟩ := List.cons.inj (List.cons.inj same).2
          rw [named]
          cases readPieces rest <;> rfl
      · next plain same =>
          obtain ⟨rfl, rfl⟩ := List.cons.inj same
          exact (plain letter rest rfl rfl).elim
  | unit value =>
      show readPieces ('\\' :: 'u' :: _ :: _ :: _ :: _ :: rest) = _
      rw [readPieces, value]
      cases readPieces rest <;> rfl

theorem readPieces_spelled {pieces : List Piece} {body : List Char}
    (spelled : SpelledPieces pieces body) (rest : List Char) :
    readPieces (body ++ '"' :: rest) = some (pieces, rest) := by
  induction spelled with
  | nil => rfl
  | cons first others ih =>
      rw [List.append_assoc, readPieces_piece first, ih]
      rfl

/-- A text is read from what stands behind its first quotation mark. -/
theorem readText_spelled {text : Option String} {body : List Char}
    (spelled : SpelledText text body) (rest : List Char) :
    ∃ more, body = '"' :: more ∧ readText (more ++ rest) = some (text, rest) := by
  cases spelled with
  | @quoted pieces body spelled =>
      refine ⟨body ++ ['"'], rfl, ?_⟩
      rw [List.append_assoc, List.singleton_append, readText, readPieces_spelled spelled]
      rfl

/-! ## Values -/

theorem isSpace_of_isDigit {c : Char} (digit : Text.isDigit c = true) : isSpace c = false := by
  cases space : isSpace c with
  | false => rfl
  | true =>
      simp only [isSpace, Bool.or_eq_true, decide_eq_true_eq] at space
      rcases space with ((rfl | rfl) | rfl) | rfl <;> cases digit

/-- A number begins with a digit or with the sign. -/
theorem SpelledNumber.begins {json : Json} {text : List Char} (spelled : SpelledNumber json text) :
    ∃ first others, text = first :: others ∧ (Text.isDigit first = true ∨ first = '-') := by
  cases spelled with
  | nat digits =>
      obtain ⟨first, others, rfl, digit⟩ := digits.begins
      exact ⟨first, others, rfl, .inl digit⟩
  | other digits =>
      obtain ⟨first, others, rfl, digit⟩ := digits.begins
      exact ⟨first, _, rfl, .inl digit⟩
  | minus => exact ⟨'-', _, rfl, .inr rfl⟩

/-- A value begins neither with space nor with the end of an array. -/
theorem Spelled.begins {json : Json} {text : List Char} (spelled : Spelled json text) :
    ∃ first others, text = first :: others ∧ isSpace first = false ∧ first ≠ ']' := by
  cases spelled with
  | null => exact ⟨_, _, rfl, rfl, by decide⟩
  | yes => exact ⟨_, _, rfl, rfl, by decide⟩
  | no => exact ⟨_, _, rfl, rfl, by decide⟩
  | number spelled =>
      obtain ⟨first, others, rfl, digit | rfl⟩ := spelled.begins
      · refine ⟨first, others, rfl, isSpace_of_isDigit digit, ?_⟩
        rintro rfl
        cases digit
      · exact ⟨_, _, rfl, rfl, by decide⟩
  | str spelled =>
      obtain ⟨more, rfl, -⟩ := readText_spelled spelled []
      exact ⟨_, _, rfl, rfl, by decide⟩
  | emptyArr => exact ⟨_, _, rfl, rfl, by decide⟩
  | arr => exact ⟨_, _, rfl, rfl, by decide⟩
  | emptyObj => exact ⟨_, _, rfl, rfl, by decide⟩
  | obj => exact ⟨_, _, rfl, rfl, by decide⟩

/-- Only numbers begin with a digit or with the sign. -/
theorem readValue_number {first : Char} (mark : Text.isDigit first = true ∨ first = '-')
    (fuel : Nat) (others : List Char) :
    readValue (fuel + 1) (first :: others) = readNumber (first :: others) := by
  have dark : isSpace first = false := by
    rcases mark with digit | rfl
    · exact isSpace_of_isDigit digit
    · rfl
  rw [readValue, skipSpace_of_not dark]
  split
  all_goals first
    | rfl
    | next begins =>
        obtain ⟨rfl, -⟩ := List.cons.inj begins
        rcases mark with digit | same
        · cases digit
        · cases same

section

variable {space : List Char} (blank : Blank space) (fuel : Nat) (text : List Char)
include blank

/-- Space ahead of a value is skipped. -/
theorem readValue_blank : readValue fuel (space ++ text) = readValue fuel text := by
  cases fuel with
  | zero => rw [readValue, readValue]
  | succ fuel => rw [readValue, readValue, skipSpace_blank blank]

/-- Space ahead of the items of an array is skipped. -/
theorem readItems_blank : readItems fuel (space ++ text) = readItems fuel text := by
  cases fuel with
  | zero => rw [readItems, readItems]
  | succ fuel => rw [readItems, readItems, readValue_blank blank]

/-- Space ahead of the fields of an object is skipped. -/
theorem readFields_blank : readFields fuel (space ++ text) = readFields fuel text := by
  cases fuel with
  | zero => rw [readFields, readFields]
  | succ fuel => rw [readFields, readFields, skipSpace_blank blank]

end

theorem readValue_emptyArray {space : List Char} (blank : Blank space) (fuel : Nat)
    (rest : List Char) : readValue (fuel + 1) ('[' :: (space ++ ']' :: rest)) =
      some (.arr [], rest) := by
  rw [readValue, skipSpace_of_not rfl]
  simp only [skipSpace_mark blank (show isSpace ']' = false from rfl)]

theorem readValue_emptyObject {space : List Char} (blank : Blank space) (fuel : Nat)
    (rest : List Char) : readValue (fuel + 1) ('\x7b' :: (space ++ '\x7d' :: rest)) =
      some (.obj [], rest) := by
  rw [readValue, skipSpace_of_not rfl]
  simp only [skipSpace_mark blank (show isSpace '\x7d' = false from rfl)]

/-- What does not begin with the end of an array are its items. -/
theorem readValue_array {space : List Char} (blank : Blank space) {first : Char}
    (dark : isSpace first = false) (apart : first ≠ ']') (fuel : Nat) (others : List Char) :
    readValue (fuel + 1) ('[' :: (space ++ first :: others)) =
      (readItems fuel (space ++ first :: others)).map fun (items, rest) =>
        (.arr items, rest) := by
  rw [readValue, skipSpace_of_not rfl, readItems_blank blank]
  simp only [skipSpace_mark blank dark]
  split
  · next same => exact absurd (List.cons.inj same).1 apart
  · rfl

/-- What begins with a name are the fields of an object. -/
theorem readValue_object {space : List Char} (blank : Blank space) (fuel : Nat)
    (others : List Char) :
    readValue (fuel + 1) ('\x7b' :: (space ++ '"' :: others)) =
      (readFields fuel (space ++ '"' :: others)).map fun (fields, rest) =>
        (.obj fields, rest) := by
  rw [readValue, skipSpace_of_not rfl, readFields_blank blank]
  simp only [skipSpace_mark blank (show isSpace '"' = false from rfl)]
  rfl

section

variable {fuel : Nat} {text more after : List Char} {item value : Json} {items : List Json}
  {key : Option String} {fields : List (Option String × Json)}

theorem readItems_last (found : readValue fuel text = some (item, after ++ ']' :: rest))
    (blank : Blank after) : readItems (fuel + 1) text = some ([item], rest) := by
  simp [readItems, found, skipSpace_mark blank (show isSpace ']' = false from rfl)]

theorem readItems_more (found : readValue fuel text = some (item, after ++ ',' :: more))
    (blank : Blank after) (others : readItems fuel more = some (items, rest)) :
    readItems (fuel + 1) text = some (item :: items, rest) := by
  simp [readItems, found, others, skipSpace_mark blank (show isSpace ',' = false from rfl)]

theorem readFields_last {space : List Char}
    (named : readText text = some (key, space ++ ':' :: more)) (blank : Blank space)
    (found : readValue fuel more = some (value, after ++ '\x7d' :: rest)) (blank' : Blank after) :
    readFields (fuel + 1) ('"' :: text) = some ([(key, value)], rest) := by
  simp [readFields, named, found, skipSpace_of_not (show isSpace '"' = false from rfl),
    skipSpace_mark blank (show isSpace ':' = false from rfl),
    skipSpace_mark blank' (show isSpace '\x7d' = false from rfl)]

theorem readFields_more {space next : List Char}
    (named : readText text = some (key, space ++ ':' :: more)) (blank : Blank space)
    (found : readValue fuel more = some (value, after ++ ',' :: next)) (blank' : Blank after)
    (others : readFields fuel next = some (fields, rest)) :
    readFields (fuel + 1) ('"' :: text) = some ((key, value) :: fields, rest) := by
  simp [readFields, named, found, others, skipSpace_of_not (show isSpace '"' = false from rfl),
    skipSpace_mark blank (show isSpace ':' = false from rfl),
    skipSpace_mark blank' (show isSpace ',' = false from rfl)]

end

/-- The items of an array begin with the first of them. -/
theorem SpelledItems.begins {items : List Json} {body : List Char}
    (spelled : SpelledItems items body) :
    ∃ space first others, body = space ++ first :: others ∧ Blank space ∧
      isSpace first = false ∧ first ≠ ']' := by
  cases spelled with
  | @last _ before _ after blank item =>
      obtain ⟨first, others, rfl, dark, apart⟩ := item.begins
      exact ⟨before, first, others ++ after, List.append_assoc .., blank, dark, apart⟩
  | @more _ _ before _ after body blank item =>
      obtain ⟨first, others, rfl, dark, apart⟩ := item.begins
      exact ⟨before, first, others ++ (after ++ ',' :: body), by simp, blank, dark, apart⟩

/-- A field begins with its name. -/
theorem SpelledField.begins {key : Option String} {value : Json} {body : List Char}
    (spelled : SpelledField key value body) :
    ∃ space others, body = space ++ '"' :: others ∧ Blank space := by
  cases spelled with
  | @mk _ _ before _ space space' text after blank named =>
      obtain ⟨more, rfl, -⟩ := readText_spelled named []
      exact ⟨before, more ++ (space ++ ':' :: (space' ++ (text ++ after))), by simp, blank⟩

/-- The fields of an object begin with the name of the first of them. -/
theorem SpelledFields.begins {fields : List (Option String × Json)} {body : List Char}
    (spelled : SpelledFields fields body) :
    ∃ space others, body = space ++ '"' :: others ∧ Blank space := by
  cases spelled with
  | last field => exact field.begins
  | @more _ _ _ _ next field =>
      obtain ⟨space, others, rfl, blank⟩ := field.begins
      exact ⟨space, others ++ ',' :: next, List.append_assoc .., blank⟩

mutual

/-- A value is read from what spells it, if there is fuel for the length. -/
theorem readValue_spelled : ∀ {json : Json} {text : List Char}, Spelled json text →
    ∀ (fuel : Nat) (rest : List Char), Ends rest → 2 * text.length ≤ fuel →
      readValue fuel (text ++ rest) = some (json, rest)
  | _, _, spelled, 0, rest, ends, enough => by
      obtain ⟨first, others, rfl, -⟩ := spelled.begins
      rw [List.length_cons] at enough
      omega
  | _, _, .null, fuel + 1, rest, _, _ => rfl
  | _, _, .yes, fuel + 1, rest, _, _ => rfl
  | _, _, .no, fuel + 1, rest, _, _ => rfl
  | _, _, .number spelled, fuel + 1, rest, ends, _ => by
      have found := readNumber_spelled spelled ends
      obtain ⟨first, others, rfl, mark⟩ := spelled.begins
      exact (readValue_number mark fuel _).trans found
  | _, _, .str spelled, fuel + 1, rest, _, _ => by
      obtain ⟨more, rfl, found⟩ := readText_spelled spelled rest
      rw [List.cons_append, readValue, skipSpace_of_not rfl]
      simp [found]
  | _, _, .emptyArr blank, fuel + 1, rest, _, _ => by
      rw [List.append_assoc]
      exact readValue_emptyArray blank fuel rest
  | _, _, .arr spelled, fuel + 1, rest, _, enough => by
      rw [List.length_append, List.length_cons] at enough
      have found := readItems_spelled spelled fuel rest (by omega)
      obtain ⟨space, first, others, rfl, blank, dark, apart⟩ := spelled.begins
      have read := readValue_array blank dark apart fuel (others ++ ']' :: rest)
      simp only [List.append_assoc, List.cons_append, List.nil_append] at found ⊢
      rw [read, found]
      rfl
  | _, _, .emptyObj blank, fuel + 1, rest, _, _ => by
      rw [List.append_assoc]
      exact readValue_emptyObject blank fuel rest
  | _, _, .obj spelled, fuel + 1, rest, _, enough => by
      rw [List.length_append, List.length_cons] at enough
      have found := readFields_spelled spelled fuel rest (by omega)
      obtain ⟨space, others, rfl, blank⟩ := spelled.begins
      have read := readValue_object blank fuel (others ++ '\x7d' :: rest)
      simp only [List.append_assoc, List.cons_append, List.nil_append] at found ⊢
      rw [read, found]
      rfl

/-- The items of an array are read up to its end. -/
theorem readItems_spelled : ∀ {items : List Json} {body : List Char}, SpelledItems items body →
    ∀ (fuel : Nat) (rest : List Char), 2 * body.length < fuel →
      readItems fuel (body ++ ']' :: rest) = some (items, rest)
  | _, _, .last blank item blank', fuel + 1, rest, enough => by
      simp only [List.length_append] at enough
      have found := readValue_spelled item fuel _ (.blank blank' (.bracket rest)) (by omega)
      rw [List.append_assoc, List.append_assoc, readItems_blank blank]
      exact readItems_last found blank'
  | _, _, @SpelledItems.more _ _ _ _ _ next blank item blank' items, fuel + 1, rest, enough => by
      simp only [List.length_append, List.length_cons] at enough
      have others := readItems_spelled items fuel rest (by omega)
      have found := readValue_spelled item fuel _ (.blank blank' (.comma (next ++ ']' :: rest)))
        (by omega)
      rw [List.append_assoc, List.append_assoc, List.append_assoc, List.cons_append,
        readItems_blank blank]
      exact readItems_more found blank' others

/-- The name of a field is read, and behind the colon its value. -/
theorem readField_spelled : ∀ {key : Option String} {value : Json} {body : List Char},
    SpelledField key value body → ∀ (fuel : Nat) (rest : List Char), Ends rest →
      2 * body.length ≤ fuel → ∃ text space more after,
        readFields (fuel + 1) (body ++ rest) = readFields (fuel + 1) ('"' :: text) ∧
        readText text = some (key, space ++ ':' :: more) ∧ Blank space ∧
        readValue fuel more = some (value, after ++ rest) ∧ Blank after
  | _, _, _, @SpelledField.mk _ _ _ _ space space' text after blank named blank₁ blank₂ spelled
      blank₃, fuel, rest, ends, enough => by
      simp only [List.length_append, List.length_cons] at enough
      have found := readValue_spelled spelled fuel _ (Ends.blank blank₃ ends) (by omega)
      obtain ⟨more, rfl, read⟩ := readText_spelled named
        (space ++ ':' :: (space' ++ (text ++ (after ++ rest))))
      refine ⟨_, space, _, after, ?_, read, blank₁, ?_, blank₃⟩
      · simp only [List.append_assoc, List.cons_append]
        exact readFields_blank blank _ _
      · rw [readValue_blank blank₂, found]

/-- The fields of an object are read up to its end. -/
theorem readFields_spelled : ∀ {fields : List (Option String × Json)} {body : List Char},
    SpelledFields fields body → ∀ (fuel : Nat) (rest : List Char), 2 * body.length < fuel →
      readFields fuel (body ++ '\x7d' :: rest) = some (fields, rest)
  | _, _, .last field, fuel + 1, rest, enough => by
      obtain ⟨text, space, more, after, same, named, blank, found, blank'⟩ :=
        readField_spelled field fuel ('\x7d' :: rest) (.brace rest) (by omega)
      rw [same]
      exact readFields_last named blank found blank'
  | _, _, @SpelledFields.more _ _ _ _ next field fields, fuel + 1, rest, enough => by
      rw [List.length_append, List.length_cons] at enough
      have others := readFields_spelled fields fuel rest (by omega)
      obtain ⟨text, space, more, after, same, named, blank, found, blank'⟩ :=
        readField_spelled field fuel (',' :: (next ++ '\x7d' :: rest)) (.comma _) (by omega)
      rw [List.append_assoc, List.cons_append, same]
      exact readFields_more named blank found blank' others

end

/-- A text is read as the value that it spells. -/
theorem ofText?_of_spelledBy {json : Json} {text : String} (spelled : json.SpelledBy text) :
    ofText? text = some json := by
  obtain ⟨before, body, after, blank, spelled, blank', parts⟩ := spelled
  have ends : Ends after := by simpa using Ends.nil.blank blank'
  have behind : skipSpace after = [] := by simpa [skipSpace] using skipSpace_blank blank' []
  have enough : 2 * body.length ≤ 2 * text.toList.length + 2 := by
    rw [parts, List.length_append, List.length_append]
    omega
  have found := readValue_spelled spelled _ after ends enough
  rw [← readValue_blank blank, ← List.append_assoc, ← parts] at found
  simp [ofText?, found, behind]

end FlowProfile.Json
