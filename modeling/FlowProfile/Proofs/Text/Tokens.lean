/-
# Texts that can be told apart

A written value can be told from what follows it if every other value that is written
there, with whatever follows that one, gives another text.  For numbers what follows must
not go on with a digit; a quoted text ends with its mark; and in a list between brackets
it is the separator or the bracket that tells whether another item follows.  Each
statement is about two texts that agree up to their ends, and says that they begin with
the same value and go on in the same way.
-/

import FlowProfile.Proofs.Json.Reading
import FlowProfile.Text.Quoted
import FlowProfile.Text.Separated

namespace FlowProfile

namespace Text

/-- Two lists that begin with entries of one kind, and go on with none of it, agree in what
they begin with. -/
theorem span_inj {α : Type} {kind : α → Prop} {first second rest others : List α}
    (ofKind : ∀ entry ∈ first, kind entry) (ofKind' : ∀ entry ∈ second, kind entry)
    (stops : ∀ entry ∈ rest.head?, ¬ kind entry) (stops' : ∀ entry ∈ others.head?, ¬ kind entry)
    (same : first ++ rest = second ++ others) : first = second ∧ rest = others := by
  induction first generalizing second with
  | nil =>
      cases second with
      | nil => exact ⟨rfl, same⟩
      | cons entry second =>
          obtain rfl : rest = entry :: (second ++ others) := same
          exact (stops entry rfl (ofKind' entry List.mem_cons_self)).elim
  | cons entry first ih =>
      cases second with
      | nil =>
          obtain rfl : entry :: (first ++ rest) = others := same
          exact (stops' entry rfl (ofKind entry List.mem_cons_self)).elim
      | cons entry' second =>
          obtain ⟨rfl, agree⟩ := List.cons.inj same
          obtain ⟨rfl, after⟩ := ih (fun entry mem => ofKind entry (List.mem_cons_of_mem _ mem))
            (fun entry mem => ofKind' entry (List.mem_cons_of_mem _ mem)) agree
          exact ⟨rfl, after⟩

/-- A text that is over, or goes on with a character of another kind. -/
def Stops (kind : Char → Bool) (rest : List Char) : Prop :=
  ∀ c ∈ rest.head?, ¬ kind c

theorem stops_cons {kind : Char → Bool} {c : Char} (other : kind c = false) (rest : List Char) :
    Stops kind (c :: rest) := by
  rintro d ⟨⟩
  rw [other]
  exact Bool.false_ne_true

variable {rest others : List Char}

/-- Finitely many words of which none goes on where another ends are told apart. -/
theorem word_inj {α : Type} {write : α → List Char} {all : List α} (complete : ∀ a, a ∈ all)
    (free : ∀ a ∈ all, ∀ b ∈ all, write a <+: write b → a = b) {a b : α}
    (same : write a ++ rest = write b ++ others) : a = b ∧ rest = others := by
  have equal : a = b := by
    rcases List.prefix_or_prefix_of_prefix ⟨rest, rfl⟩ ⟨others, same.symm⟩ with longer | longer
    · exact free a (complete a) b (complete b) longer
    · exact (free b (complete b) a (complete a) longer).symm
  subst equal
  exact ⟨rfl, List.append_cancel_left same⟩

/-! ## Numbers -/

theorem toDigits_inj {m n : Nat} (stops : Stops isDigit rest) (stops' : Stops isDigit others)
    (same : Nat.toDigits 10 m ++ rest = Nat.toDigits 10 n ++ others) : m = n ∧ rest = others := by
  obtain ⟨digits, after⟩ := span_inj (fun _ => isDigit_of_mem_toDigits)
    (fun _ => isDigit_of_mem_toDigits) stops stops' same
  exact ⟨by rw [← decimal_toDigits m, digits, decimal_toDigits], after⟩

theorem toString_nat_inj {m n : Nat} (stops : Stops isDigit rest) (stops' : Stops isDigit others)
    (same : (toString m).toList ++ rest = (toString n).toList ++ others) :
    m = n ∧ rest = others :=
  toDigits_inj stops stops' (by simpa only [Nat.toString_eq_repr, Nat.toList_repr] using same)

/-- A number is written with its digits, behind a minus sign if it is negative. -/
theorem toString_int_cases (value : Int) :
    (∃ n : Nat, value = n ∧ (toString value).toList = Nat.toDigits 10 n) ∨
      ∃ n : Nat, value = Int.negSucc n ∧
        (toString value).toList = '-' :: Nat.toDigits 10 (n + 1) := by
  cases value with
  | ofNat n => exact .inl ⟨n, rfl, Nat.toList_repr⟩
  | negSucc n =>
      refine .inr ⟨n, rfl, ?_⟩
      rw [← Nat.toList_repr]
      exact String.toList_append

/-- Digits do not begin with a mark. -/
theorem toDigits_ne_mark {n : Nat} {mark : Char} (other : isDigit mark = false)
    (same : Nat.toDigits 10 n ++ rest = mark :: others) : False := by
  obtain ⟨first, tail, digits, digit⟩ := Json.toDigits_begins n
  rw [digits] at same
  obtain ⟨rfl, -⟩ := List.cons.inj same
  rw [digit] at other
  cases other

/-- The text of a number begins with a digit or with a minus sign. -/
theorem toString_int_ne_mark {value : Int} {mark : Char} (other : isDigit mark = false)
    (minus : mark ≠ '-') (same : (toString value).toList ++ rest = mark :: others) : False := by
  rcases toString_int_cases value with ⟨n, -, written⟩ | ⟨n, -, written⟩
  · rw [written] at same
    exact toDigits_ne_mark other same
  · rw [written] at same
    exact minus (List.cons.inj same).1.symm

theorem toString_int_inj {m n : Int} (stops : Stops isDigit rest) (stops' : Stops isDigit others)
    (same : (toString m).toList ++ rest = (toString n).toList ++ others) :
    m = n ∧ rest = others := by
  rcases toString_int_cases m with ⟨a, rfl, written⟩ | ⟨a, rfl, written⟩ <;>
    rcases toString_int_cases n with ⟨b, rfl, written'⟩ | ⟨b, rfl, written'⟩ <;>
    rw [written, written'] at same
  · obtain ⟨rfl, after⟩ := toDigits_inj stops stops' same
    exact ⟨rfl, after⟩
  · exact (toDigits_ne_mark rfl same).elim
  · exact (toDigits_ne_mark rfl same.symm).elim
  · obtain ⟨same', after⟩ := toDigits_inj stops stops' (List.cons.inj same).2
    obtain rfl := Nat.succ.inj same'
    exact ⟨rfl, after⟩

/-! ## Hexadecimal numbers -/

/-- Whether a character is a digit of a hexadecimal number. -/
def isHexDigit (c : Char) : Bool :=
  (Json.hexDigit? c).isSome

/-- The number that hexadecimal digits denote. -/
def hexValue (digits : List Char) : Nat :=
  digits.foldl (fun value c => 16 * value + (Json.hexDigit? c).getD 0) 0

theorem hexValue_concat (digits : List Char) (c : Char) :
    hexValue (digits ++ [c]) = 16 * hexValue digits + (Json.hexDigit? c).getD 0 := by
  rw [hexValue, List.foldl_append]
  rfl

/-- Hexadecimal digits denote the number that they were made from. -/
theorem hexValue_toDigits (n : Nat) :
    hexValue (Nat.toDigits 16 n) = n ∧ ∀ c ∈ Nat.toDigits 16 n, isHexDigit c := by
  induction n using Nat.base_induction 16 (by decide) with
  | single n small =>
      rw [Nat.toDigits_of_lt_base small]
      have digit := Json.hexDigit?_digitChar n small
      refine ⟨by simp [hexValue, digit], ?_⟩
      intro c mem
      rw [List.mem_singleton.mp mem, isHexDigit, digit]
      rfl
  | digit n k small pos ih =>
      have digit := Json.hexDigit?_digitChar k small
      rw [← Nat.toDigits_append_toDigits (by decide) pos small, Nat.toDigits_of_lt_base small,
        hexValue_concat, ih.1, digit]
      refine ⟨rfl, fun c mem => ?_⟩
      rcases List.mem_append.mp mem with front | last
      · exact ih.2 c front
      · rw [List.mem_singleton.mp last, isHexDigit, digit]
        rfl

theorem toDigits_hex_inj {m n : Nat} (stops : Stops isHexDigit rest)
    (stops' : Stops isHexDigit others)
    (same : Nat.toDigits 16 m ++ rest = Nat.toDigits 16 n ++ others) : m = n ∧ rest = others := by
  obtain ⟨digits, after⟩ :=
    span_inj (hexValue_toDigits m).2 (hexValue_toDigits n).2 stops stops' same
  exact ⟨by rw [← (hexValue_toDigits m).1, digits, (hexValue_toDigits n).1], after⟩

/-! ## Quoted texts -/

/-- The character that a short escape with this letter stands for. -/
def namedBy (letter : Char) : Char :=
  if letter = '0' then '\x00' else if letter = 't' then '\t' else if letter = 'n' then '\n'
  else if letter = 'r' then '\r' else letter

/-- How a character is written: by a letter that stands for it, by its number, or as it is. -/
theorem escaped_cases (c : Char) :
    (∃ letter, escaped c = ['\\', letter] ∧ letter ≠ 'u' ∧ namedBy letter = c) ∨
      escaped c = numbered c ∨ (escaped c = [c] ∧ c ≠ '"' ∧ c ≠ '\\') := by
  by_cases short : c ∈ ['\x00', '\t', '\n', '\r', '"', '\\']
  · left
    fin_cases short <;> exact ⟨_, rfl, by decide, rfl⟩
  · right
    simp only [List.mem_cons, List.not_mem_nil, not_or, or_false] at short
    obtain ⟨zero, tab, line, back, mark, slash⟩ := short
    simp only [escaped, zero, tab, line, back, mark, slash, if_false]
    split
    · exact .inl rfl
    · exact .inr ⟨rfl, mark, slash⟩

theorem numbered_inj {c d : Char} (same : numbered c ++ rest = numbered d ++ others) :
    c = d ∧ rest = others := by
  simp only [numbered, List.cons_append, List.append_assoc, List.cons.injEq, true_and,
    List.nil_append] at same
  obtain ⟨number, after⟩ :=
    toDigits_hex_inj (stops_cons rfl rest) (stops_cons rfl others) same
  exact ⟨Char.toNat_inj.mp number, (List.cons.inj after).2⟩

/-- Every character can be told from what stands for it, whatever follows. -/
theorem escaped_inj {c d : Char} (same : escaped c ++ rest = escaped d ++ others) :
    c = d ∧ rest = others := by
  rcases escaped_cases c with ⟨letter, short, other, rfl⟩ | number | ⟨plain, -, slash⟩ <;>
    rcases escaped_cases d with ⟨letter', short', other', rfl⟩ | number' | ⟨plain', -, slash'⟩
  · rw [short, short'] at same
    obtain ⟨rfl, after⟩ := List.cons.inj (List.cons.inj same).2
    exact ⟨rfl, after⟩
  · rw [short, number'] at same
    exact (other (List.cons.inj (List.cons.inj same).2).1).elim
  · rw [short, plain'] at same
    exact (slash' (List.cons.inj same).1.symm).elim
  · rw [number, short'] at same
    exact (other' (List.cons.inj (List.cons.inj same).2).1.symm).elim
  · rw [number, number'] at same
    exact numbered_inj same
  · rw [number, plain'] at same
    exact (slash' (List.cons.inj same).1.symm).elim
  · rw [plain, short'] at same
    exact (slash (List.cons.inj same).1).elim
  · rw [plain, number'] at same
    exact (slash (List.cons.inj same).1).elim
  · rw [plain, plain'] at same
    exact List.cons.inj same

/-- What stands for a character does not begin with a quotation mark. -/
theorem escaped_ne_mark {c : Char} (same : escaped c ++ rest = '"' :: others) : False := by
  rcases escaped_cases c with ⟨letter, short, -, -⟩ | number | ⟨plain, mark, -⟩
  · rw [short] at same
    cases same
  · rw [number] at same
    cases same
  · rw [plain] at same
    exact mark (List.cons.inj same).1

theorem flatMap_escaped_inj {first second : List Char}
    (same : first.flatMap escaped ++ '"' :: rest = second.flatMap escaped ++ '"' :: others) :
    first = second ∧ rest = others := by
  induction first generalizing second with
  | nil =>
      cases second with
      | nil => exact ⟨rfl, (List.cons.inj same).2⟩
      | cons d second =>
          rw [List.flatMap_cons, List.append_assoc] at same
          exact (escaped_ne_mark same.symm).elim
  | cons c first ih =>
      rw [List.flatMap_cons, List.append_assoc] at same
      cases second with
      | nil => exact (escaped_ne_mark same).elim
      | cons d second =>
          rw [List.flatMap_cons, List.append_assoc] at same
          obtain ⟨rfl, agree⟩ := escaped_inj same
          obtain ⟨rfl, after⟩ := ih agree
          exact ⟨rfl, after⟩

theorem toList_quoted (text : String) :
    (quoted text).toList = '"' :: (text.toList.flatMap escaped ++ ['"']) := by
  rw [quoted, String.toList_ofList]
  rfl

theorem quoted_inj {first second : String}
    (same : (quoted first).toList ++ rest = (quoted second).toList ++ others) :
    first = second ∧ rest = others := by
  simp only [toList_quoted, List.cons_append, List.append_assoc, List.nil_append] at same
  obtain ⟨chars, after⟩ := flatMap_escaped_inj (List.cons.inj same).2
  exact ⟨String.toList_injective chars, after⟩

/-! ## Lists -/

theorem toList_lines (texts : List String) :
    (lines texts).toList = texts.flatMap fun line => line.toList ++ ['\n'] := by
  induction texts with
  | nil => rfl
  | cons line texts ih => simp [lines, ih]

theorem toList_separated_cons {α : Type} (write : α → String) (first : α) (items : List α) :
    (separated ((first :: items).map write)).toList =
      (write first).toList ++ items.flatMap fun item => ',' :: ' ' :: (write item).toList := by
  induction items generalizing first with
  | nil => simp
  | cons second items ih =>
      rw [List.map_cons, List.map_cons, separated_cons_cons, ← List.map_cons, String.toList_append,
        String.toList_append, ih, List.flatMap_cons, List.append_assoc]
      rfl

variable {α β : Type} {write : α → String} {seen : α → β}

/-- Items behind the first are told apart, as each has the separator ahead of it. -/
theorem items_inj {first second : List α}
    (tells : ∀ a ∈ first, ∀ b ∈ second, ∀ rest others, Stops isDigit rest → Stops isDigit others →
      (write a).toList ++ rest = (write b).toList ++ others → seen a = seen b ∧ rest = others)
    (same : (first.flatMap fun item => ',' :: ' ' :: (write item).toList) ++ ')' :: rest =
      (second.flatMap fun item => ',' :: ' ' :: (write item).toList) ++ ')' :: others) :
    first.map seen = second.map seen ∧ rest = others := by
  induction first generalizing second with
  | nil =>
      cases second with
      | nil => exact ⟨rfl, (List.cons.inj same).2⟩
      | cons b second => cases same
  | cons a first ih =>
      cases second with
      | nil => cases same
      | cons b second =>
          simp only [List.flatMap_cons, List.cons_append, List.append_assoc, List.cons.injEq,
            true_and] at same
          have stops (items : List α) (rest : List Char) : Stops isDigit
              ((items.flatMap fun item => ',' :: ' ' :: (write item).toList) ++ ')' :: rest) := by
            cases items <;> exact stops_cons rfl _
          obtain ⟨agree, same⟩ := tells a List.mem_cons_self b List.mem_cons_self _ _
            (stops first rest) (stops second others) same
          obtain ⟨agree', after⟩ := ih (fun a mem b mem' => tells a (List.mem_cons_of_mem _ mem) b
            (List.mem_cons_of_mem _ mem')) same
          exact ⟨congrArg₂ List.cons agree agree', after⟩

/-- A list in brackets is told from others, if its items are told apart and none of them
begins with the bracket. -/
theorem separated_inj {first second : List α}
    (opens : ∀ item rest others, (write item).toList ++ rest ≠ ')' :: others)
    (tells : ∀ a ∈ first, ∀ b ∈ second, ∀ rest others, Stops isDigit rest → Stops isDigit others →
      (write a).toList ++ rest = (write b).toList ++ others → seen a = seen b ∧ rest = others)
    (same : (separated (first.map write)).toList ++ ')' :: rest =
      (separated (second.map write)).toList ++ ')' :: others) :
    first.map seen = second.map seen ∧ rest = others := by
  cases first with
  | nil =>
      cases second with
      | nil => simpa using same
      | cons b second =>
          rw [toList_separated_cons, List.append_assoc] at same
          exact (opens b _ rest (by simpa using same.symm)).elim
  | cons a first =>
      rw [toList_separated_cons, List.append_assoc] at same
      cases second with
      | nil => exact (opens a _ others (by simpa using same)).elim
      | cons b second =>
          rw [toList_separated_cons, List.append_assoc] at same
          exact items_inj tells (by simpa using same)

end Text

end FlowProfile
