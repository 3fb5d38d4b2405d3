/-
# What the text of a function tells

The text of a function tells everything about it but three things: how many values were
given out beyond those that are used, whether a block without a name was given the name
under which it is printed, and which word other than zero a literal bit holds.  `Func.shown`
is the function without the three, and two functions are printed alike exactly when they
are shown alike.

The text is read from the left.  At every place the characters that come next decide which
form is written there, and the form decides how far its parts reach, so that there is no
need of a parser to see that nothing can be read in two ways.
-/

import FlowProfile.Func.Printer
import FlowProfile.Proofs.Text.Tokens

namespace FlowProfile

/-! ## What is shown -/

/-- A literal as it is shown: a bit is set or not. -/
def Constant.shown (constant : Constant) : Constant :=
  match constant.scalar with
  | .bit => .bit (constant.value ≠ 0)
  | .word => constant

/-- An operand as it is shown. -/
def Operand.shown : Operand → Operand
  | value id => value id
  | const constant => const constant.shown

/-- An instruction as it is shown. -/
def Instr.shown : Instr → Instr
  | const result value => const result value.shown
  | binop result op lhs rhs => binop result op lhs.shown rhs.shown
  | widen result value => widen result value.shown
  | call result callee args => call result callee (args.map Operand.shown)
  | count result counter amount order => count result counter amount.shown order

/-- An edge as it is shown. -/
def Edge.shown (edge : Edge) : Edge :=
  { edge with args := edge.args.map Operand.shown }

/-- A terminator as it is shown. -/
def Terminator.shown : Terminator → Terminator
  | ret value => ret (value.map Operand.shown)
  | jump edge => jump edge.shown
  | branch condition whenTrue whenFalse weights =>
      branch condition.shown whenTrue.shown whenFalse.shown weights
  | unreachable => unreachable

/-- A block as it is shown: under the name `bb` if it has none. -/
def Block.shown (block : Block) : Block :=
  ⟨some (block.name.getD "bb"), block.params, block.instrs.map Instr.shown,
    block.terminator.shown⟩

/-- A function as it is shown: without the number of values given out. -/
def Func.shown (f : Func) : Func :=
  { f with blocks := f.blocks.map Block.shown, nextValue := 0 }

/-! ## Shown alike, printed alike -/

@[simp] theorem Constant.text_shown (constant : Constant) :
    constant.shown.text = constant.text := by
  obtain ⟨scalar, value⟩ := constant
  cases scalar with
  | word => rfl
  | bit => by_cases zero : value = 0 <;> simp [shown, text, Constant.bit, zero]

@[simp] theorem Operand.text_shown (operand : Operand) : operand.shown.text = operand.text := by
  cases operand with
  | value id => rfl
  | const constant => exact constant.text_shown

@[simp] theorem Operand.texts_shown (operands : List Operand) :
    Operand.texts (operands.map Operand.shown) = Operand.texts operands := by
  simp only [texts, List.map_map, Function.comp_def, text_shown]

@[simp] theorem Instr.text_shown (label : Counter → String) (instr : Instr) :
    instr.shown.text label = instr.text label := by
  cases instr <;> simp [shown, text]

@[simp] theorem Edge.text_shown (edge : Edge) : edge.shown.text = edge.text := by
  simp [shown, text]

@[simp] theorem Terminator.text_shown (terminator : Terminator) :
    terminator.shown.text = terminator.text := by
  cases terminator with
  | ret value => cases value <;> simp [shown, text]
  | jump edge => simp [shown, text]
  | branch condition whenTrue whenFalse weights => cases weights <;> simp [shown, text]
  | unreachable => rfl

@[simp] theorem Block.lines_shown (label : Counter → String) (id : BlockId) (block : Block) :
    block.shown.lines label id = block.lines label id := by
  simp [shown, lines]

theorem Func.text_shown (label : Counter → String) (f : Func) :
    f.shown.text label = f.text label := by
  simp [shown, text, lines, headLine, List.zipIdx_map, List.flatMap_map]

/-! ## Operands -/

open Text (Stops stops_cons isDigit)

variable {rest others : List Char}

theorem ValueId.toList_text (value : ValueId) :
    (ValueId.text value).toList = '%' :: (toString value).toList :=
  String.toList_append

theorem ValueId.text_inj {a b : ValueId} (stops : Stops isDigit rest)
    (stops' : Stops isDigit others)
    (same : (ValueId.text a).toList ++ rest = (ValueId.text b).toList ++ others) :
    a = b ∧ rest = others := by
  rw [ValueId.toList_text, ValueId.toList_text] at same
  exact Text.toString_nat_inj stops stops' (List.cons.inj same).2

/-- A literal is written as one of two words, or with a digit or a minus sign ahead. -/
theorem Constant.text_cases (constant : Constant) :
    (constant.shown = .bit false ∧ constant.text.toList = ['f', 'a', 'l', 's', 'e']) ∨
      (constant.shown = .bit true ∧ constant.text.toList = ['t', 'r', 'u', 'e']) ∨
      ∃ value : Int64, constant = .word value ∧
        constant.text.toList = (toString value.toInt).toList ++ [':', 'i', '6', '4'] := by
  obtain ⟨scalar, value⟩ := constant
  cases scalar with
  | word => exact .inr (.inr ⟨value, rfl, String.toList_append⟩)
  | bit =>
      by_cases zero : value = 0
      · exact .inl (by simp [shown, text, zero])
      · exact .inr (.inl (by simp [shown, text, zero]))

/-- No literal begins like a value or ends a list. -/
theorem Constant.text_ne_mark {constant : Constant} {mark : Char} (mem : mark ∈ ['%', ')'])
    (same : constant.text.toList ++ rest = mark :: others) : False := by
  rcases constant.text_cases with ⟨-, written⟩ | ⟨-, written⟩ | ⟨value, -, written⟩ <;>
    rw [written] at same
  · fin_cases mem <;> cases same
  · fin_cases mem <;> cases same
  · rw [List.append_assoc] at same
    fin_cases mem <;> exact Text.toString_int_ne_mark rfl (by decide) same

theorem Constant.text_inj {a b : Constant}
    (same : a.text.toList ++ rest = b.text.toList ++ others) :
    a.shown = b.shown ∧ rest = others := by
  rcases a.text_cases with ⟨bit, written⟩ | ⟨bit, written⟩ | ⟨value, rfl, written⟩ <;>
    rcases b.text_cases with ⟨bit', written'⟩ | ⟨bit', written'⟩ | ⟨value', rfl, written'⟩ <;>
    rw [written, written'] at same
  · exact ⟨bit.trans bit'.symm, List.append_cancel_left same⟩
  · cases same
  · rw [List.append_assoc] at same
    exact (Text.toString_int_ne_mark rfl (by decide) same.symm).elim
  · cases same
  · exact ⟨bit.trans bit'.symm, List.append_cancel_left same⟩
  · rw [List.append_assoc] at same
    exact (Text.toString_int_ne_mark rfl (by decide) same.symm).elim
  · rw [List.append_assoc] at same
    exact (Text.toString_int_ne_mark rfl (by decide) same).elim
  · rw [List.append_assoc] at same
    exact (Text.toString_int_ne_mark rfl (by decide) same).elim
  · rw [List.append_assoc, List.append_assoc] at same
    obtain ⟨equal, after⟩ :=
      Text.toString_int_inj (stops_cons rfl _) (stops_cons rfl _) same
    rw [Int64.toInt_inj.mp equal]
    exact ⟨rfl, by simpa using after⟩

theorem Operand.text_inj {a b : Operand} (stops : Stops isDigit rest)
    (stops' : Stops isDigit others)
    (same : a.text.toList ++ rest = b.text.toList ++ others) :
    a.shown = b.shown ∧ rest = others := by
  cases a with
  | value a =>
      cases b with
      | value b =>
          obtain ⟨rfl, after⟩ := ValueId.text_inj stops stops' same
          exact ⟨rfl, after⟩
      | const b =>
          rw [text, ValueId.toList_text] at same
          exact (Constant.text_ne_mark (by decide) same.symm).elim
  | const a =>
      cases b with
      | value b =>
          rw [text, text, ValueId.toList_text] at same
          exact (Constant.text_ne_mark (by decide) same).elim
      | const b =>
          obtain ⟨equal, after⟩ := Constant.text_inj same
          exact ⟨congrArg const equal, after⟩

theorem Operand.text_ne_close (operand : Operand) (rest others : List Char) :
    operand.text.toList ++ rest ≠ ')' :: others := by
  intro same
  cases operand with
  | value id =>
      rw [text, ValueId.toList_text] at same
      cases same
  | const constant => exact Constant.text_ne_mark (by decide) same

theorem Operand.texts_inj {first second : List Operand}
    (same : (Operand.texts first).toList ++ ')' :: rest =
      (Operand.texts second).toList ++ ')' :: others) :
    first.map Operand.shown = second.map Operand.shown ∧ rest = others :=
  Text.separated_inj text_ne_close (fun _ _ _ _ _ _ stops stops' => text_inj stops stops') same

theorem ValueId.texts_inj {first second : List ValueId}
    (same : (ValueId.texts first).toList ++ ')' :: rest =
      (ValueId.texts second).toList ++ ')' :: others) :
    first = second ∧ rest = others := by
  have opens (value : ValueId) (rest others : List Char) :
      (ValueId.text value).toList ++ rest ≠ ')' :: others := by
    rw [ValueId.toList_text]
    nofun
  have told := Text.separated_inj opens
    (fun _ _ _ _ _ _ stops stops' => ValueId.text_inj stops stops') same
  simpa using told

/-! ## Instructions -/

/-- What an instruction does, as it is written ahead of its operands. -/
inductive Opcode
  | const
  | binop (op : BinOp)
  | widen
  | call
  | count
  deriving DecidableEq

namespace Opcode

/-- The written form of what an instruction does. -/
def text : Opcode → String
  | const => "const "
  | binop op => op.text ++ " "
  | widen => "zext "
  | call => "call "
  | count => "atomicrmw add ["

/-- All that instructions do. -/
def all : List Opcode :=
  [const, widen, call, count] ++
    [BinOp.add, .sub, .mul, .srem, .and, .or, .xor, .eq, .ne, .slt, .sle, .sgt, .sge].map binop

theorem mem_all (opcode : Opcode) : opcode ∈ all := by
  cases opcode with
  | binop op => cases op <;> decide
  | const | widen | call | count => decide

theorem text_inj {a b : Opcode} (same : a.text.toList ++ rest = b.text.toList ++ others) :
    a = b ∧ rest = others := by
  have free : ∀ a ∈ all, ∀ b ∈ all, a.text.toList <+: b.text.toList → a = b := by decide
  exact Text.word_inj mem_all free same

theorem text_ne_percent (opcode : Opcode) (rest others : List Char) :
    opcode.text.toList ++ rest ≠ '%' :: others := by
  cases opcode with
  | binop op => cases op <;> simp [text, BinOp.text]
  | const | widen | call | count => simp [text]

end Opcode

namespace Instr

/-- What an instruction does. -/
def opcode : Instr → Opcode
  | const .. => .const
  | binop _ op _ _ => .binop op
  | widen .. => .widen
  | call .. => .call
  | count .. => .count

/-- The written form of what an instruction is done to. -/
def subject (label : Counter → String) : Instr → String
  | const _ value => value.text
  | binop _ _ lhs rhs => lhs.text ++ ", " ++ rhs.text
  | widen _ value => value.text ++ " to i64"
  | call _ callee args => callee.text ++ "(" ++ Operand.texts args ++ ")"
  | count _ counter amount order =>
      label counter ++ "], " ++ amount.text ++ " " ++ order.text

theorem text_eq (label : Counter → String) (instr : Instr) :
    instr.text label = resultText instr.result? ++ instr.opcode.text ++ instr.subject label := by
  cases instr <;>
    simp [text, resultText, result?, opcode, Opcode.text, subject, String.append_assoc]

theorem resultText_append (result : ValueId) (rest : List Char) :
    (resultText (some result)).toList ++ rest =
      '%' :: ((toString result).toList ++ ' ' :: '=' :: ' ' :: rest) := by
  simp [resultText, ValueId.toList_text]

/-- The text of an instruction tells its result and what it does. -/
theorem resultText_inj {a b : Option ValueId} {c d : Opcode}
    (same : (resultText a).toList ++ (c.text.toList ++ rest) =
      (resultText b).toList ++ (d.text.toList ++ others)) :
    a = b ∧ c = d ∧ rest = others := by
  cases a with
  | none =>
      cases b with
      | none => exact ⟨rfl, Opcode.text_inj same⟩
      | some b =>
          rw [resultText_append] at same
          exact (c.text_ne_percent _ _ same).elim
  | some a =>
      rw [resultText_append] at same
      cases b with
      | none => exact (d.text_ne_percent _ _ same.symm).elim
      | some b =>
          rw [resultText_append] at same
          obtain ⟨rfl, after⟩ := Text.toString_nat_inj (stops_cons rfl _) (stops_cons rfl _)
            (List.cons.inj same).2
          simp only [List.cons.injEq, true_and] at after
          exact ⟨rfl, Opcode.text_inj after⟩

end Instr

/-- A name without the characters at which the text of a function is divided.  Letters,
digits, underscores and dots are none of them. -/
def Text.IsName (name : String) : Prop :=
  ∀ c ∈ name.toList, c ∉ [' ', '(', '\x7d']

/-- A block has a name of this kind or none, and calls routines of such names. -/
structure Block.Named (block : Block) : Prop where
  name : ∀ name, block.name = some name → Text.IsName name
  symbols : ∀ instr ∈ block.instrs, ∀ symbol,
    instr.calledSymbol? = some symbol → Text.IsName symbol

/-- A function, its blocks, the routines that it calls and the keys of its notes have names
of this kind. -/
structure Func.Named (f : Func) : Prop where
  name : Text.IsName f.name
  keys : ∀ entry ∈ f.notes.entries, Text.IsName entry.1
  blocks : ∀ block ∈ f.blocks.toList, block.Named

/-- Labels by which counters can be told apart: different ones for different counters, and
without the bracket that ends a label. -/
structure Counter.Labelled (label : Counter → String) (counters : List Counter) : Prop where
  closed : ∀ counter ∈ counters, ']' ∉ (label counter).toList
  apart : ∀ first ∈ counters, ∀ second ∈ counters, label first = label second → first = second

theorem Text.isName_inj {first second : String} (named : IsName first) (named' : IsName second)
    {mark : Char} (mem : mark ∈ [' ', '(', '\x7d'])
    (same : first.toList ++ mark :: rest = second.toList ++ mark :: others) :
    first = second ∧ rest = others := by
  have stops (rest : List Char) : ∀ c ∈ (mark :: rest).head?, ¬ c ∉ [' ', '(', '\x7d'] := by
    rintro c ⟨⟩ absent
    exact absent mem
  obtain ⟨chars, after⟩ := span_inj named named' (stops rest) (stops others) same
  exact ⟨String.toList_injective chars, (List.cons.inj after).2⟩

theorem Callee.text_inj {a b : Callee}
    (named : ∀ symbol, a.symbol? = some symbol → Text.IsName symbol)
    (named' : ∀ symbol, b.symbol? = some symbol → Text.IsName symbol)
    (same : a.text.toList ++ '(' :: rest = b.text.toList ++ '(' :: others) :
    a = b ∧ rest = others := by
  cases a with
  | symbol first =>
      cases b with
      | symbol second =>
          simp only [text, String.toList_append, List.append_assoc] at same
          have opens : '(' ∈ [' ', '(', '\x7d'] := by decide
          obtain ⟨rfl, after⟩ := Text.isName_inj (named first rfl) (named' second rfl) opens
            (List.append_cancel_left same)
          exact ⟨rfl, after⟩
      | address code => simp [text] at same
  | address code =>
      cases b with
      | symbol second => simp [text] at same
      | address code' =>
          simp only [text, String.toList_append, Text.hexadecimal, String.toList_ofList,
            List.append_assoc] at same
          obtain ⟨equal, after⟩ := Text.toDigits_hex_inj (stops_cons rfl _) (stops_cons rfl _)
            (List.append_cancel_left same)
          rw [UInt64.toNat_inj.mp equal]
          exact ⟨rfl, (List.cons.inj after).2⟩

theorem MemoryOrder.text_inj {a b : MemoryOrder}
    (same : a.text.toList ++ rest = b.text.toList ++ others) : a = b ∧ rest = others := by
  cases a <;> cases b <;> simp_all [text]

namespace Instr

variable {label : Counter → String} {counters : List Counter}

theorem subject_inj_count (labelled : Counter.Labelled label counters)
    {a b : Counter} {x y : Operand} {m n : MemoryOrder} (known : a ∈ counters)
    (known' : b ∈ counters)
    (same : (subject label (.count none a x m)).toList ++ rest =
      (subject label (.count none b y n)).toList ++ others) :
    a = b ∧ x.shown = y.shown ∧ m = n ∧ rest = others := by
  have bare {counter : Counter} (known : counter ∈ counters) :
      ∀ c ∈ (label counter).toList, c ≠ ']' :=
    fun c mem same => labelled.closed counter known (same ▸ mem)
  have stops (tail : List Char) : ∀ c ∈ (']' :: tail).head?, ¬ c ≠ ']' := by simp
  simp only [subject, String.toList_append, String.reduceToList, List.cons_append,
    List.nil_append, List.append_assoc] at same
  obtain ⟨labels, after⟩ := Text.span_inj (bare known) (bare known') (stops _) (stops _) same
  simp only [List.cons.injEq, true_and] at after
  obtain ⟨amounts, after⟩ := Operand.text_inj (stops_cons rfl _) (stops_cons rfl _) after
  obtain ⟨orders, after⟩ := MemoryOrder.text_inj (List.cons.inj after).2
  exact ⟨labelled.apart a known b known' (String.toList_injective labels), amounts, orders, after⟩

theorem text_inj (labelled : Counter.Labelled label counters) {a b : Instr}
    (named : ∀ symbol, a.calledSymbol? = some symbol → Text.IsName symbol)
    (named' : ∀ symbol, b.calledSymbol? = some symbol → Text.IsName symbol)
    (known : ∀ counter, a.counter? = some counter → counter ∈ counters)
    (known' : ∀ counter, b.counter? = some counter → counter ∈ counters)
    (same : (a.text label).toList ++ '\n' :: rest = (b.text label).toList ++ '\n' :: others) :
    a.shown = b.shown ∧ rest = others := by
  simp only [text_eq, String.toList_append, List.append_assoc] at same
  obtain ⟨results, opcodes, same⟩ := resultText_inj same
  cases a with
  | const result value =>
      cases b <;> cases opcodes
      cases results
      obtain ⟨values, after⟩ := Constant.text_inj same
      exact ⟨congrArg (const result) values, (List.cons.inj after).2⟩
  | binop result op lhs rhs =>
      cases b <;> cases opcodes
      cases results
      simp only [subject, String.toList_append, String.reduceToList, List.cons_append,
        List.nil_append, List.append_assoc] at same
      obtain ⟨left, same⟩ := Operand.text_inj (stops_cons rfl _) (stops_cons rfl _) same
      simp only [List.cons.injEq, true_and] at same
      obtain ⟨right, after⟩ := Operand.text_inj (stops_cons rfl _) (stops_cons rfl _) same
      exact ⟨congrArg₂ (binop result op) left right, (List.cons.inj after).2⟩
  | widen result value =>
      cases b <;> cases opcodes
      cases results
      simp only [subject, String.toList_append, String.reduceToList, List.cons_append,
        List.nil_append, List.append_assoc] at same
      obtain ⟨values, after⟩ := Operand.text_inj (stops_cons rfl _) (stops_cons rfl _) same
      exact ⟨congrArg (widen result) values, by simpa using after⟩
  | call result callee args =>
      cases b <;> cases opcodes
      cases results
      simp only [subject, String.toList_append, String.reduceToList, List.cons_append,
        List.nil_append, List.append_assoc] at same
      obtain ⟨rfl, after⟩ := Callee.text_inj named named' same
      obtain ⟨arguments, after⟩ := Operand.texts_inj after
      exact ⟨congrArg (call result callee) arguments, (List.cons.inj after).2⟩
  | count result counter amount order =>
      cases b <;> cases opcodes
      cases results
      obtain ⟨rfl, amounts, rfl, after⟩ :=
        subject_inj_count labelled (known _ rfl) (known' _ rfl) same
      exact ⟨congrArg (count result counter · order) amounts, (List.cons.inj after).2⟩

end Instr

/-! ## Terminators -/

theorem Edge.text_inj {a b : Edge} (same : a.text.toList ++ rest = b.text.toList ++ others) :
    a.shown = b.shown ∧ rest = others := by
  obtain ⟨target, args⟩ := a
  obtain ⟨target', args'⟩ := b
  simp only [text, BlockId.text, String.toList_append, String.reduceToList, List.cons_append,
    List.nil_append, List.append_assoc, List.cons.injEq, true_and] at same
  obtain ⟨rfl, after⟩ := Text.toString_nat_inj (stops_cons rfl _) (stops_cons rfl _) same
  obtain ⟨arguments, after⟩ := Operand.texts_inj (List.cons.inj after).2
  exact ⟨congrArg (mk target) arguments, after⟩

theorem Weights.text_inj {a b : Weights}
    (same : a.text.toList ++ rest = b.text.toList ++ others) : a = b ∧ rest = others := by
  obtain ⟨taken, notTaken⟩ := a
  obtain ⟨taken', notTaken'⟩ := b
  unfold text at same
  simp only [String.toList_append, String.reduceToList, List.cons_append, List.nil_append,
    List.append_assoc, List.cons.injEq, true_and] at same
  obtain ⟨first, after⟩ := Text.toString_nat_inj (stops_cons rfl _) (stops_cons rfl _) same
  simp only [List.cons.injEq, true_and] at after
  obtain ⟨second, after⟩ := Text.toString_nat_inj (stops_cons rfl _) (stops_cons rfl _) after
  rw [UInt64.toNat_inj.mp first, UInt64.toNat_inj.mp second]
  exact ⟨rfl, (List.cons.inj after).2⟩

/-- What stands behind the edges of a branch. -/
def Weights.tail : Option Weights → String
  | some weights => " " ++ weights.text
  | none => ""

theorem Weights.tail_inj {a b : Option Weights}
    (same : (tail a).toList ++ '\n' :: rest = (tail b).toList ++ '\n' :: others) :
    a = b ∧ rest = others := by
  cases a with
  | none =>
      cases b with
      | none => exact ⟨rfl, (List.cons.inj same).2⟩
      | some b => simp [tail] at same
  | some a =>
      cases b with
      | none => simp [tail] at same
      | some b =>
          simp only [tail, String.toList_append, List.append_assoc] at same
          obtain ⟨rfl, after⟩ := text_inj (List.append_cancel_left same)
          exact ⟨rfl, (List.cons.inj after).2⟩

namespace Terminator

theorem text_branch (condition : Operand) (whenTrue whenFalse : Edge) (weights : Option Weights) :
    (branch condition whenTrue whenFalse weights).text =
      "condbr " ++ condition.text ++ ", " ++ whenTrue.text ++ ", " ++ whenFalse.text ++
        Weights.tail weights := by
  cases weights <;> rfl

theorem text_inj_ret {a b : Option Operand}
    (same : (ret a).text.toList ++ '\n' :: rest = (ret b).text.toList ++ '\n' :: others) :
    a.map Operand.shown = b.map Operand.shown ∧ rest = others := by
  cases a with
  | none =>
      cases b with
      | none => simpa [text] using same
      | some b => simp [text] at same
  | some a =>
      cases b with
      | none => simp [text] at same
      | some b =>
          simp only [text, String.toList_append, List.append_assoc] at same
          obtain ⟨values, after⟩ := Operand.text_inj (stops_cons rfl _) (stops_cons rfl _)
            (List.append_cancel_left same)
          exact ⟨congrArg some values, (List.cons.inj after).2⟩

theorem text_inj {a b : Terminator}
    (same : a.text.toList ++ '\n' :: rest = b.text.toList ++ '\n' :: others) :
    a.shown = b.shown ∧ rest = others := by
  cases a with
  | ret value =>
      cases b with
      | ret value' =>
          obtain ⟨values, after⟩ := text_inj_ret same
          exact ⟨congrArg ret values, after⟩
      | jump | branch | unreachable => cases value <;> simp [text] at same
  | jump edge =>
      cases b with
      | jump edge' =>
          simp only [text, String.toList_append, List.append_assoc] at same
          obtain ⟨edges, after⟩ := Edge.text_inj (List.append_cancel_left same)
          exact ⟨congrArg jump edges, (List.cons.inj after).2⟩
      | ret value => cases value <;> simp [text] at same
      | branch | unreachable => simp [text] at same
  | branch condition whenTrue whenFalse weights =>
      cases b with
      | branch condition' whenTrue' whenFalse' weights' =>
          simp only [text_branch, String.toList_append, String.reduceToList, List.cons_append,
            List.nil_append, List.append_assoc, List.cons.injEq, true_and] at same
          obtain ⟨conditions, same⟩ :=
            Operand.text_inj (stops_cons rfl _) (stops_cons rfl _) same
          simp only [List.cons.injEq, true_and] at same
          obtain ⟨first, same⟩ := Edge.text_inj same
          simp only [List.cons.injEq, true_and] at same
          obtain ⟨second, same⟩ := Edge.text_inj same
          obtain ⟨rfl, after⟩ := Weights.tail_inj same
          exact ⟨by simp only [shown, conditions, first, second], after⟩
      | ret value => cases value <;> simp [text] at same
      | jump | unreachable => simp [text] at same
  | unreachable =>
      cases b with
      | unreachable => simpa [text, shown] using same
      | ret value => cases value <;> simp [text] at same
      | jump | branch => simp [text] at same

end Terminator

/-! ## Blocks -/

theorem Instr.text_begins (label : Counter → String) (instr : Instr) :
    ∃ word ∈ "%" :: Opcode.all.map Opcode.text, ∃ tail,
      (instr.text label).toList = word.toList ++ tail := by
  rw [text_eq]
  cases result : instr.result? with
  | none =>
      refine ⟨instr.opcode.text, ?_, (instr.subject label).toList, ?_⟩
      · exact List.mem_cons_of_mem _ (List.mem_map_of_mem instr.opcode.mem_all)
      · simp [resultText]
  | some value =>
      refine ⟨"%", List.mem_cons_self, ?_⟩
      rw [String.append_assoc, String.toList_append, resultText_append]
      exact ⟨_, rfl⟩

theorem Terminator.text_begins (terminator : Terminator) :
    ∃ word ∈ ["ret", "br ", "condbr ", "unreachable"], ∃ tail,
      terminator.text.toList = word.toList ++ tail := by
  cases terminator with
  | ret value =>
      refine ⟨"ret", by simp, ?_⟩
      cases value with
      | none => exact ⟨[], rfl⟩
      | some value => exact ⟨' ' :: value.text.toList, by simp [text]⟩
  | jump edge => exact ⟨"br ", by simp, edge.text.toList, String.toList_append⟩
  | branch condition whenTrue whenFalse weights =>
      refine ⟨"condbr ", by simp, ?_⟩
      simp only [text_branch, String.append_assoc, String.toList_append]
      exact ⟨_, rfl⟩
  | unreachable => exact ⟨"unreachable", by simp, [], rfl⟩

/-- No instruction is written like a terminator. -/
theorem Instr.text_ne_terminator {label : Counter → String} {instr : Instr}
    {terminator : Terminator}
    (same : (instr.text label).toList ++ rest = terminator.text.toList ++ others) : False := by
  have free : ∀ word ∈ "%" :: Opcode.all.map Opcode.text,
      ∀ word' ∈ ["ret", "br ", "condbr ", "unreachable"],
        ¬ word.toList <+: word'.toList ∧ ¬ word'.toList <+: word.toList := by decide
  obtain ⟨word, mem, tail, written⟩ := instr.text_begins label
  obtain ⟨word', mem', tail', written'⟩ := terminator.text_begins
  obtain ⟨shorter, longer⟩ := free word mem word' mem'
  rw [written, written', List.append_assoc, List.append_assoc] at same
  rcases List.prefix_or_prefix_of_prefix ⟨_, rfl⟩ ⟨_, same.symm⟩ with begins | begins
  · exact shorter begins
  · exact longer begins

namespace Block

/-- The lines of a block behind its label. -/
def body (label : Counter → String) (instrs : List Instr) (terminator : Terminator) :
    List Char :=
  (instrs.flatMap fun instr => ' ' :: ' ' :: ((instr.text label).toList ++ ['\n'])) ++
    ' ' :: ' ' :: (terminator.text.toList ++ ['\n'])

variable {label : Counter → String} {counters : List Counter}

theorem body_nil_append (terminator : Terminator) (rest : List Char) :
    body label [] terminator ++ rest = ' ' :: ' ' :: (terminator.text.toList ++ '\n' :: rest) := by
  simp [body]

theorem body_cons_append (instr : Instr) (instrs : List Instr) (terminator : Terminator)
    (rest : List Char) :
    body label (instr :: instrs) terminator ++ rest =
      ' ' :: ' ' :: ((instr.text label).toList ++
        '\n' :: (body label instrs terminator ++ rest)) := by
  simp [body]

/-- The lines behind the label of a block tell its instructions and its end. -/
theorem body_inj (labelled : Counter.Labelled label counters) {first second : List Instr}
    {a b : Terminator}
    (named : ∀ instr ∈ first, ∀ symbol, instr.calledSymbol? = some symbol → Text.IsName symbol)
    (named' : ∀ instr ∈ second, ∀ symbol, instr.calledSymbol? = some symbol → Text.IsName symbol)
    (known : ∀ instr ∈ first, ∀ counter, instr.counter? = some counter → counter ∈ counters)
    (known' : ∀ instr ∈ second, ∀ counter, instr.counter? = some counter → counter ∈ counters)
    (same : body label first a ++ rest = body label second b ++ others) :
    first.map Instr.shown = second.map Instr.shown ∧ a.shown = b.shown ∧ rest = others := by
  induction first generalizing second with
  | nil =>
      rw [body_nil_append] at same
      cases second with
      | nil =>
          rw [body_nil_append] at same
          obtain ⟨ends, after⟩ := Terminator.text_inj (List.cons.inj (List.cons.inj same).2).2
          exact ⟨rfl, ends, after⟩
      | cons instr second =>
          rw [body_cons_append] at same
          exact (Instr.text_ne_terminator (List.cons.inj (List.cons.inj same).2).2.symm).elim
  | cons instr first ih =>
      rw [body_cons_append] at same
      cases second with
      | nil =>
          rw [body_nil_append] at same
          exact (Instr.text_ne_terminator (List.cons.inj (List.cons.inj same).2).2).elim
      | cons instr' second =>
          rw [body_cons_append] at same
          rw [List.forall_mem_cons] at named named' known known'
          obtain ⟨one, same⟩ := Instr.text_inj labelled named.1 named'.1 known.1 known'.1
            (List.cons.inj (List.cons.inj same).2).2
          obtain ⟨more, ends, after⟩ := ih named.2 named'.2 known.2 known'.2 same
          exact ⟨congrArg₂ List.cons one more, ends, after⟩

/-- The characters of the lines of a block. -/
def chars (label : Counter → String) (id : BlockId) (block : Block) : List Char :=
  (block.lines label id).flatMap fun line => line.toList ++ ['\n']

theorem chars_append (id : BlockId) (block : Block) (rest : List Char) :
    block.chars label id ++ rest =
      ((block.name.getD "bb").toList ++ '.' :: (toString id).toList) ++
        '(' :: ((ValueId.texts block.params).toList ++
          ')' :: ':' :: '\n' :: (body label block.instrs block.terminator ++ rest)) := by
  simp [chars, lines, body, List.flatMap_map]

theorem Named.getD {block : Block} (named : block.Named) :
    Text.IsName (block.name.getD "bb") := by
  cases given : block.name with
  | none =>
      rw [Option.getD_none]
      simp [Text.IsName]
  | some name => exact named.name name given

/-- A block begins neither like a line that is moved in nor like the last line. -/
theorem Named.chars_begins {block : Block} (named : block.Named) (label : Counter → String)
    (id : BlockId) :
    ∃ c tail, block.chars label id = c :: tail ∧ c ≠ ' ' ∧ c ≠ '\x7d' := by
  have written : block.chars label id = _ :=
    (List.append_nil _).symm.trans (chars_append id block [])
  cases name : (block.name.getD "bb").toList with
  | nil =>
      rw [name] at written
      exact ⟨_, _, written, by decide, by decide⟩
  | cons c tail =>
      have plain := named.getD c (name ▸ List.mem_cons_self)
      rw [name] at written
      simp only [List.mem_cons, not_or] at plain
      exact ⟨_, _, written, plain.1, plain.2.2.1⟩

/-- The text of a block tells the block, whatever follows. -/
theorem chars_inj (labelled : Counter.Labelled label counters) {a b : Block} {id : BlockId}
    (named : a.Named) (named' : b.Named)
    (known : ∀ instr ∈ a.instrs, ∀ counter, instr.counter? = some counter → counter ∈ counters)
    (known' : ∀ instr ∈ b.instrs, ∀ counter, instr.counter? = some counter → counter ∈ counters)
    (same : a.chars label id ++ rest = b.chars label id ++ others) :
    a.shown = b.shown ∧ rest = others := by
  have bare {block : Block} (named : block.Named) :
      ∀ c ∈ (block.name.getD "bb").toList ++ '.' :: (toString id).toList, c ≠ '(' := by
    rintro c mem rfl
    rw [Nat.toString_eq_repr, Nat.toList_repr] at mem
    rcases List.mem_append.mp mem with front | behind
    · exact named.getD _ front (by decide)
    · rcases List.mem_cons.mp behind with dot | digit
      · cases dot
      · cases Text.isDigit_of_mem_toDigits digit
  have stops (tail : List Char) : ∀ c ∈ ('(' :: tail).head?, ¬ c ≠ '(' := by simp
  rw [chars_append, chars_append] at same
  obtain ⟨labels, same⟩ := Text.span_inj (bare named) (bare named') (stops _) (stops _) same
  obtain ⟨params, same⟩ := ValueId.texts_inj (List.cons.inj same).2
  simp only [List.cons.injEq, true_and] at same
  obtain ⟨instrs, ends, after⟩ := body_inj labelled named.symbols named'.symbols known known' same
  have names := String.toList_injective (List.append_cancel_right labels)
  exact ⟨by simp only [shown, names, params, instrs, ends], after⟩

end Block

/-! ## Notes -/

namespace Note

/-- The form of the payload that begins with a character. -/
def kindOf? (c : Char) : Option Kind :=
  if c = '"' then some .str else if c = '(' then some .tuple
  else if c = 't' ∨ c = 'f' then some .bool
  else if isDigit c ∨ c = '-' then some .int else none

theorem text_begins (note : Note) :
    ∃ first tail, note.text.toList = first :: tail ∧ kindOf? first = some note.kind := by
  cases note with
  | int value =>
      rcases Text.toString_int_cases value.toInt with ⟨n, -, written⟩ | ⟨n, -, written⟩
      · obtain ⟨first, tail, digits, digit⟩ := Json.toDigits_begins n
        refine ⟨first, tail, written.trans digits, ?_⟩
        have other {mark : Char} (no : isDigit mark = false) : first ≠ mark := by
          rintro rfl
          rw [digit] at no
          cases no
        rw [kindOf?, if_neg (other rfl), if_neg (other rfl),
          if_neg (not_or.mpr ⟨other rfl, other rfl⟩), if_pos (.inl digit)]
        rfl
      · exact ⟨'-', _, written, rfl⟩
  | bool value => cases value <;> exact ⟨_, _, rfl, rfl⟩
  | str value => exact ⟨'"', _, Text.toList_quoted value, rfl⟩
  | tuple items =>
      exact ⟨'(', (Text.separated (texts items)).toList ++ [')'], by simp [text], rfl⟩

theorem text_ne_close (note : Note) (rest others : List Char) :
    note.text.toList ++ rest ≠ ')' :: others := by
  intro same
  obtain ⟨first, tail, written, named⟩ := note.text_begins
  rw [written] at same
  obtain ⟨rfl, -⟩ := List.cons.inj same
  cases named

theorem kind_eq_of_text {a b : Note} (same : a.text.toList ++ rest = b.text.toList ++ others) :
    a.kind = b.kind := by
  obtain ⟨first, tail, written, named⟩ := a.text_begins
  obtain ⟨first', tail', written', named'⟩ := b.text_begins
  rw [written, written'] at same
  obtain ⟨rfl, -⟩ := List.cons.inj same
  exact Option.some.inj (named.symm.trans named')

/-- A payload is told from others by its text, however deep its tuples are. -/
theorem text_inj (a b : Note) {rest others : List Char} (stops : Stops isDigit rest)
    (stops' : Stops isDigit others) (same : a.text.toList ++ rest = b.text.toList ++ others) :
    a = b ∧ rest = others := by
  have kinds := kind_eq_of_text same
  cases a with
  | int value =>
      cases b <;> cases kinds
      obtain ⟨equal, after⟩ := Text.toString_int_inj stops stops' same
      exact ⟨congrArg int (Int64.toInt_inj.mp equal), after⟩
  | bool value =>
      cases b <;> cases kinds
      next value' => cases value <;> cases value' <;> simp_all [text]
  | str value =>
      cases b <;> cases kinds
      obtain ⟨rfl, after⟩ := Text.quoted_inj same
      exact ⟨rfl, after⟩
  | tuple items =>
      cases b <;> cases kinds
      next items' =>
        simp only [text, texts_eq_map, String.toList_append, String.reduceToList, List.cons_append,
          List.nil_append, List.append_assoc, List.cons.injEq, true_and] at same
        have told : items.map id = items'.map id ∧ rest = others :=
          Text.separated_inj text_ne_close
            (fun a _ b _ _ _ stops stops' same => text_inj a b stops stops' same) same
        rw [List.map_id, List.map_id] at told
        exact ⟨congrArg tuple told.1, told.2⟩
termination_by a

end Note

/-! ## Functions -/

/-- A table is known by its entries, as they can be listed in one order only. -/
theorem Table.ext_entries {α : Type} {first second : Table α}
    (same : first.entries = second.entries) : first = second := by
  cases first
  cases second
  cases same
  rfl

namespace Func

variable {label : Counter → String}

/-- What stands behind the parameters of a function. -/
def countChars : Option UInt64 → List Char
  | some count =>
      ' ' :: '!' :: ("function_entry_count(".toList ++
        ((toString count.toNat).toList ++ [')', ' ', '\x7b']))
  | none => [' ', '\x7b']

theorem countChars_inj {a b : Option UInt64}
    (same : countChars a ++ rest = countChars b ++ others) : a = b ∧ rest = others := by
  cases a with
  | none =>
      cases b with
      | none => exact ⟨rfl, List.append_cancel_left same⟩
      | some b => simp [countChars] at same
  | some a =>
      cases b with
      | none => simp [countChars] at same
      | some b =>
          simp only [countChars, List.cons_append, List.append_assoc, List.cons.injEq,
            true_and] at same
          obtain ⟨equal, after⟩ := Text.toString_nat_inj (stops_cons rfl _) (stops_cons rfl _)
            (List.append_cancel_left same)
          rw [UInt64.toNat_inj.mp equal]
          exact ⟨rfl, by simpa using after⟩

theorem headLine_append (f : Func) (rest : List Char) :
    f.headLine.toList ++ rest = 'f' :: 'n' :: ' ' :: '@' :: (f.name.toList ++
      '(' :: ((ValueId.texts f.params).toList ++ ')' :: (countChars f.entryCount ++ rest))) := by
  unfold headLine countChars
  cases f.entryCount <;> simp

/-- The first line of a function tells its name, its parameters and how often it is entered. -/
theorem headLine_inj {f g : Func} (named : Text.IsName f.name) (named' : Text.IsName g.name)
    (same : f.headLine.toList ++ rest = g.headLine.toList ++ others) :
    f.name = g.name ∧ f.params = g.params ∧ f.entryCount = g.entryCount ∧ rest = others := by
  simp only [headLine_append, List.cons.injEq, true_and] at same
  have opens : '(' ∈ [' ', '(', '\x7d'] := by decide
  obtain ⟨names, same⟩ := Text.isName_inj named named' opens same
  obtain ⟨params, same⟩ := ValueId.texts_inj same
  obtain ⟨counts, after⟩ := countChars_inj same
  exact ⟨names, params, counts, after⟩

/-- The characters of the lines of some notes. -/
def noteChars (notes : List (String × Note)) : List Char :=
  notes.flatMap fun entry => (noteLine entry).toList ++ ['\n']

theorem noteChars_cons_append (entry : String × Note) (notes : List (String × Note))
    (rest : List Char) :
    noteChars (entry :: notes) ++ rest =
      ' ' :: ' ' :: '!' :: (entry.1.toList ++ ' ' :: '=' :: ' ' ::
        (entry.2.text.toList ++ '\n' :: (noteChars notes ++ rest))) := by
  simp [noteChars, noteLine]

/-- Lines that are moved in tell the notes, if what follows is not moved in. -/
theorem noteChars_inj {first second : List (String × Note)}
    (named : ∀ entry ∈ first, Text.IsName entry.1) (named' : ∀ entry ∈ second, Text.IsName entry.1)
    (stops : Stops (· = ' ') rest) (stops' : Stops (· = ' ') others)
    (same : noteChars first ++ rest = noteChars second ++ others) :
    first = second ∧ rest = others := by
  induction first generalizing second with
  | nil =>
      cases second with
      | nil => exact ⟨rfl, same⟩
      | cons entry second =>
          rw [noteChars_cons_append] at same
          obtain rfl : rest = _ := same
          exact (stops _ rfl rfl).elim
  | cons entry first ih =>
      rw [noteChars_cons_append] at same
      cases second with
      | nil =>
          obtain rfl : _ = others := same
          exact (stops' _ rfl rfl).elim
      | cons entry' second =>
          rw [noteChars_cons_append] at same
          rw [List.forall_mem_cons] at named named'
          simp only [List.cons.injEq, true_and] at same
          have opens : ' ' ∈ [' ', '(', '\x7d'] := by decide
          obtain ⟨keys, same⟩ := Text.isName_inj named.1 named'.1 opens same
          simp only [List.cons.injEq, true_and] at same
          obtain ⟨notes, same⟩ :=
            entry.2.text_inj entry'.2 (stops_cons rfl _) (stops_cons rfl _) same
          obtain ⟨more, after⟩ := ih named.2 named'.2 (List.cons.inj same).2
          exact ⟨congrArg₂ List.cons (Prod.ext keys notes) more, after⟩

/-- The characters of the lines of some blocks, the first of which has this position. -/
def blockChars (label : Counter → String) (id : BlockId) (blocks : List Block) : List Char :=
  (blocks.zipIdx id).flatMap fun (block, id) => block.chars label id

theorem blockChars_cons_append (id : BlockId) (block : Block) (blocks : List Block)
    (rest : List Char) :
    blockChars label id (block :: blocks) ++ rest =
      block.chars label id ++ (blockChars label (id + 1) blocks ++ rest) := by
  simp [blockChars]

theorem blockChars_inj {counters : List Counter} (labelled : Counter.Labelled label counters)
    {first second : List Block} {id : BlockId} (named : ∀ block ∈ first, block.Named)
    (named' : ∀ block ∈ second, block.Named)
    (known : ∀ block ∈ first, ∀ instr ∈ block.instrs, ∀ counter,
      instr.counter? = some counter → counter ∈ counters)
    (known' : ∀ block ∈ second, ∀ instr ∈ block.instrs, ∀ counter,
      instr.counter? = some counter → counter ∈ counters)
    (same : blockChars label id first ++ ['\x7d', '\n'] =
      blockChars label id second ++ ['\x7d', '\n']) :
    first.map Block.shown = second.map Block.shown := by
  induction first generalizing second id with
  | nil =>
      cases second with
      | nil => rfl
      | cons block second =>
          obtain ⟨c, tail, begins, -, open_⟩ :=
            (named' block List.mem_cons_self).chars_begins label id
          rw [blockChars_cons_append, begins] at same
          exact (open_ (List.cons.inj same).1.symm).elim
  | cons block first ih =>
      rw [blockChars_cons_append] at same
      cases second with
      | nil =>
          obtain ⟨c, tail, begins, -, open_⟩ :=
            (named block List.mem_cons_self).chars_begins label id
          rw [begins] at same
          exact (open_ (List.cons.inj same).1).elim
      | cons block' second =>
          rw [blockChars_cons_append] at same
          rw [List.forall_mem_cons] at named named' known known'
          obtain ⟨one, same⟩ := Block.chars_inj labelled named.1 named'.1 known.1 known'.1 same
          exact congrArg₂ List.cons one (ih named.2 named'.2 known.2 known'.2 same)

theorem toList_text (f : Func) :
    (f.text label).toList = f.headLine.toList ++ '\n' :: (noteChars f.notes.entries ++
      (blockChars label 0 f.blocks.toList ++ ['\x7d', '\n'])) := by
  rw [text, Text.toList_lines, lines]
  simp [noteChars, blockChars, List.flatMap_map, List.flatMap_assoc, Block.chars]

theorem stops_blockChars {blocks : List Block} (named : ∀ block ∈ blocks, block.Named)
    (id : BlockId) : Stops (· = ' ') (blockChars label id blocks ++ ['\x7d', '\n']) := by
  cases blocks with
  | nil => exact stops_cons rfl _
  | cons block blocks =>
      obtain ⟨c, tail, begins, dark, -⟩ := (named block List.mem_cons_self).chars_begins label id
      rw [blockChars_cons_append, begins]
      exact stops_cons (decide_eq_false dark) _

theorem counter_mem {f : Func} {block : Block} (mem : block ∈ f.blocks.toList) {instr : Instr}
    (inside : instr ∈ block.instrs) {counter : Counter} (adds : instr.counter? = some counter) :
    counter ∈ f.counters :=
  List.mem_flatMap.mpr ⟨block, mem, List.mem_filterMap.mpr ⟨instr, inside, adds⟩⟩

/-- Two functions whose names are plain, with counters under labels that tell them apart,
are printed alike exactly when they are shown alike. -/
theorem text_eq_iff_shown_eq {f g : Func} (named : f.Named) (named' : g.Named)
    (labelled : Counter.Labelled label (f.counters ++ g.counters)) :
    f.text label = g.text label ↔ f.shown = g.shown := by
  constructor
  · intro same
    have chars := congrArg String.toList same
    rw [toList_text, toList_text] at chars
    obtain ⟨name, params, count, chars⟩ := headLine_inj named.name named'.name chars
    obtain ⟨notes, chars⟩ := noteChars_inj named.keys named'.keys
      (stops_blockChars named.blocks 0) (stops_blockChars named'.blocks 0) (List.cons.inj chars).2
    have blocks := blockChars_inj labelled named.blocks named'.blocks
      (fun block mem instr inside counter adds =>
        List.mem_append_left _ (counter_mem mem inside adds))
      (fun block mem instr inside counter adds =>
        List.mem_append_right _ (counter_mem mem inside adds)) chars
    have arrays : f.blocks.map Block.shown = g.blocks.map Block.shown := by
      rw [← Array.toList_inj, Array.toList_map, Array.toList_map, blocks]
    rw [shown, shown, name, params, arrays, Table.ext_entries notes, count]
  · intro same
    rw [← text_shown label f, same, text_shown]

/-- A block without a name and one named `bb` are printed alike, as are two words that a set
bit may hold, and the values given out do not show.  A bit that is not set does. -/
theorem text_eq_iff_shown_eq_block :
    let block (name : Option String) (bit : Int64) : Block :=
      ⟨name, [], [.const 1 ⟨.bit, bit⟩, .tally (.cell "c") (.value 0),
        .call none (.symbol "print_i64") [.value 1]], .ret none⟩
    let made (name : Option String) (bit : Int64) (next : Nat) : Func :=
      ⟨"f", [0], #[block name bit],
        ⟨[("note", .tuple [.str "a\n)", .int (-1)])], List.pairwise_singleton ..⟩, some 3, next⟩
    let label (_ : Counter) := "0x10"
    (made none 1 2).Named ∧ (∀ bit, (made (some "bb") bit 9).Named) ∧
      Counter.Labelled label ((made none 1 2).counters ++ (made (some "bb") 7 9).counters) ∧
      (made none 1 2).text label = (made (some "bb") 7 9).text label ∧
      (made none 1 2).text label ≠ (made (some "bb") 0 9).text label := by
  intro block made label
  have plain : Text.IsName "f" ∧ Text.IsName "note" ∧ Text.IsName "print_i64" ∧
      Text.IsName "bb" := by
    simp [Text.IsName]
  have named (name : Option String) (given : ∀ word, name = some word → Text.IsName word)
      (bit : Int64) (next : Nat) : (made name bit next).Named := by
    refine ⟨plain.1, List.forall_mem_singleton.mpr plain.2.1, List.forall_mem_singleton.mpr ?_⟩
    refine ⟨given, fun instr mem symbol calls => ?_⟩
    simp only [block, List.mem_cons, List.not_mem_nil, or_false] at mem
    rcases mem with rfl | rfl | rfl <;> cases calls
    exact plain.2.2.1
  have unnamed := named none nofun
  have bb := named (some "bb") (by rintro word ⟨⟩; exact plain.2.2.2)
  refine ⟨unnamed 1 2, fun bit => bb bit 9, ⟨by decide, by decide⟩, ?_, ?_⟩
  · refine (text_eq_iff_shown_eq (unnamed 1 2) (bb 7 9) ⟨by decide, by decide⟩).mpr ?_
    simp [made, block, shown, Block.shown, Instr.shown, Constant.shown]
  · refine mt (text_eq_iff_shown_eq (unnamed 1 2) (bb 0 9) ⟨by decide, by decide⟩).mp ?_
    simp [made, block, shown, Block.shown, Instr.shown, Constant.shown, Constant.bit]

end Func

end FlowProfile
