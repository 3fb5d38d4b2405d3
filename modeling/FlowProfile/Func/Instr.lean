/-
Instructions

The straight-line part of a block: constants, integer operations on 64-bit words, calls,
and additions to counters. An instruction names its operands and at most one result;
which values those are at run time is the machine's business.
-/

import FlowProfile.Counter
import FlowProfile.Func.Note

namespace FlowProfile

/-- A value of a function, by its number. -/
abbrev ValueId := Nat

/-- A block of a function, by its position. -/
abbrev BlockId := Nat

/-- There are so many numbers of 32 bits. Values and blocks are numbered without an end
here, and as if in 32 bits for as long as there are no more of them than this. -/
def idLimit : Nat := UInt32.size

/-- The written form of a value. -/
def ValueId.text (value : ValueId) : String :=
  "%" ++ toString value

/-- The written form of a block's position. -/
def BlockId.text (block : BlockId) : String :=
  "bb" ++ toString block

/-- The types of literals. -/
inductive Scalar
  | bit
  | word
  deriving DecidableEq, Repr

/-- The name of a type of literals. -/
def Scalar.text : Scalar → String
  | .bit => "i1"
  | .word => "i64"

/-- A typed literal. A literal of one bit may hold any word: all but zero mean true. -/
structure Constant where
  scalar : Scalar
  value : Int64
  deriving DecidableEq

namespace Constant

/-- A literal word. -/
def word (value : Int64) : Constant :=
  ⟨.word, value⟩

/-- A literal truth value. -/
def bit (value : Bool) : Constant :=
  ⟨.bit, if value then 1 else 0⟩

/-- The written form of a literal. -/
def text (constant : Constant) : String :=
  match constant.scalar with
  | .bit => if constant.value = 0 then "false" else "true"
  | .word => toString constant.value.toInt ++ ":i64"

end Constant

/-- The literal that a note stands for when it is passed to a call. -/
def Note.asConstant? : Note → Option Constant
  | .int value => some (.word value)
  | .bool value => some (.bit value)
  | .str _ | .tuple _ => none

/-- What an instruction reads: a value of the function or a literal. -/
inductive Operand
  | value (id : ValueId)
  | const (constant : Constant)
  deriving DecidableEq

namespace Operand

/-- Whether the operand is known before the function runs. -/
def isConst : Operand → Bool
  | value _ => false
  | const _ => true

/-- The value the operand names, if it names one. -/
def value? : Operand → Option ValueId
  | value id => some id
  | const _ => none

/-- The written form of an operand. -/
def text : Operand → String
  | value id => ValueId.text id
  | const constant => constant.text

end Operand

/-- The written form of several operands. -/
def Operand.texts (operands : List Operand) : String :=
  Text.separated (operands.map Operand.text)

/-- The integer operations of two operands. -/
inductive BinOp
  | add
  | sub
  | mul
  | srem
  | and
  | or
  | xor
  | eq
  | ne
  | slt
  | sle
  | sgt
  | sge
  deriving DecidableEq, Repr

namespace BinOp

/-- Whether the result is a truth value. -/
def isComparison : BinOp → Bool
  | eq | ne | slt | sle | sgt | sge => true
  | add | sub | mul | srem | and | or | xor => false

/-- The written name of an operation. -/
def text : BinOp → String
  | add => "add"
  | sub => "sub"
  | mul => "mul"
  | srem => "srem"
  | and => "and"
  | or => "or"
  | xor => "xor"
  | eq => "icmp eq"
  | ne => "icmp ne"
  | slt => "icmp slt"
  | sle => "icmp sle"
  | sgt => "icmp sgt"
  | sge => "icmp sge"

/-- The word a truth value is kept as. -/
def ofTruth (truth : Bool) : Int64 :=
  if truth then 1 else 0

/-- The result on two words: arithmetic wraps around, orders are signed, and the remainder
has the sign of the dividend. Only a remainder by zero has no result. -/
def eval? (op : BinOp) (lhs rhs : Int64) : Option Int64 :=
  match op with
  | add => some (lhs + rhs)
  | sub => some (lhs - rhs)
  | mul => some (lhs * rhs)
  | srem => if rhs = 0 then none else some (lhs % rhs)
  | and => some (lhs &&& rhs)
  | or => some (lhs ||| rhs)
  | xor => some (lhs ^^^ rhs)
  | eq => some (ofTruth (lhs = rhs))
  | ne => some (ofTruth (lhs ≠ rhs))
  | slt => some (ofTruth (lhs < rhs))
  | sle => some (ofTruth (lhs ≤ rhs))
  | sgt => some (ofTruth (rhs < lhs))
  | sge => some (ofTruth (rhs ≤ lhs))

end BinOp

/-- The routine a call goes to: by name, or by code address. -/
inductive Callee
  | symbol (name : String)
  | address (code : UInt64)
  deriving DecidableEq

namespace Callee

/-- The name of a routine called by name. -/
def symbol? : Callee → Option String
  | symbol name => some name
  | address _ => none

/-- The written form of a callee. Addresses are in hexadecimal. -/
def text : Callee → String
  | symbol name => "@" ++ name
  | address code => "*0x" ++ Text.hexadecimal code.toNat

end Callee

/-- How strongly an addition to a counter is ordered against other memory accesses. The
sum is the same for all of them. -/
inductive MemoryOrder
  | monotonic
  | acquireRelease
  | sequential
  deriving DecidableEq, Repr

/-- The written name of a memory order. -/
def MemoryOrder.text : MemoryOrder → String
  | .monotonic => "monotonic"
  | .acquireRelease => "acq_rel"
  | .sequential => "seq_cst"

/-- An instruction. `widen` turns a condition into the word one or zero; `count` adds to a
counter and may keep the value from before. -/
inductive Instr
  | const (result : ValueId) (value : Constant)
  | binop (result : ValueId) (op : BinOp) (lhs rhs : Operand)
  | widen (result : ValueId) (value : Operand)
  | call (result : Option ValueId) (callee : Callee) (args : List Operand)
  | count (result : Option ValueId) (counter : Counter) (amount : Operand) (order : MemoryOrder)
  deriving DecidableEq

namespace Instr

/-- The value an instruction defines, if it defines one. -/
def result? : Instr → Option ValueId
  | const result _ | binop result _ _ _ | widen result _ => some result
  | call result _ _ | count result _ _ _ => result

/-- What an instruction reads, in order. -/
def operands : Instr → List Operand
  | const _ _ => []
  | binop _ _ lhs rhs => [lhs, rhs]
  | widen _ value | count _ _ value _ => [value]
  | call _ _ args => args

/-- The routine called by name, if the instruction calls one. -/
def calledSymbol? : Instr → Option String
  | call _ callee _ => callee.symbol?
  | const .. | binop .. | widen .. | count .. => none

/-- Whether the instruction is a call. -/
def isCall : Instr → Bool
  | call .. => true
  | const .. | binop .. | widen .. | count .. => false

/-- The counter an instruction adds to, if it adds to one. -/
def counter? : Instr → Option Counter
  | count _ counter _ _ => some counter
  | const .. | binop .. | widen .. | call .. => none

/-- An addition to a counter that keeps nothing and orders nothing. -/
def tally (counter : Counter) (amount : Operand) : Instr :=
  count none counter amount .monotonic

/-- The written form of an instruction's result, ahead of what computes it. -/
def resultText : Option ValueId → String
  | some result => ValueId.text result ++ " = "
  | none => ""

/-- The written form of an instruction. Counters appear under the given labels. -/
def text (label : Counter → String) : Instr → String
  | const result value => ValueId.text result ++ " = const " ++ value.text
  | binop result op lhs rhs =>
      ValueId.text result ++ " = " ++ op.text ++ " " ++ lhs.text ++ ", " ++ rhs.text
  | widen result value => ValueId.text result ++ " = zext " ++ value.text ++ " to i64"
  | call result callee args =>
      resultText result ++ "call " ++ callee.text ++ "(" ++ Operand.texts args ++ ")"
  | count result counter amount order =>
      resultText result ++ "atomicrmw add [" ++ label counter ++ "], " ++ amount.text ++ " " ++
        order.text

end Instr

end FlowProfile
