/-
Building functions

A builder makes a function step by step. It starts with an entry block, and what is
appended goes to the current block. A block that was terminated is closed: to append to
it, or to terminate it again, is a misuse. The step is carried out all the same, and the
first misuse is what the builder reports in the end. Every value the builder hands out is
fresh and is defined where it was asked for.
-/

import FlowProfile.Func.WellFormed

namespace FlowProfile

/-- A function in the making. `closed` tells for every block whether it was terminated. -/
structure Builder where
  func : Func
  current : BlockId
  closed : List Bool
  misuse : Option Defect

namespace Builder

/-- A builder of a function with this name, with an empty entry block. -/
def start (name : String) : Builder :=
  ⟨(Func.blank name).addBlock (.blank (some "entry")), Func.entry, [false], none⟩

/-- One step of the making of a function. -/
inductive Op
  | param
  | block (name : String)
  | blockParam (block : BlockId)
  | switchTo (block : BlockId)
  | current
  | annotate (key : String) (note : Note)
  | const (value : Constant)
  | binop (op : BinOp) (lhs rhs : Operand)
  | widen (value : Operand)
  | call (symbol : String) (args : List Operand)
  | callVoid (callee : Callee) (args : List Operand)
  | terminate (terminator : Terminator)

/-- Note a misuse unless there was one before. -/
def noteMisuse (builder : Builder) (misused : Bool) (defect : Defect) : Builder :=
  if misused && builder.misuse.isNone then { builder with misuse := some defect } else builder

/-- Append an instruction to the current block, which has to be there. -/
def push (builder : Builder) (instr : Instr) : Except Error Builder :=
  match builder.closed[builder.current]? with
  | none => .error .outOfBounds
  | some closed =>
      let noted := builder.noteMisuse closed (.appendedToTerminated builder.current)
      .ok { noted with
        func := builder.func.modifyBlock builder.current fun block =>
          { block with instrs := block.instrs ++ [instr] } }

/-- Terminate the current block, which has to be there. -/
def close (builder : Builder) (terminator : Terminator) : Except Error Builder :=
  match builder.closed[builder.current]? with
  | none => .error .outOfBounds
  | some closed =>
      let noted := builder.noteMisuse closed (.terminatedTwice builder.current)
      .ok { noted with
        closed := builder.closed.set builder.current true
        func := builder.func.modifyBlock builder.current fun block => { block with terminator } }

/-- Hand out a fresh value. -/
def fresh (builder : Builder) : ValueId × Builder :=
  (builder.func.nextValue, { builder with func := builder.func.freshValue.2 })

/-- Append an instruction that defines a fresh value, and hand out the value. -/
def define (builder : Builder) (instr : ValueId → Instr) :
    Except Error (Builder × Option Nat) :=
  let (value, builder) := builder.fresh
  (builder.push (instr value)).map (·, some value)

/-- Carry out a step. The second part of the answer is the value or block it handed out. -/
def apply (builder : Builder) : Op → Except Error (Builder × Option Nat)
  | .param =>
      let (value, builder) := builder.fresh
      let func := { builder.func with params := builder.func.params ++ [value] }
      .ok ({ builder with func }, some value)
  | .block name =>
      .ok ({ builder with
        func := builder.func.addBlock (.blank (some name))
        closed := builder.closed ++ [false] }, some builder.func.blocks.size)
  | .blockParam id =>
      if id < builder.func.blocks.size then
        let (value, builder) := builder.fresh
        let func := builder.func.modifyBlock id fun block =>
          { block with params := block.params ++ [value] }
        .ok ({ builder with func }, some value)
      else .error .outOfBounds
  | .switchTo id => .ok ({ builder with current := id }, none)
  | .current => .ok (builder, some builder.current)
  | .annotate key note =>
      let func := { builder.func with
        notes := builder.func.notes.insert key note }
      .ok ({ builder with func }, none)
  | .const value => builder.define (.const · value)
  | .binop op lhs rhs => builder.define (.binop · op lhs rhs)
  | .widen value => builder.define (.widen · value)
  | .call symbol args => builder.define fun value => .call (some value) (.symbol symbol) args
  | .callVoid callee args => (builder.push (.call none callee args)).map (·, none)
  | .terminate terminator => (builder.close terminator).map (·, none)

/-- Carry out steps in order. The answer has what each step handed out, up to the first
step that failed, and the builder in the end or the failure. -/
def applyAll (builder : Builder) : List Op → List (Option Nat) × Except Error Builder
  | [] => ([], .ok builder)
  | op :: rest =>
      match builder.apply op with
      | .error error => ([], .error error)
      | .ok (builder, id) =>
          let (ids, result) := builder.applyAll rest
          (id :: ids, result)

/-- The function that was made, if the builder was used as it should be, every block was
terminated, and the function is well formed. -/
def build (builder : Builder) : Except Error Func :=
  match builder.misuse with
  | some defect => .error (.invalid builder.func.name defect)
  | none =>
      match builder.closed.findIdx? (· = false) with
      | some block => .error (.invalid builder.func.name (.noTerminator block))
      | none => builder.func.verify.map fun _ => builder.func

end Builder

end FlowProfile
