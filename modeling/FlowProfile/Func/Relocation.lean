/-
Relocation

The counters that code adds to can be exchanged, one for one. Nothing else about the code
changes: what it computes, where it goes and what it is called stay the same.
-/

import FlowProfile.Compile.Outcome
import FlowProfile.Func.Basic

namespace FlowProfile

/-- Exchange the counter of an instruction, if it adds to one. -/
def Instr.relocate (move : Counter → Counter) : Instr → Instr
  | .count result counter amount order => .count result (move counter) amount order
  | .const result value => .const result value
  | .binop result op lhs rhs => .binop result op lhs rhs
  | .widen result value => .widen result value
  | .call result callee args => .call result callee args

/-- Exchange the counters of a block. -/
def Block.relocate (move : Counter → Counter) (block : Block) : Block :=
  { block with instrs := block.instrs.map (Instr.relocate move) }

/-- Exchange the counters of a function. -/
def Func.relocate (move : Counter → Counter) (f : Func) : Func :=
  { f with blocks := f.blocks.map (Block.relocate move) }

/-- Exchange the counters of the function that a transformation has left. -/
def Outcome.relocate (move : Counter → Counter) (outcome : Outcome) : Outcome :=
  { outcome with func := outcome.func.relocate move }

end FlowProfile
