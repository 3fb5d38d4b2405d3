/-
Well-formed functions

What every transformation and the machine rely on: there is an entry block and it takes
no parameters; every value is defined at most once and is one of those given out; what is
used is defined somewhere; and every edge leads to a block other than the entry with as
many arguments as that block takes. The check looks at all blocks, reachable or not, and
names the first defect in layout order.
-/

import FlowProfile.Error
import FlowProfile.Func.Basic

namespace FlowProfile

/-- Everything a block reads, in order. -/
def Block.operands (block : Block) : List Operand :=
  block.instrs.flatMap Instr.operands ++ block.terminator.operands

namespace Func

/-- The first value of a list that is not one of those given out, or was defined before. -/
def definitionDefect? (bound : Nat) (seen : List ValueId) : List ValueId → Option Defect
  | [] => none
  | value :: rest =>
      if bound ≤ value then some (.outOfRange value)
      else if seen.contains value then some (.definedTwice value)
      else definitionDefect? bound (value :: seen) rest

/-- Whether an operand is a value that is never defined. -/
def useDefect? (definitions : List ValueId) : Operand → Option Defect
  | .value id => if definitions.contains id then none else some (.neverDefined id)
  | .const _ => none

/-- What is wrong with an edge of a block. -/
def edgeDefect? (f : Func) (source : BlockId) (edge : Edge) : Option Defect :=
  match f.block? edge.target with
  | none => some (.missingTarget source edge.target)
  | some target =>
      if edge.target = entry then some (.branchToEntry source)
      else if target.params.length ≠ edge.args.length then
        some (.edgeArity source edge.target edge.args.length target.params.length)
      else none

/-- The first defect of a block in what it uses and where it leads. -/
def blockDefect? (f : Func) (definitions : List ValueId) (id : BlockId) (block : Block) :
    Option Defect :=
  match block.operands.findSome? (useDefect? definitions) with
  | some defect => some defect
  | none => block.terminator.edges.findSome? (f.edgeDefect? id)

/-- The first defect of a function. -/
def defect? (f : Func) : Option Defect :=
  match f.block? entry with
  | none => some .noBlocks
  | some first =>
      if first.params ≠ [] then some .entryTakesParameters
      else
        match definitionDefect? f.nextValue [] f.definitions with
        | some defect => some defect
        | none =>
            f.blocks.toList.zipIdx.findSome? fun (block, id) =>
              f.blockDefect? f.definitions id block

/-- Refuse a function with a defect. -/
def verify (f : Func) : Except Error Unit :=
  match f.defect? with
  | some defect => .error (.invalid f.name defect)
  | none => .ok ()

end Func

end FlowProfile
