/-
Edits

The elementary changes a client makes to a function. An edit that names a block or an
instruction that is not there fails and changes nothing.
-/

import FlowProfile.Error
import FlowProfile.Func.Basic

namespace FlowProfile

/-- One change of a function, or a question about it. -/
inductive Edit
  | annotate (key : String) (note : Note)
  | unannotate (key : String)
  | note (key : String)
  | rename (name : String)
  | nameBlock (block : BlockId) (name : Option String)
  | setEntryCount (count : Option UInt64)
  | fresh
  | addParam (value : ValueId)
  | addBlockParam (block : BlockId) (value : ValueId)
  | addBlock (block : Block)
  | dropLastBlock
  | append (block : BlockId) (instr : Instr)
  | remove (block : BlockId) (position : Nat)
  | insert (block : BlockId) (position : Nat) (instrs : List Instr)
  | terminate (block : BlockId) (terminator : Terminator)
  | split (block : BlockId) (position : Nat) (condition : Operand) (weights : Option Weights)

namespace Edit

/-- What an edit answers. -/
inductive Answer
  | nothing
  | id (number : Nat)
  | note (note : Note)

/-- Change a block that has to be there. -/
def inBlock (f : Func) (id : BlockId) (change : Block → Except Error Block) :
    Except Error Func :=
  match f.block? id with
  | some block => (change block).map fun block => f.modifyBlock id fun _ => block
  | none => .error .outOfBounds

/-- Refuse a position that is past the end of a block. -/
def checkPosition (f : Func) (id : BlockId) (position : Nat) : Except Error Unit :=
  match f.block? id with
  | some block => if position ≤ block.instrs.length then .ok () else .error .outOfBounds
  | none => .error .outOfBounds

/-- Carry out an edit. -/
def apply (f : Func) : Edit → Except Error (Func × Answer)
  | annotate key payload =>
      .ok ({ f with notes := f.notes.insert key payload }, .nothing)
  | unannotate key => .ok ({ f with notes := f.notes.erase key }, .nothing)
  | note key => .ok (f, (f.note? key).elim .nothing .note)
  | rename name => .ok ({ f with name }, .nothing)
  | nameBlock id name =>
      (inBlock f id fun block => .ok { block with name }).map (·, .nothing)
  | setEntryCount count => .ok ({ f with entryCount := count }, .nothing)
  | fresh => .ok (f.freshValue.2, .id f.freshValue.1)
  | addParam value => .ok ({ f with params := f.params ++ [value] }, .nothing)
  | addBlockParam id value =>
      (inBlock f id fun block => .ok { block with params := block.params ++ [value] }).map
        (·, .nothing)
  | addBlock block => .ok (f.addBlock block, .id f.blocks.size)
  | dropLastBlock => .ok ({ f with blocks := f.blocks.pop }, .nothing)
  | append id instr =>
      (inBlock f id fun block => .ok { block with instrs := block.instrs ++ [instr] }).map
        (·, .nothing)
  | remove id position =>
      (inBlock f id fun block =>
        if position < block.instrs.length then
          .ok { block with instrs := block.instrs.eraseIdx position }
        else .error .outOfBounds).map (·, .nothing)
  | insert id position instrs =>
      (checkPosition f id position).map fun _ => (f.insertInstrs id position instrs, .nothing)
  | terminate id terminator =>
      (inBlock f id fun block => .ok { block with terminator }).map (·, .nothing)
  | split id position condition weights =>
      (checkPosition f id position).map fun _ =>
        let (guarded, f) := f.splitBlock id position condition weights
        (f, .id guarded)

/-- Carry out edits in order, with their answers. -/
def applyAll (f : Func) : List Edit → Except Error (Func × List Answer)
  | [] => .ok (f, [])
  | edit :: rest => do
      let (f, answer) ← edit.apply f
      let (f, answers) ← applyAll f rest
      return (f, answer :: answers)

end Edit

end FlowProfile
