/-
Functions

A function is a graph of blocks in layout order; the first block is the entry. A block's
parameters take the place of merges: they are bound by the edge through which the block
is entered. Values are numbered, and a function remembers how many numbers it has given
out, so that a fresh value never collides with an older one. New blocks go to the end:
the position of a block never changes.
-/

import FlowProfile.Func.Terminator
import FlowProfile.Table

namespace FlowProfile

/-- A block: parameters, straight-line code, and an end. -/
structure Block where
  name : Option String
  params : List ValueId
  instrs : List Instr
  terminator : Terminator
  deriving DecidableEq

namespace Block

/-- A block without code and without an end. -/
def blank (name : Option String) : Block :=
  ⟨name, [], [], .unreachable⟩

instance : Inhabited Block := ⟨blank none⟩

/-- The number of instructions, the terminator included. -/
def size (block : Block) : Nat :=
  block.instrs.length + 1

/-- The values a block defines, parameters first. -/
def definitions (block : Block) : List ValueId :=
  block.params ++ block.instrs.filterMap Instr.result?

end Block

/-- A function. `nextValue` bounds the values given out so far. -/
structure Func where
  name : String
  params : List ValueId
  blocks : Array Block
  notes : Table Note
  entryCount : Option UInt64
  nextValue : Nat
  deriving DecidableEq, Inhabited

namespace Func

/-- The position of the entry block. -/
def entry : BlockId := 0

/-- A function without anything in it. -/
def blank (name : String) : Func :=
  ⟨name, [], #[], .empty, none, 0⟩

/-- The block at a position, if there is one. -/
def block? (f : Func) (id : BlockId) : Option Block :=
  f.blocks[id]?

/-- The number of instructions of all blocks, terminators included. -/
def instrCount (f : Func) : Nat :=
  (f.blocks.toList.map Block.size).foldr (· + ·) 0

/-- All values the function defines, in order: its parameters, then block by block. -/
def definitions (f : Func) : List ValueId :=
  f.params ++ f.blocks.toList.flatMap Block.definitions

/-- The note under a key. -/
def note? (f : Func) (key : String) : Option Note :=
  f.notes.get? key

/-- Every call with its block and its position there, in program order. -/
def calls (f : Func) : List (BlockId × Nat × Instr) :=
  f.blocks.toList.zipIdx.flatMap fun (block, id) =>
    block.instrs.zipIdx.filterMap fun (instr, position) =>
      if instr.isCall then some (id, position, instr) else none

/-- The counters that the code adds to, in program order. -/
def counters (f : Func) : List Counter :=
  f.blocks.toList.flatMap fun block => block.instrs.filterMap Instr.counter?

/-- Change the block at a position, if there is one. -/
def modifyBlock (f : Func) (id : BlockId) (change : Block → Block) : Func :=
  { f with blocks := f.blocks.modify id change }

/-- Give out a fresh value. Its number is of 32 bits while `nextValue` is below `idLimit`. -/
def freshValue (f : Func) : ValueId × Func :=
  (f.nextValue, { f with nextValue := f.nextValue + 1 })

/-- Put a block at the end. Its position is the old number of blocks. -/
def addBlock (f : Func) (block : Block) : Func :=
  { f with blocks := f.blocks.push block }

/-- Put instructions into a block, the first of them at position `at`, which must not lie
past the block's end. -/
def insertInstrs (f : Func) (id : BlockId) (position : Nat) (instrs : List Instr) : Func :=
  f.modifyBlock id fun block =>
    { block with instrs := block.instrs.take position ++ instrs ++ block.instrs.drop position }

/-- The name by which the parts of a split block are known. -/
def splitName (id : BlockId) (block : Block) : String :=
  block.name.getD (BlockId.text id)

/-- Split a block before position `position` and guard new code by a condition. The code
from there on and the old end move to a new block. The old block then branches to a new
guarded block, which leads on to the moved code, or straight to the moved code. The moved
code is the first of the two new blocks, the guarded block the second; the answer's first
part is the position of the guarded block. Without a block at `id` nothing happens. -/
def splitBlock (f : Func) (id : BlockId) (position : Nat) (condition : Operand)
    (weights : Option Weights) : BlockId × Func :=
  let rest := f.blocks.size
  let guarded := f.blocks.size + 1
  match f.block? id with
  | none => (guarded, f)
  | some head =>
      let name := splitName id head
      let restBlock : Block :=
        ⟨some (name ++ ".cont"), [], head.instrs.drop position, head.terminator⟩
      let guardedBlock : Block := ⟨some (name ++ ".then"), [], [], .jump ⟨rest, []⟩⟩
      let cut := f.modifyBlock id fun block =>
        { block with
          instrs := block.instrs.take position
          terminator := .branch condition ⟨guarded, []⟩ ⟨rest, []⟩ weights }
      (guarded, (cut.addBlock restBlock).addBlock guardedBlock)

end Func

end FlowProfile
