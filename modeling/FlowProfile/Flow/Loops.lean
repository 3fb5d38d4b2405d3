/-
Loops

An edge that leads back to a dominator of its source closes a loop, and its target is the
loop's header. Edges to the same header belong to the same loop. A cycle that can be
entered at several of its blocks has no header and is no loop here.
-/

import FlowProfile.Flow.Dominators

namespace FlowProfile

namespace Func

/-- Mark the target of an edge if it dominates the source. -/
def markHeader (tree : DominatorTree) (source : BlockId) (marks : Array Bool)
    (target : BlockId) : Except Error (Array Bool) := do
  if ← tree.dominates target source then assign marks target true else return marks

/-- Mark the targets of the edges from a block that lead back, if the block is reachable. -/
def markHeaders (f : Func) (tree : DominatorTree) (marks : Array Bool) (source : BlockId) :
    Except Error (Array Bool) := do
  match ← fetch tree source with
  | some _ => (f.successors source).foldlM (markHeader tree source) marks
  | none => return marks

/-- Mark the targets of all edges from reachable blocks that lead back. -/
def headerMarks (f : Func) (tree : DominatorTree) : Except Error (Array Bool) :=
  (List.range f.blocks.size).foldlM (f.markHeaders tree) (Array.replicate f.blocks.size false)

/-- The loop headers in reverse postorder, so that an outer loop comes before the loops
inside it. -/
def loopHeaders (f : Func) : Except Error (List BlockId) := do
  let marks ← f.headerMarks (← f.immediateDominators)
  return (← f.reversePostorder).filter (marks.getD · false)

/-- The number of loops. -/
def loopCount (f : Func) : Except Error Nat :=
  f.loopHeaders.map List.length

end Func

/-- The size of a function: its loops, blocks and instructions. -/
structure Shape where
  loops : UInt64
  blocks : UInt64
  instrs : UInt64
  deriving DecidableEq

instance : Inhabited Shape := ⟨0, 0, 0⟩

/-- The shape a function has now. -/
def Func.shape (f : Func) : Except Error Shape :=
  f.loopCount.map fun loops => ⟨loops.toUInt64, f.blocks.size.toUInt64, f.instrCount.toUInt64⟩

end FlowProfile
