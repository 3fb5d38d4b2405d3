/-
Dominators

A block dominates another if every way from the entry to the other passes through it. The
strict dominator of a block that is dominated by all others is its immediate dominator,
and following immediate dominators from a block visits exactly its dominators.

The tree of immediate dominators is found as Cooper, Harvey and Kennedy do it. The
reachable blocks but the entry get a parent, in reverse postorder: the nearest block that
is above all predecessors which have a parent already. This is repeated until no parent
changes any more. The nearest common block of two is found by going up from whichever of
the two comes later in the order.
-/

import FlowProfile.Flow.Postorder

namespace FlowProfile

/-- The parent of every block: the entry's is the entry itself, and a block that cannot be
reached has none. -/
abbrev DominatorTree := Array (Option BlockId)

namespace DominatorTree

/-- Go up from a block while it comes later in the order than another. -/
def climb (tree : DominatorTree) (ranks : Array Nat) (other block : BlockId) :
    Except Error BlockId :=
  Round.iterate
    (fun block => do
      if (← fetch ranks other) < (← fetch ranks block) then
        return .again ((← fetch tree block).getD Func.entry)
      else return .done block)
    (tree.size + 1) block

/-- The nearest block that is above both of two blocks. -/
def meet (tree : DominatorTree) (ranks : Array Nat) (first second : BlockId) :
    Except Error BlockId :=
  Round.iterate
    (fun (first, second) => do
      if first = second then return .done first
      else
        let first ← tree.climb ranks second first
        let second ← tree.climb ranks first second
        return .again (first, second))
    (tree.size + 1) (first, second)

/-- The nearest block that is above all those of some blocks which have a parent, if any
has one. -/
def meetAll (tree : DominatorTree) (ranks : Array Nat) (blocks : List BlockId) :
    Except Error (Option BlockId) :=
  blocks.foldlM
    (fun found block => do
      match ← fetch tree block, found with
      | none, _ => return found
      | some _, none => return some block
      | some _, some nearest => return some (← tree.meet ranks block nearest))
    none

/-- Give a block the parent that the tree suggests for it, and note whether that changes
the tree. -/
def adopt (ranks : Array Nat) (predecessors : Array (List BlockId))
    (state : DominatorTree × Bool) (block : BlockId) : Except Error (DominatorTree × Bool) := do
  let (tree, _) := state
  let parent ← tree.meetAll ranks (← fetch predecessors block)
  if parent.isSome ∧ (← fetch tree block) ≠ parent then
    return (← assign tree block parent, true)
  else return state

/-- Give every block its parent once. The tree is done if that changes nothing. -/
def sweep (ranks : Array Nat) (predecessors : Array (List BlockId)) (blocks : List BlockId)
    (tree : DominatorTree) : Except Error (Round DominatorTree DominatorTree) := do
  let (tree, changed) ← blocks.foldlM (adopt ranks predecessors) (tree, false)
  return if changed then .again tree else .done tree

/-- Whether a block is above another, or is that block. -/
def dominates (tree : DominatorTree) (above block : BlockId) : Except Error Bool :=
  Round.iterate
    (fun block => do
      if block = above then return .done true
      else
        match ← fetch tree block with
        | some parent => return if parent ≠ block then .again parent else .done false
        | none => return .done false)
    (tree.size + 1) block

end DominatorTree

namespace Func

/-- The positions of blocks in an order. A block that is not there comes after all that
are. -/
def ranks (f : Func) (order : List BlockId) : Array Nat :=
  order.zipIdx.foldl (fun ranks (block, rank) => ranks.setIfInBounds block rank)
    (Array.replicate f.blocks.size (UInt64.size - 1))

/-- The immediate dominators of all blocks. A parent only ever moves up in the order, so
that the rounds are bounded by the number of all such moves. -/
def immediateDominators (f : Func) : Except Error DominatorTree := do
  let size := f.blocks.size
  if size = 0 then return #[]
  else
    let order ← f.reversePostorder
    Round.iterate
      (DominatorTree.sweep (f.ranks order) f.predecessors.toArray (order.drop 1))
      (size * size + 1) ((Array.replicate size none).setIfInBounds entry (some entry))

end Func

end FlowProfile
