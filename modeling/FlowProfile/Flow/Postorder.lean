/-
Reverse postorder

A walk from the entry goes along the edges in their order, into a block that was not met
before and back when all its edges are taken. The blocks in the opposite order of their
completion are the reverse postorder: the entry first, and every block before those that
can only be reached through it.

The walk keeps the blocks that it is inside of on a stack, each with the number of its
edges that were taken.
-/

import FlowProfile.Flow.Graph
import FlowProfile.Flow.Rounds

namespace FlowProfile

/-- The state of a walk: which blocks were met, the completed blocks, the last one
completed first, and the blocks that the walk is inside of, the innermost one first. -/
structure Walk where
  met : Array Bool
  order : List BlockId
  inside : List (BlockId × Nat)

namespace Walk

/-- A walk that has met the entry and is about to take its first edge. -/
def start (size : Nat) : Walk :=
  ⟨(Array.replicate size false).setIfInBounds Func.entry true, [], [(Func.entry, 0)]⟩

/-- Take the next edge of the innermost block, or complete the block if no edge is left. -/
def round (next : BlockId → List BlockId) (walk : Walk) :
    Except Error (Round Walk (List BlockId)) :=
  match walk.inside with
  | [] => .ok (.done walk.order)
  | (block, taken) :: outer =>
      match (next block)[taken]? with
      | none => .ok (.again ⟨walk.met, block :: walk.order, outer⟩)
      | some target =>
          match fetch walk.met target with
          | .error error => .error error
          | .ok true => .ok (.again ⟨walk.met, walk.order, (block, taken + 1) :: outer⟩)
          | .ok false =>
              .ok (.again ⟨walk.met.setIfInBounds target true, walk.order,
                (target, 0) :: (block, taken + 1) :: outer⟩)

end Walk

namespace Func

/-- The number of edges. -/
def edgeCount (f : Func) : Nat :=
  (List.range f.blocks.size).foldr (fun id count => (f.successors id).length + count) 0

/-- The blocks reachable from the entry, in reverse postorder. Every round takes an edge or
completes a block, and the last one finds nothing left to do. -/
def reversePostorder (f : Func) : Except Error (List BlockId) :=
  if f.blocks.isEmpty then .ok []
  else
    Round.iterate (Walk.round f.successors) (f.blocks.size + f.edgeCount + 1)
      (Walk.start f.blocks.size)

end Func

end FlowProfile
