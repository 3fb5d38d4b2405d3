/-
The block graph

The edges between the blocks of a function, seen apart from the code. A terminator may
name a block that is not there. Such an edge leads nowhere in the graph; an analysis that
meets one on its way from the entry refuses the function instead of guessing.
-/

import FlowProfile.Error
import FlowProfile.Func.Basic

namespace FlowProfile.Func

/-- The blocks that a block leads to, in order; none for a block that is not there. -/
def successors (f : Func) (id : BlockId) : List BlockId :=
  match f.block? id with
  | some block => block.terminator.successors
  | none => []

/-- There is an edge between two blocks of the function. -/
def Leads (f : Func) (source target : BlockId) : Prop :=
  target ∈ f.successors source ∧ target < f.blocks.size

/-- The blocks from which an edge leads to a block, in layout order. A branch with both
edges to the block is listed twice. -/
def predecessorsOf (f : Func) (target : BlockId) : List BlockId :=
  (List.range f.blocks.size).flatMap fun source =>
    ((f.successors source).filter (· = target)).map fun _ => source

/-- The predecessors of every block, in layout order. -/
def predecessors (f : Func) : List (List BlockId) :=
  (List.range f.blocks.size).map f.predecessorsOf

/-- Every edge of the function leads to a block that is there. -/
def TargetsExist (f : Func) : Prop :=
  ∀ id < f.blocks.size, ∀ target ∈ f.successors id, target < f.blocks.size

instance (f : Func) : Decidable f.TargetsExist := by
  unfold TargetsExist
  infer_instance

end FlowProfile.Func
