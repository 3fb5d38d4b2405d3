/-
# Functions with the same graph

The analyses of a function look at its edges and at the number of its blocks, and at
nothing else.  Two functions whose blocks end alike, with the same parameters, therefore
have the same predecessors, order, dominators and loops, whatever code stands in the
blocks.
-/

import FlowProfile.Flow.Loops
import FlowProfile.Proofs.Func.Verified

namespace FlowProfile

namespace Func

/-- As many blocks, and each of them with the same parameters and the same end, weights
included. -/
structure SameGraph (f g : Func) : Prop where
  size_eq : g.blocks.size = f.blocks.size
  image : ∀ id block, f.block? id = some block →
    ∃ image, g.block? id = some image ∧ image.params = block.params ∧
      image.terminator = block.terminator

/-- All analyses of the graph give the same answers. -/
structure SameFlow (f g : Func) : Prop where
  predecessors_eq : g.predecessors = f.predecessors
  reversePostorder_eq : g.reversePostorder = f.reversePostorder
  immediateDominators_eq : g.immediateDominators = f.immediateDominators
  loopHeaders_eq : g.loopHeaders = f.loopHeaders

namespace SameGraph

variable {f g h : Func}

theorem refl (f : Func) : f.SameGraph f :=
  ⟨rfl, fun _ block found => ⟨block, found, rfl, rfl⟩⟩

theorem trans (first : f.SameGraph g) (second : g.SameGraph h) : f.SameGraph h where
  size_eq := second.size_eq.trans first.size_eq
  image id block found := by
    obtain ⟨middle, found', params, flow⟩ := first.image id block found
    obtain ⟨last, found'', params', flow'⟩ := second.image id middle found'
    exact ⟨last, found'', params'.trans params, flow'.trans flow⟩

/-- A change of the code of every block, and of nothing else. -/
theorem of_map (change : Block → Block) (params : ∀ block, (change block).params = block.params)
    (flow : ∀ block, (change block).terminator = block.terminator) :
    f.SameGraph { f with blocks := f.blocks.map change } where
  size_eq := Array.size_map
  image id block found := by
    refine ⟨change block, ?_, params block, flow block⟩
    rw [block?] at found ⊢
    rw [Array.getElem?_map, found, Option.map_some]

/-- Where the one function has no block the other one has none either. -/
theorem block?_eq_none_iff (same : f.SameGraph g) {id : BlockId} :
    g.block? id = none ↔ f.block? id = none := by
  rw [block?, block?, Array.getElem?_eq_none_iff, Array.getElem?_eq_none_iff, same.size_eq]

theorem successors_eq (same : f.SameGraph g) : g.successors = f.successors := by
  funext id
  unfold successors
  cases found : f.block? id with
  | none => rw [same.block?_eq_none_iff.mpr found]
  | some block =>
      obtain ⟨image, found', -, flow⟩ := same.image id block found
      rw [found']
      exact congrArg Terminator.successors flow

theorem predecessors_eq (same : f.SameGraph g) : g.predecessors = f.predecessors := by
  unfold predecessors predecessorsOf
  rw [same.size_eq, same.successors_eq]

theorem reversePostorder_eq (same : f.SameGraph g) :
    g.reversePostorder = f.reversePostorder := by
  rw [reversePostorder, reversePostorder, edgeCount, edgeCount, Array.isEmpty, Array.isEmpty,
    same.size_eq, same.successors_eq]

theorem immediateDominators_eq (same : f.SameGraph g) :
    g.immediateDominators = f.immediateDominators := by
  unfold immediateDominators ranks
  rw [same.size_eq, same.reversePostorder_eq, same.predecessors_eq]

/-- The analyses do not see more of a function than its graph. -/
theorem sameFlow (same : f.SameGraph g) : f.SameFlow g where
  predecessors_eq := same.predecessors_eq
  reversePostorder_eq := same.reversePostorder_eq
  immediateDominators_eq := same.immediateDominators_eq
  loopHeaders_eq := by
    unfold loopHeaders headerMarks markHeaders
    rw [same.immediateDominators_eq, same.reversePostorder_eq, same.size_eq, same.successors_eq]

end SameGraph

end Func

end FlowProfile
