/-
# Ways through a function

What the analyses compute is said here without them.  A way follows the edges of a
function from block to block.  A block is reachable if a way leads to it from the entry,
and it is dominated by the blocks that lie on every such way.
-/

import FlowProfile.Flow.Graph

namespace FlowProfile

namespace Func

/-- A way along edges, with the blocks on it in order, both ends included. -/
inductive Way (f : Func) (source : BlockId) : BlockId → List BlockId → Prop
  | start : Way f source source [source]
  | step {middle target : BlockId} {blocks : List BlockId} (earlier : Way f source middle blocks)
      (leads : f.Leads middle target) : Way f source target (blocks ++ [target])

/-- A way leads from the one block to the other. -/
def Reaches (f : Func) (source target : BlockId) : Prop :=
  ∃ blocks, f.Way source target blocks

/-- A way leads from the entry to the block. -/
def Reachable (f : Func) (block : BlockId) : Prop :=
  f.Reaches entry block

/-- Every way from the entry to the second block passes through the first one. -/
def Dominates (f : Func) (above block : BlockId) : Prop :=
  ∀ blocks, f.Way entry block blocks → above ∈ blocks

/-- A block dominates another one that is not the same. -/
def StrictlyDominates (f : Func) (above block : BlockId) : Prop :=
  f.Dominates above block ∧ above ≠ block

/-- The strict dominator of a block that all its other strict dominators dominate. -/
def ImmediatelyDominates (f : Func) (above block : BlockId) : Prop :=
  f.StrictlyDominates above block ∧
    ∀ other, f.StrictlyDominates other block → f.Dominates other above

variable {f : Func} {source target middle above block : BlockId} {blocks : List BlockId}

theorem Way.target_mem (way : f.Way source target blocks) : target ∈ blocks := by
  cases way with
  | start => exact List.mem_singleton_self _
  | step earlier leads => exact List.mem_append_right _ (List.mem_singleton_self _)

theorem Leads.source_lt (leads : f.Leads source target) : source < f.blocks.size := by
  have edge := leads.1
  unfold successors at edge
  split at edge
  · next block found => exact (Array.getElem?_eq_some_iff.mp found).1
  · cases edge

/-- Only blocks that are there lead anywhere. -/
theorem TargetsExist.leads (closed : f.TargetsExist) (mem : target ∈ f.successors source) :
    f.Leads source target := by
  refine ⟨mem, closed source ?_ target mem⟩
  refine Nat.lt_of_not_le fun outside => ?_
  have absent : f.block? source = none := Array.getElem?_eq_none (outside)
  rw [successors, absent] at mem
  cases mem

theorem Reaches.refl (f : Func) (block : BlockId) : f.Reaches block block :=
  ⟨_, .start⟩

theorem Reaches.trans (first : f.Reaches source middle) (second : f.Reaches middle target) :
    f.Reaches source target := by
  obtain ⟨blocks, way⟩ := second
  induction way with
  | start => exact first
  | step _ leads ih =>
      obtain ⟨blocks', way'⟩ := ih
      exact ⟨_, way'.step leads⟩

theorem Leads.reaches (leads : f.Leads source target) : f.Reaches source target :=
  ⟨_, .step .start leads⟩

theorem reachable_entry (f : Func) : f.Reachable entry :=
  .refl f entry

theorem Reachable.step (reachable : f.Reachable source) (leads : f.Leads source target) :
    f.Reachable target :=
  reachable.trans leads.reaches

theorem Reachable.lt_size (pos : 0 < f.blocks.size) (reachable : f.Reachable block) :
    block < f.blocks.size := by
  obtain ⟨blocks, way⟩ := reachable
  cases way with
  | start => exact pos
  | step earlier leads => exact leads.2

theorem Dominates.refl (f : Func) (block : BlockId) : f.Dominates block block :=
  fun _ way => way.target_mem

/-- Only the entry dominates the entry. -/
theorem Dominates.eq_entry (dominates : f.Dominates above entry) : above = entry :=
  List.mem_singleton.mp (dominates _ .start)

/-- What strictly dominates a block dominates all its predecessors. -/
theorem StrictlyDominates.of_leads (strictly : f.StrictlyDominates above target)
    (leads : f.Leads source target) : f.Dominates above source := by
  intro blocks way
  have mem := strictly.1 _ (way.step leads)
  rcases List.mem_append.mp mem with earlier | last
  · exact earlier
  · exact absurd (List.mem_singleton.mp last) strictly.2

end Func

end FlowProfile
