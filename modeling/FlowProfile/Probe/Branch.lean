/-
Branch probes

At the end of every block that branches on a condition known only at run time, one is
added to the total of the block's slot and the condition, as zero or one, to how often
the branch was taken. The slots of a profile must agree with the function's blocks.
-/

import FlowProfile.Probe.Allocation

namespace FlowProfile

namespace Profile

/-- Refuse a function whose number of blocks is not that of the slots. -/
def checkSlots (profile : Profile) (f : Func) : Except Error Unit :=
  if profile.slots.fits f.blocks.size then .ok ()
  else .error (.shapeMismatch f.name profile.slots.size f.blocks.size .before)

end Profile

namespace Probe

/-- The probe of one branch, with a fresh value for the widened condition. -/
def branchProbe (total taken : Counter) (fresh : ValueId) (condition : Operand) : List Instr :=
  [.tally total one, .widen fresh condition, .tally taken (.value fresh)]

/-- Put branch probes into the blocks from the given slot on, taking fresh values from the
given one on. -/
def branchBlocks (counter : Measure → Counter) : Nat → ValueId → List Block → List Block
  | _, _, [] => []
  | slot, fresh, block :: rest =>
      match block.terminator.runtimeCondition? with
      | none => block :: branchBlocks counter (slot + 1) fresh rest
      | some condition =>
          let probe := branchProbe (counter (.total slot)) (counter (.taken slot)) fresh condition
          { block with instrs := block.instrs ++ probe } ::
            branchBlocks counter (slot + 1) (fresh + 1) rest

/-- The blocks that branch on a condition known only at run time. -/
def branchSites (f : Func) : List BlockId :=
  f.blocks.toList.zipIdx.filterMap fun (block, id) =>
    block.terminator.runtimeCondition?.map fun _ => id

/-- The slots after every branch of a function has its counters. -/
def branchSlots (slots : Slots) (f : Func) : Slots :=
  (branchSites f).foldl Slots.populate (slots.ensure f.blocks.size)

/-- Put branch probes into a function. -/
def branches (store : Store) (f : Func) : Step :=
  let sites := branchSites f
  { func := { f with
      blocks := (branchBlocks (store.counter f.name) 0 f.nextValue f.blocks.toList).toArray
      nextValue := f.nextValue + sites.length }
    events := (sites.map fun id => .branchSite f.name id) ++
      [.branchesInstalled f.name sites.length]
    preserved := .ofSites sites.length }

/-- Make the slots of a function and put branch probes into it, unless there are other
slots already. The first part of the answer are the slots as they are then. -/
def tryBranches (store : Store) (slots : Slots) (f : Func) : Slots × Outcome :=
  let sized := slots.ensure f.blocks.size
  if sized.size = f.blocks.size then (branchSlots slots f, .ofStep (branches store f))
  else (sized, .refused f [] (.shapeMismatch f.name sized.size f.blocks.size .before))

end Probe

end FlowProfile
