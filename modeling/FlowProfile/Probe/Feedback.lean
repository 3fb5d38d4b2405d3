/-
Feedback

The counts of earlier runs become metadata of the function: how often it was entered, and
for each branch that was reached how often each of its edges was followed. A branch that
was never reached keeps the weights it has.
-/

import FlowProfile.Compile.Outcome
import FlowProfile.Profile.Store

namespace FlowProfile

namespace Feedback

/-- The weights that the counts of a slot amount to, if its branch was ever reached. -/
def weights? (counters : Counters) (counter : Measure → Counter) (slots : Slots) (slot : Nat) :
    Option Weights :=
  let taken := counters.read (counter (.taken slot))
  let total := counters.read (counter (.total slot))
  if slots.has slot && total != 0 then
    some ⟨taken, if taken ≤ total then total - taken else 0⟩
  else none

/-- Give the branch of a block its weights. -/
def weighBlock (weights : Option Weights) (block : Block) : Block :=
  match weights with
  | some weights => { block with terminator := block.terminator.withWeights weights }
  | none => block

/-- The blocks whose branches get weights. -/
def weighted (weightsOf : BlockId → Option Weights) (f : Func) : List BlockId :=
  (f.blocks.toList.zipIdx.filter fun (block, id) =>
    block.terminator.isBranch && (weightsOf id).isSome).map (·.2)

/-- Feed the counts back into a function. -/
def apply (counters : Counters) (store : Store) (slots : Slots) (f : Func) : Step :=
  let counter := store.counter f.name
  let calls := counters.read (counter .calls)
  let entered := { f with entryCount := some calls }
  if slots.isEmpty then ⟨entered, [.feedbackMissing f.name], .nothing⟩
  else
    let weightsOf := weights? counters counter slots
    { func := { entered with
        blocks := f.blocks.mapIdx fun id block => weighBlock (weightsOf id) block }
      events := [.feedbackApplied f.name calls (weighted weightsOf f).length]
      preserved := .nothing }

/-- Feed the counts back into a function, unless its slots are not those of its blocks. How
often it was entered is set before this is looked at. -/
def tryApply (counters : Counters) (store : Store) (slots : Slots) (f : Func) : Outcome :=
  if slots.fits f.blocks.size then .ofStep (apply counters store slots f)
  else
    let calls := counters.read (store.counter f.name .calls)
    .refused { f with entryCount := some calls } []
      (.shapeMismatch f.name slots.size f.blocks.size .before)

end Feedback

end FlowProfile
