/-
Allocation probes

Ahead of every call of an allocator the requested size is added to one counter and one to
another. A call that has no size where the settings expect it is an error, and is found
before anything is changed.
-/

import FlowProfile.Compile.Outcome
import FlowProfile.Profile.Store
import FlowProfile.Settings.Basic

namespace FlowProfile

namespace AllocSymbols

/-- Whether an instruction calls an allocator of a stage by name. -/
def recognizesCall (symbols : AllocSymbols) (stage : Stage) (instr : Instr) : Bool :=
  match instr.calledSymbol? with
  | some name => symbols.recognizes stage name
  | none => false

/-- The name of the routine if the instruction calls an allocator without a size. -/
def lacksSize? (symbols : AllocSymbols) (stage : Stage) (instr : Instr) : Option String :=
  if symbols.recognizesCall stage instr && instr.operands.length ≤ symbols.sizeArg then
    instr.calledSymbol?
  else none

/-- Refuse a function that calls an allocator without a size. The first such call in
program order is named. -/
def checkCalls (symbols : AllocSymbols) (stage : Stage) (f : Func) : Except Error Unit :=
  match f.calls.findSome? fun (block, _, instr) =>
      (symbols.lacksSize? stage instr).map fun name => (name, block) with
  | some (name, block) =>
      .error (.invalid f.name (.allocationWithoutSize name block symbols.sizeArg))
  | none => .ok ()

end AllocSymbols

namespace Probe

/-- The literal by which counts go up. -/
def one : Operand :=
  .const (.word 1)

/-- An instruction together with its allocation probe, if it needs one. -/
def withAllocation (symbols : AllocSymbols) (stage : Stage) (size count : Counter)
    (instr : Instr) : List Instr :=
  if symbols.recognizesCall stage instr then
    match instr.operands[symbols.sizeArg]? with
    | some requested => [.tally size requested, .tally count one, instr]
    | none => [instr]
  else [instr]

/-- The blocks of all calls of allocators, in program order. -/
def allocationSites (symbols : AllocSymbols) (stage : Stage) (f : Func) : List BlockId :=
  f.blocks.toList.zipIdx.flatMap fun (block, id) =>
    (block.instrs.filter (symbols.recognizesCall stage)).map fun _ => id

/-- Put allocation probes into a function. -/
def allocations (symbols : AllocSymbols) (stage : Stage) (store : Store) (f : Func) : Step :=
  let size := store.counter f.name (.size stage)
  let count := store.counter f.name (.count stage)
  let sites := allocationSites symbols stage f
  { func := { f with
      blocks := f.blocks.map fun block =>
        { block with instrs := block.instrs.flatMap (withAllocation symbols stage size count) } }
    events := (sites.map fun id => .allocationSite f.name id stage) ++
      [.allocationsInstalled f.name stage sites.length]
    preserved := .ofSites sites.length }

/-- Put allocation probes into a function, unless it calls an allocator without a size. -/
def tryAllocations (symbols : AllocSymbols) (stage : Stage) (store : Store) (f : Func) :
    Outcome :=
  match symbols.checkCalls stage f with
  | .error error => .refused f [] error
  | .ok () => .ofStep (allocations symbols stage store f)

end Probe

end FlowProfile
