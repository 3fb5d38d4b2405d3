/-
Optimizers

What runs between the two profiling passes. The library has two: one that does nothing,
and one that lowers allocation requests to an allocator. A request of a size that is
known and not above a limit goes to the pool of small objects, any other to the allocator
of large ones.
-/

import FlowProfile.Compile.Outcome
import FlowProfile.Settings.Basic

namespace FlowProfile

/-- A transformation with a name. -/
structure Optimizer where
  name : String
  run : Func → Outcome

/-- The optimizer that leaves every function as it is. -/
def Optimizer.noop : Optimizer :=
  ⟨"Noop", fun f => .unchanged f []⟩

/-- To which allocators requests are lowered. -/
structure Lowering where
  symbols : AllocSymbols
  poolLimit : Int64
  poolSymbol : String
  bigSymbol : String
  deriving DecidableEq

namespace Lowering

/-- The largest size that the pool serves unless stated otherwise. -/
def standardPoolLimit : Int64 := 2032

/-- The lowering in use unless stated otherwise. -/
def standard : Lowering :=
  ⟨.standard, standardPoolLimit, "jit.gc_pool_alloc", "jit.gc_big_alloc"⟩

/-- The allocator for a request with the given size operand. -/
def target (lowering : Lowering) : Option Operand → String
  | some (.const size) =>
      if size.value ≤ lowering.poolLimit then lowering.poolSymbol else lowering.bigSymbol
  | some (.value _) | none => lowering.bigSymbol

/-- Whether an instruction requests an allocation. -/
def concerns (lowering : Lowering) (instr : Instr) : Bool :=
  instr.calledSymbol? == some lowering.symbols.request

/-- Lower one instruction. -/
def lowerInstr (lowering : Lowering) (instr : Instr) : Instr :=
  match instr with
  | .call result (.symbol name) args =>
      if name = lowering.symbols.request then
        .call result (.symbol (lowering.target args[lowering.symbols.sizeArg]?)) args
      else instr
  | _ => instr

/-- The number of requests in a function. -/
def requests (lowering : Lowering) (f : Func) : Nat :=
  (f.blocks.toList.flatMap Block.instrs).countP lowering.concerns

/-- Lower all requests of a function. -/
def lower (lowering : Lowering) (f : Func) : Step :=
  { func := { f with
      blocks := f.blocks.map fun block =>
        { block with instrs := block.instrs.map lowering.lowerInstr } }
    events := [.requestsLowered f.name (lowering.requests f)]
    preserved := .ofSites (lowering.requests f) }

/-- Lowering as an optimizer. -/
def optimizer (lowering : Lowering) : Optimizer :=
  ⟨"AllocLowering", fun f => .ofStep (lowering.lower f)⟩

end Lowering

end FlowProfile
