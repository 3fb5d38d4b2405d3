/-
# Passes and other counters

A pass looks at a function's counters no more than at its names of values.  It puts in the
same code, reports the same and refuses the same when the counters of the function were
exchanged before, provided that the counters which it puts in itself are not touched by the
exchange.  The optimizers of the library do the same, and so does a whole compilation with
one of them.
-/

import FlowProfile.Compile.Pipeline
import FlowProfile.Proofs.Func.Relocation
import FlowProfile.Proofs.Weave.Compiled

namespace FlowProfile

/-- Exchange the counters of the function that a change has left. -/
def Step.relocate (move : Counter → Counter) (step : Step) : Step :=
  { step with func := step.func.relocate move }

/-- Exchange the counters of the function that a compilation has left. -/
def Compilation.relocate (move : Counter → Counter) (compilation : Compilation) : Compilation :=
  { compilation with func := compilation.func.relocate move }

/-- An exchange leaves the names of a store's counters alone. -/
def Store.FixedBy (store : Store) (move : Counter → Counter) : Prop :=
  ∀ function measure, move (store.counter function measure) = store.counter function measure

/-- An optimizer that does the same whatever a function counts in. -/
def Optimizer.Blind (optimizer : Optimizer) : Prop :=
  ∀ move f, optimizer.run (f.relocate move) = (optimizer.run f).relocate move

variable {move : Counter → Counter} {store : Store} {counters : Counters} {f : Func}

theorem Outcome.andThen_relocate {change : Func → Outcome}
    (same : ∀ f, change (f.relocate move) = (change f).relocate move) (outcome : Outcome)
    (condition : Bool) :
    (outcome.relocate move).andThen condition change =
      (outcome.andThen condition change).relocate move := by
  obtain ⟨f, events, result⟩ := outcome
  unfold andThen
  cases condition with
  | false => rfl
  | true =>
      cases result with
      | error error => rfl
      | ok preserved =>
          simp only [relocate, same]

namespace Probe

theorem branchBlocks_relocate {counter : Measure → Counter}
    (fixed : ∀ measure, move (counter measure) = counter measure) (slot : Nat) (fresh : ValueId)
    (blocks : List Block) :
    branchBlocks counter slot fresh (blocks.map (Block.relocate move)) =
      (branchBlocks counter slot fresh blocks).map (Block.relocate move) := by
  induction blocks generalizing slot fresh with
  | nil => rfl
  | cons block rest ih =>
      have condition_eq : (block.relocate move).terminator.runtimeCondition? =
          block.terminator.runtimeCondition? := rfl
      simp only [List.map_cons, branchBlocks, condition_eq]
      cases block.terminator.runtimeCondition? with
      | none => simp only [ih, List.map_cons]
      | some condition =>
          simp [ih, Block.relocate, branchProbe, Instr.relocate, Instr.tally, fixed]

theorem branchSites_relocate (move : Counter → Counter) (f : Func) :
    branchSites (f.relocate move) = branchSites f := by
  simp only [branchSites, Func.relocate, Array.toList_map, List.zipIdx_map, List.filterMap_map]
  rfl

theorem branches_relocate (fixed : store.FixedBy move) (f : Func) :
    branches store (f.relocate move) = (branches store f).relocate move := by
  have blocks := branchBlocks_relocate (fixed f.name) 0 f.nextValue f.blocks.toList
  simp only [branches, branchSites_relocate, Step.relocate]
  simp [Func.relocate, blocks]

theorem branchSlots_relocate (slots : Slots) (f : Func) :
    branchSlots slots (f.relocate move) = branchSlots slots f := by
  rw [branchSlots, branchSites_relocate, Func.size_blocks_relocate, branchSlots]

theorem tryBranches_relocate (fixed : store.FixedBy move) (slots : Slots) (f : Func) :
    tryBranches store slots (f.relocate move) =
      ((tryBranches store slots f).1, (tryBranches store slots f).2.relocate move) := by
  simp only [tryBranches, Func.size_blocks_relocate, branchSlots_relocate, branches_relocate fixed]
  split <;> rfl

theorem recognizesCall_relocate (symbols : AllocSymbols) (stage : Stage) (instr : Instr) :
    symbols.recognizesCall stage (instr.relocate move) = symbols.recognizesCall stage instr := by
  simp [AllocSymbols.recognizesCall]

theorem withAllocation_relocate (symbols : AllocSymbols) (stage : Stage) {size count : Counter}
    (fixedSize : move size = size) (fixedCount : move count = count) (instr : Instr) :
    withAllocation symbols stage size count (instr.relocate move) =
      (withAllocation symbols stage size count instr).map (Instr.relocate move) := by
  simp only [withAllocation, recognizesCall_relocate, Instr.operands_relocate]
  split
  · split <;> simp [Instr.tally, Instr.relocate, fixedSize, fixedCount]
  · rfl

theorem allocationSites_relocate (symbols : AllocSymbols) (stage : Stage) (f : Func) :
    allocationSites symbols stage (f.relocate move) = allocationSites symbols stage f := by
  simp only [allocationSites, Func.relocate, Array.toList_map, List.zipIdx_map, List.flatMap_map,
    Prod.map_fst, Prod.map_snd, Block.relocate, List.filter_map, Function.comp_def,
    recognizesCall_relocate, List.map_map, id_eq]

theorem allocations_relocate (symbols : AllocSymbols) (stage : Stage) (fixed : store.FixedBy move)
    (f : Func) : allocations symbols stage store (f.relocate move) =
      (allocations symbols stage store f).relocate move := by
  have instrs := withAllocation_relocate symbols stage (fixed f.name (.size stage))
    (fixed f.name (.count stage))
  simp only [allocations, allocationSites_relocate, Step.relocate]
  simp [Func.relocate, Block.relocate, List.flatMap_map, List.map_flatMap, instrs,
    Function.comp_def]

theorem checkCalls_relocate (symbols : AllocSymbols) (stage : Stage) (f : Func) :
    symbols.checkCalls stage (f.relocate move) = symbols.checkCalls stage f := by
  rw [AllocSymbols.checkCalls, Func.calls_relocate]
  rfl

theorem tryAllocations_relocate (symbols : AllocSymbols) (stage : Stage)
    (fixed : store.FixedBy move) (f : Func) :
    tryAllocations symbols stage store (f.relocate move) =
      (tryAllocations symbols stage store f).relocate move := by
  rw [tryAllocations, checkCalls_relocate, allocations_relocate symbols stage fixed, tryAllocations]
  cases symbols.checkCalls stage f <;> rfl

theorem prologue_relocate {counter : Counter} (fixed : move counter = counter)
    (threshold : Int64) (previous current hit : ValueId) :
    (prologue counter threshold previous current hit).map (Instr.relocate move) =
      prologue counter threshold previous current hit := by
  simp only [prologue, List.map_cons, List.map_nil, countCall, Instr.relocate, fixed]

theorem calls_relocate (fixed : store.FixedBy move) (reporter : Option Reporter) (f : Func) :
    calls store counters reporter (f.relocate move) =
      (calls store counters reporter f).relocate move := by
  have own := fixed f.name .calls
  cases reporter with
  | none =>
      show plainCalls store (f.relocate move) = (plainCalls store f).relocate move
      have count (previous : ValueId) :
          [countCall (store.counter f.name .calls) previous].map (Instr.relocate move) =
            [countCall (store.counter f.name .calls) previous] := by
        simp only [List.map_cons, List.map_nil, countCall, Instr.relocate, own]
      simp only [plainCalls, Step.relocate, Func.freshValue_relocate, Func.name_relocate,
        Func.insertInstrs_relocate (count _)]
  | some reporter =>
      show reportedCalls store counters reporter (f.relocate move) =
        (reportedCalls store counters reporter f).relocate move
      have called (f : Func) (id : BlockId) (callee : Callee) (args : List Operand) :
          (f.relocate move).modifyBlock id
              (fun block => { block with instrs := block.instrs ++ [.call none callee args] }) =
            (f.modifyBlock id fun block =>
              { block with instrs := block.instrs ++ [.call none callee args] }).relocate move := by
        refine (Func.relocate_modifyBlock _ fun block => ?_).symm
        simp [Block.relocate, Instr.relocate]
      simp only [reportedCalls, Step.relocate, Func.freshValue_relocate, Func.name_relocate,
        Func.insertInstrs_relocate (prologue_relocate own ..), Func.splitBlock_relocate, called]

end Probe

namespace Feedback

theorem weighted_relocate (weightsOf : BlockId → Option Weights) (f : Func) :
    weighted weightsOf (f.relocate move) = weighted weightsOf f := by
  simp only [weighted, Func.relocate, Array.toList_map, List.zipIdx_map, List.filter_map,
    List.map_map]
  rfl

theorem apply_relocate (slots : Slots) (f : Func) :
    apply counters store slots (f.relocate move) =
      (apply counters store slots f).relocate move := by
  have blocks (weightsOf : BlockId → Option Weights) :
      (f.relocate move).blocks.mapIdx (fun id block => weighBlock (weightsOf id) block) =
        (f.blocks.mapIdx fun id block => weighBlock (weightsOf id) block).map
          (Block.relocate move) := by
    refine Array.ext_getElem? fun id => ?_
    simp only [Func.relocate, Array.getElem?_mapIdx, Array.getElem?_map, Option.map_map]
    refine congrArg (Option.map · _) (funext fun block => ?_)
    cases weightsOf id <;> rfl
  simp only [apply, weighted_relocate, Step.relocate, Func.name_relocate, blocks]
  split <;> rfl

theorem tryApply_relocate (slots : Slots) (f : Func) :
    tryApply counters store slots (f.relocate move) =
      (tryApply counters store slots f).relocate move := by
  simp only [tryApply, Func.size_blocks_relocate, apply_relocate]
  split <;> rfl

end Feedback

namespace Probe

/-- The pass before the optimizer does the same to the store and to the function. -/
theorem Before.run_relocate (settings : Settings) (fixed : store.FixedBy move) (f : Func) :
    run settings counters store (f.relocate move) =
      ((run settings counters store f).1, (run settings counters store f).2.relocate move) := by
  have check_eq (flags : Flags) (profile : Profile) :
      check settings flags profile (f.relocate move) = check settings flags profile f := by
    simp only [check, checkCalls_relocate, Profile.checkSlots, Func.size_blocks_relocate,
      Func.name_relocate]
  have perform_eq {base : Store} (fixed : base.FixedBy move) (flags : Flags) (profile : Profile) :
      perform settings flags counters base profile (f.relocate move) =
        ((perform settings flags counters base profile f).1,
          (perform settings flags counters base profile f).2.relocate move) := by
    have branched : (if flags.branches then tryBranches base profile.slots (f.relocate move)
          else (profile.slots, .unchanged (f.relocate move) [])) =
        ((if flags.branches then tryBranches base profile.slots f
            else (profile.slots, .unchanged f [])).1,
          (if flags.branches then tryBranches base profile.slots f
            else (profile.slots, .unchanged f [])).2.relocate move) := by
      split
      · exact tryBranches_relocate fixed ..
      · rfl
    simp only [perform, branched, Func.name_relocate,
      Outcome.andThen_relocate (tryAllocations_relocate settings.alloc .before fixed),
      Outcome.andThen_relocate (Feedback.tryApply_relocate _)]
  have flags_eq : settings.flagsOf (f.relocate move) = settings.flagsOf f := rfl
  rw [run, run, flags_eq, Func.shape_relocate, Func.name_relocate]
  cases settings.flagsOf f with
  | error error => rfl
  | ok flags =>
      simp only
      split
      · rfl
      · cases obtained : store.obtain f.name f.shape with
        | error error => rfl
        | ok answer =>
            obtain ⟨base, profile, created⟩ := answer
            have fixed' : base.FixedBy move := by
              intro function measure
              rw [Store.counter, (slotsOf_of_obtain obtained).1]
              exact fixed function measure
            simp only [withProfile, check_eq, perform_eq fixed']
            split
            · split <;> rfl
            · rfl

/-- So does the pass after it, to the function. -/
theorem After.run_relocate (settings : Settings) (fixed : store.FixedBy move) (f : Func) :
    run settings counters store (f.relocate move) =
      (run settings counters store f).relocate move := by
  have check_eq (flags : Flags) :
      check settings flags (f.relocate move) = check settings flags f := by
    simp only [check, checkCalls_relocate, Array.isEmpty, Func.size_blocks_relocate]
    rfl
  have perform_eq (flags : Flags) (reporter : Option Reporter) :
      perform settings flags counters store reporter (f.relocate move) =
        (perform settings flags counters store reporter f).relocate move := by
    rw [perform, perform,
      ← Outcome.andThen_relocate (tryAllocations_relocate settings.alloc .after fixed),
      ← Outcome.andThen_relocate]
    · rfl
    · intro f
      rw [calls_relocate fixed]
      rfl
  have flags_eq : settings.flagsOf (f.relocate move) = settings.flagsOf f := rfl
  rw [run, run, flags_eq]
  cases settings.flagsOf f with
  | error error => rfl
  | ok flags =>
      simp only [Func.name_relocate, check_eq, perform_eq]
      split
      · split
        · rfl
        · split <;> rfl
      · rfl

end Probe

/-! ## Compilations -/

theorem Pipeline.finish_relocate (pipeline : Pipeline) (f : Func) (events : List Event)
    (report : CompileReport) :
    pipeline.finish (f.relocate move) events report =
      (pipeline.finish f events report).relocate move := by
  rw [finish, Func.verify_relocate, finish]
  cases f.verify <;> rfl

/-- The stages after the first one do the same to a function with other counters, if the last
of them does the same to what it is given. -/
theorem Pipeline.goOn_relocate {pipeline : Pipeline} (blind : pipeline.optimizer.Blind)
    {after after' : Func → Outcome} (first : Outcome)
    (same : after' ((pipeline.optimizer.run first.func).func.relocate move) =
      (after (pipeline.optimizer.run first.func).func).relocate move) :
    pipeline.goOn (first.relocate move) after' = (pipeline.goOn first after).relocate move := by
  obtain ⟨f, events, result⟩ := first
  cases result with
  | error error => rfl
  | ok before =>
      simp only [goOn, Outcome.relocate, blind move f]
      cases (pipeline.optimizer.run f).result with
      | error error => rfl
      | ok optimizer =>
          simp only [same, Outcome.relocate]
          cases (after (pipeline.optimizer.run f).func).result with
          | error error => rfl
          | ok after => exact finish_relocate ..

theorem Lowering.lowerInstr_relocate (lowering : Lowering) (instr : Instr) :
    lowering.lowerInstr (instr.relocate move) = (lowering.lowerInstr instr).relocate move := by
  cases instr with
  | call result callee args =>
      have isCall : (lowering.lowerInstr (.call result callee args)).isCall = true := by
        unfold lowerInstr
        split
        · split <;> rfl
        · rfl
      rw [Instr.relocate_of_isCall isCall]
      rfl
  | const | binop | widen | count => rfl

/-- The optimizers of the library do not look at counters. -/
theorem Optimizer.blind_ofLowering (lowering : Option Lowering) :
    (Optimizer.ofLowering lowering).Blind := by
  intro move f
  cases lowering with
  | none => rfl
  | some lowering =>
      have requests : lowering.requests (f.relocate move) = lowering.requests f := by
        have concerned : lowering.concerns ∘ Instr.relocate move = lowering.concerns := by
          funext instr
          simp [Lowering.concerns]
        have instrs : (f.relocate move).blocks.toList.flatMap Block.instrs =
            (f.blocks.toList.flatMap Block.instrs).map (Instr.relocate move) := by
          simp [Func.relocate, Block.relocate, List.flatMap_map, List.map_flatMap]
        rw [Lowering.requests, instrs, List.countP_map, concerned, Lowering.requests]
      have blocks : (f.relocate move).blocks.map (fun block =>
            { block with instrs := block.instrs.map lowering.lowerInstr }) =
          (f.blocks.map fun block =>
            { block with instrs := block.instrs.map lowering.lowerInstr }).map
              (Block.relocate move) := by
        simp [Func.relocate, Block.relocate, Function.comp_def, lowering.lowerInstr_relocate]
      show Outcome.ofStep (lowering.lower (f.relocate move)) = _
      simp only [Lowering.lower, requests, blocks]
      rfl

end FlowProfile
