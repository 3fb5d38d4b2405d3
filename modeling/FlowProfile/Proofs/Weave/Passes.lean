/-
# What each pass does to the blocks

Every pass but the call probe keeps the block graph and rewrites the code of each block
by itself: it is described by `Retouched`, and descriptions compose.  The call probe
works on the entry block alone.
-/

import FlowProfile.Proofs.Flow.SameGraph
import FlowProfile.Proofs.Weave.Basic

namespace FlowProfile

/-- `f'` has the blocks of `f` with their code replaced, and possibly other weights and
fresh values. -/
structure Retouched (code : BlockId → Block → List Instr) (f f' : Func) : Prop where
  name_eq : f'.name = f.name
  params_eq : f'.params = f.params
  notes_eq : f'.notes = f.notes
  size_eq : f'.blocks.size = f.blocks.size
  le_nextValue : f.nextValue ≤ f'.nextValue
  image : ∀ id block, f.block? id = some block →
    ∃ image, f'.block? id = some image ∧ image.params = block.params ∧
      image.instrs = code id block ∧
      image.terminator.unweighted = block.terminator.unweighted

namespace Retouched

theorem refl (f : Func) : Retouched (fun _ block => block.instrs) f f where
  name_eq := rfl
  params_eq := rfl
  notes_eq := rfl
  size_eq := rfl
  le_nextValue := Nat.le_refl _
  image _ block found := ⟨block, found, rfl, rfl, rfl⟩

/-- A second rewriting that looks at the code alone applies to the outcome of the first. -/
theorem trans {code : BlockId → Block → List Instr} (rewrite : List Instr → List Instr)
    {f f' f'' : Func} (first : Retouched code f f')
    (second : Retouched (fun _ block => rewrite block.instrs) f' f'') :
    Retouched (fun id block => rewrite (code id block)) f f'' where
  name_eq := second.name_eq.trans first.name_eq
  params_eq := second.params_eq.trans first.params_eq
  notes_eq := second.notes_eq.trans first.notes_eq
  size_eq := second.size_eq.trans first.size_eq
  le_nextValue := Nat.le_trans first.le_nextValue second.le_nextValue
  image id block found := by
    obtain ⟨middle, foundMiddle, params, instrs, flow⟩ := first.image id block found
    obtain ⟨last, foundLast, params', instrs', flow'⟩ := second.image id middle foundMiddle
    exact ⟨last, foundLast, params'.trans params, by rw [instrs', instrs], flow'.trans flow⟩

/-- A change of every block by itself. -/
theorem of_map {f : Func} (change : Block → Block) {rewrite : List Instr → List Instr}
    (params : ∀ block, (change block).params = block.params)
    (instrs : ∀ block, (change block).instrs = rewrite block.instrs)
    (flow : ∀ block, (change block).terminator = block.terminator) :
    Retouched (fun _ block => rewrite block.instrs) f { f with blocks := f.blocks.map change } where
  name_eq := rfl
  params_eq := rfl
  notes_eq := rfl
  size_eq := Array.size_map
  le_nextValue := Nat.le_refl _
  image id block found := by
    refine ⟨change block, ?_, params block, instrs block, by rw [flow block]⟩
    simp only [Func.block?] at found ⊢
    rw [Array.getElem?_map, found, Option.map_some]

end Retouched

theorem Step.func_andThen (step : Step) (condition : Bool) (change : Func → Step) :
    (step.andThen condition change).func =
      if condition then (change step.func).func else step.func := by
  unfold Step.andThen
  split <;> rfl

theorem Step.le_nextValue_andThen {change : Func → Step}
    (grows : ∀ f, f.nextValue ≤ (change f).func.nextValue) (step : Step) (condition : Bool) :
    step.func.nextValue ≤ (step.andThen condition change).func.nextValue := by
  rw [Step.func_andThen]
  split
  · exact grows step.func
  · exact Nat.le_refl _

/-! ## Branch probes -/

/-- The number of blocks ahead of a position that branch on a condition known only at run
time. -/
def branchesBefore (blocks : List Block) (position : Nat) : Nat :=
  (blocks.take position).countP (·.terminator.runtimeCondition?.isSome)

/-- The value that the branch probe of a block uses. -/
def branchValue (f : Func) (id : BlockId) : ValueId :=
  f.nextValue + branchesBefore f.blocks.toList id

namespace Probe

theorem length_branchBlocks (counter : Measure → Counter) (slot : Nat) (fresh : ValueId)
    (blocks : List Block) : (branchBlocks counter slot fresh blocks).length = blocks.length := by
  induction blocks generalizing slot fresh with
  | nil => rfl
  | cons block rest ih =>
      unfold branchBlocks
      cases block.terminator.runtimeCondition? with
      | none => exact congrArg (· + 1) (ih _ _)
      | some condition => exact congrArg (· + 1) (ih _ _)

/-- The probe at the end of a block depends on its position, and on the number of probes
ahead of it through the fresh value alone. -/
theorem getElem?_branchBlocks (counter : Measure → Counter) (slot fresh : Nat)
    (blocks : List Block) (position : Nat) :
    (branchBlocks counter slot fresh blocks)[position]? =
      blocks[position]?.map fun block =>
        match block.terminator.runtimeCondition? with
        | none => block
        | some condition =>
            { block with
              instrs := block.instrs ++
                branchProbe (counter (.total (slot + position)))
                  (counter (.taken (slot + position)))
                  (fresh + branchesBefore blocks position) condition } := by
  induction blocks generalizing slot fresh position with
  | nil => rfl
  | cons block rest ih =>
      unfold branchBlocks
      cases position with
      | zero => cases condition : block.terminator.runtimeCondition? <;> simp [branchesBefore, condition]
      | succ position =>
          have shift : slot + 1 + position = slot + (position + 1) := by omega
          cases condition : block.terminator.runtimeCondition? with
          | none =>
              simp only [List.getElem?_cons_succ]
              rw [ih, shift]
              simp [branchesBefore, condition]
          | some operand =>
              have skip : fresh + 1 + branchesBefore rest position =
                  fresh + branchesBefore (block :: rest) (position + 1) := by
                simp [branchesBefore, condition]
                omega
              simp only [List.getElem?_cons_succ]
              rw [ih, shift, skip]

/-- Probing branches leaves the block graph as it is. -/
theorem sameGraph_branches (store : Store) (f : Func) :
    f.SameGraph (branches store f).func where
  size_eq := by
    simp only [branches, List.size_toArray, length_branchBlocks, Array.length_toList]
  image id block found := by
    have listed : f.blocks.toList[id]? = some block := Array.getElem?_toList.trans found
    simp only [branches, Func.block?, List.getElem?_toArray, getElem?_branchBlocks, listed,
      Option.map_some]
    cases block.terminator.runtimeCondition? <;> exact ⟨_, rfl, rfl, rfl⟩

/-- Probing allocations leaves the block graph as it is. -/
theorem sameGraph_allocations (symbols : AllocSymbols) (stage : Stage) (store : Store)
    (f : Func) : f.SameGraph (allocations symbols stage store f).func :=
  .of_map _ (fun _ => rfl) (fun _ => rfl)

theorem mem_branchSites {f : Func} {id : BlockId} :
    id ∈ branchSites f ↔
      ∃ block, f.block? id = some block ∧ block.terminator.runtimeCondition?.isSome = true := by
  simp only [branchSites, List.mem_filterMap, Prod.exists, Option.map_eq_some_iff,
    List.mk_mem_zipIdx_iff_getElem?, Array.getElem?_toList, Func.block?]
  constructor
  · rintro ⟨block, position, found, condition, isRuntime, rfl⟩
    exact ⟨block, found, by rw [isRuntime]; rfl⟩
  · rintro ⟨block, found, isRuntime⟩
    obtain ⟨condition, isCondition⟩ := Option.isSome_iff_exists.mp isRuntime
    exact ⟨block, id, found, condition, isCondition, rfl⟩

theorem length_branchSites_from (blocks : List Block) (start : Nat) :
    ((blocks.zipIdx start).filterMap fun (block, id) =>
        block.terminator.runtimeCondition?.map fun _ => id).length =
      blocks.countP (·.terminator.runtimeCondition?.isSome) := by
  induction blocks generalizing start with
  | nil => rfl
  | cons block rest ih =>
      rw [List.zipIdx_cons, List.filterMap_cons, List.countP_cons]
      cases condition : block.terminator.runtimeCondition? with
      | none => simpa [condition] using ih (start + 1)
      | some operand => simpa [condition] using ih (start + 1)

theorem length_branchSites (f : Func) :
    (branchSites f).length =
      f.blocks.toList.countP (·.terminator.runtimeCondition?.isSome) :=
  length_branchSites_from _ 0

/-- The values of the branch probes are among those that the pass gives out. -/
theorem branchValue_lt {f : Func} {id : BlockId} {block : Block}
    (found : f.block? id = some block)
    (isRuntime : block.terminator.runtimeCondition?.isSome = true) :
    branchValue f id < f.nextValue + (branchSites f).length := by
  have split : f.blocks.toList.countP (·.terminator.runtimeCondition?.isSome) =
      branchesBefore f.blocks.toList id +
        (f.blocks.toList.drop id).countP (·.terminator.runtimeCondition?.isSome) := by
    rw [branchesBefore, ← List.countP_append, List.take_append_drop]
  have here : 0 < (f.blocks.toList.drop id).countP
      (·.terminator.runtimeCondition?.isSome) := by
    refine List.countP_pos_iff.mpr ⟨block, List.mem_of_getElem? (i := 0) ?_, isRuntime⟩
    rw [List.getElem?_drop, Nat.add_zero, Array.getElem?_toList]
    exact found
  rw [branchValue, length_branchSites, split]
  exact Nat.add_lt_add_left (Nat.lt_add_of_pos_right here) _

end Probe

/-! ## Block by block -/

namespace Weave

variable (weave : Weave)

/-- An instruction with what is added to the counters of a stage ahead of it. -/
def probedAt (stage : Stage) (instr : Instr) : List Instr :=
  (weave.talliesAt stage instr).map weave.tally ++ [instr]

/-- Instructions that call no routine by name carry no allocation probe and are not
lowered. -/
theorem probedAt_of_calledSymbol? {instr : Instr} (unnamed : instr.calledSymbol? = none)
    (stage : Stage) : weave.probedAt stage instr = [instr] := by
  rcases weave.talliesAt_eq_or stage instr with none | ⟨symbols, -, -, recognized, -⟩
  · rw [probedAt, none]
    rfl
  · rw [AllocSymbols.recognizesCall, unnamed] at recognized
    cases recognized

theorem lower_of_calledSymbol? {instr : Instr} (unnamed : instr.calledSymbol? = none) :
    weave.lower instr = instr := by
  unfold lower
  cases weave.lowering with
  | none => rfl
  | some lowering =>
      cases instr with
      | call result callee args =>
          cases callee with
          | symbol name => cases unnamed
          | address code => rfl
      | _ => rfl

theorem flatMap_probedAt_of_off {weave : Weave} (off : weave.allocations = none)
    (instrs : List Instr) (stage : Stage) : instrs.flatMap (weave.probedAt stage) = instrs := by
  have alone : weave.probedAt stage = fun instr => [instr] := by
    funext instr
    simp [probedAt, talliesAt, off]
  rw [alone, List.flatMap_singleton']

theorem flatMap_probedAt {instrs : List Instr}
    (unnamed : ∀ instr ∈ instrs, instr.calledSymbol? = none) (stage : Stage) :
    instrs.flatMap (weave.probedAt stage) = instrs := by
  induction instrs with
  | nil => rfl
  | cons instr rest ih =>
      rw [List.flatMap_cons,
        weave.probedAt_of_calledSymbol? (unnamed instr List.mem_cons_self),
        ih fun other mem => unnamed other (List.mem_cons_of_mem _ mem)]
      rfl

theorem map_lower {instrs : List Instr}
    (unnamed : ∀ instr ∈ instrs, instr.calledSymbol? = none) :
    instrs.map weave.lower = instrs := by
  have same : instrs.map weave.lower = instrs.map id :=
    List.map_congr_left fun instr mem => weave.lower_of_calledSymbol? (unnamed instr mem)
  rw [same, List.map_id]

theorem calledSymbol?_of_mem_tail {fresh : ValueId} {id : BlockId} {terminator : Terminator}
    {instr : Instr} (mem : instr ∈ weave.tail fresh id terminator) :
    instr.calledSymbol? = none := by
  unfold tail at mem
  split at mem
  · simp only [Probe.branchProbe, List.mem_cons, List.not_mem_nil, or_false] at mem
    rcases mem with rfl | rfl | rfl <;> rfl
  · cases mem
  · cases mem

/-- Probing before and after the optimizer weaves an instruction in one go. -/
theorem flatMap_probedAt_lower (instr : Instr) :
    ((weave.probedAt .before instr).map weave.lower).flatMap (weave.probedAt .after) =
      weave.instr instr := by
  have unnamed : ∀ probe ∈ (weave.talliesAt .before instr).map weave.tally,
      probe.calledSymbol? = none := by
    intro probe mem
    obtain ⟨entry, -, rfl⟩ := List.mem_map.mp mem
    rfl
  rw [probedAt, List.map_append, weave.map_lower unnamed, List.flatMap_append,
    weave.flatMap_probedAt unnamed]
  simp [probedAt, Weave.instr, tallies]

/-- The three rewritings of a block's code amount to the weave. -/
theorem stages_eq_code (fresh : ValueId) (id : BlockId) (terminator : Terminator)
    (instrs : List Instr) :
    ((((instrs ++ weave.tail fresh id terminator).flatMap (weave.probedAt .before)).map
        weave.lower).flatMap (weave.probedAt .after)) =
      weave.code fresh id terminator instrs := by
  have unnamed : ∀ instr ∈ weave.tail fresh id terminator, instr.calledSymbol? = none :=
    fun instr mem => weave.calledSymbol?_of_mem_tail mem
  have own : ((instrs.flatMap (weave.probedAt .before)).map weave.lower).flatMap
      (weave.probedAt .after) = instrs.flatMap weave.instr := by
    induction instrs with
    | nil => rfl
    | cons instr rest ih =>
        rw [List.flatMap_cons, List.map_append, List.flatMap_append, ih,
          weave.flatMap_probedAt_lower, List.flatMap_cons]
  rw [List.flatMap_append, List.map_append, List.flatMap_append, own,
    weave.flatMap_probedAt unnamed, weave.map_lower unnamed, weave.flatMap_probedAt unnamed, code]

end Weave

/-! ## The passes -/

namespace Retouched

variable (weave : Weave) {store : Store} {f : Func}

theorem branches (hstore : store.name = weave.store) (hname : f.name = weave.function)
    (on : weave.branches = true) :
    Retouched (fun id block => block.instrs ++ weave.tail (branchValue f id) id block.terminator)
      f (Probe.branches store f).func where
  name_eq := rfl
  params_eq := rfl
  notes_eq := rfl
  size_eq := (Probe.sameGraph_branches store f).size_eq
  le_nextValue := Nat.le_add_right _ _
  image id block found := by
    have counters : store.counter f.name = weave.counter := by
      funext measure
      rw [Store.counter, hstore, hname, Weave.counter]
    have placed := Probe.getElem?_branchBlocks weave.counter 0 f.nextValue f.blocks.toList id
    have foundInList : f.blocks.toList[id]? = some block := Array.getElem?_toList.trans found
    rw [foundInList, Option.map_some, Nat.zero_add] at placed
    have position : (Probe.branches store f).func.block? id =
        (Probe.branchBlocks weave.counter 0 f.nextValue f.blocks.toList)[id]? := by
      simp only [Func.block?, Probe.branches, List.getElem?_toArray, counters]
    refine ⟨_, position.trans placed, ?_, ?_, ?_⟩
    · cases block.terminator.runtimeCondition? <;> rfl
    · cases condition : block.terminator.runtimeCondition? with
      | none =>
          rw [weave.tail_of_none condition, List.append_nil]
      | some operand =>
          rw [Weave.tail_of_some on condition]
          rfl
    · cases block.terminator.runtimeCondition? <;> rfl

theorem allocations {symbols : AllocSymbols} (hstore : store.name = weave.store)
    (hname : f.name = weave.function) (on : weave.allocations = some symbols) (stage : Stage) :
    Retouched (fun _ block => block.instrs.flatMap (weave.probedAt stage)) f
      (Probe.allocations symbols stage store f).func := by
  have probed (instr : Instr) :
      Probe.withAllocation symbols stage (store.counter f.name (.size stage))
        (store.counter f.name (.count stage)) instr = weave.probedAt stage instr := by
    unfold Probe.withAllocation Weave.probedAt Weave.talliesAt
    rw [on]
    by_cases recognized : symbols.recognizesCall stage instr = true
    · simp only [recognized, if_true]
      cases instr.operands[symbols.sizeArg]? with
      | none => rfl
      | some size => simp [Weave.tally, Weave.counter, Store.counter, hstore, hname]
    · simp [recognized]
  refine of_map _ (fun _ => rfl) (fun block => ?_) (fun _ => rfl)
  exact congrArg block.instrs.flatMap (funext probed)

theorem feedback (counters : Counters) (store : Store) (slots : Slots) (f : Func) :
    Retouched (fun _ block => block.instrs) f (Feedback.apply counters store slots f).func := by
  unfold Feedback.apply
  split
  · exact ⟨rfl, rfl, rfl, rfl, Nat.le_refl _, fun _ block found => ⟨block, found, rfl, rfl, rfl⟩⟩
  · refine ⟨rfl, rfl, rfl, Array.size_mapIdx, Nat.le_refl _, fun id block found => ?_⟩
    rw [Func.block?] at found
    refine ⟨Feedback.weighBlock (Feedback.weights? counters (store.counter f.name) slots id) block,
      by simp only [Func.block?, Array.getElem?_mapIdx, found, Option.map_some], ?_⟩
    unfold Feedback.weighBlock
    split
    · refine ⟨rfl, rfl, ?_⟩
      cases block.terminator <;> rfl
    · exact ⟨rfl, rfl, rfl⟩

end Retouched

/-- The optimizers of the library: the one that does nothing, and lowering. -/
def Optimizer.ofLowering : Option Lowering → Optimizer
  | none => .noop
  | some lowering => lowering.optimizer

/-- Lowering requests leaves the block graph as it is. -/
theorem Lowering.sameGraph_lower (lowering : Lowering) (f : Func) :
    f.SameGraph (lowering.lower f).func :=
  .of_map _ (fun _ => rfl) (fun _ => rfl)

theorem Retouched.optimized {weave : Weave} {optimizer : Optimizer}
    (shipped : optimizer = .ofLowering weave.lowering) (f : Func) :
    Retouched (fun _ block => block.instrs.map weave.lower) f (optimizer.run f).func := by
  rw [shipped]
  unfold Weave.lower
  cases weave.lowering with
  | none =>
      simp only [List.map_id_fun', id_eq]
      exact Retouched.refl f
  | some lowering => exact of_map _ (fun _ => rfl) (fun _ => rfl) (fun _ => rfl)

end FlowProfile
