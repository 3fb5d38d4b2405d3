/-
# The passes keep functions well-formed

What a pass adds defines fresh values only, reads what the function reads already or what
was added just before it, and leads from one block of the function to another.  For the
passes that rewrite the code of each block by itself this is one argument, about the
values they define and those they read.  The call probe with a reporter is put together
from smaller changes: code ahead of the entry block, a split of that block, and one more
instruction in the guarded block.
-/

import FlowProfile.Proofs.Weave.Checks

namespace FlowProfile

/-- Values that a function does not have yet. -/
structure Func.Fresh (f : Func) (values : List ValueId) (bound : Nat) : Prop where
  distinct : values.Nodup
  between : ∀ value ∈ values, f.nextValue ≤ value ∧ value < bound

theorem Func.Fresh.range' (f : Func) (count : Nat) :
    f.Fresh (List.range' f.nextValue count) (f.nextValue + count) where
  distinct := List.nodup_range'
  between value mem := by
    obtain ⟨low, high⟩ := List.mem_range'_1.mp mem
    exact ⟨low, high⟩

/-- What a function defines after fresh values were added is defined once, by a value that
was given out. -/
theorem Func.WellFormed.definitions_of_perm {f g : Func} (sound : f.WellFormed)
    {values : List ValueId} (fresh : f.Fresh values g.nextValue)
    (le : f.nextValue ≤ g.nextValue) (perm : g.definitions.Perm (f.definitions ++ values)) :
    g.definitions.Nodup ∧ ∀ id ∈ g.definitions, id < g.nextValue := by
  constructor
  · refine perm.nodup_iff.mpr (List.nodup_append.mpr
      ⟨sound.nodup_definitions, fresh.distinct, fun old mem new mem' same => ?_⟩)
    have below := sound.lt_nextValue old mem
    have above := (fresh.between new mem').1
    rw [same] at below
    exact absurd below (Nat.not_lt_of_le above)
  · intro id mem
    rcases List.mem_append.mp (perm.mem_iff.mp mem) with old | new
    · exact Nat.lt_of_lt_of_le (sound.lt_nextValue id old) le
    · exact (fresh.between id new).2

namespace Retouched

variable {code : BlockId → Block → List Instr} {f g : Func}

theorem leadsOn (retouched : Retouched code f g) {edge : Edge} (leads : f.LeadsOn edge) :
    g.LeadsOn edge := by
  obtain ⟨target, found, inner, arity⟩ := leads
  obtain ⟨image, found', params, -⟩ := retouched.image edge.target target found
  exact ⟨image, found', inner, by rw [params, arity]⟩

/-- Rewriting the code of the blocks keeps a function well-formed if what the new code
defines is fresh, and what it reads was read in its block or is defined by it. -/
theorem wellFormed (retouched : Retouched code f g) (sound : f.WellFormed)
    (values : List ValueId) (fresh : f.Fresh values g.nextValue)
    (perm : g.definitions.Perm (f.definitions ++ values))
    (reads : ∀ id block, f.block? id = some block → ∀ instr ∈ code id block,
      ∀ used, Operand.value used ∈ instr.operands →
        Operand.value used ∈ block.operands ∨ used ∈ values) : g.WellFormed := by
  obtain ⟨distinct, below⟩ := sound.definitions_of_perm fresh retouched.le_nextValue perm
  refine ⟨?_, distinct, below, ?_, ?_⟩
  · obtain ⟨head, entered, none⟩ := sound.entry_params
    obtain ⟨image, found, params, -⟩ := retouched.image Func.entry head entered
    exact ⟨image, found, params.trans none⟩
  · intro id image found used mem
    obtain ⟨block, here, -, instrs, flow⟩ := retouched.origin found
    have known : Operand.value used ∈ block.operands ∨ used ∈ values := by
      rcases List.mem_append.mp mem with read | read
      · obtain ⟨instr, mem', read⟩ := List.mem_flatMap.mp read
        rw [instrs] at mem'
        exact reads id block here instr mem' used read
      · rw [← Terminator.operands_unweighted, flow, Terminator.operands_unweighted] at read
        exact .inl (List.mem_append_right _ read)
    rw [perm.mem_iff, List.mem_append]
    exact known.imp_left (sound.mem_definitions id block here used)
  · intro id image found edge mem
    obtain ⟨block, here, -, -, flow⟩ := retouched.origin found
    rw [← Terminator.edges_unweighted, flow, Terminator.edges_unweighted] at mem
    exact retouched.leadsOn (sound.leadsOn id block here edge mem)

/-- The same where nothing new is defined. -/
theorem wellFormed_of_definitions (retouched : Retouched code f g) (sound : f.WellFormed)
    (definitions : g.definitions = f.definitions)
    (reads : ∀ id block, f.block? id = some block → ∀ instr ∈ code id block,
      ∀ used, Operand.value used ∈ instr.operands → Operand.value used ∈ block.operands) :
    g.WellFormed := by
  refine retouched.wellFormed sound [] ⟨.nil, nofun⟩ ?_ ?_
  · rw [definitions, List.append_nil]
  · exact fun id block found instr mem used read => .inl (reads id block found instr mem used read)

end Retouched

/-- A change of the code of every block that defines the same values. -/
theorem Func.definitions_map {f : Func} {code : Block → List Instr}
    (same : ∀ block, (code block).filterMap Instr.result? = block.instrs.filterMap Instr.result?) :
    ({ f with blocks := f.blocks.map fun block => { block with instrs := code block } } :
      Func).definitions = f.definitions := by
  simp only [definitions, Array.toList_map, List.flatMap_map, Block.definitions, same]
  rfl

/-- What a change of one block leaves as it is. -/
theorem Func.map_modifyBlock {α : Type} (measure : Block → α) {f : Func} {id : BlockId}
    {change : Block → Block} (same : ∀ block, measure (change block) = measure block) :
    (f.modifyBlock id change).blocks.toList.map measure = f.blocks.toList.map measure := by
  show (f.blocks.modify id change).toList.map measure = _
  rw [Array.toList_modify]
  refine List.ext_getElem? fun other => ?_
  rw [List.getElem?_map, List.getElem?_map, List.getElem?_modify]
  cases f.blocks.toList[other]? with
  | none => rfl
  | some block =>
      simp only [Option.map_some]
      split
      · exact congrArg some (same block)
      · rfl

/-- A change of one block that defines the same values. -/
theorem Func.definitions_modifyBlock {f : Func} {id : BlockId} {change : Block → Block}
    (same : ∀ block, (change block).definitions = block.definitions) :
    (f.modifyBlock id change).definitions = f.definitions := by
  rw [definitions, definitions, List.flatMap_def, List.flatMap_def, map_modifyBlock _ same]
  rfl

/-- The entry block is the first one. -/
theorem Func.toList_of_entry {f : Func} {head : Block}
    (entered : f.block? Func.entry = some head) :
    ∃ rest, f.blocks.toList = head :: rest := by
  rw [Func.block?, ← Array.getElem?_toList] at entered
  cases listed : f.blocks.toList with
  | nil =>
      rw [listed] at entered
      cases entered
  | cons first rest =>
      rw [listed] at entered
      cases entered
      exact ⟨rest, rfl⟩

namespace Probe

/-! ## Branch probes -/

/-- Probing branches defines one value for each of them, in order. -/
theorem definitions_branchBlocks (counter : Measure → Counter) (slot fresh : Nat)
    (blocks : List Block) :
    ((branchBlocks counter slot fresh blocks).flatMap Block.definitions).Perm
      (blocks.flatMap Block.definitions ++
        List.range' fresh (blocks.countP (·.terminator.runtimeCondition?.isSome))) := by
  induction blocks generalizing slot fresh with
  | nil => exact .refl _
  | cons block rest ih =>
      unfold branchBlocks
      cases condition : block.terminator.runtimeCondition? with
      | none =>
          rw [List.countP_cons_of_neg (by simp [condition]), List.flatMap_cons, List.flatMap_cons,
            List.append_assoc]
          exact (ih (slot + 1) fresh).append_left _
      | some operand =>
          rw [List.countP_cons_of_pos (by simp [condition]), List.flatMap_cons, List.flatMap_cons,
            List.range'_succ]
          -- The value of this block's probe moves behind what the other blocks define.
          have here : Block.definitions { block with
              instrs := block.instrs ++
                branchProbe (counter (.total slot)) (counter (.taken slot)) fresh operand } =
              block.definitions ++ [fresh] := by
            simp only [Block.definitions, List.filterMap_append, List.append_assoc]
            rfl
          rw [here, List.append_assoc, List.append_assoc]
          refine List.Perm.append_left _ (((ih (slot + 1) (fresh + 1)).append_left [fresh]).trans ?_)
          rw [List.singleton_append]
          exact List.perm_middle.symm

/-- A branch probe reads the condition and its own value. -/
theorem eq_of_read_branchProbe {total taken : Counter} {fresh : ValueId} {condition : Operand}
    {instr : Instr} (mem : instr ∈ branchProbe total taken fresh condition) {used : ValueId}
    (read : Operand.value used ∈ instr.operands) :
    Operand.value used = condition ∨ used = fresh := by
  simp only [branchProbe, List.mem_cons, List.not_mem_nil, or_false] at mem
  rcases mem with rfl | rfl | rfl
  · exact absurd read (by simp [Instr.tally, Instr.operands, one])
  · exact .inl (List.mem_singleton.mp read)
  · exact .inr (Operand.value.inj (List.mem_singleton.mp read))

theorem wellFormed_branches (store : Store) {f : Func} (sound : f.WellFormed) :
    (branches store f).func.WellFormed := by
  let weave : Weave := ⟨store.name, f.name, true, none, none⟩
  have retouched : Retouched
      (fun id block => block.instrs ++ weave.tail (branchValue f id) id block.terminator) f
      (branches store f).func := Retouched.branches weave rfl rfl rfl
  refine retouched.wellFormed sound _ (.range' f (branchSites f).length) ?_ ?_
  · have perm := definitions_branchBlocks (store.counter f.name) 0 f.nextValue f.blocks.toList
    rw [← length_branchSites] at perm
    exact (List.Perm.append_left f.params perm).trans (.of_eq (List.append_assoc ..).symm)
  · intro id block found instr mem used read
    rcases List.mem_append.mp mem with own | probe
    · exact .inl (Block.mem_operands_of_mem own read)
    · cases condition : block.terminator.runtimeCondition? with
      | none =>
          rw [weave.tail_of_none condition] at probe
          cases probe
      | some operand =>
          have isRuntime : block.terminator.runtimeCondition?.isSome = true := by
            rw [condition]; rfl
          rw [Weave.tail_of_some rfl condition] at probe
          rcases eq_of_read_branchProbe probe read with rfl | rfl
          · exact .inl (List.mem_append_right _
              (Terminator.mem_operands_of_runtimeCondition? condition))
          · exact .inr (List.mem_range'_1.mpr
              ⟨Nat.le_add_right _ _, branchValue_lt found isRuntime⟩)

/-! ## Allocation probes -/

theorem filterMap_result?_withAllocation (symbols : AllocSymbols) (stage : Stage)
    (size count : Counter) (instr : Instr) :
    (withAllocation symbols stage size count instr).filterMap Instr.result? =
      [instr].filterMap Instr.result? := by
  unfold withAllocation
  split
  · split <;> rfl
  · rfl

/-- An allocation probe reads the requested size, which the call reads as well. -/
theorem read_of_mem_withAllocation {symbols : AllocSymbols} {stage : Stage}
    {size count : Counter} {instr probe : Instr}
    (mem : probe ∈ withAllocation symbols stage size count instr) {used : ValueId}
    (read : Operand.value used ∈ probe.operands) : Operand.value used ∈ instr.operands := by
  unfold withAllocation at mem
  split at mem
  · split at mem
    · next requested here =>
        simp only [List.mem_cons, List.not_mem_nil, or_false] at mem
        rcases mem with rfl | rfl | rfl
        · rw [List.mem_singleton.mp read]
          exact List.mem_of_getElem? here
        · exact absurd read (by simp [Instr.tally, Instr.operands, one])
        · exact read
    · rwa [List.mem_singleton.mp mem] at read
  · rwa [List.mem_singleton.mp mem] at read

theorem wellFormed_allocations (symbols : AllocSymbols) (stage : Stage) (store : Store)
    {f : Func} (sound : f.WellFormed) :
    (allocations symbols stage store f).func.WellFormed := by
  have retouched : Retouched (fun _ block => block.instrs.flatMap
      (withAllocation symbols stage (store.counter f.name (.size stage))
        (store.counter f.name (.count stage)))) f (allocations symbols stage store f).func :=
    .of_map _ (fun _ => rfl) (fun _ => rfl) (fun _ => rfl)
  refine retouched.wellFormed_of_definitions sound ?_ ?_
  · refine Func.definitions_map fun block => ?_
    simp only [List.filterMap_flatMap, filterMap_result?_withAllocation]
    rw [← List.filterMap_flatMap, List.flatMap_singleton']
  · intro id block found instr mem used read
    obtain ⟨own, mem', probe⟩ := List.mem_flatMap.mp mem
    exact Block.mem_operands_of_mem mem' (read_of_mem_withAllocation probe read)

/-! ## Counting calls -/

/-- Code ahead of everything else keeps a function well-formed if it defines the next values,
in order, and reads no others. -/
theorem wellFormed_insertEntry {f : Func} (sound : f.WellFormed) {code : List Instr}
    {count : Nat} (defines : code.filterMap Instr.result? = List.range' f.nextValue count)
    (reads : ∀ instr ∈ code, ∀ used, Operand.value used ∈ instr.operands →
      used ∈ List.range' f.nextValue count) :
    ({ f with nextValue := f.nextValue + count }.insertInstrs Func.entry 0 code).WellFormed := by
  have retouched : Retouched
      (fun id block => if Func.entry = id then code ++ block.instrs else block.instrs) f
      ({ f with nextValue := f.nextValue + count }.insertInstrs Func.entry 0 code) := by
    refine ⟨rfl, rfl, rfl, Func.size_modifyBlock _ _ _, Nat.le_add_right _ _, ?_⟩
    intro id block found
    have stood : ({ f with nextValue := f.nextValue + count } : Func).block? id = some block := found
    rw [Func.insertInstrs, Func.block?_modifyBlock, stood]
    split
    · exact ⟨_, rfl, rfl, rfl, rfl⟩
    · exact ⟨block, rfl, rfl, rfl, rfl⟩
  obtain ⟨head, entered, none⟩ := sound.entry_params
  obtain ⟨rest, listed⟩ := Func.toList_of_entry entered
  refine retouched.wellFormed sound _ (.range' f count) ?_ ?_
  · have blocks : ({ f with nextValue := f.nextValue + count }.insertInstrs Func.entry 0
        code).blocks.toList = { head with instrs := code ++ head.instrs } :: rest := by
      show (f.blocks.modify Func.entry _).toList = _
      rw [Array.toList_modify, listed]
      rfl
    refine List.perm_iff_count.mpr fun value => ?_
    rw [Func.definitions, Func.definitions, blocks, listed, retouched.params_eq]
    simp only [Block.definitions, List.flatMap_cons, List.filterMap_append, defines,
      List.count_append]
    omega
  · intro id block found instr mem used read
    split at mem
    · rcases List.mem_append.mp mem with new | own
      · exact .inr (reads instr new used read)
      · exact .inl (Block.mem_operands_of_mem own read)
    · exact .inl (Block.mem_operands_of_mem mem read)

theorem wellFormed_plainCalls (store : Store) {f : Func} (sound : f.WellFormed) :
    (plainCalls store f).func.WellFormed := by
  have defines : [countCall (store.counter f.name .calls) f.nextValue].filterMap Instr.result? =
      List.range' f.nextValue 1 := rfl
  refine wellFormed_insertEntry sound defines fun instr mem used read => ?_
  rw [List.mem_singleton.mp mem] at read
  exact absurd read (by simp [countCall, Instr.operands, one])

/-- An instruction that neither defines nor reads a value may stand at the end of a block. -/
theorem wellFormed_append {f : Func} (sound : f.WellFormed) (id : BlockId) {instr : Instr}
    (silent : instr.result? = none) (blind : ∀ used, Operand.value used ∉ instr.operands) :
    (f.modifyBlock id fun block => { block with instrs := block.instrs ++ [instr] }).WellFormed := by
  have retouched : Retouched
      (fun other block => if id = other then block.instrs ++ [instr] else block.instrs) f
      (f.modifyBlock id fun block => { block with instrs := block.instrs ++ [instr] }) := by
    refine ⟨rfl, rfl, rfl, Func.size_modifyBlock _ _ _, Nat.le_refl _, ?_⟩
    intro other block found
    rw [Func.block?_modifyBlock, found]
    split
    · exact ⟨_, rfl, rfl, rfl, rfl⟩
    · exact ⟨block, rfl, rfl, rfl, rfl⟩
  refine retouched.wellFormed_of_definitions sound ?_ ?_
  · refine Func.definitions_modifyBlock fun block => ?_
    rw [Block.definitions, List.filterMap_append, List.filterMap_cons_none silent,
      List.filterMap_nil, List.append_nil]
    rfl
  · intro other block found own mem used read
    split at mem
    · rcases List.mem_append.mp mem with old | last
      · exact Block.mem_operands_of_mem old read
      · rw [List.mem_singleton.mp last] at read
        exact absurd read (blind used)
    · exact Block.mem_operands_of_mem mem read

theorem wellFormed_reportedCalls (store : Store) (counters : Counters) (reporter : Reporter)
    {f : Func} (sound : f.WellFormed) : (reportedCalls store counters reporter f).func.WellFormed := by
  obtain ⟨head, entered, -⟩ := sound.entry_params
  have begins : (begun store f reporter).WellFormed := by
    have defines : (decision store f reporter).filterMap Instr.result? =
        List.range' f.nextValue 3 := rfl
    refine wellFormed_insertEntry sound defines fun instr mem used read => ?_
    have known : used = f.nextValue ∨ used = f.nextValue + 1 := by
      rcases List.mem_cons.mp mem with rfl | mem
      · simp [countCall, Instr.operands, one] at read
      · rcases List.mem_cons.mp mem with rfl | mem
        · exact .inl (by simpa [Instr.operands, one] using read)
        · rw [List.mem_singleton.mp mem] at read
          exact .inr (by simpa [Instr.operands] using read)
    rw [List.mem_range'_1]
    rcases known with rfl | rfl
    · exact ⟨Nat.le_refl _, Nat.lt_add_of_pos_right (by decide)⟩
    · exact ⟨Nat.le_succ _, Nat.add_lt_add_left (by decide) _⟩
  have found : (begun store f reporter).block? Func.entry =
      some { head with instrs := decision store f reporter ++ head.instrs } := by
    rw [block?_begun, if_pos rfl, entered, Option.map_some]
  rw [func_reportedCalls]
  refine wellFormed_append (begins.splitBlock found _ ?_ _) _ rfl fun used read => ?_
  · rintro used ⟨⟩
    apply Func.mem_definitions_of_block found
    exact List.mem_append_right _ (by simp [decision, prologue, Instr.result?])
  · obtain ⟨constant, -, same⟩ := List.mem_map.mp read
    cases same

end Probe

/-! ## Lowering -/

namespace Lowering

variable (lowering : Lowering)

/-- Lowering changes neither what an instruction defines nor what it reads. -/
theorem lowerInstr_same (instr : Instr) :
    (lowering.lowerInstr instr).result? = instr.result? ∧
      (lowering.lowerInstr instr).operands = instr.operands := by
  unfold lowerInstr
  split
  · split <;> exact ⟨rfl, rfl⟩
  · exact ⟨rfl, rfl⟩

theorem wellFormed_lower {f : Func} (sound : f.WellFormed) :
    (lowering.lower f).func.WellFormed := by
  have retouched : Retouched (fun _ block => block.instrs.map lowering.lowerInstr) f
      (lowering.lower f).func := .of_map _ (fun _ => rfl) (fun _ => rfl) (fun _ => rfl)
  refine retouched.wellFormed_of_definitions sound ?_ ?_
  · refine Func.definitions_map fun block => ?_
    rw [List.filterMap_map]
    exact congrArg (List.filterMap · _) (funext fun instr => (lowering.lowerInstr_same instr).1)
  · intro id block found instr mem used read
    obtain ⟨own, mem', rfl⟩ := List.mem_map.mp mem
    rw [(lowering.lowerInstr_same own).2] at read
    exact Block.mem_operands_of_mem mem' read

end Lowering

/-! ## Feedback -/

theorem Feedback.definitions_weighBlock (weights : Option Weights) (block : Block) :
    (weighBlock weights block).definitions = block.definitions := by
  unfold weighBlock
  split <;> rfl

theorem Feedback.wellFormed_apply (counters : Counters) (store : Store) (slots : Slots)
    {f : Func} (sound : f.WellFormed) : (apply counters store slots f).func.WellFormed := by
  refine (Retouched.feedback counters store slots f).wellFormed_of_definitions sound ?_ ?_
  · unfold apply
    split
    · rfl
    · have same : (f.blocks.mapIdx fun id block =>
          weighBlock (weights? counters (store.counter f.name) slots id) block).toList.map
            Block.definitions = f.blocks.toList.map Block.definitions := by
        refine List.ext_getElem? fun id => ?_
        simp only [List.getElem?_map, Array.getElem?_toList, Array.getElem?_mapIdx, Option.map_map]
        exact congrArg (Option.map · _) (funext fun block => definitions_weighBlock _ block)
      simp only [Func.definitions, List.flatMap_def, same]
  · intro id block found instr mem used read
    exact Block.mem_operands_of_mem mem read

/-! ## The stages -/

theorem Probe.Before.wellFormed_change (settings : Settings) (flags : Flags)
    (counters : Counters) (store : Store) (profile : Profile) {f : Func} (sound : f.WellFormed) :
    (change settings flags counters store profile f).2.func.WellFormed := by
  refine Step.holds_andThen (motive := Func.WellFormed) (Step.holds_andThen
    (motive := Func.WellFormed) (Step.holds_andThen (motive := Func.WellFormed) sound ?_) ?_) ?_
  · exact fun _ sound => wellFormed_branches store sound
  · exact fun _ sound => wellFormed_allocations settings.alloc .before store sound
  · exact fun _ sound => Feedback.wellFormed_apply counters store _ sound

theorem Probe.After.wellFormed_change (settings : Settings) (flags : Flags)
    (counters : Counters) (store : Store) (reporter : Option Reporter) {f : Func}
    (sound : f.WellFormed) :
    (change settings flags counters store reporter f).func.WellFormed := by
  refine Step.holds_andThen (motive := Func.WellFormed)
    (Step.holds_andThen (motive := Func.WellFormed) sound ?_) ?_
  · intro _ sound
    cases reporter with
    | none => exact wellFormed_plainCalls store sound
    | some reporter => exact wellFormed_reportedCalls store counters reporter sound
  · exact fun _ sound => wellFormed_allocations settings.alloc .after store sound

theorem Optimizer.wellFormed_run (lowering : Option Lowering) {f : Func}
    (sound : f.WellFormed) : ((ofLowering lowering).run f).func.WellFormed := by
  cases lowering with
  | none => exact sound
  | some lowering => exact lowering.wellFormed_lower sound

end FlowProfile
