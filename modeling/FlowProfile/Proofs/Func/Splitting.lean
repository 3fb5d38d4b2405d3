/-
# Split functions are verified

A block that is split keeps its place, its parameters and the code ahead of the cut.  The
code behind the cut and the old end of the block go to the first of two new blocks, and the
guarded block is the second one.  Nothing else changes.  What was defined still is, once,
and every edge leads to a block that takes what the edge brings, so that a split function
is verified if the function was.
-/

import FlowProfile.Proofs.Func.Verified

namespace FlowProfile

namespace Func

/-! ## Blocks after a change -/

theorem block?_modifyBlock (f : Func) (id other : BlockId) (change : Block → Block) :
    (f.modifyBlock id change).block? other =
      if id = other then (f.block? other).map change else f.block? other := by
  simp only [block?, modifyBlock, Array.getElem?_modify]

theorem block?_addBlock (f : Func) (block : Block) (id : BlockId) :
    (f.addBlock block).block? id = if id = f.blocks.size then some block else f.block? id := by
  simp only [block?, addBlock, Array.getElem?_push]

theorem size_modifyBlock (f : Func) (id : BlockId) (change : Block → Block) :
    (f.modifyBlock id change).blocks.size = f.blocks.size :=
  Array.size_modify

theorem size_addBlock (f : Func) (block : Block) :
    (f.addBlock block).blocks.size = f.blocks.size + 1 :=
  Array.size_push block

/-- Splitting a block leaves its head in place and puts the code behind it and the guarded
block at the end. -/
theorem block?_splitBlock {f : Func} {id : BlockId} {head : Block}
    (found : f.block? id = some head) (position : Nat) (condition : Operand)
    (weights : Option Weights) (other : BlockId) :
    (f.splitBlock id position condition weights).2.block? other =
      if other = f.blocks.size + 1 then
        some ⟨some (splitName id head ++ ".then"), [], [], .jump ⟨f.blocks.size, []⟩⟩
      else if other = f.blocks.size then
        some ⟨some (splitName id head ++ ".cont"), [], head.instrs.drop position, head.terminator⟩
      else if other = id then
        some { head with
          instrs := head.instrs.take position
          terminator := .branch condition ⟨f.blocks.size + 1, []⟩ ⟨f.blocks.size, []⟩ weights }
      else f.block? other := by
  simp only [splitBlock, found, block?_addBlock, size_addBlock, size_modifyBlock,
    block?_modifyBlock]
  by_cases same : other = id
  · subst same
    simp [found]
  · simp [same, Ne.symm same]

theorem header_splitBlock (f : Func) (id : BlockId) (position : Nat) (condition : Operand)
    (weights : Option Weights) :
    (f.splitBlock id position condition weights).2 =
      { f with blocks := (f.splitBlock id position condition weights).2.blocks } := by
  unfold splitBlock
  split <;> rfl

theorem splitBlock_fst (f : Func) (id : BlockId) (position : Nat) (condition : Operand)
    (weights : Option Weights) :
    (f.splitBlock id position condition weights).1 = f.blocks.size + 1 := by
  unfold splitBlock
  split <;> rfl

/-! ## The parts of a split block -/

/-- The head of a block stays, the code behind it and a guarded block are new, and nothing
else is changed. -/
structure Split (f : Func) (id : BlockId) (head : Block) (position : Nat) (condition : Operand)
    (weights : Option Weights) (g : Func) : Prop where
  header : g = { f with blocks := g.blocks }
  size_eq : g.blocks.size = f.blocks.size + 2
  head_eq : g.block? id = some { head with
    instrs := head.instrs.take position
    terminator := .branch condition ⟨f.blocks.size + 1, []⟩ ⟨f.blocks.size, []⟩ weights }
  rest_eq : g.block? f.blocks.size =
    some ⟨some (splitName id head ++ ".cont"), [], head.instrs.drop position, head.terminator⟩
  guarded_eq : g.block? (f.blocks.size + 1) =
    some ⟨some (splitName id head ++ ".then"), [], [], .jump ⟨f.blocks.size, []⟩⟩
  others : ∀ other < f.blocks.size, other ≠ id → g.block? other = f.block? other

variable {f g : Func} {id : BlockId} {head : Block} {position : Nat} {condition : Operand}
  {weights : Option Weights}

theorem split_splitBlock (found : f.block? id = some head) (position : Nat) (condition : Operand)
    (weights : Option Weights) :
    f.Split id head position condition weights
      (f.splitBlock id position condition weights).2 := by
  have inside := lt_size_of_block? found
  have stands := block?_splitBlock found position condition weights
  refine ⟨header_splitBlock f id position condition weights, ?_, ?_, ?_, ?_, ?_⟩
  · rw [splitBlock, found]
    simp only [size_addBlock, size_modifyBlock]
  · rw [stands, if_neg (Nat.ne_of_lt (Nat.lt_succ_of_lt inside)), if_neg (Nat.ne_of_lt inside),
      if_pos rfl]
  · rw [stands, if_neg (Nat.ne_of_lt (Nat.lt_succ_self _)), if_pos rfl]
  · rw [stands, if_pos rfl]
  · intro other old apart
    rw [stands, if_neg (Nat.ne_of_lt (Nat.lt_succ_of_lt old)), if_neg (Nat.ne_of_lt old),
      if_neg apart]

namespace Split

variable (split : f.Split id head position condition weights g) (found : f.block? id = some head)

include split found

/-- A block that was there takes the same parameters. -/
theorem exists_block? {other : BlockId} {block : Block} (stood : f.block? other = some block) :
    ∃ image, g.block? other = some image ∧ image.params = block.params := by
  by_cases same : other = id
  · subst same
    rw [found] at stood
    cases stood
    exact ⟨_, split.head_eq, rfl⟩
  · rw [split.others other (lt_size_of_block? stood) same]
    exact ⟨block, stood, rfl⟩

theorem leadsOn {edge : Edge} (leads : f.LeadsOn edge) : g.LeadsOn edge := by
  obtain ⟨target, stood, inner, arity⟩ := leads
  obtain ⟨image, stands, params⟩ := split.exists_block? found stood
  exact ⟨image, stands, inner, params ▸ arity⟩

/-- Both new blocks can be gone to. -/
theorem leadsOn_new : g.LeadsOn ⟨f.blocks.size + 1, []⟩ ∧ g.LeadsOn ⟨f.blocks.size, []⟩ := by
  have pos : 0 < f.blocks.size := Nat.zero_lt_of_lt (lt_size_of_block? found)
  exact ⟨⟨_, split.guarded_eq, Nat.succ_ne_zero _, rfl⟩, ⟨_, split.rest_eq, Nat.ne_of_gt pos, rfl⟩⟩

omit found in
/-- A block of the split function is one of the two new ones or the head, or was there. -/
theorem origin {other : BlockId} {image : Block} (stands : g.block? other = some image) :
    image = ⟨some (splitName id head ++ ".then"), [], [], .jump ⟨f.blocks.size, []⟩⟩ ∨
      image = ⟨some (splitName id head ++ ".cont"), [], head.instrs.drop position,
        head.terminator⟩ ∨
      image = { head with
        instrs := head.instrs.take position
        terminator := .branch condition ⟨f.blocks.size + 1, []⟩ ⟨f.blocks.size, []⟩ weights } ∨
      f.block? other = some image := by
  have below := lt_size_of_block? stands
  rw [split.size_eq] at below
  rcases Nat.lt_or_ge other f.blocks.size with old | beyond
  · by_cases same : other = id
    · subst same
      exact .inr (.inr (.inl (Option.some.inj (stands.symm.trans split.head_eq))))
    · exact .inr (.inr (.inr ((split.others other old same).symm.trans stands)))
  · rcases Nat.eq_or_lt_of_le beyond with rfl | more
    · exact .inr (.inl (Option.some.inj (stands.symm.trans split.rest_eq)))
    · obtain rfl : other = f.blocks.size + 1 := Nat.le_antisymm (Nat.le_of_lt_succ below) more
      exact .inl (Option.some.inj (stands.symm.trans split.guarded_eq))

end Split

/-- The blocks of a split function in layout order. -/
theorem toList_splitBlock (found : f.block? id = some head) (position : Nat)
    (condition : Operand) (weights : Option Weights) :
    ∃ before after, f.blocks.toList = before ++ head :: after ∧
      (f.splitBlock id position condition weights).2.blocks.toList =
        before ++ { head with
          instrs := head.instrs.take position
          terminator := .branch condition ⟨f.blocks.size + 1, []⟩ ⟨f.blocks.size, []⟩ weights } ::
            after ++
          [⟨some (splitName id head ++ ".cont"), [], head.instrs.drop position, head.terminator⟩,
            ⟨some (splitName id head ++ ".then"), [], [], .jump ⟨f.blocks.size, []⟩⟩] := by
  let cut (block : Block) : Block :=
    { block with
      instrs := block.instrs.take position
      terminator := .branch condition ⟨f.blocks.size + 1, []⟩ ⟨f.blocks.size, []⟩ weights }
  obtain ⟨before, block, after, listed, length, changed⟩ :=
    List.exists_of_modify cut (i := id) (l := f.blocks.toList)
      (by simpa using lt_size_of_block? found)
  obtain rfl : block = head := by
    rw [block?, ← Array.getElem?_toList, listed, ← length] at found
    simpa using found
  refine ⟨before, after, listed, ?_⟩
  rw [splitBlock, found]
  simp only [addBlock, modifyBlock, Array.toList_push, Array.toList_modify]
  rw [List.append_assoc]
  exact congrArg (· ++ _) changed

/-- The definitions of a split block are those of its parts. -/
theorem definitions_splitBlock (found : f.block? id = some head) (position : Nat)
    (condition : Operand) (weights : Option Weights) :
    (f.splitBlock id position condition weights).2.definitions.Perm f.definitions := by
  obtain ⟨before, after, listed, blocks⟩ := toList_splitBlock found position condition weights
  have results : (head.instrs.take position).filterMap Instr.result? ++
      (head.instrs.drop position).filterMap Instr.result? =
        head.instrs.filterMap Instr.result? := by
    rw [← List.filterMap_append, List.take_append_drop]
  refine List.perm_iff_count.mpr fun value => ?_
  rw [definitions, definitions, blocks, listed, header_splitBlock]
  have counted := congrArg (List.count value) results
  simp only [List.count_append] at counted
  simp only [Block.definitions, List.flatMap_append, List.flatMap_cons, List.flatMap_nil,
    List.count_append, List.count_nil, List.filterMap_nil, List.append_nil]
  omega

/-- A split function has no defects if the function had none and the condition is a literal
or a value that the function defines. -/
theorem WellFormed.splitBlock (sound : f.WellFormed) (found : f.block? id = some head)
    (position : Nat) (defined : ∀ used, condition = .value used → used ∈ f.definitions)
    (weights : Option Weights) :
    (f.splitBlock id position condition weights).2.WellFormed := by
  have split := split_splitBlock found position condition weights
  have perm := definitions_splitBlock found position condition weights
  generalize (f.splitBlock id position condition weights).2 = g at split perm
  have next : g.nextValue = f.nextValue := by rw [split.header]
  refine ⟨?_, perm.nodup_iff.mpr sound.nodup_definitions, ?_, ?_, ?_⟩
  · obtain ⟨first, entered, none⟩ := sound.entry_params
    obtain ⟨image, stands, params⟩ := split.exists_block? found entered
    exact ⟨image, stands, params.trans none⟩
  · rw [next]
    exact fun used mem => sound.lt_nextValue used (perm.mem_iff.mp mem)
  · intro other image stands used read
    rw [perm.mem_iff]
    have within {part : List Instr} (of : part ⊆ head.instrs)
        (read : .value used ∈ part.flatMap Instr.operands) : used ∈ f.definitions := by
      obtain ⟨instr, mem, read⟩ := List.mem_flatMap.mp read
      exact sound.mem_definitions id head found used (Block.mem_operands_of_mem (of mem) read)
    rcases split.origin stands with rfl | rfl | rfl | stood
    · cases read
    · rcases List.mem_append.mp read with inner | outer
      · exact within (List.drop_subset _ _) inner
      · exact sound.mem_definitions id head found used (List.mem_append_right _ outer)
    · rcases List.mem_append.mp read with inner | outer
      · exact within (List.take_subset _ _) inner
      · exact defined used (List.mem_singleton.mp outer).symm
    · exact sound.mem_definitions other image stood used read
  · intro other image stands edge leaves
    rcases split.origin stands with rfl | rfl | rfl | stood
    · rw [List.mem_singleton.mp leaves]
      exact (split.leadsOn_new found).2
    · exact split.leadsOn found (sound.leadsOn id head found edge leaves)
    · rcases List.mem_cons.mp leaves with rfl | last
      · exact (split.leadsOn_new found).1
      · rw [List.mem_singleton.mp last]
        exact (split.leadsOn_new found).2
    · exact split.leadsOn found (sound.leadsOn other image stood edge leaves)

end Func

end FlowProfile
