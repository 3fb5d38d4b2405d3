/-
# Functions with other counters

A function whose counters are exchanged is the same function in everything that does not
look at counters: it has the same values, the same graph and the same shape, it is refused
or accepted alike, and what is put into it can be put in before or after the exchange.
-/

import FlowProfile.Func.Relocation
import FlowProfile.Func.WellFormed
import FlowProfile.Proofs.Flow.SameGraph
import Mathlib.Data.List.Basic

namespace FlowProfile

variable {move move' : Counter → Counter} {f : Func}

namespace Instr

@[simp] theorem result?_relocate (move : Counter → Counter) (instr : Instr) :
    (instr.relocate move).result? = instr.result? := by
  cases instr <;> rfl

@[simp] theorem operands_relocate (move : Counter → Counter) (instr : Instr) :
    (instr.relocate move).operands = instr.operands := by
  cases instr <;> rfl

@[simp] theorem calledSymbol?_relocate (move : Counter → Counter) (instr : Instr) :
    (instr.relocate move).calledSymbol? = instr.calledSymbol? := by
  cases instr <;> rfl

theorem counter?_relocate (move : Counter → Counter) (instr : Instr) :
    (instr.relocate move).counter? = instr.counter?.map move := by
  cases instr <;> rfl

/-- A call adds to no counter. -/
theorem relocate_of_isCall {instr : Instr} (isCall : instr.isCall = true) :
    instr.relocate move = instr := by
  cases instr <;> first | rfl | cases isCall

theorem isCall_relocate (move : Counter → Counter) (instr : Instr) :
    (instr.relocate move).isCall = instr.isCall := by
  cases instr <;> rfl

theorem relocate_congr {instr : Instr}
    (same : ∀ counter, instr.counter? = some counter → move counter = move' counter) :
    instr.relocate move = instr.relocate move' := by
  cases instr with
  | count result counter amount order => rw [relocate, same counter rfl, relocate]
  | const | binop | widen | call => rfl

theorem relocate_id : relocate id = id := by
  funext instr
  cases instr <;> rfl

theorem relocate_relocate (instr : Instr) :
    (instr.relocate move).relocate move' = instr.relocate (move' ∘ move) := by
  cases instr <;> rfl

end Instr

namespace Block

@[simp] theorem definitions_relocate (move : Counter → Counter) (block : Block) :
    (block.relocate move).definitions = block.definitions := by
  simp [definitions, relocate, List.filterMap_map]

@[simp] theorem operands_relocate (move : Counter → Counter) (block : Block) :
    (block.relocate move).operands = block.operands := by
  simp [operands, relocate, List.flatMap_map]

@[simp] theorem size_relocate (move : Counter → Counter) (block : Block) :
    (block.relocate move).size = block.size := by
  simp [size, relocate]

end Block

namespace Func

theorem block?_relocate (move : Counter → Counter) (f : Func) (id : BlockId) :
    (f.relocate move).block? id = (f.block? id).map (Block.relocate move) := by
  simp [block?, relocate]

@[simp] theorem name_relocate (move : Counter → Counter) (f : Func) :
    (f.relocate move).name = f.name := rfl

@[simp] theorem params_relocate (move : Counter → Counter) (f : Func) :
    (f.relocate move).params = f.params := rfl

@[simp] theorem nextValue_relocate (move : Counter → Counter) (f : Func) :
    (f.relocate move).nextValue = f.nextValue := rfl

theorem freshValue_relocate (move : Counter → Counter) (f : Func) :
    (f.relocate move).freshValue = (f.freshValue.1, f.freshValue.2.relocate move) := rfl

@[simp] theorem size_blocks_relocate (move : Counter → Counter) (f : Func) :
    (f.relocate move).blocks.size = f.blocks.size :=
  Array.size_map

theorem counters_relocate (move : Counter → Counter) (f : Func) :
    (f.relocate move).counters = f.counters.map move := by
  simp only [counters, relocate, Array.toList_map, List.flatMap_map, List.map_flatMap,
    Block.relocate, List.filterMap_map, List.map_filterMap, Function.comp_def,
    Instr.counter?_relocate]

/-- Exchanges that agree on the counters of a function make the same of it. -/
theorem relocate_congr (same : ∀ counter ∈ f.counters, move counter = move' counter) :
    f.relocate move = f.relocate move' := by
  have blocks : f.blocks.map (Block.relocate move) = f.blocks.map (Block.relocate move') := by
    refine Array.map_congr_left fun block mem => ?_
    have instrs : block.instrs.map (Instr.relocate move) =
        block.instrs.map (Instr.relocate move') := by
      refine List.map_congr_left fun instr inside => Instr.relocate_congr fun counter here => ?_
      refine same counter (List.mem_flatMap.mpr ⟨block, Array.mem_toList_iff.mpr mem, ?_⟩)
      exact List.mem_filterMap.mpr ⟨instr, inside, here⟩
    rw [Block.relocate, instrs, Block.relocate]
  rw [relocate, blocks, relocate]

theorem relocate_relocate (f : Func) :
    (f.relocate move).relocate move' = f.relocate (move' ∘ move) := by
  have blocks (block : Block) :
      (block.relocate move).relocate move' = block.relocate (move' ∘ move) := by
    simp [Block.relocate, Instr.relocate_relocate, Function.comp_def]
  simp [relocate, blocks, Function.comp_def]

/-- Nothing happens to a function whose counters are left alone. -/
@[simp] theorem relocate_id : f.relocate id = f := by
  have each : Block.relocate id = id := by
    funext block
    rw [Block.relocate, Instr.relocate_id, List.map_id]
    rfl
  rw [relocate, each, Array.map_id]

theorem sameGraph_relocate (move : Counter → Counter) (f : Func) :
    f.SameGraph (f.relocate move) :=
  .of_map (Block.relocate move) (fun _ => rfl) fun _ => rfl

theorem shape_relocate (move : Counter → Counter) (f : Func) :
    (f.relocate move).shape = f.shape := by
  have graph := (f.sameGraph_relocate move)
  have loops : (f.relocate move).loopCount = f.loopCount := by
    rw [loopCount, graph.sameFlow.loopHeaders_eq, loopCount]
  have instrs : (f.relocate move).instrCount = f.instrCount := by
    simp [instrCount, relocate, Function.comp_def]
  rw [shape, loops, graph.size_eq, instrs, shape]

theorem definitions_relocate (move : Counter → Counter) (f : Func) :
    (f.relocate move).definitions = f.definitions := by
  simp [definitions, relocate, List.flatMap_map]

/-- A function has the same first defect, whatever it counts in. -/
theorem defect?_relocate (move : Counter → Counter) (f : Func) :
    (f.relocate move).defect? = f.defect? := by
  have edges (id : BlockId) : (f.relocate move).edgeDefect? id = f.edgeDefect? id := by
    funext edge
    simp only [edgeDefect?, block?_relocate]
    cases f.block? edge.target <;> rfl
  have blocks (block : Block) (id : BlockId) :
      (f.relocate move).blockDefect? f.definitions id (block.relocate move) =
        f.blockDefect? f.definitions id block := by
    simp only [blockDefect?, Block.operands_relocate, edges]
    rfl
  have mapped : (f.relocate move).blocks.toList.zipIdx =
      f.blocks.toList.zipIdx.map (Prod.map (Block.relocate move) id) := by
    rw [relocate, Array.toList_map, List.zipIdx_map]
  simp only [defect?, block?_relocate, definitions_relocate, mapped, List.findSome?_map,
    Function.comp_def, Prod.map_fst, Prod.map_snd, id_eq, blocks]
  cases f.block? entry <;> rfl

theorem verify_relocate (move : Counter → Counter) (f : Func) :
    (f.relocate move).verify = f.verify := by
  rw [verify, defect?_relocate]
  rfl

/-- Every call is where it was. -/
theorem calls_relocate (move : Counter → Counter) (f : Func) :
    (f.relocate move).calls = f.calls := by
  simp only [calls, relocate, Array.toList_map, List.zipIdx_map, List.flatMap_map]
  congr 1
  funext entry
  obtain ⟨block, id⟩ := entry
  simp only [Prod.map_apply, Block.relocate, List.zipIdx_map, List.filterMap_map]
  congr 1
  funext entry
  obtain ⟨instr, position⟩ := entry
  simp only [Function.comp_apply, Prod.map_apply, Instr.isCall_relocate, id_eq]
  split
  · next isCall => rw [Instr.relocate_of_isCall isCall]
  · rfl

/-! ## Changes of a function -/

theorem relocate_modifyBlock {id : BlockId} {change : Block → Block} (change' : Block → Block)
    (same : ∀ block, (change block).relocate move = change' (block.relocate move)) :
    (f.modifyBlock id change).relocate move = (f.relocate move).modifyBlock id change' := by
  have blocks : (f.blocks.modify id change).map (Block.relocate move) =
      (f.blocks.map (Block.relocate move)).modify id change' := by
    refine Array.ext_getElem? fun other => ?_
    by_cases here : id = other <;> simp [Array.getElem?_modify, here, same, Function.comp_def]
  rw [modifyBlock, relocate, blocks]
  rfl

/-- Code whose counters are not touched is put in before the exchange or after it. -/
theorem insertInstrs_relocate {instrs : List Instr}
    (fixed : instrs.map (Instr.relocate move) = instrs) (f : Func) (id : BlockId)
    (position : Nat) :
    (f.relocate move).insertInstrs id position instrs =
      (f.insertInstrs id position instrs).relocate move := by
  refine (relocate_modifyBlock _ fun block => ?_).symm
  simp [Block.relocate, List.map_take, List.map_drop, fixed]

theorem relocate_addBlock (f : Func) (block : Block) :
    (f.addBlock block).relocate move = (f.relocate move).addBlock (block.relocate move) := by
  simp [addBlock, relocate]

theorem splitBlock_relocate (f : Func) (id : BlockId) (position : Nat) (condition : Operand)
    (weights : Option Weights) :
    (f.relocate move).splitBlock id position condition weights =
      ((f.splitBlock id position condition weights).1,
        (f.splitBlock id position condition weights).2.relocate move) := by
  unfold splitBlock
  rw [block?_relocate, size_blocks_relocate]
  cases found : f.block? id with
  | none => rfl
  | some head =>
      simp only [Option.map_some, relocate_addBlock]
      rw [relocate_modifyBlock fun block => { block with
        instrs := block.instrs.take position
        terminator := .branch condition ⟨f.blocks.size + 1, []⟩ ⟨f.blocks.size, []⟩ weights }]
      · simp [Block.relocate, splitName, List.map_drop]
      · intro block
        simp [Block.relocate, List.map_take]

end Func

end FlowProfile
