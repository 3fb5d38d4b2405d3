/-
# Verified functions

`Func.verify` walks over a function and names its first defect.  `WellFormed` says what
a function without defects is like, clause by clause and without an order, and
`verify_eq_ok_iff` says that the two agree.  The clauses are what execution and the
transformations rely on.
-/

import FlowProfile.Flow.Graph
import FlowProfile.Func.WellFormed
import FlowProfile.Proofs.Run.Cover

namespace FlowProfile

theorem Block.mem_operands_of_mem {block : Block} {instr : Instr} (mem : instr ∈ block.instrs)
    {operand : Operand} (read : operand ∈ instr.operands) : operand ∈ block.operands :=
  List.mem_append_left _ (List.mem_flatMap.mpr ⟨instr, mem, read⟩)

namespace Func

/-- An edge leads to a block other than the entry and brings as many arguments as the
block takes. -/
def LeadsOn (f : Func) (edge : Edge) : Prop :=
  ∃ target, f.block? edge.target = some target ∧ edge.target ≠ entry ∧
    target.params.length = edge.args.length

/-- A function without defects. -/
structure WellFormed (f : Func) : Prop where
  entry_params : ∃ block, f.block? entry = some block ∧ block.params = []
  nodup_definitions : f.definitions.Nodup
  lt_nextValue : ∀ id ∈ f.definitions, id < f.nextValue
  mem_definitions : ∀ id block, f.block? id = some block → ∀ used,
    Operand.value used ∈ block.operands → used ∈ f.definitions
  leadsOn : ∀ id block, f.block? id = some block → ∀ edge ∈ block.terminator.edges,
    f.LeadsOn edge

theorem definitionDefect?_eq_none_iff {bound : Nat} {seen values : List ValueId} :
    definitionDefect? bound seen values = none ↔
      (∀ id ∈ values, id < bound) ∧ values.Nodup ∧ ∀ id ∈ values, id ∉ seen := by
  induction values generalizing seen with
  | nil => simp [definitionDefect?]
  | cons value rest ih =>
      unfold definitionDefect?
      by_cases large : bound ≤ value
      · simp [large, Nat.not_lt_of_le large]
      · by_cases known : value ∈ seen
        · simp [large, known]
        · simp only [large, if_false, List.contains_eq_mem, known, decide_false,
            Bool.false_eq_true, ih, List.mem_cons, forall_eq_or_imp, List.nodup_cons,
            Nat.lt_of_not_le large, true_and, not_false_eq_true, not_or]
          constructor
          · rintro ⟨small, distinct, fresh⟩
            exact ⟨small, ⟨fun mem => (fresh value mem).1 rfl, distinct⟩,
              fun id mem => (fresh id mem).2⟩
          · rintro ⟨small, ⟨absent, distinct⟩, fresh⟩
            exact ⟨small, distinct, fun id mem => ⟨fun same => absent (same ▸ mem), fresh id mem⟩⟩

theorem useDefect?_eq_none_iff {definitions : List ValueId} {operand : Operand} :
    useDefect? definitions operand = none ↔
      ∀ id, operand = .value id → id ∈ definitions := by
  cases operand with
  | value id => simp [useDefect?]
  | const constant => simp [useDefect?]

theorem edgeDefect?_eq_none_iff {f : Func} {source : BlockId} {edge : Edge} :
    f.edgeDefect? source edge = none ↔ f.LeadsOn edge := by
  unfold edgeDefect? LeadsOn
  cases f.block? edge.target with
  | none => simp
  | some target =>
      by_cases back : edge.target = entry
      · simp [back]
      · by_cases arity : target.params.length = edge.args.length <;> simp [back, arity]

theorem blockDefect?_eq_none_iff {f : Func} {definitions : List ValueId} {id : BlockId}
    {block : Block} :
    f.blockDefect? definitions id block = none ↔
      (∀ used, Operand.value used ∈ block.operands → used ∈ definitions) ∧
        ∀ edge ∈ block.terminator.edges, f.LeadsOn edge := by
  have uses : block.operands.findSome? (useDefect? definitions) = none ↔
      ∀ used, Operand.value used ∈ block.operands → used ∈ definitions := by
    simp only [List.findSome?_eq_none_iff, useDefect?_eq_none_iff]
    exact ⟨fun h used mem => h _ mem used rfl, fun h operand mem used same => h used (same ▸ mem)⟩
  rw [← uses]
  unfold blockDefect?
  cases block.operands.findSome? (useDefect? definitions) with
  | some defect => simp
  | none => simp [List.findSome?_eq_none_iff, edgeDefect?_eq_none_iff]

theorem findSome?_blockDefect?_eq_none_iff {f : Func} :
    (f.blocks.toList.zipIdx.findSome? fun (block, id) =>
        f.blockDefect? f.definitions id block) = none ↔
      ∀ id block, f.block? id = some block →
        (∀ used, Operand.value used ∈ block.operands → used ∈ f.definitions) ∧
          ∀ edge ∈ block.terminator.edges, f.LeadsOn edge := by
  simp only [List.findSome?_eq_none_iff, blockDefect?_eq_none_iff, Prod.forall,
    List.mk_mem_zipIdx_iff_getElem?, block?, Array.getElem?_toList]
  exact ⟨fun h id block => h block id, fun h block id => h id block⟩

theorem defect?_eq_none_iff {f : Func} : f.defect? = none ↔ f.WellFormed := by
  unfold defect?
  cases first : f.block? entry with
  | none =>
      simp only [reduceCtorEq, false_iff]
      rintro ⟨⟨block, found, -⟩, -⟩
      rw [first] at found
      cases found
  | some block =>
      by_cases params : block.params = []
      · simp only [params, ne_eq, not_true_eq_false, if_false]
        cases defect : definitionDefect? f.nextValue [] f.definitions with
        | some defect =>
            simp only [reduceCtorEq, false_iff]
            intro sound
            have none : definitionDefect? f.nextValue [] f.definitions = none :=
              definitionDefect?_eq_none_iff.mpr
                ⟨sound.lt_nextValue, sound.nodup_definitions, by simp⟩
            rw [none] at defect
            cases defect
        | none =>
            obtain ⟨small, distinct, -⟩ := definitionDefect?_eq_none_iff.mp defect
            refine Iff.trans findSome?_blockDefect?_eq_none_iff ⟨fun sound => ?_, fun sound id block found => ?_⟩
            · exact ⟨⟨block, first, params⟩, distinct, small,
                fun id block found => (sound id block found).1,
                fun id block found => (sound id block found).2⟩
            · exact ⟨sound.mem_definitions id block found, sound.leadsOn id block found⟩
      · simp only [params, ne_eq, not_false_eq_true, if_true, reduceCtorEq, false_iff]
        rintro ⟨⟨other, found, none⟩, -⟩
        rw [first] at found
        cases found
        exact params none

/-- Verification accepts exactly the functions without defects. -/
theorem verify_eq_ok_iff {f : Func} : f.verify = .ok () ↔ f.WellFormed := by
  rw [← defect?_eq_none_iff, verify]
  cases f.defect? <;> simp

section

variable {f : Func} {id : BlockId} {block : Block}

theorem lt_size_of_block? {f : Func} {id : BlockId} {block : Block}
    (found : f.block? id = some block) : id < f.blocks.size :=
  (Array.getElem?_eq_some_iff.mp found).1

theorem mem_definitions_of_param {value : ValueId} (mem : value ∈ f.params) :
    value ∈ f.definitions :=
  List.mem_append_left _ mem

theorem mem_definitions_of_block (found : f.block? id = some block) {value : ValueId}
    (mem : value ∈ block.definitions) : value ∈ f.definitions := by
  refine List.mem_append_right _ (List.mem_flatMap.mpr ⟨block, ?_, mem⟩)
  exact Array.mem_toList_iff.mpr (Array.mem_of_getElem? found)

namespace WellFormed

variable (sound : f.WellFormed)

include sound

theorem param_lt {value : ValueId} (mem : value ∈ f.params) : value < f.nextValue :=
  sound.lt_nextValue value (mem_definitions_of_param mem)

theorem blockParam_lt (found : f.block? id = some block) {value : ValueId}
    (mem : value ∈ block.params) : value < f.nextValue :=
  sound.lt_nextValue value (mem_definitions_of_block found (List.mem_append_left _ mem))

theorem result_lt (found : f.block? id = some block) {instr : Instr}
    (mem : instr ∈ block.instrs) {value : ValueId} (result : instr.result? = some value) :
    value < f.nextValue :=
  sound.lt_nextValue value (mem_definitions_of_block found
    (List.mem_append_right _ (List.mem_filterMap.mpr ⟨instr, mem, result⟩)))

theorem operand_below (found : f.block? id = some block) {operand : Operand}
    (mem : operand ∈ block.operands) : operand.Below f.nextValue := by
  rintro used rfl
  exact sound.lt_nextValue used (sound.mem_definitions id block found used mem)

theorem instr_below (found : f.block? id = some block) {instr : Instr}
    (mem : instr ∈ block.instrs) {operand : Operand} (used : operand ∈ instr.operands) :
    operand.Below f.nextValue :=
  sound.operand_below found (Block.mem_operands_of_mem mem used)

theorem terminator_below (found : f.block? id = some block) {operand : Operand}
    (used : operand ∈ block.terminator.operands) : operand.Below f.nextValue :=
  sound.operand_below found (List.mem_append_right _ used)

/-- An edge of a block is an edge of the graph. -/
theorem leads (found : f.block? id = some block) {edge : Edge}
    (leaves : edge ∈ block.terminator.edges) : f.Leads id edge.target := by
  obtain ⟨target, enters, -⟩ := sound.leadsOn id block found edge leaves
  refine ⟨?_, lt_size_of_block? enters⟩
  rw [successors, found]
  exact List.mem_map_of_mem leaves

theorem targetsExist : f.TargetsExist := by
  intro id inside target mem
  have found : f.block? id = some f.blocks[id] := Array.getElem?_eq_getElem inside
  rw [successors, found] at mem
  obtain ⟨edge, leaves, rfl⟩ := List.mem_map.mp mem
  exact (sound.leads found leaves).2

theorem blocks_pos : 0 < f.blocks.size := by
  obtain ⟨first, entered, -⟩ := sound.entry_params
  exact lt_size_of_block? entered

end WellFormed

end

end Func

end FlowProfile
