/-
# What a builder reports

The steps that a builder was asked for and what each of them handed out are a log.  From
the log alone one can tell what was placed into which block, and in which order, so that
the misuse of a builder is a property of the log and not of the builder's marks: a block
was terminated, and something more was appended to it or it was terminated again.  The
invariant `Records` says that a builder's marks and its function are what the placements so
far make them.  Every step keeps it, and with it every run of steps, those that misuse the
builder among them.  What `build` answers is read off the invariant.
-/

import FlowProfile.Func.Builder
import FlowProfile.Proofs.Func.Defects
import FlowProfile.Proofs.Func.Splitting
import Mathlib.Data.List.Induction

namespace FlowProfile

namespace Builder

/-! ## Steps and what they place -/

/-- What a step puts into a block. -/
inductive Item
  | param (value : ValueId)
  | instr (code : Instr)
  | terminator (last : Terminator)

/-- What was put into a block, with the block. -/
abbrev Placement := BlockId × Item

namespace Op

/-- A step that names a block names one that is there. -/
def NamesBelow (count : Nat) : Op → Prop
  | blockParam id | switchTo id => id < count
  | param | block _ | current | annotate .. | const _ | binop .. | widen _ | call .. |
      callVoid .. | terminate _ => True

/-- The number of blocks after a step. -/
def blocksAfter (count : Nat) : Op → Nat
  | block _ => count + 1
  | param | blockParam _ | switchTo _ | current | annotate .. | const _ | binop .. | widen _ |
      call .. | callVoid .. | terminate _ => count

/-- The current block after a step. -/
def destination (current : BlockId) : Op → BlockId
  | switchTo id => id
  | param | block _ | blockParam _ | Op.current | annotate .. | const _ | binop .. | widen _ |
      call .. | callVoid .. | terminate _ => current

/-- The value that a step handed out, when this is its answer. -/
def handed? (answer : Option Nat) : Op → Option ValueId
  | param | blockParam _ | const _ | binop .. | widen _ | call .. => answer
  | block _ | switchTo _ | current | annotate .. | callVoid .. | terminate _ => none

/-- What a step put where, when it was asked for at this current block and had this answer. -/
def placement? (current : BlockId) (answer : Option Nat) : Op → Option Placement
  | blockParam id => answer.map fun value => (id, .param value)
  | const constant => answer.map fun value => (current, .instr (.const value constant))
  | binop op lhs rhs => answer.map fun value => (current, .instr (.binop value op lhs rhs))
  | widen operand => answer.map fun value => (current, .instr (.widen value operand))
  | call symbol args =>
      answer.map fun value => (current, .instr (.call (some value) (.symbol symbol) args))
  | callVoid callee args => some (current, .instr (.call none callee args))
  | terminate terminator => some (current, .terminator terminator)
  | param | block _ | switchTo _ | Op.current | annotate .. => none

end Op

/-- The steps name only blocks that are there by then, if this many are there at first. -/
def NamesBlocks (count : Nat) : List Op → Prop
  | [] => True
  | op :: rest => op.NamesBelow count ∧ NamesBlocks (op.blocksAfter count) rest

/-- What the steps of a log put where, in order. -/
def placements (current : BlockId) : List (Op × Option Nat) → List Placement
  | [] => []
  | (op, answer) :: rest =>
      (op.placement? current answer).toList ++ placements (op.destination current) rest

/-- The values that the steps of a log handed out, in order. -/
def handedOut (log : List (Op × Option Nat)) : List ValueId :=
  log.filterMap fun (op, answer) => op.handed? answer

/-! ## Blocks and misuses, told from the placements -/

/-- The parameter that is given to a block, if one is. -/
def Item.param? : Item → Option ValueId
  | param value => some value
  | instr _ | terminator _ => none

/-- The instruction that is appended, if one is. -/
def Item.instr? : Item → Option Instr
  | instr code => some code
  | param _ | terminator _ => none

/-- The end that a block is given, if it is. -/
def Item.terminator? : Item → Option Terminator
  | terminator last => some last
  | param _ | instr _ => none

/-- What was put into one block, in order. -/
def itemsAt (placed : List Placement) (id : BlockId) : List Item :=
  placed.filterMap fun (block, item) => if block = id then some item else none

/-- A block was terminated. -/
def Terminated (placed : List Placement) (id : BlockId) : Prop :=
  ∃ terminator, (id, Item.terminator terminator) ∈ placed

/-- The misuse it is to put something into a terminated block. Parameters may be added. -/
def Item.misuse? (id : BlockId) : Item → Option Defect
  | param _ => none
  | instr _ => some (.appendedToTerminated id)
  | terminator _ => some (.terminatedTwice id)

/-- After the earlier placements, the last one is a misuse. -/
def Misuses (earlier : List Placement) (last : Placement) (defect : Defect) : Prop :=
  Terminated earlier last.1 ∧ last.2.misuse? last.1 = some defect

/-- No placement is a misuse. -/
def Orderly (placed : List Placement) : Prop :=
  ∀ earlier last later, placed = earlier ++ last :: later →
    ∀ defect, ¬ Misuses earlier last defect

/-- The first placement that is a misuse is this one. -/
def FirstMisuse (placed : List Placement) (defect : Defect) : Prop :=
  ∃ earlier last later, placed = earlier ++ last :: later ∧ Orderly earlier ∧
    Misuses earlier last defect

/-- The first of so many blocks that was never terminated is this one. -/
def FirstOpen (count : Nat) (placed : List Placement) (id : BlockId) : Prop :=
  id < count ∧ ¬ Terminated placed id ∧ ∀ lower < id, Terminated placed lower

theorem itemsAt_concat (placed : List Placement) (id other : BlockId) (item : Item) :
    itemsAt (placed ++ [(id, item)]) other =
      itemsAt placed other ++ if id = other then [item] else [] := by
  rw [itemsAt, List.filterMap_append]
  congr 1
  by_cases same : id = other <;> simp [same]

theorem terminated_concat {placed : List Placement} {id other : BlockId} {item : Item} :
    Terminated (placed ++ [(id, item)]) other ↔
      Terminated placed other ∨ id = other ∧ item.terminator?.isSome := by
  simp only [Terminated, List.mem_append, List.mem_singleton, exists_or, Prod.mk.injEq]
  refine or_congr_right ⟨?_, ?_⟩
  · rintro ⟨terminator, rfl, rfl⟩
    exact ⟨rfl, rfl⟩
  · rintro ⟨rfl, ends⟩
    obtain ⟨terminator, given⟩ := Option.isSome_iff_exists.mp ends
    cases item with
    | param value => cases given
    | instr code => cases given
    | terminator last => exact ⟨last, rfl, rfl⟩

/-- A list with one entry more is cut at that entry or ahead of it. -/
theorem cases_of_concat_eq {placed earlier later : List Placement} {added last : Placement}
    (split : placed ++ [added] = earlier ++ last :: later) :
    (later = [] ∧ earlier = placed ∧ last = added) ∨
      ∃ between, later = between ++ [added] ∧ placed = earlier ++ last :: between := by
  rcases List.eq_nil_or_concat later with rfl | ⟨between, final, rfl⟩
  · obtain ⟨same, only⟩ := List.append_inj' split rfl
    exact .inl ⟨rfl, same.symm, (List.singleton_inj.mp only).symm⟩
  · rw [List.concat_eq_append, ← List.cons_append, ← List.append_assoc] at split
    obtain ⟨same, only⟩ := List.append_inj' split rfl
    exact .inr ⟨between, by rw [List.concat_eq_append, List.singleton_inj.mp only], same⟩

theorem orderly_concat {placed : List Placement} {added : Placement} :
    Orderly (placed ++ [added]) ↔ Orderly placed ∧ ∀ defect, ¬ Misuses placed added defect := by
  constructor
  · intro orderly
    refine ⟨fun earlier last later split => ?_, orderly placed added [] rfl⟩
    apply orderly earlier last (later ++ [added])
    rw [split, List.append_assoc, List.cons_append]
  · rintro ⟨orderly, fits⟩ earlier last later split
    rcases cases_of_concat_eq split with ⟨-, rfl, rfl⟩ | ⟨between, -, rfl⟩
    · exact fits
    · exact orderly earlier last between rfl

theorem firstMisuse_concat {placed : List Placement} {added : Placement} {defect : Defect} :
    FirstMisuse (placed ++ [added]) defect ↔
      FirstMisuse placed defect ∨ Orderly placed ∧ Misuses placed added defect := by
  constructor
  · rintro ⟨earlier, last, later, split, orderly, misuses⟩
    rcases cases_of_concat_eq split with ⟨-, rfl, rfl⟩ | ⟨between, -, rfl⟩
    · exact .inr ⟨orderly, misuses⟩
    · exact .inl ⟨earlier, last, between, rfl, orderly, misuses⟩
  · rintro (⟨earlier, last, later, rfl, orderly, misuses⟩ | ⟨orderly, misuses⟩)
    · exact ⟨earlier, last, later ++ [added], by simp, orderly, misuses⟩
    · exact ⟨placed, added, [], rfl, orderly, misuses⟩

theorem mem_itemsAt {placed : List Placement} {id : BlockId} {item : Item} :
    item ∈ itemsAt placed id ↔ (id, item) ∈ placed := by
  simp [itemsAt]

theorem terminated_iff {placed : List Placement} {id : BlockId} :
    Terminated placed id ↔ (itemsAt placed id).filterMap Item.terminator? ≠ [] := by
  simp only [ne_eq, List.filterMap_eq_nil_iff, not_forall]
  constructor
  · rintro ⟨last, mem⟩
    exact ⟨_, mem_itemsAt.mpr mem, nofun⟩
  · rintro ⟨item, put, ends⟩
    cases item with
    | param value => exact (ends rfl).elim
    | instr code => exact (ends rfl).elim
    | terminator last => exact ⟨last, mem_itemsAt.mp put⟩

/-- Without a misuse a block is terminated once at most. -/
theorem Orderly.terminators_eq {placed : List Placement} (orderly : Orderly placed) {id : BlockId}
    (ended : Terminated placed id) :
    ∃ terminator, (itemsAt placed id).filterMap Item.terminator? = [terminator] := by
  induction placed using List.reverseRecOn with
  | nil =>
      obtain ⟨terminator, mem⟩ := ended
      cases mem
  | append_singleton placed added ih =>
      obtain ⟨block, item⟩ := added
      obtain ⟨orderly, fits⟩ := orderly_concat.mp orderly
      rw [itemsAt_concat, List.filterMap_append]
      by_cases before : Terminated placed id
      · obtain ⟨terminator, only⟩ := ih orderly before
        refine ⟨terminator, ?_⟩
        rw [only]
        split
        · next same =>
            cases item with
            | param value => rfl
            | instr code => rfl
            | terminator last => exact (fits _ ⟨same ▸ before, rfl⟩).elim
        · rfl
      · rw [not_not.mp (mt terminated_iff.mpr before)]
        rcases terminated_concat.mp ended with old | ⟨same, ends⟩
        · exact (before old).elim
        · obtain ⟨terminator, given⟩ := Option.isSome_iff_exists.mp ends
          exact ⟨terminator, by simp [same, given]⟩

/-! ## Blocks with what was put into them -/

/-- A block with something more in it. -/
def Item.into (block : Block) : Item → Block
  | param value => { block with params := block.params ++ [value] }
  | instr code => { block with instrs := block.instrs ++ [code] }
  | terminator last => { block with terminator := last }

/-- A block of this name with these items in it, put there in order. -/
def gather (name : Option String) (items : List Item) : Block :=
  items.foldl Item.into (.blank name)

theorem gather_concat (name : Option String) (items : List Item) (item : Item) :
    gather name (items ++ [item]) = item.into (gather name items) := by
  rw [gather, List.foldl_append]
  rfl

/-- What a block takes and holds is what was put into it, in order, and it ends as it was
told to last. -/
theorem gather_eq (name : Option String) (items : List Item) :
    gather name items =
      ⟨name, items.filterMap Item.param?, items.filterMap Item.instr?,
        (items.filterMap Item.terminator?).getLastD .unreachable⟩ := by
  induction items using List.reverseRecOn with
  | nil => rfl
  | append_singleton items item ih =>
      rw [gather_concat, ih]
      cases item <;> simp [Item.into, Item.param?, Item.instr?, Item.terminator?]

/-! ## What a builder keeps -/

/-- Put something into a block: the block has it, the marks of the builder take note of it,
and its values are given. -/
def place (builder : Builder) (id : BlockId) (item : Item) : Builder :=
  { builder with
    func := builder.func.modifyBlock id item.into
    closed := if item.terminator?.isSome then builder.closed.set id true else builder.closed
    misuse := builder.misuse.or (if builder.closed[id]? = some true then item.misuse? id else none) }

theorem noteMisuse_eq (builder : Builder) (misused : Bool) (defect : Defect) :
    builder.noteMisuse misused defect =
      { builder with misuse := builder.misuse.or (if misused then some defect else none) } := by
  obtain ⟨func, current, closed, misuse⟩ := builder
  cases misuse <;> cases misused <;> rfl

theorem push_eq {builder : Builder} (here : builder.current < builder.closed.length)
    (code : Instr) :
    builder.push code = .ok (builder.place builder.current (.instr code)) := by
  rw [push, List.getElem?_eq_getElem here]
  simp [place, noteMisuse_eq, Item.into, Item.terminator?, Item.misuse?, here]

theorem close_eq {builder : Builder} (here : builder.current < builder.closed.length)
    (last : Terminator) :
    builder.close last = .ok (builder.place builder.current (.terminator last)) := by
  rw [close, List.getElem?_eq_getElem here]
  simp [place, noteMisuse_eq, Item.into, Item.terminator?, Item.misuse?, here]

/-- A parameter may be added to every block, so that no mark changes. -/
theorem place_param (builder : Builder) (id : BlockId) (value : ValueId) :
    builder.place id (.param value) =
      { builder with func := builder.func.modifyBlock id (Item.param value).into } := by
  rw [place, Item.misuse?, ite_self, Option.or_none]
  rfl

theorem blockParam_eq {builder : Builder} {id : BlockId} (there : id < builder.func.blocks.size) :
    builder.apply (.blockParam id) =
      .ok (builder.fresh.2.place id (.param builder.func.nextValue),
        some builder.func.nextValue) := by
  rw [apply, if_pos there, place_param]
  rfl

/-- A builder of a function of this name has put into every block what the placements put
there, its marks are those that the placements make, and the values handed out are what
the function defines. -/
structure Records (name : String) (builder : Builder) (placed : List Placement)
    (handed : List ValueId) : Prop where
  named : builder.func.name = name
  current_lt : builder.current < builder.func.blocks.size
  length_closed : builder.closed.length = builder.func.blocks.size
  placed_lt : ∀ entry ∈ placed, entry.1 < builder.func.blocks.size
  closed_iff : ∀ id, builder.closed[id]? = some true ↔ Terminated placed id
  holds : ∀ id block, builder.func.block? id = some block →
    ∃ name, block = gather name (itemsAt placed id)
  defined : builder.func.definitions.Perm handed
  orderly_iff : builder.misuse = none ↔ Orderly placed
  firstMisuse_iff : ∀ defect, builder.misuse = some defect ↔ FirstMisuse placed defect

/-- The values that a placement defines. -/
def Item.defined : Item → List ValueId
  | param value => [value]
  | instr code => code.result?.toList
  | terminator _ => []

/-- Putting something into a block adds its values to those that the function defines. -/
theorem definitions_modifyBlock_into {f : Func} {id : BlockId} (there : id < f.blocks.size)
    (item : Item) :
    (f.modifyBlock id item.into).definitions.Perm (f.definitions ++ item.defined) := by
  obtain ⟨before, block, after, listed, -, changed⟩ :=
    List.exists_of_modify item.into (i := id) (l := f.blocks.toList) (by simpa using there)
  have more : (item.into block).definitions.Perm (block.definitions ++ item.defined) := by
    cases item with
    | param value =>
        simp only [Item.into, Item.defined, Block.definitions, List.append_assoc]
        exact List.perm_append_comm.append_left block.params
    | instr code => cases result : code.result? <;>
        simp [Item.into, Item.defined, Block.definitions, result]
    | terminator last => simp [Item.into, Item.defined, Block.definitions]
  refine List.perm_iff_count.mpr fun value => ?_
  have counted := List.perm_iff_count.mp more value
  rw [Func.definitions, Func.definitions, Func.modifyBlock, Array.toList_modify, changed, listed]
  simp only [List.flatMap_append, List.flatMap_cons, List.count_append] at counted ⊢
  omega

namespace Records

variable {name : String} {builder : Builder} {placed : List Placement} {handed : List ValueId}

/-- The mark that a placement leaves is that of the first misuse. -/
theorem misuse_place (records : Records name builder placed handed) (id : BlockId) (item : Item)
    (defect : Defect) :
    (if builder.closed[id]? = some true then item.misuse? id else none) = some defect ↔
      Misuses placed (id, item) defect := by
  rw [Misuses, ← records.closed_iff id]
  split <;> simp_all

theorem place (records : Records name builder placed handed) {id : BlockId}
    (there : id < builder.func.blocks.size) (item : Item) :
    Records name (builder.place id item) (placed ++ [(id, item)]) (handed ++ item.defined) where
  named := records.named
  current_lt := by
    rw [Builder.place, Func.size_modifyBlock]
    exact records.current_lt
  length_closed := by
    simp only [Builder.place, Func.size_modifyBlock, ← records.length_closed]
    split <;> simp
  placed_lt := by
    simp only [Builder.place, Func.size_modifyBlock]
    intro entry mem
    rcases List.mem_append.mp mem with old | new
    · exact records.placed_lt entry old
    · rwa [List.mem_singleton.mp new]
  closed_iff := by
    intro other
    rw [terminated_concat, ← records.closed_iff]
    simp only [Builder.place]
    split
    · next ends =>
        rw [List.getElem?_set]
        by_cases same : id = other
        · subst same
          simp [ends, records.length_closed, there]
        · simp [same]
    · next goes => simp [goes]
  holds := by
    intro other block found
    rw [Builder.place, Func.block?_modifyBlock] at found
    rw [itemsAt_concat]
    split at found
    · next same =>
        obtain ⟨old, stood, rfl⟩ := Option.map_eq_some_iff.mp found
        obtain ⟨blockName, rfl⟩ := records.holds other old stood
        exact ⟨blockName, by rw [if_pos same, gather_concat]⟩
    · next apart =>
        rw [if_neg apart, List.append_nil]
        exact records.holds other block found
  defined := (definitions_modifyBlock_into there item).trans (records.defined.append_right _)
  orderly_iff := by
    rw [orderly_concat, ← records.orderly_iff]
    simp only [← records.misuse_place, Builder.place, Option.or_eq_none_iff]
    exact and_congr_right fun _ => Option.eq_none_iff_forall_ne_some
  firstMisuse_iff := by
    intro defect
    rw [firstMisuse_concat, ← records.firstMisuse_iff, ← records.orderly_iff,
      ← records.misuse_place]
    simp only [Builder.place, Option.or_eq_some_iff]

/-- Giving out a value changes nothing that is recorded. -/
theorem fresh (records : Records name builder placed handed) :
    Records name builder.fresh.2 placed handed :=
  { records with }

/-- A parameter of the function is a value that no block defines. -/
theorem param (records : Records name builder placed handed) (value : ValueId) :
    Records name
      { builder with func := { builder.func with params := builder.func.params ++ [value] } }
      placed (handed ++ [value]) :=
  { records with
    defined := by
      refine .trans ?_ (records.defined.append_right [value])
      simp only [Func.definitions, List.append_assoc]
      exact List.perm_append_comm.append_left builder.func.params }

/-- A new block is the last one, is open, and nothing was put into it. -/
theorem block (records : Records name builder placed handed) (blockName : String) :
    Records name
      { builder with
        func := builder.func.addBlock (.blank (some blockName))
        closed := builder.closed ++ [false] }
      placed handed :=
  { records with
    current_lt := by
      rw [Func.size_addBlock]
      exact Nat.lt_succ_of_lt records.current_lt
    length_closed := by
      rw [Func.size_addBlock, List.length_append, records.length_closed]
      rfl
    placed_lt := by
      intro entry mem
      rw [Func.size_addBlock]
      exact Nat.lt_succ_of_lt (records.placed_lt entry mem)
    closed_iff := by
      intro id
      rw [← records.closed_iff, List.getElem?_append]
      split
      · rfl
      · next beyond =>
          rw [List.getElem?_eq_none (Nat.le_of_not_lt beyond)]
          simp [List.getElem?_singleton]
    holds := by
      intro id block found
      rw [Func.block?_addBlock] at found
      split at found
      · next last =>
          cases found
          have nothing : itemsAt placed id = [] := by
            refine List.filterMap_eq_nil_iff.mpr fun entry mem => if_neg fun same => ?_
            exact Nat.lt_irrefl _ (last ▸ same ▸ records.placed_lt entry mem)
          exact ⟨some blockName, by rw [nothing]; rfl⟩
      · exact records.holds id block found
    defined := by
      refine .trans (.of_eq ?_) records.defined
      simp [Func.definitions, Func.addBlock, Block.definitions, Block.blank] }

end Records

/-! ## One step and a run of steps -/

/-- A step led to this builder with this answer: it placed what it says, handed out the next
value or none, and the current block and the number of blocks are as it says. -/
structure Stepped (name : String) (builder : Builder) (op : Op) (placed : List Placement)
    (handed : List ValueId) (next : Builder) (answer : Option Nat) : Prop where
  records : Records name next (placed ++ (op.placement? builder.current answer).toList)
    (handed ++ (op.handed? answer).toList)
  numbered : handed ++ (op.handed? answer).toList = List.range next.func.nextValue
  current_eq : next.current = op.destination builder.current
  size_eq : next.func.blocks.size = op.blocksAfter builder.func.blocks.size

namespace Records

variable {name : String} {builder : Builder} {placed : List Placement} {handed : List ValueId}
  (records : Records name builder placed handed)
  (numbered : handed = List.range builder.func.nextValue)

include records numbered

/-- A step that appends an instruction with a fresh result. -/
theorem stepped_define {op : Op} {instr : ValueId → Instr}
    (applies : builder.apply op = builder.define instr)
    (result : ∀ value, (instr value).result? = some value)
    (places : ∀ current value, op.placement? current (some value) =
      some (current, .instr (instr value)))
    (hands : ∀ value, op.handed? (some value) = some value)
    (stays : op.destination builder.current = builder.current)
    (count : op.blocksAfter builder.func.blocks.size = builder.func.blocks.size) :
    ∃ next answer, builder.apply op = .ok (next, answer) ∧
      Stepped name builder op placed handed next answer := by
  have here : builder.fresh.2.current < builder.fresh.2.closed.length :=
    Nat.lt_of_lt_of_eq records.current_lt records.length_closed.symm
  have recorded := records.fresh.place records.current_lt (.instr (instr builder.func.nextValue))
  rw [Item.defined, result] at recorded
  refine ⟨builder.fresh.2.place builder.current (.instr (instr builder.func.nextValue)),
    some builder.func.nextValue, ?_, ?_, ?_, stays.symm, ?_⟩
  · rw [applies, define]
    simp only [push_eq here]
    rfl
  · rw [places, hands]
    exact recorded
  · rw [hands, numbered]
    exact List.range_succ.symm
  · rw [count]
    exact Func.size_modifyBlock ..

/-- A step that places something and hands out nothing. -/
theorem stepped_place {op : Op} {item : Item} (hands : op.handed? none = none)
    (defines : item.defined = [])
    (places : op.placement? builder.current none = some (builder.current, item))
    (stays : op.destination builder.current = builder.current)
    (count : op.blocksAfter builder.func.blocks.size = builder.func.blocks.size) :
    Stepped name builder op placed handed (builder.place builder.current item) none where
  records := by
    have recorded := records.place records.current_lt item
    rw [defines] at recorded
    rw [places, hands]
    exact recorded
  numbered := by
    rw [hands, numbered]
    exact List.append_nil _
  current_eq := stays.symm
  size_eq := by
    rw [count]
    exact Func.size_modifyBlock ..

omit records in
/-- A step that places nothing and hands out no value. -/
theorem stepped_quiet {op : Op} {next : Builder} {answer : Option Nat}
    (kept : Records name next placed handed)
    (numbers : next.func.nextValue = builder.func.nextValue)
    (places : op.placement? builder.current answer = none) (hands : op.handed? answer = none)
    (leads : next.current = op.destination builder.current)
    (count : next.func.blocks.size = op.blocksAfter builder.func.blocks.size) :
    Stepped name builder op placed handed next answer where
  records := by
    rw [places, hands, Option.toList_none, List.append_nil, Option.toList_none, List.append_nil]
    exact kept
  numbered := by
    rw [hands, numbers, numbered]
    exact List.append_nil _
  current_eq := leads
  size_eq := count

/-- A step that names blocks that are there is carried out. -/
theorem exists_stepped {op : Op} (valid : op.NamesBelow builder.func.blocks.size) :
    ∃ next answer, builder.apply op = .ok (next, answer) ∧
      Stepped name builder op placed handed next answer := by
  have more : handed ++ [builder.func.nextValue] = List.range (builder.func.nextValue + 1) := by
    rw [numbered, List.range_succ]
  have here : builder.current < builder.closed.length :=
    Nat.lt_of_lt_of_eq records.current_lt records.length_closed.symm
  cases op with
  | param =>
      refine ⟨_, _, rfl, ?_, more, rfl, rfl⟩
      rw [Op.placement?, Option.toList_none, List.append_nil]
      exact records.fresh.param _
  | block blockName =>
      exact ⟨_, _, rfl, stepped_quiet numbered (records.block blockName) rfl rfl rfl rfl
        (Func.size_addBlock ..)⟩
  | blockParam id =>
      exact ⟨_, _, blockParam_eq valid, records.fresh.place valid _, more, rfl,
        Func.size_modifyBlock ..⟩
  | switchTo id =>
      exact ⟨_, _, rfl, stepped_quiet numbered { records with current_lt := valid } rfl rfl rfl
        rfl rfl⟩
  | current => exact ⟨_, _, rfl, stepped_quiet numbered records rfl rfl rfl rfl rfl⟩
  | annotate key note =>
      exact ⟨_, _, rfl, stepped_quiet numbered { records with } rfl rfl rfl rfl rfl⟩
  | const value =>
      exact records.stepped_define numbered rfl (fun _ => rfl) (fun _ _ => rfl) (fun _ => rfl)
        rfl rfl
  | binop op lhs rhs =>
      exact records.stepped_define numbered rfl (fun _ => rfl) (fun _ _ => rfl) (fun _ => rfl)
        rfl rfl
  | widen value =>
      exact records.stepped_define numbered rfl (fun _ => rfl) (fun _ _ => rfl) (fun _ => rfl)
        rfl rfl
  | call symbol args =>
      exact records.stepped_define numbered rfl (fun _ => rfl) (fun _ _ => rfl) (fun _ => rfl)
        rfl rfl
  | callVoid callee args =>
      refine ⟨_, none, ?_, records.stepped_place numbered rfl rfl rfl rfl rfl⟩
      rw [Builder.apply, push_eq here]
      rfl
  | terminate terminator =>
      refine ⟨_, none, ?_, records.stepped_place numbered rfl rfl rfl rfl rfl⟩
      rw [Builder.apply, close_eq here]
      rfl

end Records

/-- A run of steps that name blocks that are there is carried out to the end. -/
theorem exists_applyAll {name : String} {builder : Builder} {placed : List Placement}
    {handed : List ValueId} (records : Records name builder placed handed)
    (numbered : handed = List.range builder.func.nextValue) {ops : List Op}
    (valid : NamesBlocks builder.func.blocks.size ops) :
    ∃ answers last, builder.applyAll ops = (answers, .ok last) ∧ answers.length = ops.length ∧
      Records name last (placed ++ placements builder.current (ops.zip answers))
        (handed ++ handedOut (ops.zip answers)) ∧
      handed ++ handedOut (ops.zip answers) = List.range last.func.nextValue ∧
      last.func.blocks.size = ops.foldl Op.blocksAfter builder.func.blocks.size := by
  induction ops generalizing builder placed handed with
  | nil =>
      refine ⟨[], builder, rfl, rfl, ?_, ?_, rfl⟩
      · rw [List.zip_nil_left, placements, handedOut, List.filterMap_nil, List.append_nil,
          List.append_nil]
        exact records
      · exact (List.append_nil _).trans numbered
  | cons op rest ih =>
      obtain ⟨next, answer, applied, stepped⟩ := records.exists_stepped numbered valid.1
      obtain ⟨answers, last, ran, length, recorded, numbers, count⟩ :=
        ih stepped.records stepped.numbered (stepped.size_eq ▸ valid.2)
      have hands : (op.handed? answer).toList ++ handedOut (rest.zip answers) =
          handedOut ((op :: rest).zip (answer :: answers)) := by
        rw [List.zip_cons_cons, handedOut, handedOut, List.filterMap_cons]
        dsimp only
        cases op.handed? answer <;> rfl
      refine ⟨answer :: answers, last, ?_, congrArg (· + 1) length, ?_, ?_, ?_⟩
      · rw [applyAll, applied]
        simp only [ran]
      · rw [stepped.current_eq, List.append_assoc, List.append_assoc, hands] at recorded
        exact recorded
      · rw [← hands, ← List.append_assoc]
        exact numbers
      · rw [count, stepped.size_eq]
        rfl

/-- A builder at its start has placed nothing and has handed out nothing. -/
theorem records_start (name : String) : Records name (start name) [] [] where
  named := rfl
  current_lt := Nat.zero_lt_one
  length_closed := rfl
  placed_lt := nofun
  closed_iff := by
    intro id
    refine iff_of_false ?_ (fun ⟨terminator, mem⟩ => nomatch mem)
    simp [start, List.getElem?_singleton]
  holds := by
    intro id block found
    rw [start, Func.block?_addBlock] at found
    split at found
    · cases found
      exact ⟨some "entry", rfl⟩
    · cases found
  defined := .nil
  orderly_iff := by
    refine iff_of_true rfl ?_
    intro earlier last later split
    cases earlier <;> cases split
  firstMisuse_iff := by
    intro defect
    refine iff_of_false nofun ?_
    rintro ⟨earlier, last, later, split, -⟩
    cases earlier <;> cases split

/-! ## The answer -/

theorem mem_placements {current : BlockId} {log : List (Op × Option Nat)} {entry : Placement}
    (mem : entry ∈ placements current log) :
    ∃ op answer here, (op, answer) ∈ log ∧ op.placement? here answer = some entry := by
  induction log generalizing current with
  | nil => cases mem
  | cons first rest ih =>
      rcases List.mem_append.mp mem with now | later
      · exact ⟨first.1, first.2, current, List.mem_cons_self, Option.mem_toList.mp now⟩
      · obtain ⟨op, answer, here, listed, places⟩ := ih later
        exact ⟨op, answer, here, List.mem_cons_of_mem _ listed, places⟩

/-- What verification may still find in a function that these steps made, if these are the
values that they handed out. -/
def Leaves (ops : List Op) (handed : List ValueId) : Defect → Prop
  | .entryTakesParameters => .blockParam Func.entry ∈ ops
  | .neverDefined value => value ∉ handed
  | .missingTarget .. | .branchToEntry _ | .edgeArity .. => True
  | .noBlocks | .definedTwice _ | .outOfRange _ | .noTerminator _ | .appendedToTerminated _ |
      .terminatedTwice _ | .allocationWithoutSize .. | .reachedUnreachable _ => False

namespace Records

variable {name : String} {builder : Builder} {placed : List Placement} {handed : List ValueId}
  (records : Records name builder placed handed)

include records

theorem terminated_iff_of_lt {id : BlockId} (there : id < builder.closed.length) :
    Terminated placed id ↔ builder.closed[id] = true := by
  rw [← records.closed_iff, List.getElem?_eq_getElem there, Option.some_inj]

/-- The first misuse is reported, otherwise the first block without an end, and otherwise
what verification says. -/
theorem build_cases :
    (∃ defect, FirstMisuse placed defect ∧ builder.build = .error (.invalid name defect)) ∨
      Orderly placed ∧
        ((∃ id, FirstOpen builder.func.blocks.size placed id ∧
            builder.build = .error (.invalid name (.noTerminator id))) ∨
          (∀ id < builder.func.blocks.size, Terminated placed id) ∧
            builder.build = builder.func.verify.map fun _ => builder.func) := by
  rw [build, records.named]
  cases misused : builder.misuse with
  | some defect => exact .inl ⟨defect, (records.firstMisuse_iff defect).mp misused, rfl⟩
  | none =>
      refine .inr ⟨records.orderly_iff.mp misused, ?_⟩
      dsimp only
      cases opened : builder.closed.findIdx? (· = false) with
      | some id =>
          obtain ⟨there, open_, before⟩ := List.findIdx?_eq_some_iff_getElem.mp opened
          refine .inl ⟨id, ⟨records.length_closed ▸ there, ?_, fun lower below => ?_⟩, rfl⟩
          · rw [records.terminated_iff_of_lt there]
            simpa using open_
          · rw [records.terminated_iff_of_lt (Nat.lt_trans below there)]
            simpa using before lower below
      | none =>
          refine .inr ⟨fun id there => ?_, rfl⟩
          rw [← records.length_closed] at there
          rw [records.terminated_iff_of_lt there]
          simpa using List.findIdx?_eq_none_iff.mp opened _ (List.getElem_mem there)

/-- Every defect that the function shows is one of those that a builder leaves. -/
theorem leaves_of_shows {ops : List Op} {answers : List (Option Nat)} {current : BlockId}
    (distinct : handed.Nodup) (below : ∀ value ∈ handed, value < builder.func.nextValue)
    (placed_eq : placed = placements current (ops.zip answers)) {defect : Defect}
    (shows : builder.func.Shows defect) : Leaves ops handed defect := by
  cases defect with
  | noBlocks => exact Nat.not_lt_zero _ (Nat.lt_of_lt_of_eq records.current_lt shows)
  | entryTakesParameters =>
      obtain ⟨first, entered, takes⟩ := shows
      obtain ⟨blockName, rfl⟩ := records.holds _ first entered
      rw [gather_eq] at takes
      obtain ⟨value, given⟩ := List.exists_mem_of_ne_nil _ takes
      obtain ⟨item, put, param⟩ := List.mem_filterMap.mp given
      rw [mem_itemsAt, placed_eq] at put
      obtain ⟨op, answer, here, logged, places⟩ := mem_placements put
      have asked := (List.of_mem_zip logged).1
      cases item with
      | instr code => cases param
      | terminator last => cases param
      | param value =>
          cases op <;> simp_all [Op.placement?, Leaves]
  | definedTwice value =>
      obtain ⟨earlier, later, split, again⟩ := shows
      have distinct := records.defined.nodup_iff.mpr distinct
      rw [split] at distinct
      exact (List.nodup_append.mp distinct).2.2 value again value List.mem_cons_self rfl
  | outOfRange value =>
      exact Nat.not_lt_of_le shows.2 (below value (records.defined.mem_iff.mp shows.1))
  | neverDefined value => exact mt records.defined.mem_iff.mpr shows.1
  | missingTarget | branchToEntry | edgeArity => trivial
  | noTerminator | appendedToTerminated | terminatedTwice | allocationWithoutSize |
      reachedUnreachable => exact shows

/-- Without a misuse, and with an end for every block, each block is what was put into it. -/
theorem block_eq (orderly : Orderly placed)
    (ended : ∀ id < builder.func.blocks.size, Terminated placed id) {id : BlockId} {block : Block}
    (found : builder.func.block? id = some block) :
    block.params = (itemsAt placed id).filterMap Item.param? ∧
      block.instrs = (itemsAt placed id).filterMap Item.instr? ∧
      [block.terminator] = (itemsAt placed id).filterMap Item.terminator? := by
  obtain ⟨blockName, rfl⟩ := records.holds id block found
  obtain ⟨terminator, only⟩ := orderly.terminators_eq (ended id (Func.lt_size_of_block? found))
  rw [gather_eq, only]
  exact ⟨rfl, rfl, rfl⟩

end Records

/-- No step adds more than one block. -/
theorem foldl_blocksAfter_le (ops : List Op) (count : Nat) :
    ops.foldl Op.blocksAfter count ≤ count + ops.length := by
  induction ops generalizing count with
  | nil => exact Nat.le_refl count
  | cons op rest ih =>
      have one : op.blocksAfter count ≤ count + 1 := by
        cases op with
        | block name => exact Nat.le_refl _
        | _ => exact Nat.le_succ _
      have later := ih (op.blocksAfter count)
      rw [List.foldl_cons, List.length_cons]
      omega

/-- No step hands out more than one value. -/
theorem length_handedOut_le (ops : List Op) (answers : List (Option Nat)) :
    (handedOut (ops.zip answers)).length ≤ ops.length :=
  Nat.le_trans (List.length_filterMap_le _ _) (List.length_zip ▸ Nat.min_le_left _ _)

/-- What a builder reports after these steps with these answers. -/
structure Reports (name : String) (ops : List Op) (answers : List (Option Nat))
    (placed : List Placement) (last : Builder) : Prop where
  /-- The first misuse if there was one, otherwise the first block that was never
  terminated, and otherwise what verification says of the function. -/
  answer :
    (∃ defect, FirstMisuse placed defect ∧ last.build = .error (.invalid name defect)) ∨
      Orderly placed ∧
        ((∃ id, FirstOpen last.func.blocks.size placed id ∧
            last.build = .error (.invalid name (.noTerminator id))) ∨
          (∀ id < last.func.blocks.size, Terminated placed id) ∧
            last.build = last.func.verify.map fun _ => last.func)
  /-- There are as many blocks as were asked for, and the entry. -/
  size_eq : last.func.blocks.size = ops.foldl Op.blocksAfter 1
  /-- The values handed out are distinct. -/
  nodup : (handedOut (ops.zip answers)).Nodup
  /-- They are numbered below the next one that would be handed out. -/
  below : ∀ value ∈ handedOut (ops.zip answers), value < last.func.nextValue
  /-- Fewer steps than there are numbers of 32 bits get along with these, for values and for
  blocks. -/
  fits : ops.length < idLimit → last.func.nextValue < idLimit ∧ last.func.blocks.size ≤ idLimit
  /-- Each of them is defined once, and nothing else is. -/
  defined : last.func.definitions.Perm (handedOut (ops.zip answers))
  /-- What verification finds is there, and is none of what the builder takes care of. -/
  refused : last.func.verify = .ok () ∨ ∃ defect, last.func.verify = .error (.invalid name defect) ∧
    last.func.Shows defect ∧ Leaves ops (handedOut (ops.zip answers)) defect
  /-- A function that is handed on consists of the blocks as they were put together. -/
  holds : ∀ f, last.build = .ok f → f = last.func ∧ ∀ id block, f.block? id = some block →
    block.params = (itemsAt placed id).filterMap Item.param? ∧
      block.instrs = (itemsAt placed id).filterMap Item.instr? ∧
      [block.terminator] = (itemsAt placed id).filterMap Item.terminator?

/-- Every run of steps on a fresh builder that names only blocks that are there is carried
out.  In the end the builder reports misuse exactly, in the order of the calls and then of
the blocks, and a function that it hands on is what was put together: the values handed
out are distinct and each is defined once, so that verification can refuse the function
only for parameters of the entry, for a value that was never handed out, or for an edge.
Numbers of 32 bits are enough for fewer than `idLimit` steps. -/
theorem build_exact (name : String) {ops : List Op} (valid : NamesBlocks 1 ops) :
    ∃ answers last, (start name).applyAll ops = (answers, .ok last) ∧
      answers.length = ops.length ∧
      Reports name ops answers (placements Func.entry (ops.zip answers)) last := by
  obtain ⟨answers, last, ran, length, records, numbers, count⟩ :=
    exists_applyAll (records_start name) rfl valid
  rw [List.nil_append] at records numbers
  rw [List.nil_append] at records
  have distinct : (handedOut (ops.zip answers)).Nodup := numbers ▸ List.nodup_range
  have below : ∀ value ∈ handedOut (ops.zip answers), value < last.func.nextValue :=
    fun value mem => List.mem_range.mp (numbers ▸ mem)
  refine ⟨answers, last, ran, length, records.build_cases, count, distinct, below, ?_,
    records.defined, ?_, ?_⟩
  · intro few
    have values := length_handedOut_le ops answers
    have blocks := foldl_blocksAfter_le ops 1
    rw [numbers, List.length_range] at values
    rw [count]
    exact ⟨Nat.lt_of_le_of_lt values few, Nat.le_trans blocks (Nat.add_comm _ _ ▸ few)⟩
  · rcases last.func.verify_cases with accepted | ⟨defect, refused, shows⟩
    · exact .inl accepted
    · rw [records.named] at refused
      exact .inr ⟨defect, refused, shows, records.leaves_of_shows distinct below rfl shows⟩
  · intro f built
    rcases records.build_cases with
      ⟨defect, -, misused⟩ | ⟨orderly, ⟨id, -, opened⟩ | ⟨ended, verdict⟩⟩
    · rw [misused] at built
      cases built
    · rw [opened] at built
      cases built
    · rw [verdict] at built
      cases accepted : last.func.verify with
      | error error => rw [accepted] at built; cases built
      | ok done =>
          rw [accepted] at built
          cases built
          exact ⟨rfl, fun id block found => records.block_eq orderly ended found⟩

/-- A call that is appended to the entry after its jump is what is reported, and not the
second end that the other block is given later. -/
theorem build_exact_appended :
    let ops : List Op :=
      [.param, .block "next", .terminate (.jump ⟨1, [.value 0]⟩), .callVoid (.symbol "late") [],
        .switchTo 1, .blockParam 1, .terminate (.ret none), .terminate .unreachable]
    NamesBlocks 1 ops ∧
      ∃ answers last, (start "made").applyAll ops = (answers, .ok last) ∧
        answers.length = ops.length ∧
        Reports "made" ops answers (placements Func.entry (ops.zip answers)) last ∧
        last.build = .error (.invalid "made" (.appendedToTerminated 0)) := by
  intro ops
  have valid : NamesBlocks 1 ops := by simp [ops, NamesBlocks, Op.NamesBelow, Op.blocksAfter]
  obtain ⟨answers, last, ran, length, reports⟩ := build_exact "made" valid
  refine ⟨valid, answers, last, ran, length, reports, ?_⟩
  cases ran
  rfl

end Builder

end FlowProfile
