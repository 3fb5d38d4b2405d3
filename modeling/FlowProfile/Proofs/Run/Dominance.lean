/-
# Dominated values are defined

A value that is defined in a block which dominates the one that reads it was defined before
it is read, whatever way a run takes: the run has been in the dominating block and has left
it at its end.  So a function that reads nothing but parameters, what stands earlier in the
block, and what is defined in blocks above it in the computed tree never misses a value.

The invariant of a run names the blocks on its way.  All of them but the present one were
left, and what a block defines was defined when it was left.
-/

import FlowProfile.Proofs.Flow.Dominators
import FlowProfile.Proofs.Run.Safety

namespace FlowProfile

/-- The value may be read in a block behind some of its instructions: it is a parameter of
the function or of the block, the result of one of those instructions, or is defined in
another block above this one. -/
inductive Func.Available (f : Func) (tree : DominatorTree) (position : BlockId) (block : Block)
    (earlier : List Instr) (id : ValueId) : Prop
  | param (mem : id ∈ f.params)
  | own (mem : id ∈ block.params)
  | result {instr : Instr} (mem : instr ∈ earlier) (result : instr.result? = some id)
  | above {higher : BlockId} {upper : Block} (found : f.block? higher = some upper)
      (apart : higher ≠ position) (mem : id ∈ upper.definitions)
      (dominates : tree.dominates higher position = .ok true)

/-- Every value that a reachable block reads is available there: for an instruction behind
the instructions ahead of it, for the terminator behind all of them. -/
structure Func.ReadsAvailable (f : Func) (tree : DominatorTree) : Prop where
  instr : ∀ position block, f.Reachable position → f.block? position = some block →
    ∀ index instr, block.instrs[index]? = some instr → ∀ id, .value id ∈ instr.operands →
      f.Available tree position block (block.instrs.take index) id
  terminator : ∀ position block, f.Reachable position → f.block? position = some block →
    ∀ id, .value id ∈ block.terminator.operands →
      f.Available tree position block block.instrs id

/-- What a run holds where it is: the parameters, what its block has defined so far, and all
that is defined in the other blocks on its way. -/
structure Frame.Provided (f : Func) (frame : Frame) : Prop where
  size_eq : frame.values.size = f.nextValue
  params : ∀ id ∈ f.params, frame.Holds id
  here : ∃ block earlier, f.block? frame.block = some block ∧
    block.instrs = earlier ++ frame.rest ∧ (∀ id ∈ block.params, frame.Holds id) ∧
      ∀ instr ∈ earlier, ∀ id, instr.result? = some id → frame.Holds id
  passed : ∃ blocks, f.Way Func.entry frame.block blocks ∧
    ∀ higher ∈ blocks, higher ≠ frame.block → ∀ upper, f.block? higher = some upper →
      ∀ id ∈ upper.definitions, frame.Holds id

variable {f : Func} {frame next : Frame}

namespace Frame.Provided

theorem placed (provided : frame.Provided f) : frame.Placed f := by
  obtain ⟨block, earlier, found, split, -, -⟩ := provided.here
  exact ⟨provided.size_eq, block, found, earlier, split.symm⟩

theorem reachable (provided : frame.Provided f) : f.Reachable frame.block := by
  obtain ⟨blocks, way, -⟩ := provided.passed
  exact ⟨blocks, way⟩

/-- A block of which nothing is left has defined all it defines. -/
theorem holds_of_ended (provided : frame.Provided f) (ended : frame.rest = []) {block : Block}
    (found : f.block? frame.block = some block) {id : ValueId} (mem : id ∈ block.definitions) :
    frame.Holds id := by
  obtain ⟨block', earlier, found', split, params, results⟩ := provided.here
  rw [found] at found'
  cases found'
  rw [ended, List.append_nil] at split
  rcases List.mem_append.mp mem with param | result
  · exact params id param
  · obtain ⟨instr, listed, result⟩ := List.mem_filterMap.mp result
    exact results instr (split ▸ listed) id result

/-- A step within a block adds its result to what the block has defined. -/
theorem within (provided : frame.Provided f) {instr : Instr}
    (first : frame.rest = instr :: next.rest) (stays : next.block = frame.block)
    (defines : frame.Extends instr.result?.toList next) : next.Provided f := by
  have kept {id : ValueId} (holds : frame.Holds id) : next.Holds id :=
    (defines.holds_iff id).mpr (.inl holds)
  obtain ⟨block, earlier, found, split, params, results⟩ := provided.here
  obtain ⟨blocks, way, passed⟩ := provided.passed
  refine ⟨defines.size_eq.trans provided.size_eq, fun id mem => kept (provided.params id mem),
    ⟨block, earlier ++ [instr], stays ▸ found, ?_, fun id mem => kept (params id mem), ?_⟩,
    blocks, stays ▸ way, ?_⟩
  · rw [split, first, List.append_assoc, List.singleton_append]
  · intro other listed id result
    rcases List.mem_append.mp listed with before | last
    · exact kept (results other before id result)
    · rw [List.mem_singleton.mp last] at result
      exact (defines.holds_iff id).mpr (.inr (Option.mem_toList.mpr result))
  · rw [stays]
    exact fun higher mem apart upper found id known => kept (passed higher mem apart upper found id known)

/-- A step along an edge leaves a block that has defined all it defines. -/
theorem along (provided : frame.Provided f) (sound : f.WellFormed) {source target : Block}
    {edge : Edge} (ended : frame.rest = []) (found : f.block? frame.block = some source)
    (leaves : edge ∈ source.terminator.edges) (enters : f.block? edge.target = some target)
    (block_eq : next.block = edge.target) (rest_eq : next.rest = target.instrs)
    (defines : frame.Extends target.params next) : next.Provided f := by
  have kept {id : ValueId} (holds : frame.Holds id) : next.Holds id :=
    (defines.holds_iff id).mpr (.inl holds)
  obtain ⟨blocks, way, passed⟩ := provided.passed
  refine ⟨defines.size_eq.trans provided.size_eq, fun id mem => kept (provided.params id mem),
    ⟨target, [], block_eq ▸ enters, rest_eq.symm, ?_,
      fun instr mem => absurd mem List.not_mem_nil⟩,
    blocks ++ [edge.target], ?_, ?_⟩
  · exact fun id mem => (defines.holds_iff id).mpr (.inr mem)
  · rw [block_eq]
    exact way.step (sound.leads found leaves)
  · intro higher mem apart upper above id known
    rw [block_eq] at apart
    have earlier := (List.mem_append.mp mem).resolve_right fun last =>
      apart (List.mem_singleton.mp last)
    apply kept
    by_cases left : higher = frame.block
    · exact provided.holds_of_ended ended (left ▸ above) known
    · exact passed higher earlier left upper above id known

theorem moves (provided : frame.Provided f) (sound : f.WellFormed) (moves : frame.Moves f next) :
    next.Provided f := by
  cases moves with
  | within first stays defines => exact provided.within first stays defines
  | along ended found leaves enters block_eq rest_eq defines =>
      exact provided.along sound ended found leaves enters block_eq rest_eq defines

variable {tree : DominatorTree} {order : List BlockId}

/-- What is available is held. -/
theorem holds_of_available (provided : frame.Provided f) (settled : tree.Settled f order)
    (ordered : f.Ordered order) {block : Block} {earlier : List Instr}
    (found : f.block? frame.block = some block) (split : block.instrs = earlier ++ frame.rest)
    {id : ValueId} (available : f.Available tree frame.block block earlier id) :
    frame.Holds id := by
  obtain ⟨block', earlier', found', split', params, results⟩ := provided.here
  rw [found] at found'
  cases found'
  obtain rfl : earlier = earlier' := List.append_cancel_right (split.symm.trans split')
  cases available with
  | param mem => exact provided.params id mem
  | own mem => exact params id mem
  | result mem result => exact results _ mem id result
  | @above higher upper above apart mem dominates =>
      obtain ⟨verdict, decided, dominates_iff⟩ :=
        settled.dominates_eq_ok ordered provided.reachable higher
      cases dominates.symm.trans decided
      obtain ⟨blocks, way, passed⟩ := provided.passed
      exact passed higher (dominates_iff.mp rfl blocks way) apart upper above id mem

/-- The next step reads nothing but what is held. -/
theorem holds_of_reads (provided : frame.Provided f) (settled : tree.Settled f order)
    (ordered : f.Ordered order) (available : f.ReadsAvailable tree) {id : ValueId}
    (reads : .value id ∈ frame.operands f) : frame.Holds id := by
  obtain ⟨block, earlier, found, split, -, -⟩ := provided.here
  refine provided.holds_of_available settled ordered found split ?_
  rw [Frame.operands] at reads
  split at reads
  · next instr rest here =>
      rw [here] at split
      have listed : block.instrs[earlier.length]? = some instr := by
        rw [split, List.getElem?_append_right (Nat.le_refl _), Nat.sub_self, List.getElem?_cons_zero]
      have first : block.instrs.take earlier.length = earlier := by
        rw [split, List.take_left]
      have given := available.instr frame.block block provided.reachable found earlier.length instr
        listed id reads
      rwa [first] at given
  · next here =>
      rw [here, List.append_nil] at split
      rw [found] at reads
      have given := available.terminator frame.block block provided.reachable found id reads
      rwa [split] at given

end Frame.Provided

/-- Where a run starts it holds the parameters, and the entry block has none of its own. -/
theorem Frame.provided_of_start (sound : f.WellFormed) {args : List Int64}
    (starts : Frame.start f args = .ok frame) : frame.Provided f := by
  have arity : f.params.length = args.length := by
    by_contra wrong
    rw [Frame.start, if_pos wrong] at starts
    cases starts
  obtain ⟨begun, starts', placed, position, holds_iff⟩ := sound.start_eq_ok arity
  cases starts.symm.trans starts'
  obtain ⟨first, entered, rest_eq⟩ := Frame.rest_of_start starts
  obtain ⟨image, entered', none⟩ := sound.entry_params
  cases entered.symm.trans entered'
  refine ⟨placed.size_eq, fun id => (holds_iff id).mpr, ⟨first, [], ?_, rest_eq.symm, ?_, ?_⟩,
    [Func.entry], ?_, ?_⟩
  · rw [position]
    exact entered
  · rw [none]
    exact fun id mem => absurd mem List.not_mem_nil
  · exact fun instr mem => absurd mem List.not_mem_nil
  · rw [position]
    exact .start
  · rw [position]
    exact fun higher mem apart => absurd (List.mem_singleton.mp mem) apart

/-- Wherever a run gets to it holds what it was to be provided with. -/
theorem Machine.provided_of_advance (sound : f.WellFormed) {args : List Int64} {start : Frame}
    (starts : Frame.start f args = .ok start) {steps : Nat} {world after : World}
    (reached : advance f steps start world = .running frame after) : frame.Provided f := by
  apply holds_of_advance ?_ ?_ reached (motive := fun _ place _ => place.Provided f)
  · exact Frame.provided_of_start sound starts
  · exact fun path place middle next after provided stepped =>
      provided.moves sound (moves_of_step stepped)

/-- A step of a verified function misses only a value that it reads. -/
theorem Frame.unread_of_fails (sound : f.WellFormed) (placed : frame.Placed f) {host : Host}
    {id : ValueId} {block : BlockId}
    (fails : frame.Fails f host (.undefinedValue id block)) :
    .value id ∈ frame.operands f ∧ ¬ frame.Holds id := by
  generalize missed : Error.undefinedValue id block = error at fails
  cases fails with
  | unread reads absent =>
      cases missed
      exact ⟨reads, absent⟩
  | division here zero => cases missed
  | @unknown result callee args rest here absent => cases callee <;> cases missed
  | unreachable ended found flow => cases missed
  | broken broken => exact absurd broken (sound.not_broken placed)

namespace Sample

/-- The dominators of the countdown. -/
def countdownTree : DominatorTree :=
  #[some 0, some 0, some 1, some 1]

/-- Every block of the countdown reads its own values and those of the blocks above it. -/
theorem readsAvailable_countdown : countdown.ReadsAvailable countdownTree := by
  have above (higher : BlockId) {position : BlockId} {block upper : Block} {earlier : List Instr}
      {id : ValueId} (found : countdown.block? higher = some upper) (apart : higher ≠ position)
      (dominates : countdownTree.dominates higher position = .ok true)
      (mem : id ∈ upper.definitions) :
      countdown.Available countdownTree position block earlier id :=
    .above found apart mem dominates
  constructor
  · intro position block _ found index instr listed id reads
    rcases position with _ | _ | _ | _ | position <;> cases found <;>
      rcases index with _ | _ | index <;> cases listed
    · cases reads
    · obtain rfl : id = 2 := by simpa [Instr.operands] using reads
      exact .own (by decide)
    · obtain rfl : id = 1 := by simpa [Instr.tally, Instr.operands] using reads
      exact above 0 rfl (by decide) rfl (by decide)
    · obtain rfl | rfl : id = 2 ∨ id = 1 := by simpa [Instr.operands] using reads
      · exact above 1 rfl (by decide) rfl (by decide)
      · exact above 0 rfl (by decide) rfl (by decide)
  · intro position block _ found id reads
    rcases position with _ | _ | _ | _ | position <;> cases found
    · change Operand.value id ∈ [.value 0] at reads
      obtain rfl : id = 0 := by simpa using reads
      exact .param (by decide)
    · change Operand.value id ∈ [.value 3] at reads
      obtain rfl : id = 3 := by simpa using reads
      exact .result List.mem_cons_self rfl
    · change Operand.value id ∈ [.value 4] at reads
      obtain rfl : id = 4 := by simpa using reads
      exact .result (List.mem_cons_of_mem _ List.mem_cons_self) rfl
    · change Operand.value id ∈ [.value 1] at reads
      obtain rfl : id = 1 := by simpa using reads
      exact above 0 rfl (by decide) rfl (by decide)

end Sample

namespace Machine

/-- The dominators of a verified function are computed.  If all that its reachable blocks
read is available by them, no run of it misses a value. -/
theorem reads_defined_of_dominators (verified : f.verify = .ok ()) :
    ∃ tree, f.immediateDominators = .ok tree ∧ (f.ReadsAvailable tree →
      ∀ limit args world id block,
        (run f limit args world).1 ≠ .error (.undefinedValue id block)) := by
  have sound := Func.verify_eq_ok_iff.mp verified
  obtain ⟨order, tree, -, ordered, computed, settled⟩ :=
    sound.targetsExist.immediateDominators_eq_ok sound.blocks_pos
  refine ⟨tree, computed, fun available limit args world id block missed => ?_⟩
  by_cases arity : f.params.length = args.length
  · obtain ⟨start, starts, -⟩ := sound.start_eq_ok arity
    rw [run_of_start starts] at missed
    cases reached : advance f limit start world with
    | running stop after => rw [reached] at missed; cases missed
    | returned value after => rw [reached] at missed; cases missed
    | failed error after =>
        rw [reached] at missed
        cases missed
        obtain ⟨earlier, place, middle, before, stepped, -⟩ := last_step reached rfl
        have provided := provided_of_advance sound starts before
        obtain ⟨reads, absent⟩ :=
          Frame.unread_of_fails sound provided.placed (fails_of_step stepped)
        exact absent (provided.holds_of_reads settled ordered available reads)
  · rw [run, Frame.start, if_pos arity] at missed
    cases missed

theorem reads_defined_of_dominators_countdown :
    Sample.countdown.verify = .ok () ∧
      Sample.countdown.immediateDominators = .ok Sample.countdownTree ∧
      ∀ limit args world id block,
        (run Sample.countdown limit args world).1 ≠ .error (.undefinedValue id block) := by
  have verified : Sample.countdown.verify = .ok () := rfl
  have computed : Sample.countdown.immediateDominators = .ok Sample.countdownTree := by
    decide +kernel
  obtain ⟨tree, found, defined⟩ := reads_defined_of_dominators verified
  cases computed.symm.trans found
  exact ⟨verified, computed, defined Sample.readsAvailable_countdown⟩

end Machine

end FlowProfile
