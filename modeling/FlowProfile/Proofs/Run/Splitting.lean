/-
# Split functions run alike

A run of a function with a split block goes through the same values in the same world.
While the original is in the block, it is either still ahead of the cut, in the head, or
behind it, in the block that has the rest of the code.  At the cut itself it takes one or
two steps of its own, which do nothing but choose the way into that block.  A failure
behind the cut names another block and is the same failure otherwise.

The simulation is by steps: each of the original is matched by at most three, with the same
effects, provided that the condition can be read whenever the cut is reached.
-/

import FlowProfile.Proofs.Flow.Splitting
import FlowProfile.Proofs.Run.Dominance
import FlowProfile.Proofs.Weave.Entering

namespace FlowProfile

/-! ## The same code in another block -/

/-- An instruction does the same in every block. -/
theorem Machine.execute_moved (instr : Instr) (frame : Frame) (block : BlockId)
    (rest : List Instr) (world : World) :
    execute instr (frame.moved block rest) world =
      (((execute instr frame world).1.mapError (Error.within block)).map (·.moved block rest),
        (execute instr frame world).2) := by
  cases instr with
  | const result constant =>
      rw [execute, execute, Frame.write_moved]
  | binop result op lhs rhs =>
      rw [execute, execute, Frame.read_moved, Frame.read_moved]
      cases frame.read lhs with
      | error error => rfl
      | ok left =>
          cases frame.read rhs with
          | error error => rfl
          | ok right =>
              simp only [Frame.mapError_ok]
              cases op.eval? left right with
              | none => rfl
              | some value => simp only [Frame.write_moved]
  | widen result operand =>
      rw [execute, execute, Frame.read_moved]
      cases frame.read operand with
      | error error => rfl
      | ok value => simp only [Frame.mapError_ok, Frame.write_moved]
  | call result callee args =>
      obtain ⟨counters, host⟩ := world
      rw [execute, execute, Frame.readAll_moved]
      cases resolved : host.resolve callee with
      | error error =>
          simp only [Except.mapError, Except.map, Host.within_of_resolve_error resolved]
      | ok routine =>
          cases frame.readAll args with
          | error error => rfl
          | ok values => simp only [Frame.mapError_ok, Frame.writeResult_moved]
  | count result counter amount order =>
      obtain ⟨counters, host⟩ := world
      rw [execute, execute, Frame.read_moved]
      cases frame.read amount with
      | error error => rfl
      | ok value => simp only [Frame.mapError_ok, Frame.writeResult_moved]

/-- An edge is followed alike if its target takes the same parameters. -/
theorem Frame.follow_moved {f g : Func} {edge : Edge} {target image : Block}
    (stood : f.block? edge.target = some target) (stands : g.block? edge.target = some image)
    (params : image.params = target.params) (frame : Frame) (block : BlockId)
    (rest : List Instr) :
    (frame.moved block rest).follow g edge =
      ((frame.follow f edge).mapError (Error.within block)).map
        (·.moved edge.target image.instrs) := by
  rw [follow, follow, stood, stands, readAll_moved]
  simp only [params]
  split
  · rfl
  · cases frame.readAll edge.args with
    | error error => rfl
    | ok incoming =>
        simp only [mapError_ok, writeAll_moved]
        cases frame.writeAll (target.params.zip incoming) <;> rfl

/-- What a step does to the world depends on values and on the next instruction. -/
theorem Frame.effect?_moved (offered : Callee → Bool) (frame : Frame) (block : BlockId)
    {rest : List Instr} (head_eq : rest.head? = frame.rest.head?) :
    (frame.moved block rest).effect? offered = frame.effect? offered := by
  rw [effect?, effect?, ← head_eq]
  exact congrArg (rest.head?.bind ·)
    (funext fun instr => instr.effect?_moved offered frame block rest)

/-! ## Two runs side by side -/

section

variable {f g : Func} {id : BlockId} {head : Block} {position : Nat}

/-- Where the split function is while the original is in a frame: in the block itself, or at
its end, which is behind the cut; or ahead of the cut, with the rest of the code still to
come. -/
inductive Frame.Beside (f : Func) (id : BlockId) (head : Block) (position : Nat) :
    Frame → Frame → Prop
  | behind (frame : Frame) :
      Beside f id head position frame (frame.moved (f.endOf id frame.block) frame.rest)
  | ahead (values : Array (Option Int64)) (code : List Instr) :
      Beside f id head position ⟨values, id, code ++ head.instrs.drop position⟩ ⟨values, id, code⟩

/-- The ends of two blocks lead to frames beside each other, or end two runs in the same way. -/
inductive Frame.EndsBeside (f : Func) (id : BlockId) (head : Block) (position : Nat) :
    Except Error (Frame ⊕ Option Int64) → Except Error (Frame ⊕ Option Int64) → Prop
  | onward {frame frame' : Frame} (beside : frame.Beside f id head position frame') :
      EndsBeside f id head position (.ok (.inl frame)) (.ok (.inl frame'))
  | returned (value : Option Int64) :
      EndsBeside f id head position (.ok (.inr value)) (.ok (.inr value))
  | failed (error : Error) (block : BlockId) :
      EndsBeside f id head position (.error error) (.error (error.within block))

/-- Two steps lead to frames beside each other, or end two runs in the same way. -/
inductive Progress.Beside (f : Func) (id : BlockId) (head : Block) (position : Nat) :
    Progress → Progress → Prop
  | running {frame frame' : Frame} (world : World)
      (beside : frame.Beside f id head position frame') :
      Beside f id head position (.running frame world) (.running frame' world)
  | returned (value : Option Int64) (world : World) :
      Beside f id head position (.returned value world) (.returned value world)
  | failed (error : Error) (block : BlockId) (world : World) :
      Beside f id head position (.failed error world) (.failed (error.within block) world)

theorem Progress.Beside.isRunning_eq {progress progress' : Progress}
    (beside : progress.Beside f id head position progress') :
    progress'.isRunning = progress.isRunning := by
  cases beside <;> rfl

namespace Machine

/-- An instruction is executed alike if its rest is still beside. -/
theorem beside_cons (f g : Func) {block block' : BlockId} {rest rest' : List Instr}
    (beside : ∀ values,
      Frame.Beside f id head position ⟨values, block, rest⟩ ⟨values, block', rest'⟩)
    (values : Array (Option Int64)) (instr : Instr) (world : World) :
    Progress.Beside f id head position (step f ⟨values, block, instr :: rest⟩ world)
      (step g ⟨values, block', instr :: rest'⟩ world) := by
  have moved := execute_moved instr ⟨values, block, rest⟩ block' rest' world
  rw [Frame.moved] at moved
  rw [step, step, moved]
  cases executed : execute instr ⟨values, block, rest⟩ world with
  | mk outcome after =>
      cases outcome with
      | error error => exact .failed error block' after
      | ok next =>
          obtain ⟨block_eq, rest_eq⟩ := place_of_execute executed
          obtain ⟨values', place, code⟩ := next
          obtain rfl : place = block := block_eq
          obtain rfl : code = rest := rest_eq
          exact .running after (beside values')

variable {condition : Operand} {weights : Option Weights}
  (split : f.Split id head position condition weights g) (found : f.block? id = some head)

include split found

/-- Where a block is entered, the code ahead is that of the block or of its head. -/
theorem beside_enter {target : BlockId} {block image : Block}
    (stood : f.block? target = some block) (stands : g.block? target = some image)
    (values : Array (Option Int64)) :
    Frame.Beside f id head position ⟨values, target, block.instrs⟩
      ⟨values, target, image.instrs⟩ := by
  by_cases same : target = id
  · subst same
    cases found.symm.trans stood
    cases split.head_eq.symm.trans stands
    have whole : Frame.Beside f target head position
        ⟨values, target, head.instrs.take position ++ head.instrs.drop position⟩
        ⟨values, target, head.instrs.take position⟩ := .ahead values _
    rwa [List.take_append_drop] at whole
  · rw [split.others target (Func.lt_size_of_block? stood) same] at stands
    cases stood.symm.trans stands
    have there : Frame.Beside f id head position ⟨values, target, block.instrs⟩
        ⟨values, f.endOf id target, block.instrs⟩ := .behind _
    rwa [Func.endOf, if_neg same] at there

/-- An edge that fits leads to frames beside each other. -/
theorem beside_follow {edge : Edge} (fits : f.Fits edge) (frame : Frame) (block : BlockId) :
    Frame.EndsBeside f id head position ((frame.follow f edge).map .inl)
      (((frame.moved block []).follow g edge).map .inl) := by
  obtain ⟨target, stood, arity⟩ := fits
  obtain ⟨image, stands, params⟩ := split.exists_block? found stood
  rw [Frame.follow_moved stood stands params]
  cases followed : frame.follow f edge with
  | error error => exact .failed error block
  | ok next =>
      obtain ⟨target', stood', block_eq, rest_eq⟩ := Frame.place_of_follow followed
      cases stood.symm.trans stood'
      obtain ⟨values, place, code⟩ := next
      obtain rfl : place = edge.target := block_eq
      obtain rfl : code = target.instrs := rest_eq
      exact .onward (beside_enter split found stood stands values)

/-- The end of a block is reached alike. -/
theorem beside_finishBlock {terminator : Terminator}
    (fits : ∀ edge ∈ terminator.edges, f.Fits edge) (frame : Frame) (block : BlockId) :
    Frame.EndsBeside f id head position (frame.finishBlock f terminator)
      ((frame.moved block []).finishBlock g terminator) := by
  cases terminator with
  | ret operand =>
      cases operand with
      | none => exact .returned none
      | some operand =>
          rw [Frame.finishBlock, Frame.finishBlock, Frame.read_moved]
          cases frame.read operand with
          | error error => exact .failed error block
          | ok value => exact .returned (some value)
  | jump edge =>
      exact beside_follow split found (fits edge (List.mem_singleton_self _)) frame block
  | branch operand whenTrue whenFalse weights =>
      rw [Frame.finishBlock, Frame.finishBlock, Frame.chooses, Frame.chooses, Frame.read_moved]
      cases frame.read operand with
      | error error => exact .failed error block
      | ok value =>
          have chosen : (if value ≠ 0 then whenTrue else whenFalse) ∈ [whenTrue, whenFalse] := by
            split <;> simp
          exact beside_follow split found (fits _ chosen) frame block
  | unreachable =>
      have name_eq : g.name = f.name := by rw [split.header]
      rw [Frame.finishBlock, Frame.finishBlock, name_eq]
      exact .failed _ block

/-- Where a block ends in the split function, it ends as it did. -/
theorem exists_end {block : BlockId} {current : Block} (stood : f.block? block = some current) :
    ∃ image, g.block? (f.endOf id block) = some image ∧ image.terminator = current.terminator := by
  rw [Func.endOf]
  split
  · next same =>
      subst same
      cases found.symm.trans stood
      exact ⟨_, split.rest_eq, rfl⟩
  · next apart =>
      exact ⟨current, (split.others block (Func.lt_size_of_block? stood) apart).trans stood, rfl⟩

/-- Behind the cut, and in other blocks, a step is matched by one step. -/
theorem beside_behind (sound : f.WellFormed) {frame : Frame} (placed : frame.Placed f)
    (world : World) :
    Progress.Beside f id head position (step f frame world)
      (step g (frame.moved (f.endOf id frame.block) frame.rest) world) := by
  obtain ⟨current, stood, -⟩ := placed.inside
  obtain ⟨values, block, rest⟩ := frame
  cases rest with
  | cons instr rest =>
      exact beside_cons f g (fun values => .behind ⟨values, block, rest⟩) values instr world
  | nil =>
      obtain ⟨image, stands, flow⟩ := exists_end split found stood
      have ends := beside_finishBlock split found (fun edge leaves => sound.fits stood leaves)
        ⟨values, block, []⟩ (f.endOf id block)
      rw [step_of_block stood, Frame.moved, step_of_block stands, flow]
      rw [Frame.moved] at ends
      generalize Frame.finishBlock f ⟨values, block, []⟩ current.terminator = here at ends ⊢
      generalize Frame.finishBlock g ⟨values, f.endOf id block, []⟩ current.terminator = there
        at ends ⊢
      cases ends with
      | onward beside => exact .running world beside
      | returned value => exact .returned value world
      | failed error block => exact .failed error block world

omit found in
/-- At the cut the split function goes on to the rest of the code, right away or through the
guarded block. -/
theorem passes_cut {values : Array (Option Int64)} {value : Int64}
    (read : (⟨values, id, []⟩ : Frame).read condition = .ok value) (world : World) :
    ∃ steps path, steps ≤ 2 ∧ (∀ place ∈ path, place.rest = []) ∧
      Passes g steps ⟨values, id, []⟩ world path
        (.running ⟨values, f.blocks.size, head.instrs.drop position⟩ world) := by
  have decides := step_of_block split.head_eq values world
  rw [Frame.finishBlock, Frame.chooses, read] at decides
  by_cases zero : value = 0
  · have onward : step g ⟨values, id, []⟩ world =
        .running ⟨values, f.blocks.size, head.instrs.drop position⟩ world := by
      rw [decides]
      simp [Except.map, zero, follow_plain split.rest_eq rfl]
    refine ⟨1, _, by decide, fun place mem => ?_, .single onward⟩
    rw [List.mem_singleton.mp mem]
  · have aside : step g ⟨values, id, []⟩ world =
        .running ⟨values, f.blocks.size + 1, []⟩ world := by
      rw [decides]
      simp [Except.map, zero, follow_plain split.guarded_eq rfl]
    have back : step g ⟨values, f.blocks.size + 1, []⟩ world =
        .running ⟨values, f.blocks.size, head.instrs.drop position⟩ world :=
      step_leave values world split.guarded_eq rfl split.rest_eq rfl
    refine ⟨2, _, by decide, fun place mem => ?_, (Passes.single aside).trans (.single back)⟩
    rcases List.mem_cons.mp mem with rfl | last
    · rfl
    · rw [List.mem_singleton.mp last]

/-- A step is matched by at most three, with the same effects. -/
theorem exists_passes_of_step (sound : f.WellFormed) {frame frame' : Frame}
    (placed : frame.Placed f) (beside : frame.Beside f id head position frame')
    (readable : frame.block = id → frame.rest = head.instrs.drop position →
      ∃ value, frame.read condition = .ok value) (world : World) :
    ∃ steps path progress, 0 < steps ∧ steps ≤ 3 ∧ Passes g steps frame' world path progress ∧
      (∀ offered, path.filterMap (Frame.effect? offered) = (frame.effect? offered).toList) ∧
      Progress.Beside f id head position (step f frame world) progress := by
  have single {place : Frame} (same : ∀ offered, place.effect? offered = frame.effect? offered)
      (offered : Callee → Bool) :
      [place].filterMap (Frame.effect? offered) = (frame.effect? offered).toList := by
    rw [Frame.filterMap_effect?_cons, same, List.filterMap_nil, List.append_nil]
  cases beside with
  | behind =>
      refine ⟨1, _, _, by decide, by decide, .single rfl, single fun offered => ?_,
        beside_behind split found sound placed world⟩
      exact Frame.effect?_moved offered frame _ rfl
  | ahead values code =>
      cases code with
      | cons instr code =>
          refine ⟨1, _, _, by decide, by decide, .single rfl, single fun offered => ?_,
            beside_cons f g (fun values => .ahead values code) values instr world⟩
          exact Frame.effect?_moved offered ⟨values, id, _⟩ id rfl
      | nil =>
          obtain ⟨value, read⟩ := readable rfl rfl
          obtain ⟨steps, path, le, idle, passes⟩ :=
            passes_cut split ((Frame.read_rest values id _ _ condition).trans read) world
          have onward := beside_behind split found sound placed world
          rw [Func.endOf, if_pos rfl] at onward
          refine ⟨steps + 1, _, _, Nat.succ_pos _, Nat.succ_le_succ le,
            passes.trans (.single rfl), ?_, onward⟩
          intro offered
          have none : path.filterMap (Frame.effect? offered) = [] := by
            refine List.filterMap_eq_nil_iff.mpr fun place mem => ?_
            rw [Frame.effect?, idle place mem]
            rfl
          rw [List.filterMap_append, none]
          exact single (fun offered => Frame.effect?_moved offered ⟨values, id, _⟩ _ rfl) offered

/-- A run is matched by one of as many steps and at most three times as many, with the same
effects. -/
theorem exists_passes (sound : f.WellFormed) {frame frame' : Frame} (placed : frame.Placed f)
    (beside : frame.Beside f id head position frame') {steps : Nat} {world : World}
    (readable : ∀ place ∈ trail f steps frame world, place.block = id →
      place.rest = head.instrs.drop position → ∃ value, place.read condition = .ok value) :
    ∃ steps' path progress, (trail f steps frame world).length ≤ steps' ∧ steps' ≤ 3 * steps ∧
      Passes g steps' frame' world path progress ∧
      (∀ offered, path.filterMap (Frame.effect? offered) =
        (trail f steps frame world).filterMap (Frame.effect? offered)) ∧
      Progress.Beside f id head position (advance f steps frame world) progress := by
  induction steps generalizing frame frame' world with
  | zero =>
      exact ⟨0, _, _, Nat.le_refl 0, Nat.le_refl 0, .refl g frame' world, fun offered => rfl,
        .running world beside⟩
  | succ steps ih =>
      rw [trail_succ] at readable
      obtain ⟨first, path, progress, pos, le, passes, effects, matched⟩ :=
        exists_passes_of_step split found sound placed beside
          (readable frame List.mem_cons_self) world
      rw [advance_succ, trail_succ]
      cases stepped : step f frame world with
      | running next middle =>
          rw [stepped] at readable matched
          cases matched with
          | running world beside =>
              obtain ⟨later, path', progress', length, le', passes', effects', matched'⟩ :=
                ih (placed.moves (moves_of_step stepped)) beside
                  fun place mem => readable place (List.mem_cons_of_mem _ mem)
              refine ⟨first + later, _, progress', ?_, by omega, passes.trans passes', ?_, matched'⟩
              · show (trail f steps next middle).length + 1 ≤ first + later
                omega
              · intro offered
                rw [List.filterMap_append, effects, effects', Frame.filterMap_effect?_cons]
      | returned value after =>
          rw [stepped] at matched
          refine ⟨first, path, progress, pos, by omega, passes, fun offered => ?_, matched⟩
          rw [effects, Frame.filterMap_effect?_cons, List.filterMap_nil, List.append_nil]
      | failed error after =>
          rw [stepped] at matched
          refine ⟨first, path, progress, pos, by omega, passes, fun offered => ?_, matched⟩
          rw [effects, Frame.filterMap_effect?_cons, List.filterMap_nil, List.append_nil]

/-- A run of the split function starts where one of the original does. -/
theorem exists_start {args : List Int64} {frame : Frame} (starts : Frame.start f args = .ok frame) :
    ∃ frame', Frame.start g args = .ok frame' ∧ frame.Beside f id head position frame' := by
  have params_eq : g.params = f.params := by rw [split.header]
  have next_eq : g.nextValue = f.nextValue := by rw [split.header]
  rw [Frame.start] at starts ⊢
  rw [params_eq, next_eq]
  split at starts
  · cases starts
  · next arity =>
      rw [if_neg arity]
      cases written : (⟨Array.replicate f.nextValue none, Func.entry, []⟩ : Frame).writeAll
          (f.params.zip args) with
      | error error => rw [written] at starts; cases starts
      | ok bound =>
          rw [written] at starts
          cases entered : f.block? Func.entry with
          | none => rw [entered] at starts; cases starts
          | some first =>
              rw [entered] at starts
              cases starts
              obtain ⟨image, stands, -⟩ := split.exists_block? found entered
              obtain ⟨values, block, rest⟩ := bound
              obtain rfl : block = Func.entry := (Frame.place_of_writeAll written).1
              simp only [stands]
              exact ⟨_, rfl, beside_enter split found entered stands values⟩

end Machine

end

/-- Whenever a run comes to a place in a block, with some code of the block left, it can
read the condition. -/
def Func.Readable (f : Func) (id : BlockId) (rest : List Instr) (condition : Operand)
    (args : List Int64) (world : World) : Prop :=
  ∀ limit, ∀ place ∈ Machine.trailOf f limit args world, place.block = id → place.rest = rest →
    ∃ value, place.read condition = .ok value

/-- A condition that is available at the cut can be read there. -/
theorem Func.readable_of_available {f : Func} (verified : f.verify = .ok ())
    {tree : DominatorTree} (computed : f.immediateDominators = .ok tree) {id : BlockId}
    {head : Block} (found : f.block? id = some head) {position : Nat} {condition : Operand}
    (available : ∀ used, condition = .value used →
      f.Available tree id head (head.instrs.take position) used)
    (args : List Int64) (world : World) :
    f.Readable id (head.instrs.drop position) condition args world := by
  have sound := verify_eq_ok_iff.mp verified
  obtain ⟨order, tree', -, ordered, computed', settled⟩ :=
    sound.targetsExist.immediateDominators_eq_ok sound.blocks_pos
  cases computed.symm.trans computed'
  rintro limit place mem rfl rest_eq
  cases condition with
  | const constant => exact ⟨constant.value, rfl⟩
  | value used =>
      cases starts : Frame.start f args with
      | error error =>
          rw [Machine.trailOf, starts] at mem
          cases mem
      | ok start =>
          rw [Machine.trailOf_of_start starts] at mem
          obtain ⟨steps, after, reached⟩ := Machine.reached_of_mem_trail mem
          have provided := Machine.provided_of_advance sound starts reached
          have whole : head.instrs = head.instrs.take position ++ place.rest := by
            rw [rest_eq, List.take_append_drop]
          obtain ⟨value, held⟩ :=
            provided.holds_of_available settled ordered found whole (available used rfl)
          exact ⟨value, by rw [Frame.read_value, held]⟩

namespace Machine

/-- Runs of one function on some arguments are runs of another one, which takes at least as
many steps and at most three times as many: one that returns does so with the same value in
the same world, one that fails does so in the same world and for the same reason, and one
that goes on goes on.  What they do to the world on the way is the same. -/
structure Mirrors (f g : Func) (args : List Int64) (world : World) : Prop where
  returned : ∀ limit value after, run f limit args world = (.ok value, after) →
    ∀ more, 3 * limit ≤ more → run g more args world = (.ok value, after) ∧
      effects g more args world = effects f limit args world
  failed : ∀ limit error after, run f limit args world = (.error error, after) →
    error ≠ .stepLimitExceeded limit → ∀ more, 3 * limit ≤ more →
      (∃ block, run g more args world = (.error (error.within block), after) ∧
        error.within block ≠ .stepLimitExceeded more) ∧
      effects g more args world = effects f limit args world
  exhausted : ∀ limit, (run f limit args world).1 = .error (.stepLimitExceeded limit) →
    (run g limit args world).1 = .error (.stepLimitExceeded limit)

section

variable {f g : Func} {id : BlockId} {head : Block} {position : Nat} {condition : Operand}
  {weights : Option Weights}
  (split : f.Split id head position condition weights g) (found : f.block? id = some head)
  {args : List Int64} {world : World}

include split

/-- Both functions refuse the wrong number of arguments. -/
theorem mirrors_of_arity (wrong : f.params.length ≠ args.length) : Mirrors f g args world := by
  have params_eq : g.params = f.params := by rw [split.header]
  have refused : Frame.start f args =
      .error (.functionArity f.name f.params.length args.length) := if_pos wrong
  have name_eq : g.name = f.name := by rw [split.header]
  have refused' : Frame.start g args =
      .error (.functionArity f.name f.params.length args.length) := by
    rw [Frame.start, params_eq, name_eq, if_pos wrong]
  have idle (limit more : Nat) : effects g more args world = effects f limit args world := by
    rw [effects, effects, trailOf, trailOf, refused, refused']
  refine ⟨fun limit value after ended => ?_, fun limit error after ended _ more _ => ?_,
    fun limit cut => ?_⟩
  · rw [run, refused] at ended
    cases ended
  · rw [run, refused] at ended
    cases ended
    refine ⟨⟨Func.entry, ?_, fun same => ?_⟩, idle limit more⟩
    · rw [run, refused']
      rfl
    · cases same
  · rw [run, refused] at cut
    cases cut

include found

/-- If the condition can be read whenever the cut is reached, the runs mirror each other. -/
theorem mirrors_of_split (sound : f.WellFormed)
    (readable : f.Readable id (head.instrs.drop position) condition args world) :
    Mirrors f g args world := by
  by_cases arity : f.params.length = args.length
  · obtain ⟨frame, starts, placed, -⟩ := sound.start_eq_ok arity
    obtain ⟨frame', starts', beside⟩ := exists_start split found starts
    have readable (limit : Nat) : ∀ place ∈ trail f limit frame world, place.block = id →
        place.rest = head.instrs.drop position → ∃ value, place.read condition = .ok value := by
      rw [← trailOf_of_start starts]
      exact readable limit
    have matched (limit : Nat) := exists_passes split found sound placed beside (readable limit)
    have onward {limit more : Nat} (ended : (advance f limit frame world).isRunning = false)
        (le : 3 * limit ≤ more) :
        Progress.Beside f id head position (advance f limit frame world)
          (advance g more frame' world) ∧
        effects g more args world = effects f limit args world := by
      obtain ⟨steps, path, progress, -, le', passes, same, alike⟩ := matched limit
      have ended' : (advance g steps frame' world).isRunning = false := by
        rw [passes.advance_eq, alike.isRunning_eq, ended]
      have enough : steps ≤ more := le'.trans le
      rw [advance_of_ended ended' enough, passes.advance_eq]
      refine ⟨alike, ?_⟩
      rw [effects, effects, trailOf_of_start starts, trailOf_of_start starts',
        trail_of_ended ended' enough, passes.trail_eq, same]
    refine ⟨fun limit value after returned more le => ?_,
      fun limit error after failed cause more le => ?_, fun limit cut => ?_⟩
    · rw [run_of_start starts] at returned
      have reached := Progress.eq_returned_of_result returned
      obtain ⟨alike, same⟩ := onward (by rw [reached]; rfl) le
      refine ⟨?_, same⟩
      rw [run_of_start starts']
      rw [reached] at alike
      generalize advance g more frame' world = there at alike ⊢
      cases alike
      rfl
    · rw [run_of_start starts] at failed
      have reached := Progress.eq_failed_of_result failed cause
      obtain ⟨alike, same⟩ := onward (by rw [reached]; rfl) le
      refine ⟨?_, same⟩
      rw [run_of_start starts']
      rw [reached] at alike
      generalize there : advance g more frame' world = progress at alike ⊢
      cases alike with
      | failed error block after =>
          refine ⟨block, rfl, fun same => ?_⟩
          have cause := cause_advance there
          rw [same] at cause
          cases cause
    · obtain ⟨begun, stop, after, starts'', reached⟩ := running_of_run cut
      cases starts.symm.trans starts''
      obtain ⟨steps, path, progress, length, -, passes, -, alike⟩ := matched limit
      rw [length_trail_of_running reached] at length
      have going : (advance g limit frame' world).isRunning = true := by
        apply isRunning_of_le length
        rw [passes.advance_eq, alike.isRunning_eq, reached]
        rfl
      obtain ⟨last, result⟩ := Progress.result_of_isRunning going limit
      rw [run_of_start starts', result]
  · exact mirrors_of_arity split arity

end

end Machine

namespace Func

/-- A block of a verified function may be split anywhere, on a literal or on a value that the
function defines.  The outcome is verified, has two more blocks and all others where they
were, and has the same loop headers.  Its runs mirror those of the function if these can
read the condition whenever they come to the cut. -/
theorem splitBlock_preserves {f : Func} (verified : f.verify = .ok ()) {id : BlockId}
    {head : Block} (found : f.block? id = some head) (position : Nat) {condition : Operand}
    (defined : ∀ used, condition = .value used → used ∈ f.definitions)
    (weights : Option Weights) :
    ∃ g, f.splitBlock id position condition weights = (f.blocks.size + 1, g) ∧
      g.verify = .ok () ∧ f.Split id head position condition weights g ∧
      (∃ headers, f.loopHeaders = .ok headers ∧ g.loopHeaders = .ok headers) ∧
      ∀ args world, f.Readable id (head.instrs.drop position) condition args world →
        Machine.Mirrors f g args world := by
  have sound := verify_eq_ok_iff.mp verified
  have split := split_splitBlock found position condition weights
  refine ⟨(f.splitBlock id position condition weights).2, ?_, ?_, split, ?_, ?_⟩
  · exact Prod.ext (splitBlock_fst f id position condition weights) rfl
  · exact verify_eq_ok_iff.mpr (sound.splitBlock found position defined weights)
  · exact (split.graph found).loopHeaders_eq sound.targetsExist
  · exact fun args world readable => Machine.mirrors_of_split split found sound readable

/-- The header of the countdown is split before its branch, on the condition of the branch. -/
theorem splitBlock_preserves_countdown :
    ∃ g, Sample.countdown.splitBlock 1 1 (.value 3) none = (5, g) ∧ g.verify = .ok () ∧
      g.loopHeaders = .ok [1] ∧
      (Machine.run Sample.countdown 20 [2] Sample.still).1 = .ok (some 1) ∧
      ∀ more, 60 ≤ more → Machine.run g more [2] Sample.still =
        Machine.run Sample.countdown 20 [2] Sample.still := by
  have verified : Sample.countdown.verify = .ok () := rfl
  have headers : Sample.countdown.loopHeaders = .ok [1] := by decide +kernel
  have computed : Sample.countdown.immediateDominators = .ok Sample.countdownTree := by
    decide +kernel
  have found : Sample.countdown.block? 1 = some ⟨some "header", [2],
    [.binop 3 .sgt (.value 2) (.const (.word 0))], .branch (.value 3) ⟨2, []⟩ ⟨3, []⟩ none⟩ := rfl
  have defined : ∀ used, Operand.value 3 = .value used → used ∈ Sample.countdown.definitions := by
    rintro used ⟨⟩
    decide
  have returned : (Machine.run Sample.countdown 20 [2] Sample.still).1 = .ok (some 1) := rfl
  obtain ⟨g, splits, accepts, -, ⟨names, here, there⟩, mirrors⟩ :=
    splitBlock_preserves verified found 1 defined none
  cases headers.symm.trans here
  have mirrored : Machine.Mirrors Sample.countdown g [2] Sample.still := by
    apply mirrors
    apply readable_of_available verified computed found
    rintro used ⟨⟩
    exact .result List.mem_cons_self rfl
  have ended : Machine.run Sample.countdown 20 [2] Sample.still =
      (.ok (some 1), (Machine.run Sample.countdown 20 [2] Sample.still).2) :=
    Prod.ext returned rfl
  refine ⟨g, splits, accepts, there, returned, fun more le => ?_⟩
  rw [(mirrored.returned 20 _ _ ended more le).1, ended]

end Func

end FlowProfile
