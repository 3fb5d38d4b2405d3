/-
# A woven function follows the function

The woven function follows the original block by block: where the original is about to
execute an instruction, the woven function is about to execute what that instruction was
woven into.  `Woven.answers` is the one step of this: to each step of the original it
answers by a few of its own, which end in frames that again follow one another, and which
add exactly the ledger of that step to the counters of the profile.

The original is looked at in the moment after lowering, with its next call renamed.  Both
functions then meet the same host, so that nothing need be known about its routines.
-/

import FlowProfile.Proofs.Weave.Own

namespace FlowProfile

/-! ## What a weave does to single instructions -/

namespace Weave

variable (weave : Weave)

theorem lower_eq_or (instr : Instr) :
    weave.lower instr = instr ∨
      ∃ lowering result args, weave.lowering = some lowering ∧
        instr = .call result (.symbol lowering.symbols.request) args ∧
        weave.lower instr =
          .call result (.symbol (lowering.target args[lowering.symbols.sizeArg]?)) args := by
  cases lowered : weave.lowering with
  | none => exact .inl (by rw [lower, lowered])
  | some lowering =>
      cases instr with
      | call result callee args =>
          cases callee with
          | address code => exact .inl (by rw [lower, lowered]; rfl)
          | symbol name =>
              by_cases same : name = lowering.symbols.request
              · refine .inr ⟨lowering, result, args, rfl, by rw [same], ?_⟩
                rw [lower, lowered]
                exact if_pos same
              · left
                rw [lower, lowered]
                exact if_neg same
      | _ => exact .inl (by rw [lower, lowered]; rfl)

theorem operands_lower (instr : Instr) : (weave.lower instr).operands = instr.operands := by
  rcases weave.lower_eq_or instr with same | ⟨lowering, result, args, -, rfl, renamed⟩
  · rw [same]
  · rw [renamed]
    rfl

theorem result?_lower (instr : Instr) : (weave.lower instr).result? = instr.result? := by
  rcases weave.lower_eq_or instr with same | ⟨lowering, result, args, -, rfl, renamed⟩
  · rw [same]
  · rw [renamed]
    rfl

theorem counter?_lower (instr : Instr) : (weave.lower instr).counter? = instr.counter? := by
  rcases weave.lower_eq_or instr with same | ⟨lowering, result, args, -, rfl, renamed⟩
  · rw [same]
  · rw [renamed]
    rfl

theorem isCall_lower (instr : Instr) : (weave.lower instr).isCall = instr.isCall := by
  rcases weave.lower_eq_or instr with same | ⟨lowering, result, args, -, rfl, renamed⟩
  · rw [same]
  · rw [renamed]
    rfl

/-- Tallies ahead of an instruction read nothing that a call does not read. -/
theorem mem_talliesAt {stage : Stage} {instr : Instr} {entry : Measure × Operand}
    (mem : entry ∈ weave.talliesAt stage instr) :
    weave.allocations.isSome = true ∧ instr.isCall = true ∧
      (entry.2 ∈ instr.operands ∨ entry.2 = Probe.one) := by
  rcases weave.talliesAt_eq_or stage instr with
    none | ⟨symbols, size, asked, recognized, found, two⟩
  · rw [none] at mem
    cases mem
  · have isCall : instr.isCall = true := by
      cases instr <;> first | rfl | cases recognized
    refine ⟨by rw [asked]; rfl, isCall, ?_⟩
    simp only [two, List.mem_cons, List.not_mem_nil, or_false] at mem
    rcases mem with rfl | rfl
    · exact .inl (List.mem_of_getElem? found)
    · exact .inr rfl

theorem mem_tallies {instr : Instr} {entry : Measure × Operand}
    (mem : entry ∈ weave.tallies instr) :
    weave.allocations.isSome = true ∧ instr.isCall = true ∧
      (entry.2 ∈ instr.operands ∨ entry.2 = Probe.one) := by
  rcases List.mem_append.mp mem with early | late
  · exact weave.mem_talliesAt early
  · have found := weave.mem_talliesAt late
    rw [weave.isCall_lower, weave.operands_lower] at found
    exact found

theorem below_lower {bound : Nat} {instr : Instr} (below : instr.Below bound) :
    (weave.lower instr).Below bound where
  operands operand mem := below.operands operand (weave.operands_lower instr ▸ mem)
  result id same := below.result id (weave.result?_lower instr ▸ same)

theorem spares_lower {instr : Instr} (spares : weave.Spares instr) :
    weave.Spares (weave.lower instr) := by
  intro counter same
  rw [weave.counter?_lower] at same
  exact spares counter same

end Weave

/-! ## Following -/

namespace Weave

variable (weave : Weave)

/-- A frame of the function with its next call renamed. -/
def poised (frame : Frame) : Frame :=
  match frame with
  | ⟨values, block, first :: rest⟩ => ⟨values, block, weave.lower first :: rest⟩
  | ⟨values, block, []⟩ => ⟨values, block, []⟩

/-- How many steps of the woven function answer the next step of the function. -/
def cost (f : Func) (frame : Frame) : Nat :=
  match frame.rest with
  | first :: _ => (weave.tallies first).length + 1
  | [] => (if weave.branches && (frame.branchCondition? f).isSome then 3 else 0) + 1

/-- What the woven function adds to the counters ahead of the next step of the function. -/
def ledger (f : Func) (frame : Frame) : Ledger :=
  match frame.rest with
  | first :: _ => (weave.tallies first).map fun entry => (entry.1, frame.amount entry.2)
  | [] =>
      match weave.branches, frame.branchCondition? f with
      | true, some condition =>
          match frame.read condition with
          | .ok value => branchLedger frame.block value
          | .error _ => [(.total frame.block, 1)]
      | true, none | false, _ => []

/-- A frame of the woven function is where a frame of the function would be, and holds the
same values. -/
structure Follows (prologue : Prologue) (fresh : BlockId → ValueId) (f woven : Func)
    (frame frame' : Frame) : Prop where
  place : ∃ block, f.block? frame.block = some block ∧ frame.rest <:+ block.instrs ∧
    frame'.rest = weave.code (fresh frame.block) frame.block block.terminator frame.rest
  block_eq : frame'.block = prologue.home f.blocks.size frame.block
  covers : Covers f.nextValue frame.values frame'.values
  size_eq : frame'.values.size = woven.nextValue

/-- The failure of a woven run when the function fails.  It is the same up to the names of
blocks and of lowered routines, or, at a call that fails, the probe ahead of the call
fails because an argument is not defined. -/
inductive Mirrors : Error → Error → Prop
  | within (error : Error) (block : BlockId) : Mirrors error (error.within block)
  | renamed {lowering : Lowering} (lowered : weave.lowering = some lowering)
      (size : Option Operand) :
      Mirrors (.unknownSymbol lowering.symbols.request) (.unknownSymbol (lowering.target size))
  | early {error : Error} (probed : weave.allocations.isSome = true)
      (failsCall : (∃ callee, error = Host.unresolved callee) ∨
        ∃ id block, error = .undefinedValue id block)
      (id : ValueId) (block : BlockId) : Mirrors error (.undefinedValue id block)

end Weave

/-- Along a path of the woven function the branches that were decided are those that one
step of the function decides. -/
def Prologue.Retraces (prologue : Prologue) (f woven : Func) (frame : Frame)
    (path : List Frame) : Prop :=
  ∀ id < f.blocks.size,
    path.countP (Frame.branchesAt woven (prologue.home f.blocks.size id)) =
        (frame.branchesAt f id).toNat ∧
      path.countP (Frame.takesAt woven (prologue.home f.blocks.size id)) =
        (frame.takesAt f id).toNat

/-- A frame of the woven function in which it takes a step of the function itself: what was
put ahead of that step is done. -/
structure Weave.Stands (weave : Weave) (prologue : Prologue) (fresh : BlockId → ValueId)
    (f : Func) (frame place : Frame) : Prop where
  rest_eq : ∃ block, f.block? frame.block = some block ∧ frame.rest <:+ block.instrs ∧
    place.rest =
      match frame.rest with
      | first :: rest =>
          weave.lower first ::
            weave.code (fresh frame.block) frame.block block.terminator rest
      | [] => []
  block_eq : place.block = prologue.home f.blocks.size frame.block
  covers : Covers f.nextValue frame.values place.values

/-- A path of the woven function that answers a step of the function decides the branches
that the step decides, and makes a call by name only in its last frame. -/
structure Weave.Retells (weave : Weave) (prologue : Prologue) (fresh : BlockId → ValueId)
    (f woven : Func) (frame : Frame) (path : List Frame) : Prop where
  retraces : prologue.Retraces f woven frame path
  stands : ∃ early place, path = early ++ [place] ∧
    (∀ middle ∈ early, middle.namedCall? = none) ∧ weave.Stands prologue fresh f frame place

/-- How a woven function answers to what a step of the function leads to. -/
inductive Weave.Answers (weave : Weave) (prologue : Prologue) (fresh : BlockId → ValueId)
    (f woven : Func) (frame frame' : Frame) (world' : World) : Progress → Prop
  | running {next next' : Frame} {after after' : World} {path : List Frame}
      (passes : Machine.Passes woven (weave.cost f frame) frame' world' path
        (.running next' after'))
      (retells : weave.Retells prologue fresh f woven frame path)
      (follows : weave.Follows prologue fresh f woven next next')
      (agrees : weave.Agrees after after')
      (grows : weave.Grows (weave.ledger f frame) world' after') :
      Answers weave prologue fresh f woven frame frame' world' (.running next after)
  | returned {value : Option Int64} {after after' : World} {path : List Frame}
      (passes : Machine.Passes woven (weave.cost f frame) frame' world' path
        (.returned value after'))
      (retells : weave.Retells prologue fresh f woven frame path)
      (agrees : weave.Agrees after after')
      (grows : weave.Grows (weave.ledger f frame) world' after') :
      Answers weave prologue fresh f woven frame frame' world' (.returned value after)
  | failed {error error' : Error} {after after' : World} {steps : Nat}
      (le : steps ≤ weave.cost f frame)
      (fails : Machine.advance woven steps frame' world' = .failed error' after')
      (mirrors : weave.Mirrors error error')
      (agrees : weave.Agrees after after') :
      Answers weave prologue fresh f woven frame frame' world' (.failed error after)

/-! ## Following from block to block -/

section

variable {weave : Weave} {prologue : Prologue} {fresh : BlockId → ValueId} {f woven : Func}
  {frame frame' : Frame}

/-- Both functions follow an edge to the same place. -/
theorem Woven.follow (isWoven : Woven weave prologue fresh f woven) (sound : f.WellFormed)
    (covers : Covers f.nextValue frame.values frame'.values)
    (size : frame'.values.size = woven.nextValue) {edge : Edge} (leadsOn : f.LeadsOn edge)
    (below : ∀ operand ∈ edge.args, operand.Below f.nextValue) :
    (∃ next next', frame.follow f edge = .ok next ∧ frame'.follow woven edge = .ok next' ∧
        weave.Follows prologue fresh f woven next next') ∨
      ∃ error, frame.follow f edge = .error error ∧
        frame'.follow woven edge = .error (error.within frame'.block) := by
  obtain ⟨target, found, inner, arity⟩ := leadsOn
  obtain ⟨image, foundImage, params, instrs, -⟩ := isWoven.inner edge.target target inner found
  have read := Frame.readAll_covered covers below
  rw [Frame.follow, Frame.follow, found, foundImage]
  simp only [params, arity, ne_eq, not_true_eq_false, if_false, read]
  cases incoming : frame.readAll edge.args with
  | error error => exact .inr ⟨error, rfl, rfl⟩
  | ok values =>
      left
      have inside : ∀ pair ∈ target.params.zip values, pair.1 < f.nextValue := by
        intro pair mem
        exact sound.blockParam_lt found (List.of_mem_zip mem).1
      obtain ⟨inner', outer', written, written', covers', size'⟩ :=
        Frame.writeAll_covered covers inside
      simp only [Frame.mapError_ok, written, written']
      refine ⟨_, _, rfl, rfl, ⟨target, found, List.suffix_refl _, ?_⟩, ?_, covers', ?_⟩
      · exact instrs
      · exact (prologue.home_of_ne _ inner).symm
      · exact size'.trans size

/-- The weights of a branch make no difference to what happens at the end of a block. -/
theorem Frame.finishBlock_unweighted (f : Func) (frame : Frame) {first second : Terminator}
    (same : first.unweighted = second.unweighted) :
    frame.finishBlock f first = frame.finishBlock f second := by
  have bare (terminator : Terminator) :
      frame.finishBlock f terminator = frame.finishBlock f terminator.unweighted := by
    cases terminator <;> rfl
  rw [bare first, bare second, same]

/-- Both functions do the same at the end of a block. -/
theorem Woven.finishBlock (isWoven : Woven weave prologue fresh f woven) (sound : f.WellFormed)
    (covers : Covers f.nextValue frame.values frame'.values)
    (size : frame'.values.size = woven.nextValue) {terminator : Terminator}
    (leadsOn : ∀ edge ∈ terminator.edges, f.LeadsOn edge)
    (below : ∀ operand ∈ terminator.operands, operand.Below f.nextValue) :
    (∃ next next', frame.finishBlock f terminator = .ok (.inl next) ∧
        frame'.finishBlock woven terminator = .ok (.inl next') ∧
        weave.Follows prologue fresh f woven next next') ∨
      (∃ value, frame.finishBlock f terminator = .ok (.inr value) ∧
        frame'.finishBlock woven terminator = .ok (.inr value)) ∨
      ∃ error, frame.finishBlock f terminator = .error error ∧
        frame'.finishBlock woven terminator = .error (error.within frame'.block) := by
  cases terminator with
  | ret operand =>
      right
      cases operand with
      | none => exact .inl ⟨none, rfl, rfl⟩
      | some operand =>
          have read := Frame.read_covered covers (below operand (by simp [Terminator.operands]))
          rw [Frame.finishBlock, Frame.finishBlock, read]
          cases frame.read operand with
          | error error => exact .inr ⟨error, rfl, rfl⟩
          | ok value => exact .inl ⟨some value, rfl, rfl⟩
  | jump edge =>
      have followed := isWoven.follow sound covers size
        (leadsOn edge (by simp [Terminator.edges]))
        (fun operand mem => below operand (by simpa [Terminator.operands] using mem))
      rw [Frame.finishBlock, Frame.finishBlock]
      rcases followed with ⟨next, next', here, there, follows⟩ | ⟨error, here, there⟩
      · exact .inl ⟨next, next', by rw [here]; rfl, by rw [there]; rfl, follows⟩
      · exact .inr (.inr ⟨error, by rw [here]; rfl, by rw [there]; rfl⟩)
  | branch condition whenTrue whenFalse weights =>
      have read := Frame.read_covered covers (below condition (by simp [Terminator.operands]))
      rw [Frame.finishBlock, Frame.finishBlock, Frame.chooses, Frame.chooses, read]
      cases frame.read condition with
      | error error => exact .inr (.inr ⟨error, rfl, rfl⟩)
      | ok value =>
          have followed : ∀ edge, edge = whenTrue ∨ edge = whenFalse → _ :=
            fun edge chosen => isWoven.follow sound covers size
              (leadsOn edge (by simpa [Terminator.edges] using chosen))
              (fun operand mem => below operand (by
                rcases chosen with rfl | rfl <;> simp [Terminator.operands, mem]))
          simp only [Frame.mapError_ok, Except.map]
          have chosen : (if value ≠ 0 then whenTrue else whenFalse) = whenTrue ∨
              (if value ≠ 0 then whenTrue else whenFalse) = whenFalse := by
            split
            · exact .inl rfl
            · exact .inr rfl
          rcases followed _ chosen with ⟨next, next', here, there, follows⟩ | ⟨error, here, there⟩
          · exact .inl ⟨next, next', by rw [here], by rw [there], follows⟩
          · exact .inr (.inr ⟨error, by rw [here], by rw [there]⟩)
  | unreachable =>
      refine .inr (.inr ⟨_, rfl, ?_⟩)
      rw [Frame.finishBlock, isWoven.name_eq]
      rfl

/-! ## Which branches are decided on the way -/

theorem Frame.branchCondition?_of_busy {g : Func} {place : Frame} (busy : place.rest ≠ []) :
    place.branchCondition? g = none := by
  rw [branchCondition?, List.isEmpty_eq_false_iff.mpr busy]
  rfl

theorem Frame.branchesAt_of_busy {g : Func} {place : Frame} (busy : place.rest ≠ [])
    (id : BlockId) : place.branchesAt g id = false := by
  rw [branchesAt, branchCondition?_of_busy busy]
  exact Bool.and_false _

theorem Frame.takesAt_of_busy {g : Func} {place : Frame} (busy : place.rest ≠ [])
    (id : BlockId) : place.takesAt g id = false := by
  rw [takesAt, branchCondition?_of_busy busy]
  exact Bool.and_false _

/-- No branch is decided where instructions are left. -/
theorem countP_of_busy {g : Func} {path : List Frame}
    (busy : ∀ middle ∈ path, middle.rest ≠ []) (id : BlockId) :
    path.countP (Frame.branchesAt g id) = 0 ∧ path.countP (Frame.takesAt g id) = 0 := by
  constructor
  · apply List.countP_eq_zero.mpr
    intro middle mem
    rw [Frame.branchesAt_of_busy (busy middle mem)]
    exact Bool.false_ne_true
  · apply List.countP_eq_zero.mpr
    intro middle mem
    rw [Frame.takesAt_of_busy (busy middle mem)]
    exact Bool.false_ne_true

theorem Prologue.retraces_of_busy (prologue : Prologue) {path : List Frame}
    (busy : ∀ middle ∈ path, middle.rest ≠ []) (here : frame.rest ≠ []) :
    prologue.Retraces f woven frame path := by
  intro id inside
  rw [(countP_of_busy busy _).1, (countP_of_busy busy _).2, Frame.branchesAt_of_busy here,
    Frame.takesAt_of_busy here]
  exact ⟨rfl, rfl⟩

theorem Prologue.home_injective (prologue : Prologue) {blocks : Nat} {id other : BlockId}
    (inside : id < blocks) (inside' : other < blocks) :
    prologue.home blocks id = prologue.home blocks other ↔ id = other := by
  cases prologue with
  | bare => exact Iff.rfl
  | counted previous => exact Iff.rfl
  | reported reporter previous current hit =>
      simp only [home]
      by_cases first : id = Func.entry
      · by_cases second : other = Func.entry
        · simp [first, second]
        · have apart : blocks ≠ other := fun same => Nat.lt_irrefl blocks (same ▸ inside')
          simp [first, second, Ne.symm second, apart]
      · by_cases second : other = Func.entry
        · have apart : id ≠ blocks := fun same => Nat.lt_irrefl blocks (same ▸ inside)
          simp [first, second, apart]
        · simp [first, second]

/-- At the end of a block both functions decide the same branch in the same way. -/
theorem Woven.retraces_end (isWoven : Woven weave prologue fresh f woven) (sound : f.WellFormed)
    {id : BlockId} {block : Block} (found : f.block? id = some block)
    {values values' : Array (Option Int64)} (covers : Covers f.nextValue values values')
    {path : List Frame} (busy : ∀ middle ∈ path, middle.rest ≠ []) :
    prologue.Retraces f woven ⟨values, id, []⟩
      (path ++ [⟨values', prologue.home f.blocks.size id, []⟩]) := by
  intro other inside
  obtain ⟨lead, image, foundImage, -, -, flow⟩ := isWoven.hosts found
  have sameHome : (prologue.home f.blocks.size id == prologue.home f.blocks.size other) =
      (id == other) := by
    rw [Bool.eq_iff_iff, beq_iff_eq, beq_iff_eq]
    exact prologue.home_injective (Func.lt_size_of_block? found) inside
  have condition : (⟨values', prologue.home f.blocks.size id, []⟩ : Frame).branchCondition? woven =
      block.terminator.runtimeCondition? := by
    simp only [Frame.branchCondition?, List.isEmpty_nil, if_true, foundImage, Option.bind_some]
    rw [← image.terminator.runtimeCondition?_unweighted, flow,
      block.terminator.runtimeCondition?_unweighted]
  have condition' : (⟨values, id, []⟩ : Frame).branchCondition? f =
      block.terminator.runtimeCondition? := by
    simp only [Frame.branchCondition?, List.isEmpty_nil, if_true, found, Option.bind_some]
  have decides : (⟨values', prologue.home f.blocks.size id, []⟩ : Frame).branchesAt woven
      (prologue.home f.blocks.size other) = (⟨values, id, []⟩ : Frame).branchesAt f other := by
    rw [Frame.branchesAt, Frame.branchesAt, condition, condition', sameHome]
  have takes : (⟨values', prologue.home f.blocks.size id, []⟩ : Frame).takesAt woven
      (prologue.home f.blocks.size other) = (⟨values, id, []⟩ : Frame).takesAt f other := by
    rw [Frame.takesAt, Frame.takesAt, condition, condition', sameHome]
    cases isRuntime : block.terminator.runtimeCondition? with
    | none => rfl
    | some operand =>
        have read : (⟨values', prologue.home f.blocks.size id, []⟩ : Frame).read operand =
            ((⟨values, id, []⟩ : Frame).read operand).mapError
              (Error.within (prologue.home f.blocks.size id)) :=
          Frame.read_covered covers
            (sound.terminator_below found (Terminator.mem_operands_of_runtimeCondition? isRuntime))
        rw [Option.any_some, Option.any_some, read]
        cases (⟨values, id, []⟩ : Frame).read operand <;> rfl
  rw [List.countP_append, List.countP_append, (countP_of_busy busy _).1,
    (countP_of_busy busy _).2, List.countP_singleton, List.countP_singleton, decides, takes]
  constructor
  · cases (⟨values, id, []⟩ : Frame).branchesAt f other <;> rfl
  · cases (⟨values, id, []⟩ : Frame).takesAt f other <;> rfl

/-! ## The answer to one step -/

/-- A call fails if one of its arguments is not defined, and does nothing before. -/
theorem Machine.execute_of_unreadable {instr : Instr} (isCall : instr.isCall = true)
    {operand : Operand} (mem : operand ∈ instr.operands) {place : Frame} {error : Error}
    (unreadable : place.read operand = .error error) (world : World) :
    ∃ first, execute instr place world = (.error first, world) ∧
      ((∃ callee, first = Host.unresolved callee) ∨ ∃ id block, first = .undefinedValue id block) := by
  cases instr with
  | call result callee args =>
      obtain ⟨counters, host⟩ := world
      obtain ⟨first, unread⟩ := Frame.readAll_of_read_error mem unreadable
      have unread : place.readAll args = .error first := unread
      rw [execute, Host.resolve]
      cases host.routine? callee with
      | none => exact ⟨_, rfl, .inl ⟨callee, rfl⟩⟩
      | some routine =>
          obtain ⟨id, rfl⟩ := Frame.eq_undefinedValue_of_readAll unread
          exact ⟨_, by simp only [unread], .inr ⟨id, place.block, rfl⟩⟩
  | const result value => cases isCall
  | binop result op lhs rhs => cases isCall
  | widen result value => cases isCall
  | count result counter amount order => cases isCall

theorem Func.mem_counters {id : BlockId} {block : Block} (found : f.block? id = some block)
    {instr : Instr} (mem : instr ∈ block.instrs) {counter : Counter}
    (adds : instr.counter? = some counter) : counter ∈ f.counters := by
  have listed : block ∈ f.blocks.toList := Array.mem_toList_iff.mpr (Array.mem_of_getElem? found)
  exact List.mem_flatMap.mpr ⟨block, listed, List.mem_filterMap.mpr ⟨instr, mem, adds⟩⟩

/-- A frame that covers another reads what the tallies ahead of an instruction add. -/
theorem Weave.read_tally {values values' : Array (Option Int64)}
    (covers : Covers f.nextValue values values') {first : Instr} (below : first.Below f.nextValue)
    {entry : Measure × Operand} (mem : entry ∈ weave.tallies first) (id home : BlockId)
    (rest rest' : List Instr) :
    (⟨values', home, rest'⟩ : Frame).read entry.2 =
      ((⟨values, id, rest⟩ : Frame).read entry.2).mapError (Error.within home) := by
  apply Frame.read_covered covers
  rcases (weave.mem_tallies mem).2.2 with used | literal
  · exact below.operands _ used
  · rw [literal]
    exact Operand.below_const _ _

section

variable {world world' middle : World} {values values' : Array (Option Int64)} {id : BlockId}
  {first : Instr} {rest rest' : List Instr}

/-- Once the tallies are paid, the instruction itself completes the answer. -/
theorem Weave.answers_of_pays {block : Block} (found : f.block? id = some block)
    (suffix : first :: rest <:+ block.instrs)
    (covers : Covers f.nextValue values values') (size : values'.size = woven.nextValue)
    (below : first.Below f.nextValue) (spares : weave.Spares first)
    (agrees : weave.Agrees world world')
    (pays : weave.Pays woven (weave.tallies first).length frame' world'
      (weave.ledger f ⟨values, id, first :: rest⟩)
      ⟨values', prologue.home f.blocks.size id,
        weave.lower first :: weave.code (fresh id) id block.terminator rest⟩ middle) :
    weave.Answers prologue fresh f woven ⟨values, id, first :: rest⟩ frame' world'
      (Machine.step f ⟨values, id, weave.lower first :: rest⟩ world) := by
  obtain ⟨path, passes, silent⟩ := pays.passes
  have echoes : weave.Echoes f.nextValue ⟨values, id, rest⟩
      ⟨values', prologue.home f.blocks.size id, weave.code (fresh id) id block.terminator rest⟩
      middle _ _ :=
    echoes_execute covers (agrees.trans pays.agrees) (weave.below_lower below)
      (weave.spares_lower spares)
  generalize here : Machine.execute (weave.lower first) ⟨values, id, rest⟩ world = outcome at echoes
  generalize there : Machine.execute (weave.lower first) ⟨values', prologue.home f.blocks.size id,
    weave.code (fresh id) id block.terminator rest⟩ middle = outcome' at echoes
  cases echoes with
  | @ok next next' after after' sameBlock sameRest shadows agrees' grows' =>
      rw [Machine.step_of_execute here]
      have last := passes.trans (Machine.Passes.single (Machine.step_of_execute there))
      refine .running last ?_ ?_ agrees' ?_
      · refine ⟨prologue.retraces_of_busy (fun place mem => ?_) (List.cons_ne_nil _ _), path, _,
          rfl, fun middle mem => (silent middle mem).unnamed, ?_⟩
        · rcases List.mem_append.mp mem with early | late
          · exact (silent place early).busy
          · rw [List.mem_singleton.mp late]
            exact List.cons_ne_nil _ _
        · exact ⟨⟨block, found, suffix, rfl⟩, rfl, covers⟩
      · obtain ⟨inner, place, left⟩ := next
        obtain ⟨outer, place', left'⟩ := next'
        obtain ⟨covers', size', rfl, rfl⟩ := shadows
        obtain rfl : place = id := sameBlock
        obtain rfl : left = rest := sameRest
        exact ⟨⟨block, found, (List.suffix_cons _ _).trans suffix, rfl⟩, rfl, covers',
          size'.trans size⟩
      · exact List.append_nil (weave.ledger f _) ▸ pays.grows.trans grows'
  | @error error error' after after' within agrees' =>
      rw [Machine.step_of_execute_error here]
      have mirrors : weave.Mirrors error error' := by
        rw [within]
        exact .within error _
      refine .failed (Nat.le_refl _) ?_ mirrors agrees'
      exact (Machine.advance_add_of_running passes.advance_eq 1).trans
        ((Machine.advance_one ..).trans (Machine.step_of_execute_error there))

/-- An instruction of the function is answered by its tallies and itself. -/
theorem Weave.answers_instr (sound : f.WellFormed)
    (spares : ∀ counter ∈ f.counters, ¬ weave.Owns counter)
    (follows : weave.Follows prologue fresh f woven ⟨values, id, first :: rest⟩ frame')
    (agrees : weave.Agrees world world') :
    weave.Answers prologue fresh f woven ⟨values, id, first :: rest⟩ frame' world'
      (Machine.step f ⟨values, id, weave.lower first :: rest⟩ world) := by
  obtain ⟨values', home, rest'⟩ := frame'
  obtain ⟨⟨block, found, suffix, code⟩, rfl, covers, size⟩ := follows
  simp only at found suffix code covers size
  rw [weave.code_cons] at code
  subst code
  have mem : first ∈ block.instrs := suffix.subset List.mem_cons_self
  have below : first.Below f.nextValue :=
    ⟨fun operand used => sound.instr_below found mem used,
      fun value result => sound.result_lt found mem result⟩
  have spared : weave.Spares first := fun counter adds =>
    spares counter (Func.mem_counters found mem adds)
  have read {entry : Measure × Operand} (tallied : entry ∈ weave.tallies first) :=
    weave.read_tally covers below tallied id (prologue.home f.blocks.size id) (first :: rest)
      (weave.lower first :: weave.code (fresh id) id block.terminator rest)
  by_cases readable : ∀ entry ∈ weave.tallies first, ∃ value,
      (⟨values, id, first :: rest⟩ : Frame).read entry.2 = .ok value
  · have readable' : ∀ entry ∈ weave.tallies first, ∃ value,
        (⟨values', prologue.home f.blocks.size id,
          weave.lower first :: weave.code (fresh id) id block.terminator rest⟩ : Frame).read
            entry.2 = .ok value := by
      intro entry tallied
      obtain ⟨value, here⟩ := readable entry tallied
      exact ⟨value, by rw [read tallied, here]; rfl⟩
    obtain ⟨middle, pays⟩ := weave.pays_tallies woven readable' world'
    have sameLedger : ((weave.tallies first).map fun entry => (entry.1,
          (⟨values', prologue.home f.blocks.size id,
            weave.lower first :: weave.code (fresh id) id block.terminator rest⟩ : Frame).amount
              entry.2)) =
        weave.ledger f ⟨values, id, first :: rest⟩ := by
      apply List.map_congr_left
      intro entry tallied
      obtain ⟨value, here⟩ := readable entry tallied
      rw [Frame.amount, Frame.amount, read tallied, here]
      rfl
    rw [sameLedger] at pays
    exact answers_of_pays found suffix covers size below spared agrees pays
  · obtain ⟨entry, readable⟩ := Classical.not_forall.mp readable
    obtain ⟨tallied, undefined⟩ := Classical.not_imp.mp readable
    cases here : (⟨values, id, first :: rest⟩ : Frame).read entry.2 with
    | ok value => exact absurd ⟨value, here⟩ undefined
    | error error =>
        obtain ⟨probed, isCall, used⟩ := weave.mem_tallies tallied
        have isArgument : entry.2 ∈ (weave.lower first).operands := by
          rcases used with used | literal
          · rw [weave.operands_lower]
            exact used
          · rw [literal] at here
            cases here
        obtain ⟨failure, fails, failsCall⟩ := Machine.execute_of_unreadable
          ((weave.isCall_lower first).trans isCall) isArgument
          ((Frame.read_rest values id rest (first :: rest) entry.2).trans here) world
        have unreadable := (read tallied).trans (congrArg (Except.mapError _) here)
        obtain ⟨steps, missing, after, le, fails', agrees'⟩ :=
          weave.fails_tallies woven tallied unreadable world'
        rw [Machine.step_of_execute_error fails]
        exact .failed (Nat.le_succ_of_le le) fails' (.early probed failsCall missing _)
          (agrees.trans agrees')

theorem Machine.step_of_block {g : Func} {block : Block} (found : g.block? id = some block)
    (values : Array (Option Int64)) (world : World) :
    step g ⟨values, id, []⟩ world =
      match (⟨values, id, []⟩ : Frame).finishBlock g block.terminator with
      | .ok (.inl next) => .running next world
      | .ok (.inr value) => .returned value world
      | .error error => .failed error world := by
  cases finished : (⟨values, id, []⟩ : Frame).finishBlock g block.terminator with
  | error error => simp only [step, found, finished]
  | ok outcome =>
      cases outcome with
      | inl next => simp only [step, found, finished]
      | inr value => simp only [step, found, finished]

/-- A branch whose condition is not defined fails. -/
theorem Frame.finishBlock_of_unreadable {terminator : Terminator} {condition : Operand}
    (isRuntime : terminator.runtimeCondition? = some condition) {error : Error}
    (unreadable : frame.read condition = .error error) :
    frame.finishBlock f terminator = .error error := by
  cases terminator with
  | branch operand whenTrue whenFalse weights =>
      obtain rfl : operand = condition := by
        rw [Terminator.runtimeCondition?] at isRuntime
        split at isRuntime
        · cases isRuntime
        · exact Option.some.inj isRuntime
      rw [finishBlock, chooses, unreadable]
      rfl
  | ret value => cases isRuntime
  | jump edge => cases isRuntime
  | unreachable => cases isRuntime

/-- Once the probe at the end of a block is paid, the terminator completes the answer. -/
theorem Woven.answers_of_pays (isWoven : Woven weave prologue fresh f woven)
    (sound : f.WellFormed) {block : Block} (found : f.block? id = some block)
    (covers : Covers f.nextValue values values') (size : values'.size = woven.nextValue)
    (agrees : weave.Agrees world world') {steps : Nat}
    (cost : steps + 1 = weave.cost f ⟨values, id, []⟩)
    (pays : weave.Pays woven steps frame' world' (weave.ledger f ⟨values, id, []⟩)
      ⟨values', prologue.home f.blocks.size id, []⟩ middle) :
    weave.Answers prologue fresh f woven ⟨values, id, []⟩ frame' world'
      (Machine.step f ⟨values, id, []⟩ world) := by
  obtain ⟨path, passes, silent⟩ := pays.passes
  obtain ⟨lead, image, foundImage, -, -, flow⟩ := isWoven.hosts found
  have retells : weave.Retells prologue fresh f woven ⟨values, id, []⟩
      (path ++ [⟨values', prologue.home f.blocks.size id, []⟩]) := by
    refine ⟨isWoven.retraces_end sound found covers fun middle mem => (silent middle mem).busy,
      path, _, rfl, fun middle mem => (silent middle mem).unnamed, ?_⟩
    exact ⟨⟨block, found, List.nil_suffix, rfl⟩, rfl, covers⟩
  have agrees' := agrees.trans pays.agrees
  have finished : (⟨values', prologue.home f.blocks.size id, []⟩ : Frame).finishBlock woven
      image.terminator = _ := Frame.finishBlock_unweighted woven _ flow
  have stepped := Machine.step_of_block foundImage values' middle
  rw [finished] at stepped
  rw [Machine.step_of_block found]
  have leadsOn := sound.leadsOn id block found
  have below : ∀ operand ∈ block.terminator.operands, operand.Below f.nextValue :=
    fun operand used => sound.terminator_below found used
  have covers' : Covers f.nextValue (⟨values, id, []⟩ : Frame).values
      (⟨values', prologue.home f.blocks.size id, []⟩ : Frame).values := covers
  rcases isWoven.finishBlock sound covers' size leadsOn below with
    ⟨next, next', here, there, follows⟩ | ⟨value, here, there⟩ | ⟨error, here, there⟩
  · rw [there] at stepped
    rw [here]
    have last := passes.trans (Machine.Passes.single stepped)
    rw [cost] at last
    exact .running last retells follows agrees' pays.grows
  · rw [there] at stepped
    rw [here]
    have last := passes.trans (Machine.Passes.single stepped)
    rw [cost] at last
    exact .returned last retells agrees' pays.grows
  · rw [there] at stepped
    rw [here]
    have fails := (Machine.advance_add_of_running passes.advance_eq 1).trans
      ((Machine.advance_one ..).trans stepped)
    exact .failed (Nat.le_of_eq cost) fails (.within error _) agrees'

/-- The end of a block is answered by the probe of its branch, if it has one, and the
terminator. -/
theorem Woven.answers_end (isWoven : Woven weave prologue fresh f woven)
    (sound : f.WellFormed)
    (follows : weave.Follows prologue fresh f woven ⟨values, id, []⟩ frame')
    (agrees : weave.Agrees world world') :
    weave.Answers prologue fresh f woven ⟨values, id, []⟩ frame' world'
      (Machine.step f ⟨values, id, []⟩ world) := by
  obtain ⟨values', home, rest'⟩ := frame'
  obtain ⟨⟨block, found, -, code⟩, rfl, covers, size⟩ := follows
  simp only at found code covers size
  rw [weave.code_nil] at code
  subst code
  have condition : (⟨values, id, []⟩ : Frame).branchCondition? f =
      block.terminator.runtimeCondition? := by
    simp only [Frame.branchCondition?, List.isEmpty_nil, if_true, found, Option.bind_some]
  have unprobed (tail : weave.tail (fresh id) id block.terminator = [])
      (cost : 0 + 1 = weave.cost f ⟨values, id, []⟩)
      (ledger : weave.ledger f ⟨values, id, []⟩ = []) :
      weave.Answers prologue fresh f woven ⟨values, id, []⟩
        ⟨values', prologue.home f.blocks.size id, weave.tail (fresh id) id block.terminator⟩ world'
        (Machine.step f ⟨values, id, []⟩ world) := by
    have nothing : weave.Pays woven 0 ⟨values', prologue.home f.blocks.size id, []⟩ world' []
        ⟨values', prologue.home f.blocks.size id, []⟩ world' := .refl ..
    rw [tail]
    rw [← ledger] at nothing
    exact isWoven.answers_of_pays sound found covers size agrees cost nothing
  cases isRuntime : block.terminator.runtimeCondition? with
  | none =>
      refine unprobed (weave.tail_of_none isRuntime ..) ?_ ?_
      · simp [Weave.cost, condition, isRuntime]
      · simp only [Weave.ledger, condition, isRuntime]
        cases weave.branches <;> rfl
  | some operand =>
      cases on : weave.branches with
      | false =>
          refine unprobed (Weave.tail_of_off on ..) ?_ ?_
          · simp [Weave.cost, on]
          · simp only [Weave.ledger, on]
      | true =>
          have cost : 3 + 1 = weave.cost f ⟨values, id, []⟩ := by
            simp [Weave.cost, condition, isRuntime, on]
          have used := Terminator.mem_operands_of_runtimeCondition? isRuntime
          have between := isWoven.fresh_between id block found on (by rw [isRuntime]; rfl)
          have read : (⟨values', prologue.home f.blocks.size id, []⟩ : Frame).read operand =
              ((⟨values, id, []⟩ : Frame).read operand).mapError
                (Error.within (prologue.home f.blocks.size id)) :=
            Frame.read_covered covers (sound.terminator_below found used)
          cases here : (⟨values, id, []⟩ : Frame).read operand with
          | ok value =>
              have ledger : weave.ledger f ⟨values, id, []⟩ = Weave.branchLedger id value := by
                simp only [Weave.ledger, on, condition, isRuntime, here]
              rw [here] at read
              obtain ⟨middle, pays⟩ := Weave.pays_tail woven on isRuntime read
                (size ▸ between.2) id world'
              rw [← ledger] at pays
              exact isWoven.answers_of_pays sound found (covers.setBeyond between.1 _)
                (Array.size_setIfInBounds.trans size) agrees cost pays
          | error error =>
              rw [here] at read
              obtain ⟨after, fails, agrees'⟩ := Weave.fails_tail woven on isRuntime read
                (fresh id) id world'
              rw [Machine.step_of_block found, Frame.finishBlock_of_unreadable isRuntime here]
              have le : 2 ≤ weave.cost f ⟨values, id, []⟩ := by
                rw [← cost]
                decide
              exact .failed le fails (.within error _) (agrees.trans agrees')

/-- To each step of the function, with its call renamed, the woven function answers. -/
theorem Woven.answers (isWoven : Woven weave prologue fresh f woven) (sound : f.WellFormed)
    (spares : ∀ counter ∈ f.counters, ¬ weave.Owns counter)
    (follows : weave.Follows prologue fresh f woven frame frame')
    (agrees : weave.Agrees world world') :
    weave.Answers prologue fresh f woven frame frame' world'
      (Machine.step f (weave.poised frame) world) := by
  obtain ⟨values, id, rest⟩ := frame
  cases rest with
  | nil => exact isWoven.answers_end sound follows agrees
  | cons first rest => exact weave.answers_instr sound spares follows agrees

end

end

end FlowProfile
