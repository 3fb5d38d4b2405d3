/-
# Verified functions run safely

A run of a verified function is always at a block that is there, defines only values that
were given out, and follows only edges that fit.  It may still fail, but for few reasons:
a value that the function defines somewhere was not defined on the way, a remainder by zero
was asked for, a routine is not there, the end of a block was never to be reached, or the
steps have run out.

The values that a frame holds are exactly those defined on the path that led to it.
-/

import FlowProfile.Func.Builder
import FlowProfile.Compile.Pipeline
import FlowProfile.Proofs.Run.Budget
import FlowProfile.Proofs.Run.Stepping

namespace FlowProfile

/-- The function was verified, or has come out of a builder or of a compilation. -/
inductive Func.Vetted (f : Func) : Prop
  | verified (accepts : f.verify = .ok ())
  | built {builder : Builder} (accepts : builder.build = .ok f)
  | compiled {pipeline : Pipeline} {counters : Counters} {store after : Option Store}
      {source : Func} {events : List Event} {report : CompileReport}
      (accepts : pipeline.compile counters store source = (after, ⟨f, events, .ok report⟩))

/-- The value is defined on the way to a frame, along a path of frames before it: it is a
parameter of the function, a parameter of a block that was entered, or the result of an
instruction that was executed. -/
inductive Func.DefinedOn (f : Func) (path : List Frame) (place : Frame) (id : ValueId) : Prop
  | param (mem : id ∈ f.params)
  | entered {frame : Frame} {block : Block} (passed : frame ∈ path ++ [place])
      (found : f.block? frame.block = some block) (mem : id ∈ block.params)
  | executed {frame : Frame} {instr : Instr} {rest : List Instr} (passed : frame ∈ path)
      (here : frame.rest = instr :: rest) (result : instr.result? = some id)

/-- The frame is in a block of the function and has room for all its values. -/
structure Frame.Placed (f : Func) (frame : Frame) : Prop where
  size_eq : frame.values.size = f.nextValue
  inside : ∃ block, f.block? frame.block = some block ∧ frame.rest <:+ block.instrs

/-- Why a run of a verified function may end without a value, after a path of frames. -/
inductive Func.Halts (f : Func) (host : Host) (limit : Nat) (path : List Frame) : Error → Prop
  | exhausted (spent : path.length = limit) : Halts f host limit path (.stepLimitExceeded limit)
  | undefined {earlier : List Frame} {place : Frame} {id : ValueId}
      (split : path = earlier ++ [place]) (reads : .value id ∈ place.operands f)
      (known : id ∈ f.definitions) (absent : ¬ f.DefinedOn earlier place id) :
      Halts f host limit path (.undefinedValue id place.block)
  | division {earlier : List Frame} {place : Frame} {result : ValueId} {lhs rhs : Operand}
      {rest : List Instr} (split : path = earlier ++ [place])
      (here : place.rest = .binop result .srem lhs rhs :: rest) (zero : place.read rhs = .ok 0) :
      Halts f host limit path .divisionByZero
  | unknown {earlier : List Frame} {place : Frame} {result : Option ValueId} {callee : Callee}
      {args : List Operand} {rest : List Instr} (split : path = earlier ++ [place])
      (here : place.rest = .call result callee args :: rest)
      (absent : host.offers callee = false) : Halts f host limit path (Host.unresolved callee)
  | unreachable {earlier : List Frame} {place : Frame} {block : Block}
      (split : path = earlier ++ [place]) (ended : place.rest = [])
      (found : f.block? place.block = some block) (flow : block.terminator = .unreachable) :
      Halts f host limit path (.invalid f.name (.reachedUnreachable place.block))

variable {f : Func} {frame next : Frame}

/-! ## Functions that were verified -/

/-- A builder and a compilation verify what they hand on. -/
theorem Func.Vetted.wellFormed (vetted : f.Vetted) : f.WellFormed := by
  apply Func.verify_eq_ok_iff.mp
  cases vetted with
  | verified accepts => exact accepts
  | @built builder accepts =>
      rw [Builder.build] at accepts
      split at accepts
      · cases accepts
      · split at accepts
        · cases accepts
        · cases verdict : builder.func.verify with
          | error error => rw [verdict] at accepts; cases accepts
          | ok done =>
              rw [verdict] at accepts
              cases accepts
              exact verdict
  | @compiled pipeline counters store after source events report accepts =>
      have finished {g : Func} {noted : List Event} {made : CompileReport}
          (accepts : pipeline.finish g noted made = ⟨f, events, .ok report⟩) :
          f.verify = .ok () := by
        rw [Pipeline.finish] at accepts
        split at accepts
        · cases accepts
        · next verdict =>
            cases accepts
            exact verdict
      replace accepts := congrArg Prod.snd accepts
      simp only [Pipeline.compile, Pipeline.goOn] at accepts
      split at accepts
      · cases accepts
      · split at accepts
        · cases accepts
        · split at accepts
          · cases accepts
          · exact finished accepts

/-! ## Where runs are -/

/-- A step leads from a block of the function to a block of the function. -/
theorem Frame.Placed.moves (placed : frame.Placed f) (moves : frame.Moves f next) :
    next.Placed f := by
  cases moves with
  | within here stays defines =>
      obtain ⟨block, found, suffix⟩ := placed.inside
      refine ⟨defines.size_eq.trans placed.size_eq, block, stays ▸ found, ?_⟩
      rw [here] at suffix
      exact (List.suffix_cons _ _).trans suffix
  | along ended found leaves enters block_eq rest_eq defines =>
      refine ⟨defines.size_eq.trans placed.size_eq, _, block_eq ▸ enters, ?_⟩
      exact rest_eq ▸ List.suffix_refl _

/-- What a frame holds after a step was defined on the path, the step included. -/
theorem Frame.holds_iff_of_moves {path : List Frame}
    (holds : ∀ id, frame.Holds id ↔ f.DefinedOn path frame id) (moves : frame.Moves f next)
    (id : ValueId) : next.Holds id ↔ f.DefinedOn (path ++ [frame]) next id := by
  have later : f.DefinedOn path frame id → f.DefinedOn (path ++ [frame]) next id := by
    rintro (mem | ⟨passed, found, mem⟩ | ⟨passed, here, result⟩)
    · exact .param mem
    · exact .entered (List.mem_append_left _ passed) found mem
    · exact .executed (List.mem_append_left _ passed) here result
  cases moves with
  | within here stays defines =>
      rw [defines.holds_iff, holds, Option.mem_toList]
      constructor
      · rintro (before | result)
        · exact later before
        · exact .executed (List.mem_append_right _ (List.mem_singleton_self frame)) here result
      · rintro (mem | ⟨passed, found, mem⟩ | ⟨passed, there, result⟩)
        · exact .inl (.param mem)
        · -- The block of the frame is that of the frame before, which was entered earlier.
          rcases List.mem_append.mp passed with before | last
          · exact .inl (.entered before found mem)
          · rw [List.mem_singleton.mp last, stays] at found
            exact .inl (.entered (List.mem_append_right _ (List.mem_singleton_self frame)) found mem)
        · rcases List.mem_append.mp passed with before | last
          · exact .inl (.executed before there result)
          · rw [List.mem_singleton.mp last, here] at there
            cases there
            exact .inr result
  | @along source target edge ended found leaves enters block_eq rest_eq defines =>
      rw [defines.holds_iff, holds]
      constructor
      · rintro (before | mem)
        · exact later before
        · exact .entered (List.mem_append_right _ (List.mem_singleton_self next))
            (block_eq ▸ enters) mem
      · rintro (mem | ⟨passed, there, mem⟩ | ⟨passed, there, result⟩)
        · exact .inl (.param mem)
        · rcases List.mem_append.mp passed with before | last
          · exact .inl (.entered before there mem)
          · rw [List.mem_singleton.mp last, block_eq, enters] at there
            cases there
            exact .inr mem
        · rcases List.mem_append.mp passed with before | last
          · exact .inl (.executed before there result)
          · rw [List.mem_singleton.mp last, ended] at there
            cases there

namespace Func.WellFormed

variable (sound : f.WellFormed)

include sound

/-- A run starts if it gets as many arguments as the function takes.  It then holds the
parameters and nothing else. -/
theorem start_eq_ok {args : List Int64} (arity : f.params.length = args.length) :
    ∃ frame, Frame.start f args = .ok frame ∧ frame.Placed f ∧ frame.block = Func.entry ∧
      ∀ id, frame.Holds id ↔ id ∈ f.params := by
  obtain ⟨first, entered, -⟩ := sound.entry_params
  have names : (f.params.zip args).map Prod.fst = f.params := List.map_fst_zip (by omega)
  rw [Frame.start]
  simp only [arity, ne_eq, not_true_eq_false, if_false]
  cases written : (⟨Array.replicate f.nextValue none, Func.entry, []⟩ : Frame).writeAll
      (f.params.zip args) with
  | error error =>
      obtain ⟨id, mem, outside⟩ := Frame.unwritten_of_writeAll written
      rw [names] at mem
      rw [Array.size_replicate] at outside
      exact absurd (sound.param_lt mem) (Nat.not_lt_of_le outside)
  | ok bound =>
      have defines := Frame.extends_writeAll written
      have position := (Frame.place_of_writeAll written).1
      rw [names] at defines
      simp only [entered]
      refine ⟨_, rfl, ⟨?_, first, ?_, List.suffix_refl _⟩, position, fun id => ?_⟩
      · exact defines.size_eq.trans Array.size_replicate
      · rw [show (⟨bound.values, bound.block, first.instrs⟩ : Frame).block = Func.entry from
          position]
        exact entered
      · refine (defines.holds_iff id).trans (or_iff_right ?_)
        rintro ⟨value, has⟩
        rw [getD_replicate] at has
        cases has

/-- There is room for what the next step defines. -/
theorem lt_size_of_defines (placed : frame.Placed f) {id : ValueId}
    (defines : frame.Defines f id) : id < frame.values.size := by
  rw [placed.size_eq]
  cases defines with
  | result here result =>
      obtain ⟨block, found, suffix⟩ := placed.inside
      rw [here] at suffix
      exact sound.result_lt found (suffix.subset List.mem_cons_self) result
  | param ended found leaves enters mem => exact sound.blockParam_lt enters mem

/-- An edge of a verified function can be followed. -/
theorem fits {id : BlockId} {block : Block} (found : f.block? id = some block) {edge : Edge}
    (leaves : edge ∈ block.terminator.edges) : f.Fits edge := by
  obtain ⟨target, enters, -, arity⟩ := sound.leadsOn id block found edge leaves
  exact ⟨target, enters, arity⟩

/-- Where a verified function is in a block, the next step can be taken. -/
theorem not_broken (placed : frame.Placed f) : ¬ frame.Broken f := by
  rintro (⟨defines, beyond⟩ | ⟨absent⟩ | ⟨ended, found, leaves, unfit⟩)
  · exact Nat.not_lt_of_le beyond (sound.lt_size_of_defines placed defines)
  · obtain ⟨block, found, -⟩ := placed.inside
    cases absent.symm.trans found
  · exact unfit (sound.fits found leaves)

/-- What the next step may read is defined somewhere in the function. -/
theorem mem_definitions_of_operands (placed : frame.Placed f) {id : ValueId}
    (reads : .value id ∈ frame.operands f) : id ∈ f.definitions := by
  obtain ⟨block, found, suffix⟩ := placed.inside
  apply sound.mem_definitions _ block found
  rw [Frame.operands] at reads
  split at reads
  · next instr rest here =>
      rw [here] at suffix
      exact Block.mem_operands_of_mem (suffix.subset List.mem_cons_self) reads
  · rw [found] at reads
    exact List.mem_append_right _ reads

end Func.WellFormed

namespace Machine

variable {limit : Nat} {args : List Int64} {world : World}

/-- What is true wherever a run of a verified function gets to. -/
structure Keeps (f : Func) (world : World) (path : List Frame) (place : Frame) (middle : World) :
    Prop where
  placed : place.Placed f
  holds_iff : ∀ id, place.Holds id ↔ f.DefinedOn path place id
  offers_eq : middle.host.offers = world.host.offers

theorem keeps_of_advance {start : Frame} (begins : Keeps f world [] start world) {steps : Nat}
    {after : World} (reached : advance f steps start world = .running next after) :
    Keeps f world (trail f steps start world) next after := by
  apply holds_of_advance begins ?_ reached
  intro path place middle next after kept stepped
  have moves := moves_of_step stepped
  refine ⟨kept.placed.moves moves, Frame.holds_iff_of_moves kept.holds_iff moves, ?_⟩
  have offered := offers_step f place middle
  rw [stepped] at offered
  exact offered.trans kept.offers_eq

/-- A step of a verified function fails for one of a few reasons. -/
theorem halts_of_fails (sound : f.WellFormed) {path : List Frame} {middle : World}
    (kept : Keeps f world path frame middle) {error : Error}
    (fails : frame.Fails f middle.host error) :
    f.Halts world.host limit (path ++ [frame]) error := by
  cases fails with
  | unread reads absent =>
      refine .undefined rfl reads (sound.mem_definitions_of_operands kept.placed reads) ?_
      rwa [← kept.holds_iff]
  | division here zero => exact .division rfl here zero
  | unknown here absent =>
      refine .unknown rfl here ?_
      rw [← kept.offers_eq, Host.offers, absent]
      rfl
  | unreachable ended found flow => exact .unreachable rfl ended found flow
  | broken broken => exact absurd broken (sound.not_broken kept.placed)

end Machine

namespace Sample

/-- A block that defines a value may be gone around on the way to the block that reads it. -/
def detour : Func where
  name := "detour"
  params := [0]
  blocks := #[
    ⟨some "entry", [], [], .branch (.value 0) ⟨1, []⟩ ⟨2, []⟩ none⟩,
    ⟨some "set", [], [.const 1 (.word 7)], .jump ⟨2, []⟩⟩,
    ⟨some "out", [], [], .ret (some (.value 1))⟩]
  notes := .empty
  entryCount := none
  nextValue := 2

end Sample

namespace Machine

/-- With the wrong number of arguments a run is refused before it does anything.  Otherwise
it takes at most as many steps as it may, each of them in a block that is there and with
room for what it defines, and ends with a value or for one of the few reasons. -/
theorem run_safe (vetted : f.Vetted) (limit : Nat) (args : List Int64) (world : World) :
    (f.params.length ≠ args.length →
      run f limit args world =
        (.error (.functionArity f.name f.params.length args.length), world)) ∧
    (f.params.length = args.length →
      (trailOf f limit args world).length ≤ limit ∧
      (∀ frame ∈ trailOf f limit args world, frame.Placed f ∧
        ∀ id, frame.Defines f id → id < frame.values.size) ∧
      ((∃ value, (run f limit args world).1 = .ok value) ∨
        ∃ error, (run f limit args world).1 = .error error ∧
          f.Halts world.host limit (trailOf f limit args world) error)) := by
  have sound := vetted.wellFormed
  refine ⟨fun wrong => ?_, fun arity => ⟨length_trailOf_le f limit args world, ?_⟩⟩
  · rw [run, Frame.start, if_pos wrong]
  obtain ⟨start, starts, placed, position, holds_iff⟩ := sound.start_eq_ok arity
  have begins : Keeps f world [] start world := by
    refine ⟨placed, fun id => (holds_iff id).trans ⟨.param, ?_⟩, rfl⟩
    rintro (mem | ⟨passed, found, mem⟩ | ⟨passed, -, -⟩)
    · exact mem
    · -- The entry block has no parameters.
      obtain ⟨first, entered, none⟩ := sound.entry_params
      rw [List.mem_singleton.mp passed, position, entered] at found
      cases found
      rw [none] at mem
      cases mem
    · cases passed
  rw [trailOf_of_start starts, run_of_start starts]
  refine ⟨fun frame mem => ?_, ?_⟩
  · obtain ⟨earlier, after, reached⟩ := reached_of_mem_trail mem
    have kept := keeps_of_advance begins reached
    exact ⟨kept.placed, fun id => sound.lt_size_of_defines kept.placed⟩
  · cases reached : advance f limit start world with
    | running stop after =>
        exact .inr ⟨_, rfl, .exhausted (length_trail_of_running reached)⟩
    | returned value after => exact .inl ⟨value, rfl⟩
    | failed error after =>
        obtain ⟨earlier, place, middle, before, stepped, split⟩ := last_step reached rfl
        refine .inr ⟨error, rfl, ?_⟩
        rw [split]
        exact halts_of_fails sound (keeps_of_advance begins before) (fails_of_step stepped)

theorem run_safe_detour :
    Sample.detour.verify = .ok () ∧
      run Sample.detour 9 [] Sample.still = (.error (.functionArity "detour" 1 0), Sample.still) ∧
      (run Sample.detour 9 [1] Sample.still).1 = .ok (some 7) ∧
      (run Sample.detour 9 [0] Sample.still).1 = .error (.undefinedValue 1 2) ∧
      Sample.detour.Halts Sample.still.host 9 (trailOf Sample.detour 9 [0] Sample.still)
        (.undefinedValue 1 2) := by
  have safe := run_safe (.verified (show Sample.detour.verify = .ok () from rfl)) 9
  have refused := (safe [] Sample.still).1 (by decide)
  obtain ⟨-, -, ended⟩ := (safe [0] Sample.still).2 rfl
  have failed : (run Sample.detour 9 [0] Sample.still).1 = .error (.undefinedValue 1 2) := rfl
  refine ⟨rfl, refused, rfl, failed, ?_⟩
  rw [failed] at ended
  rcases ended with ⟨value, returned⟩ | ⟨error, same, halts⟩
  · cases returned
  · cases same
    exact halts

end Machine

end FlowProfile
