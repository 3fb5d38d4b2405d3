/-
# Runs and other counters

A run of a function whose counters were exchanged, one for one, is the run of the function
itself: it takes the same way, has the same result, and leaves in each counter what the
function leaves in the one that was exchanged for it.
-/

import FlowProfile.Proofs.Func.Relocation
import FlowProfile.Proofs.Run.Footprint

namespace FlowProfile

/-- An exchange makes one counter of two at no place where it is allowed to look. -/
def Counter.KeptApart (allowed : Counter → Prop) (move : Counter → Counter) : Prop :=
  ∀ counter other, allowed counter → allowed other → move counter = move other → counter = other

/-- The same world with other counters: the host is the same, and what an allowed counter
holds is held by the one that was exchanged for it. -/
structure World.Mirrors (allowed : Counter → Prop) (move : Counter → Counter)
    (world world' : World) : Prop where
  host_eq : world'.host = world.host
  read_eq : ∀ counter, allowed counter →
    world'.counters.read (move counter) = world.counters.read counter

/-- Exchange the counters of the code that is left to be executed. -/
def Frame.relocate (move : Counter → Counter) (frame : Frame) : Frame :=
  { frame with rest := frame.rest.map (Instr.relocate move) }

/-- Two runs stand at the same place, one of them with other counters. -/
inductive Progress.Mirrors (allowed : Counter → Prop) (move : Counter → Counter) :
    Progress → Progress → Prop
  | running (frame : Frame) {world world' : World} (mirrors : world.Mirrors allowed move world') :
      Mirrors allowed move (.running frame world) (.running (frame.relocate move) world')
  | returned (value : Option Int64) {world world' : World}
      (mirrors : world.Mirrors allowed move world') :
      Mirrors allowed move (.returned value world) (.returned value world')
  | failed (error : Error) {world world' : World} (mirrors : world.Mirrors allowed move world') :
      Mirrors allowed move (.failed error world) (.failed error world')

variable {allowed : Counter → Prop} {move : Counter → Counter} {f : Func} {frame : Frame}
  {world world' : World}

namespace Frame

theorem readAll_relocate (frame : Frame) (operands : List Operand) :
    (frame.relocate move).readAll operands = frame.readAll operands := by
  induction operands with
  | nil => rfl
  | cons operand rest ih =>
      rw [readAll, ih, readAll]
      rfl

theorem write_relocate (frame : Frame) (id : ValueId) (value : Int64) :
    (frame.relocate move).write id value = (frame.write id value).map (relocate move) := by
  obtain ⟨values, block, rest⟩ := frame
  by_cases inside : id < values.size <;> simp [relocate, write, inside, Except.map]

theorem writeResult_relocate (frame : Frame) (result : Option ValueId) (value : Int64) :
    (frame.relocate move).writeResult result value =
      (frame.writeResult result value).map (relocate move) := by
  cases result with
  | none => rfl
  | some id => exact write_relocate frame id value

theorem writeAll_relocate (move : Counter → Counter) (frame : Frame)
    (bindings : List (ValueId × Int64)) :
    (frame.relocate move).writeAll bindings = (frame.writeAll bindings).map (relocate move) := by
  induction bindings generalizing frame with
  | nil => rfl
  | cons binding rest ih =>
      obtain ⟨id, value⟩ := binding
      rw [writeAll, write_relocate, writeAll]
      cases frame.write id value with
      | error error => rfl
      | ok next => exact ih next

theorem start_relocate (f : Func) (args : List Int64) :
    start (f.relocate move) args = (start f args).map (relocate move) := by
  have bound := writeAll_relocate move
    ⟨Array.replicate f.nextValue none, Func.entry, []⟩ (f.params.zip args)
  simp only [start, Func.params_relocate, Func.nextValue_relocate, Func.name_relocate,
    Func.block?_relocate]
  split
  · rfl
  · rw [show (⟨Array.replicate f.nextValue none, Func.entry, []⟩ : Frame).writeAll
      (f.params.zip args) = _ from bound]
    cases (⟨Array.replicate f.nextValue none, Func.entry, []⟩ : Frame).writeAll
        (f.params.zip args) with
    | error error => rfl
    | ok frame => cases f.block? Func.entry <;> rfl

theorem follow_relocate (f : Func) (frame : Frame) (edge : Edge) :
    (frame.relocate move).follow (f.relocate move) edge =
      (frame.follow f edge).map (relocate move) := by
  simp only [follow, Func.block?_relocate, readAll_relocate]
  cases f.block? edge.target with
  | none => rfl
  | some block =>
      have same : (block.relocate move).params = block.params := rfl
      simp only [Option.map_some, same, writeAll_relocate]
      split
      · rfl
      · cases frame.readAll edge.args with
        | error error => rfl
        | ok incoming =>
            simp only
            cases frame.writeAll (block.params.zip incoming) <;> rfl

theorem finishBlock_relocate (move : Counter → Counter) (f : Func) (frame : Frame)
    (terminator : Terminator) :
    (frame.relocate move).finishBlock (f.relocate move) terminator =
      (frame.finishBlock f terminator).map (Sum.map (relocate move) id) := by
  have read_eq : (frame.relocate move).read = frame.read := rfl
  have left (edge : Edge) : ((frame.follow f edge).map (relocate move)).map .inl =
      ((frame.follow f edge).map .inl).map
        (Sum.map (β := Option Int64) (relocate move) id) := by
    cases frame.follow f edge <;> rfl
  cases terminator with
  | ret value =>
      cases value with
      | none => rfl
      | some operand =>
          simp only [finishBlock, read_eq]
          cases frame.read operand <;> rfl
  | jump edge => simp only [finishBlock, follow_relocate, left]
  | branch condition whenTrue whenFalse weights =>
      simp only [finishBlock, chooses, read_eq, follow_relocate]
      cases frame.read condition with
      | error error => rfl
      | ok value => exact left _
  | unreachable => rfl

end Frame

namespace Machine

/-- An instruction does the same to the frame and to the host, and adds to the counter that
was exchanged. -/
theorem mirrors_execute {instr : Instr} (apart : Counter.KeptApart allowed move)
    (mirrors : world.Mirrors allowed move world') (only : instr.CountsOnly allowed)
    (frame : Frame) :
    (execute (instr.relocate move) (frame.relocate move) world').1 =
        (execute instr frame world).1.map (Frame.relocate move) ∧
      (execute instr frame world).2.Mirrors allowed move
        (execute (instr.relocate move) (frame.relocate move) world').2 := by
  have read_eq : (frame.relocate move).read = frame.read := rfl
  cases instr with
  | const result constant => exact ⟨Frame.write_relocate .., mirrors⟩
  | binop result op lhs rhs =>
      simp only [Instr.relocate, execute, read_eq]
      cases frame.read lhs with
      | error error => exact ⟨rfl, mirrors⟩
      | ok left =>
          simp only
          cases frame.read rhs with
          | error error => exact ⟨rfl, mirrors⟩
          | ok right =>
              simp only
              cases op.eval? left right with
              | none => exact ⟨rfl, mirrors⟩
              | some value => exact ⟨Frame.write_relocate .., mirrors⟩
  | widen result operand =>
      simp only [Instr.relocate, execute, read_eq]
      cases frame.read operand with
      | error error => exact ⟨rfl, mirrors⟩
      | ok value => exact ⟨Frame.write_relocate .., mirrors⟩
  | call result callee args =>
      obtain ⟨memory, host⟩ := world
      obtain ⟨memory', host'⟩ := world'
      obtain ⟨rfl, counts⟩ := mirrors
      simp only [Instr.relocate, execute, Frame.readAll_relocate]
      cases host'.resolve callee with
      | error error => exact ⟨rfl, rfl, counts⟩
      | ok routine =>
          simp only
          cases frame.readAll args with
          | error error => exact ⟨rfl, rfl, counts⟩
          | ok values => exact ⟨Frame.writeResult_relocate .., rfl, counts⟩
  | count result counter amount order =>
      obtain ⟨memory, host⟩ := world
      obtain ⟨memory', host'⟩ := world'
      obtain ⟨rfl, counts⟩ := mirrors
      have mine := only counter rfl
      simp only [Instr.relocate, execute, read_eq]
      cases frame.read amount with
      | error error => exact ⟨rfl, rfl, counts⟩
      | ok value =>
          simp only [Counters.fetchAdd_fst, Counters.fetchAdd_snd, counts counter mine]
          refine ⟨Frame.writeResult_relocate .., rfl, fun other among => ?_⟩
          have same : move counter = move other ↔ counter = other :=
            ⟨apart counter other mine among, congrArg move⟩
          simp only [Counters.read_add, same, counts counter mine, counts other among]

theorem mirrors_step (apart : Counter.KeptApart allowed move)
    (mirrors : world.Mirrors allowed move world') (here : frame.CountsOnly allowed) (f : Func) :
    (step f frame world).Mirrors allowed move
      (step (f.relocate move) (frame.relocate move) world') := by
  obtain ⟨values, position, rest⟩ := frame
  cases rest with
  | nil =>
      show Progress.Mirrors allowed move _
        (step (f.relocate move) ⟨values, position, []⟩ world')
      rw [step, step, f.block?_relocate move position]
      cases f.block? position with
      | none => exact .failed _ mirrors
      | some current =>
          have ended := Frame.finishBlock_relocate move f ⟨values, position, []⟩
            current.terminator
          replace ended : Frame.finishBlock (f.relocate move) ⟨values, position, []⟩
            (current.relocate move).terminator = _ := ended
          simp only [Option.map_some, ended]
          cases Frame.finishBlock f ⟨values, position, []⟩ current.terminator with
          | error error => exact .failed error mirrors
          | ok outcome =>
              cases outcome with
              | inl next => exact .running next mirrors
              | inr value => exact .returned value mirrors
  | cons first rest =>
      obtain ⟨same, after⟩ := mirrors_execute apart mirrors (here first List.mem_cons_self)
        ⟨values, position, rest⟩
      show Progress.Mirrors allowed move _ (step (f.relocate move)
        ⟨values, position, first.relocate move :: rest.map (Instr.relocate move)⟩ world')
      rw [step, step]
      replace same : (execute (first.relocate move)
        ⟨values, position, rest.map (Instr.relocate move)⟩ world').1 = _ := same
      replace after : World.Mirrors allowed move _ (execute (first.relocate move)
        ⟨values, position, rest.map (Instr.relocate move)⟩ world').2 := after
      rcases executed : execute first ⟨values, position, rest⟩ world with ⟨result, middle⟩
      rcases executed' : execute (first.relocate move)
        ⟨values, position, rest.map (Instr.relocate move)⟩ world' with ⟨result', middle'⟩
      rw [executed, executed'] at same after
      obtain rfl : result' = result.map (Frame.relocate move) := same
      cases result with
      | ok next => exact .running next after
      | error error => exact .failed error after

theorem mirrors_resume (apart : Counter.KeptApart allowed move) (onward : f.GoesOnWith allowed)
    (limit budget : Nat) (mirrors : world.Mirrors allowed move world')
    (here : frame.CountsOnly allowed) :
    (resume (f.relocate move) limit budget (frame.relocate move) world').1 =
        (resume f limit budget frame world).1 ∧
      (resume f limit budget frame world).2.Mirrors allowed move
        (resume (f.relocate move) limit budget (frame.relocate move) world').2 := by
  induction budget generalizing frame world world' with
  | zero => exact ⟨rfl, mirrors⟩
  | succ budget ih =>
      have both := mirrors_step apart mirrors here f
      rw [resume, resume]
      generalize stepped : step f frame world = progress at both
      generalize step (f.relocate move) (frame.relocate move) world' = progress' at both
      cases both with
      | running next after => exact ih after (here.step onward stepped)
      | returned value after => exact ⟨rfl, after⟩
      | failed error after => exact ⟨rfl, after⟩

/-- Runs with exchanged counters come to the same result, and leave the same in the counters
that were exchanged. -/
theorem mirrors_run (apart : Counter.KeptApart allowed move) (only : f.CountsOnly allowed)
    (limit : Nat) (args : List Int64) (mirrors : world.Mirrors allowed move world') :
    (run (f.relocate move) limit args world').1 = (run f limit args world).1 ∧
      (run f limit args world).2.Mirrors allowed move
        (run (f.relocate move) limit args world').2 := by
  rw [run, run, Frame.start_relocate]
  cases start : Frame.start f args with
  | error error => exact ⟨rfl, mirrors⟩
  | ok frame =>
      exact mirrors_resume apart only.goesOnWith limit limit mirrors
        (Frame.countsOnly_start only start)

end Machine

end FlowProfile
