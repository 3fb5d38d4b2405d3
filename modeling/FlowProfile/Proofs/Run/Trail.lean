/-
# Runs by their steps

`Machine.resume` knows a run only by its end under a budget.  Here a run is followed
step by step: `advance` tells where it stands after a number of steps, and `trail`
lists the frames in which those steps were taken.  Both agree with `resume`, and both
split at any point, so that a run can be put together from shorter ones.

Once a run has ended, more steps change nothing.  A budget that is large enough is
therefore as good as any larger one.
-/

import FlowProfile.Run.Machine

namespace FlowProfile

namespace Progress

/-- The world as it is now. -/
def world : Progress → World
  | running _ world | returned _ world | failed _ world => world

/-- Whether the run goes on. -/
def isRunning : Progress → Bool
  | running .. => true
  | returned .. | failed .. => false

/-- Continue a run that goes on. -/
def andThen (progress : Progress) (onward : Frame → World → Progress) : Progress :=
  match progress with
  | running frame world => onward frame world
  | returned value world => returned value world
  | failed error world => failed error world

/-- The end of a run whose budget is used up here. -/
def result (limit : Nat) : Progress → Machine.Result
  | running _ world => (.error (.stepLimitExceeded limit), world)
  | returned value world => (.ok value, world)
  | failed error world => (.error error, world)

theorem eq_returned_of_result {limit : Nat} {progress : Progress} {value : Option Int64}
    {world : World} (ended : progress.result limit = (.ok value, world)) :
    progress = .returned value world := by
  cases progress with
  | running frame world => cases ended
  | returned value world => cases ended; rfl
  | failed error world => cases ended

theorem eq_failed_of_result {limit : Nat} {progress : Progress} {error : Error} {world : World}
    (ended : progress.result limit = (.error error, world))
    (cause : error ≠ .stepLimitExceeded limit) : progress = .failed error world := by
  cases progress with
  | running frame world => cases ended; exact absurd rfl cause
  | returned value world => cases ended
  | failed error world => cases ended; rfl

theorem result_of_isRunning {progress : Progress} (going : progress.isRunning = true)
    (limit : Nat) : ∃ world, progress.result limit = (.error (.stepLimitExceeded limit), world) := by
  cases progress with
  | running frame world => exact ⟨world, rfl⟩
  | returned value world => cases going
  | failed error world => cases going

theorem andThen_of_not_running {progress : Progress} (ended : progress.isRunning = false)
    (onward : Frame → World → Progress) : progress.andThen onward = progress := by
  cases progress with
  | running frame world => cases ended
  | returned value world => rfl
  | failed error world => rfl

theorem andThen_andThen (progress : Progress) (first second : Frame → World → Progress) :
    (progress.andThen first).andThen second =
      progress.andThen fun frame world => (first frame world).andThen second := by
  cases progress <;> rfl

end Progress

namespace Machine

/-- Where a run stands after a number of steps, if it does not end before. -/
def advance (f : Func) : Nat → Frame → World → Progress
  | 0, frame, world => .running frame world
  | steps + 1, frame, world => (step f frame world).andThen (advance f steps)

/-- The frames in which a run takes its next steps, in order.  The last of them is the
one in which the run ends, if it ends within that many steps. -/
def trail (f : Func) : Nat → Frame → World → List Frame
  | 0, _, _ => []
  | steps + 1, frame, world =>
      frame ::
        match step f frame world with
        | .running frame world => trail f steps frame world
        | .returned .. | .failed .. => []

/-- The frames in which a whole run takes its steps. -/
def trailOf (f : Func) (limit : Nat) (args : List Int64) (world : World) : List Frame :=
  match Frame.start f args with
  | .error _ => []
  | .ok frame => trail f limit frame world

theorem advance_succ (f : Func) (steps : Nat) (frame : Frame) (world : World) :
    advance f (steps + 1) frame world = (step f frame world).andThen (advance f steps) := rfl

theorem advance_one (f : Func) (frame : Frame) (world : World) :
    advance f 1 frame world = step f frame world := by
  rw [advance_succ]
  cases step f frame world <;> rfl

/-- The budgeted run is the run by steps, cut off where the budget ends. -/
theorem resume_eq_advance (f : Func) (limit steps : Nat) (frame : Frame) (world : World) :
    resume f limit steps frame world = (advance f steps frame world).result limit := by
  induction steps generalizing frame world with
  | zero => rfl
  | succ steps ih =>
      rw [resume, advance_succ]
      cases step f frame world with
      | running next world => exact ih next world
      | returned value world => rfl
      | failed error world => rfl

theorem run_of_start {f : Func} {args : List Int64} {frame : Frame}
    (start : Frame.start f args = .ok frame) (limit : Nat) (world : World) :
    run f limit args world = (advance f limit frame world).result limit := by
  rw [run, start]
  exact resume_eq_advance f limit limit frame world

/-- A run that returns has started, and returns within its budget. -/
theorem advance_of_run_ok {f : Func} {limit : Nat} {args : List Int64} {world after : World}
    {value : Option Int64} (returned : run f limit args world = (.ok value, after)) :
    ∃ frame, Frame.start f args = .ok frame ∧
      advance f limit frame world = .returned value after := by
  cases start : Frame.start f args with
  | error error => rw [run, start] at returned; cases returned
  | ok frame =>
      rw [run_of_start start] at returned
      exact ⟨frame, rfl, Progress.eq_returned_of_result returned⟩

theorem trailOf_of_start {f : Func} {args : List Int64} {frame : Frame}
    (start : Frame.start f args = .ok frame) (limit : Nat) (world : World) :
    trailOf f limit args world = trail f limit frame world := by
  rw [trailOf, start]

/-- A run splits at any number of steps. -/
theorem advance_add (f : Func) (first second : Nat) (frame : Frame) (world : World) :
    advance f (first + second) frame world =
      (advance f first frame world).andThen (advance f second) := by
  induction first generalizing frame world with
  | zero => rw [Nat.zero_add]; rfl
  | succ first ih =>
      rw [Nat.succ_add, advance_succ, advance_succ, Progress.andThen_andThen]
      exact congrArg _ (funext fun next => funext fun world => ih next world)

theorem advance_add_of_running {f : Func} {first : Nat} {frame next : Frame}
    {world world' : World} (reached : advance f first frame world = .running next world')
    (second : Nat) :
    advance f (first + second) frame world = advance f second next world' := by
  rw [advance_add, reached]
  rfl

/-- The end of a run does not depend on how many further steps are allowed. -/
theorem advance_of_ended {f : Func} {steps more : Nat} {frame : Frame} {world : World}
    (ended : (advance f steps frame world).isRunning = false) (le : steps ≤ more) :
    advance f more frame world = advance f steps frame world := by
  obtain ⟨extra, rfl⟩ := Nat.exists_eq_add_of_le le
  rw [advance_add, Progress.andThen_of_not_running ended]

/-- A run has one end. -/
theorem ends_once {f : Func} {steps steps' : Nat} {frame : Frame} {world : World}
    {progress progress' : Progress} (reached : advance f steps frame world = progress)
    (reached' : advance f steps' frame world = progress') (ended : progress.isRunning = false)
    (ended' : progress'.isRunning = false) : progress = progress' := by
  subst reached
  subst reached'
  rcases Nat.le_total steps steps' with le | le
  · exact (advance_of_ended ended le).symm
  · exact advance_of_ended ended' le

/-- A run that goes on after some steps has gone on after every smaller number of them. -/
theorem isRunning_of_le {f : Func} {steps more : Nat} {frame : Frame} {world : World}
    (le : steps ≤ more) (running : (advance f more frame world).isRunning = true) :
    (advance f steps frame world).isRunning = true := by
  cases stop : (advance f steps frame world).isRunning with
  | true => rfl
  | false =>
      rw [advance_of_ended stop le, stop] at running
      exact running

/-- A run that goes on after some steps ends after more of them. -/
theorem le_of_ended {f : Func} {steps more : Nat} {frame next : Frame} {world world' : World}
    {progress : Progress} (going : advance f steps frame world = .running next world')
    (reached : advance f more frame world = progress) (ended : progress.isRunning = false) :
    steps ≤ more := by
  subst reached
  rcases Nat.le_total steps more with le | le
  · exact le
  · have running : (advance f steps frame world).isRunning = true := by
      rw [going]
      rfl
    rw [isRunning_of_le le running] at ended
    cases ended

theorem trail_succ (f : Func) (steps : Nat) (frame : Frame) (world : World) :
    trail f (steps + 1) frame world =
      frame ::
        match step f frame world with
        | .running next world => trail f steps next world
        | .returned .. | .failed .. => [] := rfl

/-- The trail goes on where the first step leads to. -/
theorem mem_trail_succ {f : Func} {steps : Nat} {frame place : Frame} {world : World} :
    place ∈ trail f (steps + 1) frame world ↔ place = frame ∨ ∃ next middle,
      step f frame world = .running next middle ∧ place ∈ trail f steps next middle := by
  rw [trail_succ, List.mem_cons]
  cases step f frame world with
  | running next middle =>
      refine or_congr_right ⟨fun mem => ⟨next, middle, rfl, mem⟩, ?_⟩
      rintro ⟨next', middle', same, mem⟩
      cases same
      exact mem
  | returned value middle => simp
  | failed error middle => simp

/-- The trail splits where the run does. -/
theorem trail_add (f : Func) (first second : Nat) (frame : Frame) (world : World) :
    trail f (first + second) frame world =
      trail f first frame world ++
        match advance f first frame world with
        | .running next world => trail f second next world
        | .returned .. | .failed .. => [] := by
  induction first generalizing frame world with
  | zero => rw [Nat.zero_add]; rfl
  | succ first ih =>
      rw [Nat.succ_add, trail_succ, trail_succ, advance_succ]
      cases step f frame world with
      | running next world => exact congrArg _ (ih next world)
      | returned value world => rfl
      | failed error world => rfl

theorem trail_add_of_running {f : Func} {first : Nat} {frame next : Frame}
    {world world' : World} (reached : advance f first frame world = .running next world')
    (second : Nat) :
    trail f (first + second) frame world =
      trail f first frame world ++ trail f second next world' := by
  rw [trail_add, reached]

theorem trail_of_ended {f : Func} {steps more : Nat} {frame : Frame} {world : World}
    (ended : (advance f steps frame world).isRunning = false) (le : steps ≤ more) :
    trail f more frame world = trail f steps frame world := by
  obtain ⟨extra, rfl⟩ := Nat.exists_eq_add_of_le le
  rw [trail_add]
  cases stop : advance f steps frame world with
  | running next world => rw [stop] at ended; cases ended
  | returned value world => exact List.append_nil _
  | failed error world => exact List.append_nil _

/-- Two budgets under which a run ends give it the same trail. -/
theorem trail_ends_once {f : Func} {steps steps' : Nat} {frame : Frame} {world : World}
    (ended : (advance f steps frame world).isRunning = false)
    (ended' : (advance f steps' frame world).isRunning = false) :
    trail f steps frame world = trail f steps' frame world := by
  rcases Nat.le_total steps steps' with le | le
  · exact (trail_of_ended ended le).symm
  · exact trail_of_ended ended' le

/-- A run that goes on has taken as many steps as it was told to. -/
theorem length_trail_of_running {f : Func} {steps : Nat} {frame next : Frame}
    {world world' : World} (reached : advance f steps frame world = .running next world') :
    (trail f steps frame world).length = steps := by
  induction steps generalizing frame world with
  | zero => rfl
  | succ steps ih =>
      rw [advance_succ] at reached
      rw [trail_succ]
      cases stepped : step f frame world with
      | running middle world =>
          rw [stepped] at reached
          exact congrArg (· + 1) (ih reached)
      | returned value world => rw [stepped] at reached; cases reached
      | failed error world => rw [stepped] at reached; cases reached

theorem length_trail_le (f : Func) (steps : Nat) (frame : Frame) (world : World) :
    (trail f steps frame world).length ≤ steps := by
  induction steps generalizing frame world with
  | zero => exact Nat.le_refl 0
  | succ steps ih =>
      rw [trail_succ]
      cases step f frame world with
      | running next world => exact Nat.succ_le_succ (ih next world)
      | returned value world => exact Nat.succ_le_succ (Nat.zero_le _)
      | failed error world => exact Nat.succ_le_succ (Nat.zero_le _)

/-- A number of steps leads from a frame along a path of frames to where the run then
stands. -/
structure Passes (f : Func) (steps : Nat) (frame : Frame) (world : World) (path : List Frame)
    (progress : Progress) : Prop where
  advance_eq : advance f steps frame world = progress
  trail_eq : trail f steps frame world = path

namespace Passes

variable {f : Func} {frame : Frame} {world : World} {progress : Progress}

theorem refl (f : Func) (frame : Frame) (world : World) :
    Passes f 0 frame world [] (.running frame world) :=
  ⟨rfl, rfl⟩

theorem single (stepped : step f frame world = progress) :
    Passes f 1 frame world [frame] progress where
  advance_eq := (advance_one f frame world).trans stepped
  trail_eq := by
    rw [trail_succ]
    cases step f frame world <;> rfl

/-- Passages follow one another. -/
theorem trans {steps steps' : Nat} {path path' : List Frame} {next : Frame} {world' : World}
    (first : Passes f steps frame world path (.running next world'))
    (second : Passes f steps' next world' path' progress) :
    Passes f (steps + steps') frame world (path ++ path') progress where
  advance_eq := (advance_add_of_running first.advance_eq steps').trans second.advance_eq
  trail_eq := by
    rw [trail_add_of_running first.advance_eq, first.trail_eq, second.trail_eq]

end Passes

end Machine

/-- Whether an instruction calls a routine by name. -/
def Instr.isNamedCall (instr : Instr) : Bool :=
  instr.calledSymbol?.isSome

namespace Frame

/-- The condition that the next step branches on, if it decides a branch whose condition
is known only at run time. -/
def branchCondition? (f : Func) (frame : Frame) : Option Operand :=
  if frame.rest.isEmpty then
    (f.block? frame.block).bind fun block => block.terminator.runtimeCondition?
  else none

/-- Whether the next step decides the branch of a block, on a condition known only at
run time. -/
def branchesAt (f : Func) (id : BlockId) (frame : Frame) : Bool :=
  frame.block == id && (frame.branchCondition? f).isSome

/-- Whether the next step decides the branch of a block in favour of its first edge. -/
def takesAt (f : Func) (id : BlockId) (frame : Frame) : Bool :=
  frame.block == id &&
    (frame.branchCondition? f).any fun condition =>
      match frame.read condition with
      | .ok value => value != 0
      | .error _ => false

/-- Whether the next step decides the branch of a block in favour of its second edge. -/
def passesAt (f : Func) (id : BlockId) (frame : Frame) : Bool :=
  frame.block == id &&
    (frame.branchCondition? f).any fun condition =>
      match frame.read condition with
      | .ok value => value == 0
      | .error _ => false

/-- Whether the next step executes an instruction of a kind. -/
def executes (kind : Instr → Bool) (frame : Frame) : Bool :=
  frame.rest.head?.any kind

/-- The call by name that the next step makes, if it makes one. -/
def namedCall? (frame : Frame) : Option Instr :=
  frame.rest.head?.filter Instr.isNamedCall

theorem namedCall?_cons (values : Array (Option Int64)) (block : BlockId) (first : Instr)
    (rest : List Instr) :
    (⟨values, block, first :: rest⟩ : Frame).namedCall? =
      if first.isNamedCall then some first else none :=
  Option.filter_some

theorem rest_of_namedCall? {frame : Frame} {call : Instr}
    (makes : frame.namedCall? = some call) : ∃ rest, frame.rest = call :: rest :=
  List.head?_eq_some_iff.mp (Option.filter_eq_some_iff.mp makes).1

end Frame

/-! ## Each branch that is decided follows one of its edges -/

namespace Machine

variable {f : Func} {frame : Frame} {world : World}

/-- A step that does not fail knows the condition of the branch that it decides. -/
theorem read_of_step {condition : Operand} (decides : frame.branchCondition? f = some condition)
    (sound : ∀ error after, step f frame world ≠ .failed error after) :
    ∃ value, frame.read condition = .ok value := by
  obtain ⟨values, block, rest⟩ := frame
  cases rest with
  | cons first rest => cases decides
  | nil =>
      have decides' : ((f.block? block).bind fun current =>
          current.terminator.runtimeCondition?) = some condition := decides
      obtain ⟨current, found, isRuntime⟩ := Option.bind_eq_some_iff.mp decides'
      cases flow : current.terminator with
      | ret value => rw [flow] at isRuntime; cases isRuntime
      | jump edge => rw [flow] at isRuntime; cases isRuntime
      | unreachable => rw [flow] at isRuntime; cases isRuntime
      | branch operand whenTrue whenFalse weights =>
          rw [flow, Terminator.runtimeCondition?] at isRuntime
          split at isRuntime
          · cases isRuntime
          · cases isRuntime
            cases read : (⟨values, block, []⟩ : Frame).read condition with
            | ok value => exact ⟨value, rfl⟩
            | error error =>
                refine absurd ?_ (sound error world)
                rw [step, found]
                simp only [flow, Frame.finishBlock, Frame.chooses, read, Except.map]

theorem decided_of_step (sound : ∀ error after, step f frame world ≠ .failed error after)
    (id : BlockId) :
    (frame.branchesAt f id).toNat = (frame.takesAt f id).toNat + (frame.passesAt f id).toNat := by
  rw [Frame.branchesAt, Frame.takesAt, Frame.passesAt]
  cases decides : frame.branchCondition? f with
  | none => simp
  | some condition =>
      obtain ⟨value, read⟩ := read_of_step decides sound
      cases frame.block == id with
      | false => rfl
      | true =>
          simp only [Bool.true_and, Option.isSome_some, Option.any_some, read, bne]
          cases value == 0 <;> rfl

/-- Along a run that returns every branch that is decided follows one of its edges. -/
theorem countP_branchesAt_of_returned {steps : Nat} {value : Option Int64} {after : World}
    (returned : advance f steps frame world = .returned value after) (id : BlockId) :
    (trail f steps frame world).countP (Frame.branchesAt f id) =
      (trail f steps frame world).countP (Frame.takesAt f id) +
        (trail f steps frame world).countP (Frame.passesAt f id) := by
  induction steps generalizing frame world with
  | zero => cases returned
  | succ steps ih =>
      rw [advance_succ] at returned
      have digit (truth : Bool) : (if truth = true then 1 else 0) = truth.toNat := by
        cases truth <;> rfl
      have here (sound : ∀ error after, step f frame world ≠ .failed error after) :=
        decided_of_step sound id
      rw [trail_succ, List.countP_cons, List.countP_cons, List.countP_cons, digit, digit, digit]
      cases stepped : step f frame world with
      | running next middle =>
          rw [stepped] at returned
          have decided := here (by rw [stepped]; exact nofun)
          have later := ih returned
          simp only
          omega
      | returned value' middle =>
          have decided := here (by rw [stepped]; exact nofun)
          simp only [List.countP_nil]
          omega
      | failed error middle => rw [stepped] at returned; cases returned

end Machine

end FlowProfile
