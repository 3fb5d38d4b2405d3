/-
# What runs do to the world

A run does two things to the world: it calls routines and it adds to counters.  What it has
done is a list of such effects, in the order in which they were done, and the world that a
run leaves is the one it has met with these effects carried out on it, however the run ends.

The effects are read off the frames that the run has gone through.  Which routines there
are never changes on the way, and so it is enough to know this of the world at the start.
-/

import FlowProfile.Proofs.Run.Footprint

namespace FlowProfile

/-- Something that is done to the world. -/
inductive Effect
  | call (call : Call)
  | addition (counter : Counter) (amount : UInt64)
  deriving DecidableEq

/-- Carry out an effect. -/
def World.perform : World → Effect → World
  | ⟨counters, host⟩, .call (callee, args) =>
      ⟨counters, ⟨Host.countCall callee host.routines, (callee, args) :: host.calls⟩⟩
  | ⟨counters, host⟩, .addition counter amount => ⟨counters.add counter amount, host⟩

/-- Whether there is a routine for a callee. -/
def Host.offers (host : Host) (callee : Callee) : Bool :=
  (host.routine? callee).isSome

/-- What an instruction does to the world in a frame, if it does anything. -/
def Instr.effect? (offered : Callee → Bool) (frame : Frame) : Instr → Option Effect
  | .call _ callee args =>
      if offered callee then
        (frame.readAll args).toOption.map fun values => .call (callee, values)
      else none
  | .count _ counter amount _ =>
      (frame.read amount).toOption.map fun value => .addition counter value.toUInt64
  | .const .. | .binop .. | .widen .. => none

/-- What the next step does to the world, if it does anything. -/
def Frame.effect? (offered : Callee → Bool) (frame : Frame) : Option Effect :=
  frame.rest.head?.bind (Instr.effect? offered frame)

/-- What an instruction does to the world depends on values and on nothing else. -/
theorem Instr.effect?_moved (offered : Callee → Bool) (frame : Frame) (block : BlockId)
    (rest : List Instr) (instr : Instr) :
    instr.effect? offered (frame.moved block rest) = instr.effect? offered frame := by
  cases instr with
  | call result callee args =>
      rw [effect?, effect?, Frame.readAll_moved]
      cases frame.readAll args <;> rfl
  | count result counter amount order =>
      rw [effect?, effect?, Frame.read_moved]
      cases frame.read amount <;> rfl
  | _ => rfl

/-- Along a path that is done first what is done in its first frame. -/
theorem Frame.filterMap_effect?_cons (offered : Callee → Bool) (frame : Frame)
    (later : List Frame) :
    (frame :: later).filterMap (effect? offered) =
      (frame.effect? offered).toList ++ later.filterMap (effect? offered) := by
  cases noted : frame.effect? offered with
  | none => exact List.filterMap_cons_none noted
  | some effect => exact List.filterMap_cons_some noted

/-- An effect leaves the routines there are. -/
theorem World.offers_perform (world : World) (effect : Effect) :
    (world.perform effect).host.offers = world.host.offers := by
  cases effect with
  | call made =>
      funext callee
      exact world.host.isSome_routine?_invoke made.1 callee (.always 0) made.2
  | addition counter amount => rfl

theorem World.offers_foldl (world : World) (effects : List Effect) :
    (effects.foldl perform world).host.offers = world.host.offers := by
  induction effects generalizing world with
  | nil => rfl
  | cons effect rest ih => exact (ih _).trans (world.offers_perform effect)

namespace Machine

variable {f : Func}

theorem world_execute (instr : Instr) (frame : Frame) (world : World) :
    (execute instr frame world).2 =
      (instr.effect? world.host.offers frame).toList.foldl World.perform world := by
  cases instr with
  | const result constant => rfl
  | binop result op lhs rhs =>
      rw [execute]
      split
      · rfl
      · split
        · rfl
        · split <;> rfl
  | widen result operand =>
      rw [execute]
      split <;> rfl
  | call result callee args =>
      rw [execute, Host.resolve, Instr.effect?, Host.offers]
      cases world.host.routine? callee with
      | none => rfl
      | some routine => cases frame.readAll args <;> rfl
  | count result counter amount order =>
      rw [execute, Instr.effect?]
      cases frame.read amount <;> rfl

/-- A step does to the world what its frame says. -/
theorem world_step (f : Func) (frame : Frame) (world : World) :
    (step f frame world).world =
      (frame.effect? world.host.offers).toList.foldl World.perform world := by
  obtain ⟨values, position, rest⟩ := frame
  cases rest with
  | nil => exact world_step_nil f values position world
  | cons instr rest =>
      rw [world_step_cons, world_execute, ← Instr.effect?_moved _ _ position (instr :: rest)]
      rfl

/-- No step changes which routines there are. -/
theorem offers_step (f : Func) (frame : Frame) (world : World) :
    (step f frame world).world.host.offers = world.host.offers := by
  rw [world_step]
  exact world.offers_foldl _

/-- What a run does to the world, in order. -/
def effects (f : Func) (limit : Nat) (args : List Int64) (world : World) : List Effect :=
  (trailOf f limit args world).filterMap (Frame.effect? world.host.offers)

theorem world_advance (f : Func) (steps : Nat) (frame : Frame) (world : World) :
    (advance f steps frame world).world =
      ((trail f steps frame world).filterMap
        (Frame.effect? world.host.offers)).foldl World.perform world := by
  induction steps generalizing frame world with
  | zero => rfl
  | succ steps ih =>
      have here := world_step f frame world
      have offered := offers_step f frame world
      rw [advance_succ, trail_succ, Frame.filterMap_effect?_cons, List.foldl_append, ← here]
      cases stepped : step f frame world with
      | running next middle =>
          rw [stepped] at offered
          rw [show (Progress.running next middle).world = middle from rfl, ← offered]
          exact ih next middle
      | returned value middle => rfl
      | failed error middle => rfl

theorem world_result (progress : Progress) (limit : Nat) :
    (progress.result limit).2 = progress.world := by
  cases progress <;> rfl

/-- The world after a run is the one before it with the effects of the run. -/
theorem world_run (f : Func) (limit : Nat) (args : List Int64) (world : World) :
    (run f limit args world).2 = (effects f limit args world).foldl World.perform world := by
  rw [effects]
  cases start : Frame.start f args with
  | error error =>
      rw [run, trailOf, start]
      rfl
  | ok frame =>
      rw [run_of_start start, trailOf_of_start start, world_result]
      exact world_advance f limit frame world

end Machine

end FlowProfile
