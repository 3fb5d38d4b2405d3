/-
The machine

One step of a run executes one instruction or one terminator. The only state that runs
share is the world: the counters and the host. A run therefore interleaves with others
between its steps and nowhere else, and an addition to a counter is one step.

A run has a budget of steps. When it is used up the run ends; whatever it did to the world
until then is done.
-/

import FlowProfile.Counter
import FlowProfile.Run.Frame
import FlowProfile.Run.Host

namespace FlowProfile

/-- What all runs share. -/
structure World where
  counters : Counters
  host : Host

/-- What a step leads to. -/
inductive Progress
  | running (frame : Frame) (world : World)
  | returned (value : Option Int64) (world : World)
  | failed (error : Error) (world : World)

namespace Machine

/-- Execute an instruction. Even if its result cannot be kept, what it did to the world is
done. -/
def execute : Instr → Frame → World → Except Error Frame × World
  | .const result constant, frame, world => (frame.write result constant.value, world)
  | .binop result op lhs rhs, frame, world =>
      match frame.read lhs with
      | .error error => (.error error, world)
      | .ok left =>
          match frame.read rhs with
          | .error error => (.error error, world)
          | .ok right =>
              match op.eval? left right with
              | none => (.error .divisionByZero, world)
              | some value => (frame.write result value, world)
  | .widen result operand, frame, world =>
      match frame.read operand with
      | .error error => (.error error, world)
      | .ok value => (frame.write result (BinOp.ofTruth (value ≠ 0)), world)
  | .call result callee args, frame, ⟨counters, host⟩ =>
      match host.resolve callee with
      | .error error => (.error error, ⟨counters, host⟩)
      | .ok routine =>
          match frame.readAll args with
          | .error error => (.error error, ⟨counters, host⟩)
          | .ok values =>
              let (host, value) := host.invoke callee routine values
              (frame.writeResult result value, ⟨counters, host⟩)
  | .count result counter amount _, frame, ⟨counters, host⟩ =>
      match frame.read amount with
      | .error error => (.error error, ⟨counters, host⟩)
      | .ok value =>
          let (previous, counters) := counters.fetchAdd counter value.toUInt64
          (frame.writeResult result previous.toInt64, ⟨counters, host⟩)

/-- One step: the next instruction, or the terminator if there is none left. -/
def step (f : Func) : Frame → World → Progress
  | ⟨values, block, instr :: rest⟩, world =>
      match execute instr ⟨values, block, rest⟩ world with
      | (.ok frame, world) => .running frame world
      | (.error error, world) => .failed error world
  | ⟨values, block, []⟩, world =>
      match f.block? block with
      | none => .failed .outOfBounds world
      | some current =>
          match Frame.finishBlock f ⟨values, block, []⟩ current.terminator with
          | .ok (.inl frame) => .running frame world
          | .ok (.inr value) => .returned value world
          | .error error => .failed error world

/-- The end of a run: its result, and the world as the run leaves it. -/
abbrev Result := Except Error (Option Int64) × World

/-- Go on with a run for a number of steps. The error of a run that would go on names the
whole budget. -/
def resume (f : Func) (limit : Nat) : Nat → Frame → World → Result
  | 0, _, world => (.error (.stepLimitExceeded limit), world)
  | budget + 1, frame, world =>
      match step f frame world with
      | .running frame world => resume f limit budget frame world
      | .returned value world => (.ok value, world)
      | .failed error world => (.error error, world)

/-- The budget of a run unless stated otherwise. -/
def standardLimit : Nat := 10000000

/-- Run a function on arguments. -/
def run (f : Func) (limit : Nat) (args : List Int64) (world : World) : Result :=
  match Frame.start f args with
  | .error error => (.error error, world)
  | .ok frame => resume f limit limit frame world

/-- Run a function several times on the same arguments. To the given number of runs that
ended well those that do so now are added. -/
def runMany (f : Func) (limit : Nat) (args : List Int64) : Nat → Nat → World → Nat × World
  | 0, ended, world => (ended, world)
  | runs + 1, ended, world =>
      match run f limit args world with
      | (.ok _, world) => runMany f limit args runs (ended + 1) world
      | (.error _, world) => runMany f limit args runs ended world

/-- Run a function several times on the same arguments, up to the first run that fails. -/
def runAll (f : Func) (limit : Nat) (args : List Int64) : Nat → World → Except Error Unit × World
  | 0, world => (.ok (), world)
  | runs + 1, world =>
      match run f limit args world with
      | (.ok _, world) => runAll f limit args runs world
      | (.error error, world) => (.error error, world)

end Machine

end FlowProfile
