/-
# The function's own instructions

An instruction of the function itself does the same in two frames that hold the same
values below the function's bound, and in two worlds that differ at most in the counters
of its profile.  This needs that it names no value from the bound on and adds to no such
counter, and both are so before a function is compiled.
-/

import FlowProfile.Proofs.Weave.Probing

namespace FlowProfile

/-- An instruction names only values below a bound. -/
structure Instr.Below (bound : Nat) (instr : Instr) : Prop where
  operands : ∀ operand ∈ instr.operands, operand.Below bound
  result : ∀ id, instr.result? = some id → id < bound

/-- An instruction adds to no counter of the function's profile. -/
def Weave.Spares (weave : Weave) (instr : Instr) : Prop :=
  ∀ counter, instr.counter? = some counter → ¬ weave.Owns counter

/-- A frame that holds at least what another one holds below a bound, and has kept its own
place. -/
structure Frame.Shadows (bound : Nat) (inner outer old : Frame) : Prop where
  covers : Covers bound inner.values outer.values
  size_eq : outer.values.size = old.values.size
  block_eq : outer.block = old.block
  rest_eq : outer.rest = old.rest

/-- A call that goes nowhere fails in the same way in every block. -/
theorem Host.within_of_resolve_error {host : Host} {callee : Callee} {error : Error}
    (unresolved : host.resolve callee = .error error) (block : BlockId) :
    error.within block = error := by
  rw [resolve] at unresolved
  cases found : host.routine? callee with
  | some routine => rw [found] at unresolved; cases unresolved
  | none =>
      rw [found] at unresolved
      cases unresolved
      cases callee <;> rfl

namespace Frame

variable {bound : Nat} {frame frame' : Frame}

theorem write_shadows (covers : Covers bound frame.values frame'.values) {id : ValueId}
    (below : id < bound) (value : Int64) :
    ∃ next next', frame.write id value = .ok next ∧ frame'.write id value = .ok next' ∧
      next.block = frame.block ∧ next.rest = frame.rest ∧
      Shadows bound next next' frame' := by
  refine ⟨_, _, write_of_lt (covers.size_eq.symm ▸ below) value,
    write_of_lt (Nat.lt_of_lt_of_le below covers.le_size) value, rfl, rfl, ?_⟩
  exact ⟨covers.set id (some value), Array.size_setIfInBounds, rfl, rfl⟩

theorem writeResult_shadows (covers : Covers bound frame.values frame'.values)
    {result : Option ValueId} (below : ∀ id, result = some id → id < bound) (value : Int64) :
    ∃ next next', frame.writeResult result value = .ok next ∧
      frame'.writeResult result value = .ok next' ∧
      next.block = frame.block ∧ next.rest = frame.rest ∧
      Shadows bound next next' frame' := by
  cases result with
  | none => exact ⟨frame, frame', rfl, rfl, rfl, rfl, covers, rfl, rfl, rfl⟩
  | some id => exact write_shadows covers (below id rfl) value

end Frame

namespace Weave

variable {weave : Weave} {bound : Nat} {frame frame' : Frame} {world world' : World}

/-- What a woven function's execution of an own instruction has to do with the function's. -/
inductive Echoes (weave : Weave) (bound : Nat) (frame frame' : Frame) (world' : World) :
    Except Error Frame × World → Except Error Frame × World → Prop
  | ok {next next' : Frame} {after after' : World} (block : next.block = frame.block)
      (rest : next.rest = frame.rest) (shadows : Frame.Shadows bound next next' frame')
      (agrees : weave.Agrees after after') (grows : weave.Grows [] world' after') :
      Echoes weave bound frame frame' world' (.ok next, after) (.ok next', after')
  | error {error error' : Error} {after after' : World}
      (within : error' = error.within frame'.block) (agrees : weave.Agrees after after') :
      Echoes weave bound frame frame' world' (.error error, after) (.error error', after')

theorem echoes_writeResult (covers : Covers bound frame.values frame'.values)
    {result : Option ValueId} (below : ∀ id, result = some id → id < bound) (value : Int64)
    {after after' : World} (agrees : weave.Agrees after after')
    (grows : weave.Grows [] world' after') :
    weave.Echoes bound frame frame' world' (frame.writeResult result value, after)
      (frame'.writeResult result value, after') := by
  obtain ⟨next, next', written, written', block, rest, shadows⟩ :=
    Frame.writeResult_shadows covers below value
  rw [written, written']
  exact .ok block rest shadows agrees grows

theorem echoes_write (covers : Covers bound frame.values frame'.values)
    {result : ValueId} (below : result < bound) (value : Int64)
    {after after' : World} (agrees : weave.Agrees after after')
    (grows : weave.Grows [] world' after') :
    weave.Echoes bound frame frame' world' (frame.write result value, after)
      (frame'.write result value, after') := by
  have belowSome : ∀ id, some result = some id → id < bound := by
    rintro id ⟨⟩
    exact below
  exact echoes_writeResult covers belowSome value agrees grows

/-- Adding the same to a counter that is not the profile's keeps worlds in agreement. -/
theorem agrees_add (agrees : weave.Agrees world world') {counter : Counter}
    (foreign : ¬ weave.Owns counter) (amount : UInt64) :
    weave.Agrees ⟨world.counters.add counter amount, world.host⟩
      ⟨world'.counters.add counter amount, world'.host⟩ where
  host_eq := agrees.host_eq
  read_eq other outside := by
    rw [Counters.read_add, Counters.read_add, agrees.read_eq counter foreign,
      agrees.read_eq other outside]

theorem grows_add_of_not_owns {counter : Counter} (foreign : ¬ weave.Owns counter)
    (amount : UInt64) (world : World) :
    weave.Grows [] world ⟨world.counters.add counter amount, world.host⟩ := by
  intro measure
  have apart : counter ≠ weave.counter measure := by
    rintro rfl
    exact foreign (weave.owns_counter measure)
  rw [Counters.read_add_of_ne apart]
  exact (UInt64.add_zero _).symm

/-- Own instructions do the same in both frames. -/
theorem echoes_execute (covers : Covers bound frame.values frame'.values)
    (agrees : weave.Agrees world world') {instr : Instr} (below : instr.Below bound)
    (spares : weave.Spares instr) :
    weave.Echoes bound frame frame' world' (Machine.execute instr frame world)
      (Machine.execute instr frame' world') := by
  have unpaid : weave.Grows [] world' world' := .refl world'
  cases instr with
  | const result constant =>
      rw [Machine.execute, Machine.execute]
      exact echoes_write covers (below.result result rfl) _ agrees unpaid
  | binop result op lhs rhs =>
      have readLeft := Frame.read_covered covers (below.operands lhs (by simp [Instr.operands]))
      have readRight := Frame.read_covered covers (below.operands rhs (by simp [Instr.operands]))
      rw [Machine.execute, Machine.execute, readLeft, readRight]
      cases frame.read lhs with
      | error error => exact .error rfl agrees
      | ok left =>
          cases frame.read rhs with
          | error error => exact .error rfl agrees
          | ok right =>
              simp only [Frame.mapError_ok]
              cases op.eval? left right with
              | none => exact .error rfl agrees
              | some value => exact echoes_write covers (below.result result rfl) _ agrees unpaid
  | widen result operand =>
      have read := Frame.read_covered covers (below.operands operand (by simp [Instr.operands]))
      rw [Machine.execute, Machine.execute, read]
      cases frame.read operand with
      | error error => exact .error rfl agrees
      | ok value => exact echoes_write covers (below.result result rfl) _ agrees unpaid
  | call result callee args =>
      obtain ⟨counters, host⟩ := world
      obtain ⟨counters', host'⟩ := world'
      obtain rfl : host' = host := agrees.host_eq
      have read := Frame.readAll_covered covers below.operands
      simp only [Instr.operands] at read
      rw [Machine.execute, Machine.execute, read]
      cases resolved : host'.resolve callee with
      | error error =>
          exact .error (Host.within_of_resolve_error resolved frame'.block).symm agrees
      | ok routine =>
          cases frame.readAll args with
          | error error => exact .error rfl agrees
          | ok values =>
              exact echoes_writeResult covers below.result _ ⟨rfl, agrees.read_eq⟩
                fun measure => unpaid measure
  | count result counter amount order =>
      obtain ⟨counters, host⟩ := world
      obtain ⟨counters', host'⟩ := world'
      have read := Frame.read_covered covers (below.operands amount (by simp [Instr.operands]))
      rw [Machine.execute, Machine.execute, read]
      cases frame.read amount with
      | error error => exact .error rfl agrees
      | ok value =>
          have foreign := spares counter rfl
          have executed (memory : Counters) (surroundings : Host) (place : Frame) :
              (place.writeResult result (memory.fetchAdd counter value.toUInt64).1.toInt64,
                (⟨(memory.fetchAdd counter value.toUInt64).2, surroundings⟩ : World)) =
              (place.writeResult result (memory.read counter).toInt64,
                ⟨memory.add counter value.toUInt64, surroundings⟩) := rfl
          simp only [Frame.mapError_ok, executed]
          rw [agrees.read_eq counter foreign]
          exact echoes_writeResult covers below.result _ (agrees_add agrees foreign _)
            (grows_add_of_not_owns foreign _ ⟨counters', host'⟩)

end Weave

end FlowProfile
