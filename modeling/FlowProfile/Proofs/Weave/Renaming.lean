/-
# Calls under another name

Lowering sends requests for memory to other routines.  If those serve a request as it
would have been served, then a step of the function and the same step with its call
renamed lead to the same frame, in worlds whose hosts differ in the names of the calls
they record and in nothing that can be asked of them.
-/

import FlowProfile.Proofs.Weave.Following
import Mathlib.Data.List.Forall2

namespace FlowProfile

namespace Lowering

/-- A call and the call it was lowered to: with the same arguments, to the same routine or
to one that requests are sent to. -/
def Renames (lowering : Option Lowering) (call call' : Call) : Prop :=
  call'.2 = call.2 ∧
    (call'.1 = call.1 ∨ ∃ lowering' size, lowering = some lowering' ∧
      call.1 = .symbol lowering'.symbols.request ∧ call'.1 = .symbol (lowering'.target size))

/-- The routines that requests are lowered to serve a request as its own routine does. -/
def Interchanges (lowering : Option Lowering)
    (answers : Callee → Option (List Int64 → Int64)) : Prop :=
  ∀ lowering', lowering = some lowering' →
    answers (.symbol lowering'.poolSymbol) = answers (.symbol lowering'.symbols.request) ∧
      answers (.symbol lowering'.bigSymbol) = answers (.symbol lowering'.symbols.request)

theorem Interchanges.target {lowering : Option Lowering}
    {answers : Callee → Option (List Int64 → Int64)} (interchanges : Interchanges lowering answers)
    {lowering' : Lowering} (lowered : lowering = some lowering') (size : Option Operand) :
    answers (.symbol (lowering'.target size)) = answers (.symbol lowering'.symbols.request) := by
  obtain ⟨pool, big⟩ := interchanges lowering' lowered
  unfold Lowering.target
  split
  · split
    · exact pool
    · exact big
  · exact big
  · exact big

end Lowering

namespace Weave

variable (weave : Weave)

/-- Two hosts serve alike, and since some moment have recorded the same calls up to the
names that lowering has changed. -/
structure Concur (answers : Callee → Option (List Int64 → Int64)) (past past' : List Call)
    (host host' : Host) : Prop where
  serves : host.Serves answers
  serves' : host'.Serves answers
  calls : ∃ made made', host.calls = made ++ past ∧ host'.calls = made' ++ past' ∧
    List.Forall₂ (Lowering.Renames weave.lowering) made made'

variable {weave : Weave} {answers : Callee → Option (List Int64 → Int64)}
  {past past' : List Call} {counters : Counters} {host host' : Host}

/-- Hosts that have not been called yet since then. -/
theorem Concur.start (serves : host.Serves answers) (serves' : host'.Serves answers) :
    weave.Concur answers host.calls host'.calls host host' :=
  ⟨serves, serves', [], [], rfl, rfl, .nil⟩

theorem Concur.invoke (concur : weave.Concur answers past past' host host')
    {callee callee' : Callee} {routine routine' : Routine} {args : List Int64}
    (renames : Lowering.Renames weave.lowering (callee, args) (callee', args)) :
    weave.Concur answers past past' (host.invoke callee routine args).1
      (host'.invoke callee' routine' args).1 where
  serves := concur.serves.invoke callee routine args
  serves' := concur.serves'.invoke callee' routine' args
  calls := by
    obtain ⟨made, made', calls, calls', same⟩ := concur.calls
    refine ⟨(callee, args) :: made, (callee', args) :: made', ?_, ?_, .cons renames same⟩
    · show (callee, args) :: host.calls = _
      rw [calls]
      rfl
    · show (callee', args) :: host'.calls = _
      rw [calls']
      rfl

variable (weave answers past past')

/-- A failure and the same failure at a lowered call. -/
def SameFailure (error error' : Error) : Prop :=
  error' = error ∨ ∃ lowering size, weave.lowering = some lowering ∧
    error = .unknownSymbol lowering.symbols.request ∧
    error' = .unknownSymbol (lowering.target size)

/-- What an instruction leads to in two worlds with the same counters. -/
inductive Doubles : Except Error Frame × World → Except Error Frame × World → Prop
  | ok {next : Frame} {counters : Counters} {host host' : Host}
      (concur : weave.Concur answers past past' host host') :
      Doubles (.ok next, ⟨counters, host⟩) (.ok next, ⟨counters, host'⟩)
  | error {error error' : Error} {counters : Counters} {host host' : Host}
      (same : weave.SameFailure error error')
      (concur : weave.Concur answers past past' host host') :
      Doubles (.error error, ⟨counters, host⟩) (.error error', ⟨counters, host'⟩)

variable {weave answers past past'}

theorem Doubles.same (concur : weave.Concur answers past past' host host')
    (result : Except Error Frame) :
    weave.Doubles answers past past' (result, ⟨counters, host⟩) (result, ⟨counters, host'⟩) := by
  cases result with
  | ok next => exact .ok concur
  | error error => exact .error (.inl rfl) concur

/-- Calls of routines that answer alike lead to the same. -/
theorem doubles_call (concur : weave.Concur answers past past' host host')
    {callee callee' : Callee} (alike : answers callee' = answers callee)
    (renames : ∀ values, Lowering.Renames weave.lowering (callee, values) (callee', values))
    (unresolved : weave.SameFailure (Host.unresolved callee) (Host.unresolved callee'))
    (result : Option ValueId) (args : List Operand) (frame : Frame) :
    weave.Doubles answers past past'
      (Machine.execute (.call result callee args) frame ⟨counters, host⟩)
      (Machine.execute (.call result callee' args) frame ⟨counters, host'⟩) := by
  rw [Machine.execute, Machine.execute]
  rcases concur.serves.resolve_eq callee with
    ⟨routine, answer, resolved, known, answered⟩ | ⟨resolved, unknown⟩
  · rcases concur.serves'.resolve_eq callee' with
      ⟨routine', answer', resolved', known', answered'⟩ | ⟨-, unknown'⟩
    · obtain rfl : answer = answer' := by
        rw [alike, known] at known'
        exact Option.some.inj known'
      rw [resolved, resolved']
      simp only
      cases frame.readAll args with
      | error error => exact .same concur _
      | ok values =>
          have sameAnswer : (host'.invoke callee' routine' values).2 =
              (host.invoke callee routine values).2 :=
            (answered' values).trans (answered values).symm
          simp only [sameAnswer]
          exact .same (concur.invoke (renames values)) _
    · rw [alike, known] at unknown'
      cases unknown'
  · rcases concur.serves'.resolve_eq callee' with
      ⟨routine', answer', -, known', -⟩ | ⟨resolved', -⟩
    · rw [alike, unknown] at known'
      cases known'
    · rw [resolved, resolved']
      exact .error unresolved concur

/-- Executing an instruction and executing what it was lowered to lead to the same. -/
theorem doubles_execute (interchanges : Lowering.Interchanges weave.lowering answers)
    (concur : weave.Concur answers past past' host host') (instr : Instr) (frame : Frame) :
    weave.Doubles answers past past' (Machine.execute instr frame ⟨counters, host⟩)
      (Machine.execute (weave.lower instr) frame ⟨counters, host'⟩) := by
  rcases weave.lower_eq_or instr with same | ⟨lowering, result, args, lowered, rfl, renamed⟩
  · rw [same]
    cases instr with
    | const result constant => exact .same concur _
    | binop result op lhs rhs =>
        rw [Machine.execute, Machine.execute]
        cases frame.read lhs with
        | error error => exact .same concur _
        | ok left =>
            cases frame.read rhs with
            | error error => exact .same concur _
            | ok right =>
                simp only
                cases op.eval? left right with
                | none => exact .same concur _
                | some value => exact .same concur _
    | widen result operand =>
        rw [Machine.execute, Machine.execute]
        cases frame.read operand with
        | error error => exact .same concur _
        | ok value => exact .same concur _
    | call result callee args =>
        exact doubles_call concur rfl (fun _ => ⟨rfl, .inl rfl⟩) (.inl rfl) result args frame
    | count result counter amount order =>
        rw [Machine.execute, Machine.execute]
        cases frame.read amount with
        | error error => exact .same concur _
        | ok value => exact .same concur _
  · rw [renamed]
    exact doubles_call concur (interchanges.target lowered _)
      (fun _ => ⟨rfl, .inr ⟨lowering, _, lowered, rfl, rfl⟩⟩)
      (.inr ⟨lowering, _, lowered, rfl, rfl⟩) result args frame

variable (weave answers past past')

/-- What a step leads to in two worlds with the same counters. -/
inductive Pairs : Progress → Progress → Prop
  | running {next : Frame} {counters : Counters} {host host' : Host}
      (concur : weave.Concur answers past past' host host') :
      Pairs (.running next ⟨counters, host⟩) (.running next ⟨counters, host'⟩)
  | returned {value : Option Int64} {counters : Counters} {host host' : Host}
      (concur : weave.Concur answers past past' host host') :
      Pairs (.returned value ⟨counters, host⟩) (.returned value ⟨counters, host'⟩)
  | failed {error error' : Error} {counters : Counters} {host host' : Host}
      (same : weave.SameFailure error error')
      (concur : weave.Concur answers past past' host host') :
      Pairs (.failed error ⟨counters, host⟩) (.failed error' ⟨counters, host'⟩)

variable {weave answers past past'}

/-- A step of the function and the same step with its call renamed lead to the same. -/
theorem pairs_step (interchanges : Lowering.Interchanges weave.lowering answers)
    (concur : weave.Concur answers past past' host host') (f : Func) (frame : Frame) :
    weave.Pairs answers past past' (Machine.step f frame ⟨counters, host⟩)
      (Machine.step f (weave.poised frame) ⟨counters, host'⟩) := by
  obtain ⟨values, id, rest⟩ := frame
  cases rest with
  | nil =>
      rw [poised, Machine.step, Machine.step]
      cases f.block? id with
      | none => exact .failed (.inl rfl) concur
      | some block =>
          simp only
          cases (⟨values, id, []⟩ : Frame).finishBlock f block.terminator with
          | error error => exact .failed (.inl rfl) concur
          | ok outcome =>
              cases outcome with
              | inl next => exact .running concur
              | inr value => exact .returned concur
  | cons first rest =>
      have doubles : weave.Doubles answers past past'
          (Machine.execute first ⟨values, id, rest⟩ ⟨counters, host⟩)
          (Machine.execute (weave.lower first) ⟨values, id, rest⟩ ⟨counters, host'⟩) :=
        doubles_execute interchanges concur first _
      rw [poised, Machine.step, Machine.step]
      generalize Machine.execute first ⟨values, id, rest⟩ ⟨counters, host⟩ = outcome at doubles
      generalize Machine.execute (weave.lower first) ⟨values, id, rest⟩ ⟨counters, host'⟩ =
        outcome' at doubles
      cases doubles with
      | ok concur' => exact .running concur'
      | error same concur' => exact .failed same concur'

/-- The woven function's failure at a lowered call mirrors that of the function. -/
theorem SameFailure.mirrors {error middle error' : Error}
    (same : weave.SameFailure error middle) (mirrors : weave.Mirrors middle error') :
    weave.Mirrors error error' := by
  rcases same with rfl | ⟨lowering, size, lowered, rfl, rfl⟩
  · exact mirrors
  · generalize lost : Error.unknownSymbol (lowering.target size) = middle at mirrors
    cases mirrors with
    | within _ block =>
        rw [← lost]
        exact .renamed lowered size
    | renamed lowered' size' =>
        obtain rfl : lowering = _ := Option.some.inj (lowered.symm.trans lowered')
        exact .renamed lowered size'
    | early probed failsCall id block =>
        exact .early probed (.inl ⟨.symbol lowering.symbols.request, rfl⟩) id block

end Weave

end FlowProfile
