/-
# Causes of failure

What a step of the machine can fail with.  The budget is not among the causes: only the
end of a run that would go on names it, so that a run which reports it has taken every
step it was allowed to take.
-/

import FlowProfile.Proofs.Run.Cover
import FlowProfile.Proofs.Run.Trail

namespace FlowProfile

/-- The failure is that the budget of a run is used up. -/
def Error.isExhaustion : Error → Bool
  | stepLimitExceeded _ => true
  | _ => false

section

variable {f : Func} {frame : Frame} {error : Error}

namespace Frame

theorem cause_read {operand : Operand} (failed : frame.read operand = .error error) :
    error.isExhaustion = false := by
  obtain ⟨id, rfl⟩ := eq_undefinedValue_of_read failed
  rfl

theorem cause_readAll {operands : List Operand} (failed : frame.readAll operands = .error error) :
    error.isExhaustion = false := by
  obtain ⟨id, rfl⟩ := eq_undefinedValue_of_readAll failed
  rfl

theorem cause_write {id : ValueId} {value : Int64} (failed : frame.write id value = .error error) :
    error.isExhaustion = false := by
  obtain ⟨values, block, rest⟩ := frame
  rw [write] at failed
  split at failed
  · cases failed
  · cases failed
    rfl

theorem cause_writeAll {pairs : List (ValueId × Int64)}
    (failed : frame.writeAll pairs = .error error) : error.isExhaustion = false := by
  induction pairs generalizing frame with
  | nil => cases failed
  | cons pair rest ih =>
      obtain ⟨id, value⟩ := pair
      rw [writeAll] at failed
      cases written : frame.write id value with
      | error cause =>
          rw [written] at failed
          cases failed
          exact cause_write written
      | ok next =>
          rw [written] at failed
          exact ih failed

theorem cause_writeResult {result : Option ValueId} {value : Int64}
    (failed : frame.writeResult result value = .error error) : error.isExhaustion = false := by
  cases result with
  | none => cases failed
  | some id => exact cause_write failed

theorem cause_start {args : List Int64} (failed : start f args = .error error) :
    error.isExhaustion = false := by
  unfold start at failed
  split at failed
  · cases failed
    rfl
  · split at failed
    · next unwritten =>
        cases failed
        exact cause_writeAll unwritten
    · split at failed
      · cases failed
        rfl
      · cases failed

theorem cause_follow {edge : Edge} (failed : frame.follow f edge = .error error) :
    error.isExhaustion = false := by
  unfold follow at failed
  split at failed
  · cases failed
    rfl
  · split at failed
    · cases failed
      rfl
    · cases incoming : frame.readAll edge.args with
      | error cause =>
          rw [incoming] at failed
          cases failed
          exact cause_readAll incoming
      | ok values =>
          simp only [incoming] at failed
          split at failed
          · next unwritten =>
              cases failed
              exact cause_writeAll unwritten
          · cases failed

theorem cause_finishBlock {terminator : Terminator}
    (failed : frame.finishBlock f terminator = .error error) : error.isExhaustion = false := by
  have following {edge : Edge}
      (failed : (frame.follow f edge).map (Sum.inl : Frame → Frame ⊕ Option Int64) =
        .error error) : error.isExhaustion = false := by
    cases followed : frame.follow f edge with
    | error cause =>
        rw [followed] at failed
        cases failed
        exact cause_follow followed
    | ok next => rw [followed] at failed; cases failed
  cases terminator with
  | ret operand =>
      cases operand with
      | none => cases failed
      | some operand =>
          rw [finishBlock] at failed
          cases read : frame.read operand with
          | error cause =>
              rw [read] at failed
              cases failed
              exact cause_read read
          | ok value => rw [read] at failed; cases failed
  | jump edge => exact following failed
  | branch condition whenTrue whenFalse weights =>
      rw [finishBlock, chooses] at failed
      cases read : frame.read condition with
      | error cause =>
          rw [read] at failed
          cases failed
          exact cause_read read
      | ok value =>
          rw [read] at failed
          exact following failed
  | unreachable =>
      cases failed
      rfl

end Frame

namespace Machine

theorem cause_execute {instr : Instr} {world after : World}
    (failed : execute instr frame world = (.error error, after)) :
    error.isExhaustion = false := by
  cases instr with
  | const result constant =>
      exact Frame.cause_write (congrArg Prod.fst failed)
  | binop result op lhs rhs =>
      rw [execute] at failed
      cases left : frame.read lhs with
      | error cause =>
          rw [left] at failed
          cases failed
          exact Frame.cause_read left
      | ok value =>
          cases right : frame.read rhs with
          | error cause =>
              rw [left, right] at failed
              cases failed
              exact Frame.cause_read right
          | ok value' =>
              simp only [left, right] at failed
              split at failed
              · cases failed
                rfl
              · exact Frame.cause_write (congrArg Prod.fst failed)
  | widen result operand =>
      rw [execute] at failed
      cases read : frame.read operand with
      | error cause =>
          rw [read] at failed
          cases failed
          exact Frame.cause_read read
      | ok value =>
          rw [read] at failed
          exact Frame.cause_write (congrArg Prod.fst failed)
  | call result callee args =>
      rw [execute] at failed
      cases resolved : world.host.resolve callee with
      | error cause =>
          simp only [resolved] at failed
          cases failed
          rw [Host.resolve] at resolved
          split at resolved
          · cases resolved
          · cases resolved
            cases callee <;> rfl
      | ok routine =>
          cases read : frame.readAll args with
          | error cause =>
              simp only [resolved, read] at failed
              cases failed
              exact Frame.cause_readAll read
          | ok values =>
              simp only [resolved, read] at failed
              exact Frame.cause_writeResult (congrArg Prod.fst failed)
  | count result counter amount order =>
      rw [execute] at failed
      cases read : frame.read amount with
      | error cause =>
          rw [read] at failed
          cases failed
          exact Frame.cause_read read
      | ok value =>
          rw [read] at failed
          exact Frame.cause_writeResult (congrArg Prod.fst failed)

theorem cause_step {world after : World} (failed : step f frame world = .failed error after) :
    error.isExhaustion = false := by
  obtain ⟨values, block, rest⟩ := frame
  cases rest with
  | nil =>
      rw [step] at failed
      split at failed
      · cases failed
        rfl
      · split at failed
        · cases failed
        · cases failed
        · next finished =>
            cases failed
            exact Frame.cause_finishBlock finished
  | cons instr rest =>
      rw [step] at failed
      split at failed
      · cases failed
      · next executed =>
          cases failed
          exact cause_execute executed

/-- No run fails for want of steps. -/
theorem cause_advance {steps : Nat} {world after : World}
    (failed : advance f steps frame world = .failed error after) : error.isExhaustion = false := by
  induction steps generalizing frame world with
  | zero => cases failed
  | succ steps ih =>
      rw [advance_succ] at failed
      cases stepped : step f frame world with
      | running next middle =>
          rw [stepped] at failed
          exact ih failed
      | returned value middle => rw [stepped] at failed; cases failed
      | failed cause middle =>
          rw [stepped] at failed
          cases failed
          exact cause_step stepped

/-- A run that reports its budget as used up would go on. -/
theorem running_of_exhausted {limit : Nat} {world after : World}
    (exhausted : (advance f limit frame world).result limit =
      (.error (.stepLimitExceeded limit), after)) :
    ∃ stop, advance f limit frame world = .running stop after := by
  cases reached : advance f limit frame world with
  | running stop last =>
      rw [reached] at exhausted
      cases exhausted
      exact ⟨stop, rfl⟩
  | returned value last => rw [reached] at exhausted; cases exhausted
  | failed error last =>
      rw [reached] at exhausted
      cases exhausted
      cases cause_advance reached

end Machine

end

end FlowProfile
