/-
Reporters

A function can ask to have a routine called back at its n-th call. The note is a
tuple: the call number, the code address of the routine, and the literals to pass to it.
-/

import FlowProfile.Error
import FlowProfile.Func.Basic

namespace FlowProfile

/-- The key of the note that holds a function's reporter. -/
def reporterKey : String := "jitprof.reporter"

/-- At which call a routine is called back, and with what. -/
structure Reporter where
  threshold : Int64
  callback : UInt64
  args : List Constant
  deriving DecidableEq

namespace Reporter

/-- The reason for which a note is refused. -/
def refuse {α : Type} (function : String) (fault : NoteFault) : Except Error α :=
  .error (.malformedNote function reporterKey fault)

/-- Read the arguments, the first of which has the given position among them. -/
def readArgs (function : String) (index : Nat) : List Note → Except Error (List Constant)
  | [] => .ok []
  | item :: rest =>
      match item.asConstant? with
      | none => refuse function (.argumentNotConstant index item.kind)
      | some constant => (readArgs function (index + 1) rest).map (constant :: ·)

/-- Read a reporter from its note. Neither the call number nor the address may be
given as a truth value. -/
def ofNote (function : String) (note : Note) : Except Error Reporter :=
  match note.items? with
  | none => refuse function (.notTuple note.kind)
  | some (.int threshold :: .int callback :: args) =>
      (readArgs function 0 args).map fun args => ⟨threshold, callback.toUInt64, args⟩
  | some (.int _ :: callback :: _) => refuse function (.callbackNotInteger callback.kind)
  | some (threshold :: _ :: _) => refuse function (.thresholdNotInteger threshold.kind)
  | some items => refuse function (.tooShort 2 items.length)

/-- The note of one argument. -/
def argNote (constant : Constant) : Note :=
  match constant.scalar with
  | .bit => .bool (constant.value ≠ 0)
  | .word => .int constant.value

/-- The note from which a reporter is read back. -/
def toNote (reporter : Reporter) : Note :=
  .tuple (.int reporter.threshold :: .int reporter.callback.toInt64 ::
    reporter.args.map argNote)

/-- How likely the report is, seen from the calls counted so far: once in as many calls as
are missing, and at least in every second one. -/
def weights (reporter : Reporter) (calls : UInt64) : Weights :=
  ⟨1, (max 1 (reporter.threshold.toInt - calls.toNat)).toNat.toUInt64⟩

end Reporter

end FlowProfile
