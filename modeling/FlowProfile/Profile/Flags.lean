/-
Profiling flags

Which counters a function is to carry, and whether the counts of earlier runs are to be
fed back into it. A front end states them in a note: a tuple of four truth values
in a fixed order, where a number counts as its being nonzero.
-/

import FlowProfile.Error
import FlowProfile.Func.Basic

namespace FlowProfile

/-- The key of the note that holds a function's flags. -/
def flagsKey : String := "jitprof.flags"

/-- What is to be done with a function. -/
structure Flags where
  allocations : Bool
  branches : Bool
  calls : Bool
  feedback : Bool
  deriving DecidableEq

namespace Flags

/-- No flag at all. -/
def none : Flags :=
  ⟨false, false, false, false⟩

/-- Whether no flag is set. -/
def isEmpty (flags : Flags) : Bool :=
  !(flags.allocations || flags.branches || flags.calls || flags.feedback)

/-- The flags as a number, one bit each, in the order of the note. -/
def bits (flags : Flags) : Nat :=
  flags.allocations.toNat + 2 * flags.branches.toNat + 4 * flags.calls.toNat +
    8 * flags.feedback.toNat

/-- Read one entry of the note. -/
def readEntry (function : String) (index : Nat) (item : Note) : Except Error Bool :=
  match item.asInt? with
  | some value => .ok (value ≠ 0)
  | .none => .error (.malformedNote function flagsKey (.flagNotBoolean index item.kind))

/-- Read the flags of a function from its note. -/
def ofNote (function : String) (note : Note) : Except Error Flags :=
  match note.items? with
  | .none => .error (.malformedNote function flagsKey (.notTuple note.kind))
  | some [allocations, branches, calls, feedback] => do
      let allocations ← readEntry function 0 allocations
      let branches ← readEntry function 1 branches
      let calls ← readEntry function 2 calls
      let feedback ← readEntry function 3 feedback
      return ⟨allocations, branches, calls, feedback⟩
  | some items => .error (.malformedNote function flagsKey (.wrongLength 4 items.length))

/-- The note from which the flags are read back. -/
def toNote (flags : Flags) : Note :=
  .tuple [.bool flags.allocations, .bool flags.branches, .bool flags.calls, .bool flags.feedback]

end Flags

end FlowProfile
