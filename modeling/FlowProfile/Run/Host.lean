/-
The host

What surrounds the machine: the routines that code can call, by name or by code address,
and the record of the calls made so far. A routine's answer depends on its arguments and
on how often it was called before; many routines ignore the latter.
-/

import FlowProfile.Error
import FlowProfile.Table

namespace FlowProfile

/-- A routine, and how often it was called. -/
structure Routine where
  answer : Nat → List Int64 → Int64
  calls : Nat

namespace Routine

/-- A routine that was not called yet. -/
def ofAnswer (answer : Nat → List Int64 → Int64) : Routine :=
  ⟨answer, 0⟩

/-- The sum of the arguments. -/
def sum : Routine :=
  ofAnswer fun _ args => args.foldl (· + ·) 0

/-- Always the same answer. -/
def always (value : Int64) : Routine :=
  ofAnswer fun _ _ => value

/-- The argument at a position, or zero. -/
def argument (index : Nat) : Routine :=
  ofAnswer fun _ args => args.getD index 0

/-- The number of the call, counted from one. -/
def counting : Routine :=
  ofAnswer fun calls _ => (calls + 1).toInt64

/-- Values in turn, from the beginning after the last one. -/
def cycling (values : List Int64) : Routine :=
  ofAnswer fun calls _ => values.getD (calls % values.length) 0

/-- The routine pays no attention to how often it was called. -/
def IsFunction (routine : Routine) : Prop :=
  ∀ before after args, routine.answer before args = routine.answer after args

end Routine

/-- A call that was made: the routine and its arguments. -/
abbrev Call := Callee × List Int64

/-- The routines, and the calls made to them, the latest first. -/
structure Host where
  routines : List (Callee × Routine)
  calls : List Call

namespace Host

/-- A host that was not called yet. -/
def ofRoutines (routines : List (Callee × Routine)) : Host :=
  ⟨routines, []⟩

/-- The routine that a call goes to, if there is one. -/
def routine? (host : Host) (callee : Callee) : Option Routine :=
  (host.routines.find? (·.1 = callee)).map (·.2)

/-- The failure of a call that goes nowhere. -/
def unresolved : Callee → Error
  | .symbol name => .unknownSymbol name
  | .address code => .unknownAddress code

/-- The routine that a call goes to. -/
def resolve (host : Host) (callee : Callee) : Except Error Routine :=
  match host.routine? callee with
  | some routine => .ok routine
  | none => .error (unresolved callee)

/-- Note that a routine was called once more. -/
def countCall (callee : Callee) : List (Callee × Routine) → List (Callee × Routine)
  | [] => []
  | (other, routine) :: rest =>
      if other = callee then (other, { routine with calls := routine.calls + 1 }) :: rest
      else (other, routine) :: countCall callee rest

/-- Call a routine that was resolved. -/
def invoke (host : Host) (callee : Callee) (routine : Routine) (args : List Int64) :
    Host × Int64 :=
  (⟨countCall callee host.routines, (callee, args) :: host.calls⟩,
    routine.answer routine.calls args)

/-- The names of the routines that are called by name, in order. -/
def symbols (host : Host) : List String :=
  (Table.ofList ((host.routines.filterMap (·.1.symbol?)).map (·, ()))).names

/-- The code addresses of the routines that are called by address, in order. -/
def addresses (host : Host) : List Nat :=
  (host.routines.filterMap fun entry =>
    match entry.1 with
    | .symbol _ => none
    | .address code => some code.toNat).mergeSort (· ≤ ·)

/-- A summary of the routines. -/
def summary (host : Host) : String :=
  "ExternTable \x7b symbols: [" ++ Text.separated (host.symbols.map Text.quoted) ++
    "], addresses: [" ++ Text.separated (host.addresses.map toString) ++ "] \x7d"

end Host

end FlowProfile
