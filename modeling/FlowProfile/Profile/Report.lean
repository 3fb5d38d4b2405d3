/-
The report

A report has one row for each profile of a store, in the order of the function names. A
row is a record in JSON. Calls and loops are left out when they are zero, allocations
when neither stage counted one, and branches when no slot is populated; reading a row
gives left-out fields these values back.
-/

import FlowProfile.Json.Record
import FlowProfile.Profile.Store

namespace FlowProfile

/-- The volume of allocation at one stage. -/
structure AllocVolume where
  size : UInt64
  count : UInt64
  deriving DecidableEq

/-- The counts of the branch in one slot. -/
structure BranchCount where
  slot : UInt64
  taken : UInt64
  total : UInt64
  deriving DecidableEq

/-- The row of one profile. Allocations are given before and after lowering. -/
structure ReportRow where
  name : String
  calls : UInt64
  allocs : Option (AllocVolume × AllocVolume)
  branches : List BranchCount
  loops : UInt64
  blocks : UInt64
  instrs : UInt64
  deriving DecidableEq

namespace AllocVolume

/-- The fields of the record of a volume. -/
def fieldNames : List String := ["Size", "Count"]

/-- The record of a volume. -/
def toJson (volume : AllocVolume) : Json :=
  .obj [(some "Size", .nat volume.size.toNat), (some "Count", .nat volume.count.toNat)]

/-- A volume from its record. -/
def ofJson? (json : Json) : Option AllocVolume := do
  match ← json.record fieldNames true with
  | [size, count] =>
      return ⟨← Json.required Json.asWord? size, ← Json.required Json.asWord? count⟩
  | _ => none

end AllocVolume

namespace BranchCount

/-- The fields of the record of a branch. -/
def fieldNames : List String := ["Idx", "Taken", "Total"]

/-- The record of a branch. -/
def toJson (branch : BranchCount) : Json :=
  .obj [(some "Idx", .nat branch.slot.toNat), (some "Taken", .nat branch.taken.toNat),
    (some "Total", .nat branch.total.toNat)]

/-- The counts of a branch from their record. -/
def ofJson? (json : Json) : Option BranchCount := do
  match ← json.record fieldNames true with
  | [slot, taken, total] =>
      return ⟨← Json.required Json.asWord? slot, ← Json.required Json.asWord? taken,
        ← Json.required Json.asWord? total⟩
  | _ => none

end BranchCount

/-- The volumes of both stages from an array of two. -/
def AllocVolume.pairOfJson? : Json → Option (AllocVolume × AllocVolume)
  | .arr [first, second] => do return (← ofJson? first, ← ofJson? second)
  | _ => none

namespace ReportRow

/-- The row of a profile, with the values its counters have now. -/
def capture (store : Store) (counters : Counters) (function : String) (profile : Profile) :
    ReportRow :=
  let read (measure : Measure) : UInt64 := counters.read (store.counter function measure)
  let volume (stage : Stage) : AllocVolume := ⟨read (.size stage), read (.count stage)⟩
  let counted := read (.count .before) ≠ 0 ∨ read (.count .after) ≠ 0
  { name := function
    calls := read .calls
    allocs := if counted then some (volume .before, volume .after) else none
    branches := profile.slots.populatedIndices.map fun slot =>
      ⟨slot.toUInt64, read (.taken slot), read (.total slot)⟩
    loops := profile.shape.loops
    blocks := profile.shape.blocks
    instrs := profile.shape.instrs }

/-- Whether the function was observed to do anything. -/
def hasCounts (row : ReportRow) : Bool :=
  row.calls != 0 || row.allocs.isSome || row.branches.any fun branch => branch.total != 0

/-- The fields of the record of a row. -/
def fieldNames : List String :=
  ["Name", "Calls", "Allocs", "Branches", "Loops", "BBs", "Insts"]

/-- A number that is left out when it is zero. -/
def countField (name : String) (count : UInt64) : List (Option String × Json) :=
  if count = 0 then [] else [(some name, .nat count.toNat)]

/-- The record of a row. -/
def toJson (row : ReportRow) : Json :=
  .obj ([(some "Name", .str (some row.name))] ++
    countField "Calls" row.calls ++
    (match row.allocs with
      | some (before, after) => [(some "Allocs", .arr [before.toJson, after.toJson])]
      | none => []) ++
    (match row.branches with
      | [] => []
      | branches => [(some "Branches", .arr (branches.map BranchCount.toJson))]) ++
    countField "Loops" row.loops ++
    [(some "BBs", .nat row.blocks.toNat), (some "Insts", .nat row.instrs.toNat)])

/-- A row from its record. -/
def ofJson? (json : Json) : Option ReportRow := do
  match ← json.record fieldNames true with
  | [name, calls, allocs, branches, loops, blocks, instrs] => do
      let name ← Json.required Json.asText? name
      let calls ← Json.optional 0 Json.asWord? calls
      let allocs ← Json.optional none (Json.asNullable? AllocVolume.pairOfJson?) allocs
      let branches ← Json.optional [] (Json.asList? BranchCount.ofJson?) branches
      let loops ← Json.optional 0 Json.asWord? loops
      let blocks ← Json.required Json.asWord? blocks
      let instrs ← Json.required Json.asWord? instrs
      return ⟨name, calls, allocs, branches, loops, blocks, instrs⟩
  | _ => none

end ReportRow

/-- A report: the rows in order. -/
abbrev Report := List ReportRow

namespace Report

/-- The text of a report, without a line end. -/
def text (report : Report) : String :=
  (Json.arr (report.map ReportRow.toJson)).text

/-- A report from its text. -/
def ofText (text : String) : Except Error Report :=
  match (Json.ofText? text).bind (Json.asList? ReportRow.ofJson?) with
  | some report => .ok report
  | none => .error .document

/-- The report of a store as it is now. -/
def ofStore (store : Store) (counters : Counters) : Report :=
  store.profiles.entries.map fun entry => .capture store counters entry.1 entry.2

/-- Only the rows of functions that were observed to do anything. -/
def active (report : Report) : Report :=
  report.filter ReportRow.hasCounts

/-- The report as it is handed out: its text on one line. -/
def dump (report : Report) : String :=
  report.text ++ "\n"

/-- Write a report to a sink, which may refuse to take more: its text, and a line end. -/
def writeTo {Sink : Type} (write : Sink → String → Except Error Sink) (sink : Sink)
    (report : Report) : Except Error Sink := do
  write (← write sink report.text) "\n"

/-- A sink in memory takes everything. -/
def append (written more : String) : Except Error String :=
  .ok (written ++ more)

/-- What stands in a file after a report was written to it. What the file held is lost when
it is opened, which may fail. -/
def dumpToFile (opened : Except Error Unit) (report : Report) : Except Error String := do
  opened
  report.writeTo append ""

end Report

end FlowProfile
