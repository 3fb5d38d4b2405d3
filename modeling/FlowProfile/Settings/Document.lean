/-
Settings from a document

A settings document is a record in JSON. What it does not mention keeps its standard
value, inside the record of allocation symbols as well. A document that is well formed
still has to pass the validation of settings. Written out, settings mention everything.
-/

import FlowProfile.Json.Record
import FlowProfile.Settings.Basic

namespace FlowProfile

/-- The fields of a record of allocation symbols. -/
def AllocSymbols.fieldNames : List String :=
  ["preopt_symbol", "postopt_fragments", "size_arg"]

/-- The record of allocation symbols. -/
def AllocSymbols.toJson (symbols : AllocSymbols) : Json :=
  .obj [(some "preopt_symbol", .str (some symbols.request)),
    (some "postopt_fragments", .arr (symbols.fragments.map fun fragment => .str (some fragment))),
    (some "size_arg", .nat symbols.sizeArg)]

/-- Allocation symbols from their record. -/
def AllocSymbols.ofJson? (json : Json) : Option AllocSymbols := do
  match ← json.record fieldNames false with
  | [request, fragments, sizeArg] => do
      let request ← Json.optional standard.request Json.asText? request
      let fragments ← Json.optional standard.fragments (Json.asList? Json.asText?) fragments
      let sizeArg ← Json.optional standard.sizeArg (Json.asWord? · |>.map UInt64.toNat) sizeArg
      return ⟨request, fragments, sizeArg⟩
  | _ => none

namespace Settings

/-- The fields of a settings document. -/
def fieldNames : List String :=
  ["force_profile_allocations", "force_profile_calls", "force_profile_branches", "alloc",
    "dump_path"]

/-- The record of settings. -/
def toJson (settings : Settings) : Json :=
  .obj [(some "force_profile_allocations", .bool settings.forceAllocations),
    (some "force_profile_calls", .bool settings.forceCalls),
    (some "force_profile_branches", .bool settings.forceBranches),
    (some "alloc", settings.alloc.toJson),
    (some "dump_path", settings.dumpPath.elim .null fun path => .str (some path))]

/-- Settings from their record. -/
def ofJson? (json : Json) : Option Settings := do
  match ← json.record fieldNames false with
  | [allocations, calls, branches, alloc, dumpPath] => do
      let allocations ← Json.optional false Json.asBool? allocations
      let calls ← Json.optional false Json.asBool? calls
      let branches ← Json.optional false Json.asBool? branches
      let alloc ← Json.optional .standard AllocSymbols.ofJson? alloc
      let dumpPath ← Json.optional none (Json.asNullable? Json.asText?) dumpPath
      return ⟨allocations, calls, branches, alloc, dumpPath⟩
  | _ => none

/-- The settings that a document describes, if they are valid. -/
def ofDocument (text : String) : Except Error Settings :=
  match (Json.ofText? text).bind ofJson? with
  | none => .error .document
  | some settings => settings.validate.map fun _ => settings

end Settings

end FlowProfile
