/-
The command line

The program itself is a function; here it gets its arguments, the environment, a seed for
its inputs and the outcome of opening its file, and what it leaves behind is written. The
runs of the workload take place one after another, so that there is room for any number of
threads.
-/

import FlowProfile.CommandLine.Program

namespace FlowProfile.Program

/-- The variables that the program looks at, as far as they are set. -/
def readVariables : IO (List (String × String)) := do
  let names := [Settings.allocationsVariable, Settings.branchesVariable, Settings.callsVariable,
    Settings.dumpPathVariable]
  names.filterMapM fun name => do
    return (← IO.getEnv name).map fun value => (name, value)

/-- Why a file cannot be written, on one line. -/
def reasonOf : IO.Error → String
  | .noFileOrDirectory .. => FileFault.notFound.text
  | .permissionDenied .. => FileFault.permissionDenied.text
  | .inappropriateType _ code details | .resourceExhausted _ code details
  | .invalidArgument _ code details | .noSuchThing _ code details =>
      details ++ " (os error " ++ toString code ++ ")"
  | error => toString error

/-- The places at which the program finds its own output. -/
def ownOutput : FileSystem where
  nodes :=
    [(["dev"], .directory), (["dev", "stdout"], .entry .output),
      (["dev", "fd"], .link ["proc", "self", "fd"]), (["proc"], .directory),
      (["proc", "self"], .directory), (["proc", "self", "fd"], .directory),
      (["proc", "self", "fd", "1"], .entry .output)]
  working := ["home"]

/-- Write a text to an open file, and tell what came of that. -/
def fill (handle : IO.FS.Handle) (text : String) : IO Opening := do
  try
    handle.putStr text
    handle.flush
    return .file
  catch error => return .full (reasonOf error)

/-- Write the file that the program leaves behind, and tell what came of that. Where the
program's own output goes is not opened a second time. -/
def writeFile (path text : String) : IO Opening := do
  if ownOutput.opening path = .output then return .output
  else
    try fill (← IO.FS.Handle.mk path .write) text
    catch error => return .refused (reasonOf error)

end FlowProfile.Program

open FlowProfile

/-- Run the program, and again if its file cannot be written as wanted. -/
def main (arguments : List String) : IO UInt32 := do
  let environment ← Program.readVariables
  let seed := (← IO.monoNanosNow).toUInt64
  let input : Nat → List Int64 → Int64 := fun call _ => Workload.scrambled seed call
  let around (opening : Opening) : Program.Surroundings :=
    ⟨environment, input, fun _ => opening, fun _ => true⟩
  let wanted := Program.run arguments (around .file)
  let left ← match wanted.file with
    | none => pure wanted
    | some (path, text) => do
        let opening ← Program.writeFile path text
        pure (Program.run arguments (around opening))
  IO.print left.output
  if let some report := left.report then IO.eprintln report
  return left.code.toUInt32
