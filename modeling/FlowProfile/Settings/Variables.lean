/-
Settings from environment variables

Each switch is a variable of its own, and so is the path of the report. Variables are
looked at in order: a later value of a switch replaces an earlier one, an empty path is
no path, and the first value that is no truth value ends the reading.
-/

import FlowProfile.Settings.Basic
import FlowProfile.Text.Blank

namespace FlowProfile.Settings

/-- The variable that forces allocation counters. -/
def allocationsVariable : String := "JITPROF_FORCE_PROFILE_ALLOCATIONS"

/-- The variable that forces call counters. -/
def callsVariable : String := "JITPROF_FORCE_PROFILE_CALLS"

/-- The variable that forces branch counters. -/
def branchesVariable : String := "JITPROF_FORCE_PROFILE_BRANCHES"

/-- The variable that names the file of the report. -/
def dumpPathVariable : String := "JITPROF_DUMP_PATH"

/-- The words that switch something on. -/
def onWords : List String := ["1", "true", "yes", "on"]

/-- The words that switch something off. -/
def offWords : List String := ["", "0", "false", "no", "off"]

/-- A value without blanks around it and without capitals. -/
def normalized (value : String) : String :=
  String.ofList (Text.lowered (Text.trimmed value.toList))

/-- Read the value of a switch. -/
def readSwitch (name value : String) : Except Error Bool :=
  if onWords.contains (normalized value) then .ok true
  else if offWords.contains (normalized value) then .ok false
  else .error (.settings (.notBoolean name (normalized value)))

/-- Take one variable into account. -/
def readVariable (settings : Settings) (name value : String) : Except Error Settings :=
  if name = allocationsVariable then
    (readSwitch name value).map fun on => { settings with forceAllocations := on }
  else if name = callsVariable then
    (readSwitch name value).map fun on => { settings with forceCalls := on }
  else if name = branchesVariable then
    (readSwitch name value).map fun on => { settings with forceBranches := on }
  else if name = dumpPathVariable ∧ value ≠ "" then
    .ok { settings with dumpPath := some value }
  else .ok settings

/-- The settings after a list of variables. -/
def ofVariables (environment : List (String × String)) : Except Error Settings :=
  environment.foldlM (fun settings entry => settings.readVariable entry.1 entry.2) standard

end FlowProfile.Settings
