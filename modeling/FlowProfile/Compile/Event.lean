/-
Events

What a compilation reports on its way, with the level of importance, the message and the
named details of each event.
-/

import FlowProfile.Flow.Loops
import FlowProfile.Compile.Preserved

namespace FlowProfile

/-- How important an event is. -/
inductive Level
  | trace
  | debug
  | warn
  deriving DecidableEq, Repr

/-- The name of a level. -/
def Level.text : Level → String
  | trace => "TRACE"
  | debug => "DEBUG"
  | warn => "WARN"

/-- An event. Every event belongs to one function. -/
inductive Event
  | profileCreated (function : String) (shape : Shape)
  | branchSite (function : String) (block : BlockId)
  | branchesInstalled (function : String) (sites : Nat)
  | allocationSite (function : String) (block : BlockId) (stage : Stage)
  | allocationsInstalled (function : String) (stage : Stage) (sites : Nat)
  | feedbackMissing (function : String)
  | feedbackApplied (function : String) (entryCount : UInt64) (weighted : Nat)
  | requestsLowered (function : String) (lowered : Nat)
  | profileMissing (function : String)
  | callsInstalled (function : String)
  | reporterInstalled (function : String) (threshold : Int64) (callback : UInt64)
  | compiled (function optimizer : String) (preserved : Preserved)
  deriving DecidableEq

namespace Event

/-- The importance of an event. -/
def level : Event → Level
  | branchSite .. | allocationSite .. => .trace
  | feedbackMissing _ => .warn
  | profileCreated .. | branchesInstalled .. | allocationsInstalled .. | feedbackApplied ..
  | requestsLowered .. | profileMissing _ | callsInstalled _ | reporterInstalled ..
  | compiled .. => .debug

/-- The message of an event. -/
def message : Event → String
  | profileCreated .. => "created function profile"
  | branchSite .. => "branch site"
  | branchesInstalled .. => "branch counters installed"
  | allocationSite .. => "allocation site"
  | allocationsInstalled _ stage _ => stage.text ++ " allocation counters"
  | feedbackMissing _ => "PGO requested but no branch profile exists"
  | feedbackApplied .. => "applied profile feedback"
  | requestsLowered .. => "lowered allocation requests"
  | profileMissing _ => "no profile; skipping post-optimization counters"
  | callsInstalled _ => "call counter installed"
  | reporterInstalled .. => "call counter installed with reporter"
  | compiled .. => "compiled"

/-- The details of an event, each with its name. -/
def details : Event → List (String × String)
  | profileCreated function shape =>
      [("function", function), ("blocks", toString shape.blocks.toNat),
        ("insts", toString shape.instrs.toNat), ("loops", toString shape.loops.toNat)]
  | branchSite function block => [("function", function), ("block", toString block)]
  | branchesInstalled function sites => [("function", function), ("sites", toString sites)]
  | allocationSite function block stage =>
      [("function", function), ("block", toString block), ("stage", stage.text)]
  | allocationsInstalled function _ sites =>
      [("function", function), ("sites", toString sites)]
  | feedbackMissing function | profileMissing function | callsInstalled function =>
      [("function", function)]
  | feedbackApplied function entryCount weighted =>
      [("function", function), ("entry_count", toString entryCount.toNat),
        ("weighted", toString weighted)]
  | requestsLowered function lowered =>
      [("function", function), ("lowered", toString lowered)]
  | reporterInstalled function threshold callback =>
      [("function", function), ("threshold", toString threshold.toInt),
        ("callback", toString callback.toNat)]
  | compiled function optimizer preserved =>
      [("function", function), ("optimizer", optimizer),
        ("preserves_all", toString preserved.preservesAll),
        ("preserves_cfg", toString preserved.preservesGraph)]

end Event

end FlowProfile
