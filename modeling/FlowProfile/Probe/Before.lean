/-
The pass before the optimizer

It creates the profile of the function, puts in branch probes and the allocation probes
of its stage, and feeds counts back. Whatever can be refused is looked at before the
function or the slots change, and once more by the parts that rely on it.
-/

import FlowProfile.Probe.Branch
import FlowProfile.Probe.Feedback

namespace FlowProfile.Probe.Before

/-- The name of the pass. -/
def name : String := "jit-preopt-profiler"

/-- Refuse what the pass could not do. -/
def check (settings : Settings) (flags : Flags) (profile : Profile) (f : Func) :
    Except Error Unit := do
  if flags.allocations then settings.alloc.checkCalls .before f
  if flags.branches || flags.feedback then profile.checkSlots f

/-- What becomes of a function, and of its profile, that were checked. -/
def change (settings : Settings) (flags : Flags) (counters : Counters) (store : Store)
    (profile : Profile) (f : Func) : Store × Step :=
  let slots := if flags.branches then branchSlots profile.slots f else profile.slots
  let step := (((Step.skip f).andThen flags.branches (branches store)).andThen flags.allocations
    (allocations settings.alloc .before store)).andThen flags.feedback
    (Feedback.apply counters store slots)
  (store.put f.name { profile with slots }, step)

/-- Change a function part by part. Each part looks for itself whether it has what it needs;
one that refuses leaves behind what the parts before it have done. -/
def perform (settings : Settings) (flags : Flags) (counters : Counters) (store : Store)
    (profile : Profile) (f : Func) : Store × Outcome :=
  let (slots, branched) :=
    if flags.branches then tryBranches store profile.slots f
    else (profile.slots, .unchanged f [])
  let outcome := (branched.andThen flags.allocations
    (tryAllocations settings.alloc .before store)).andThen flags.feedback
      (Feedback.tryApply counters store slots)
  (store.put f.name { profile with slots }, outcome)

/-- Whether the flags ask for more than the creation of a profile. -/
def concerns (flags : Flags) : Bool :=
  flags.branches || flags.allocations || flags.feedback

/-- Run the pass on a function for which a profile is there. -/
def withProfile (settings : Settings) (flags : Flags) (counters : Counters) (store : Store)
    (profile : Profile) (events : List Event) (f : Func) : Store × Outcome :=
  if concerns flags then
    match check settings flags profile f with
    | .error error => (store, .refused f events error)
    | .ok () =>
        let (store, outcome) := perform settings flags counters store profile f
        (store, { outcome with events := events ++ outcome.events })
  else (store, .unchanged f events)

/-- Run the pass. -/
def run (settings : Settings) (counters : Counters) (store : Store) (f : Func) :
    Store × Outcome :=
  match settings.flagsOf f with
  | .error error => (store, .refused f [] error)
  | .ok flags =>
      if flags.isEmpty then (store, .unchanged f [])
      else
        match store.obtain f.name f.shape with
        | .error error => (store, .refused f [] error)
        | .ok (store, profile, created) =>
            let events := if created then [.profileCreated f.name profile.shape] else []
            withProfile settings flags counters store profile events f

end FlowProfile.Probe.Before
