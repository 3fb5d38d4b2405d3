/-
The pass after the optimizer

It puts in the call probe, with the reporter if the function asks for one, and the
allocation probes of its stage. It concerns only functions that have a profile already,
and never changes the store.
-/

import FlowProfile.Probe.Call

namespace FlowProfile.Probe.After

/-- The name of the pass. -/
def name : String := "jit-postopt-profiler"

/-- The reporter a function asks for. It is read only when calls are counted. -/
def reporterOf (flags : Flags) (f : Func) : Except Error (Option Reporter) :=
  match flags.calls, f.note? reporterKey with
  | true, some note => (Reporter.ofNote f.name note).map some
  | true, none | false, _ => .ok none

/-- Refuse what the pass could not do, and read what it needs. -/
def check (settings : Settings) (flags : Flags) (f : Func) : Except Error (Option Reporter) := do
  if flags.allocations then settings.alloc.checkCalls .after f
  let reporter ← reporterOf flags f
  if flags.calls && f.blocks.isEmpty then throw .outOfBounds
  return reporter

/-- What becomes of a function that was checked. -/
def change (settings : Settings) (flags : Flags) (counters : Counters) (store : Store)
    (reporter : Option Reporter) (f : Func) : Step :=
  ((Step.skip f).andThen flags.calls (calls store counters reporter)).andThen flags.allocations
    (allocations settings.alloc .after store)

/-- Change a function part by part. The allocation probes look for themselves whether they
have what they need, when the call probe is in already. -/
def perform (settings : Settings) (flags : Flags) (counters : Counters) (store : Store)
    (reporter : Option Reporter) (f : Func) : Outcome :=
  ((Outcome.unchanged f []).andThen flags.calls fun f =>
    .ofStep (calls store counters reporter f)).andThen flags.allocations
      (tryAllocations settings.alloc .after store)

/-- Run the pass. -/
def run (settings : Settings) (counters : Counters) (store : Store) (f : Func) : Outcome :=
  match settings.flagsOf f with
  | .error error => .refused f [] error
  | .ok flags =>
      if flags.calls || flags.allocations then
        match store.profile? f.name with
        | none => .unchanged f [.profileMissing f.name]
        | some _ =>
            match check settings flags f with
            | .error error => .refused f [] error
            | .ok reporter => perform settings flags counters store reporter f
      else .unchanged f []

end FlowProfile.Probe.After
