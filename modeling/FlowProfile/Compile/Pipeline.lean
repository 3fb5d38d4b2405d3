/-
The pipeline

A function is compiled by the pass before the optimizer, the optimizer, and the pass after
it, and is verified in the end. The first refusal ends the compilation; the function
stays as the stages before have left it, and so does the store.
-/

import FlowProfile.Compile.Optimizer
import FlowProfile.Func.WellFormed
import FlowProfile.Probe.After
import FlowProfile.Probe.Before

namespace FlowProfile

/-- What each stage of a compilation left alone. -/
structure CompileReport where
  before : Preserved
  optimizer : Preserved
  after : Preserved
  deriving DecidableEq

/-- What survived the whole compilation. -/
def CompileReport.overall (report : CompileReport) : Preserved :=
  (report.before.inter report.optimizer).inter report.after

/-- How functions are compiled. -/
structure Pipeline where
  settings : Settings
  optimizer : Optimizer

/-- The end of a compilation. -/
structure Compilation where
  func : Func
  events : List Event
  result : Except Error CompileReport

namespace Pipeline

/-- The pass before the optimizer. Without a store it does nothing. -/
def before (pipeline : Pipeline) (counters : Counters) (store : Option Store) (f : Func) :
    Option Store × Outcome :=
  match store with
  | some store =>
      let (store, outcome) := Probe.Before.run pipeline.settings counters store f
      (some store, outcome)
  | none => (none, .unchanged f [])

/-- The pass after the optimizer. Without a store it does nothing. -/
def after (pipeline : Pipeline) (counters : Counters) (store : Option Store) (f : Func) :
    Outcome :=
  match store with
  | some store => Probe.After.run pipeline.settings counters store f
  | none => .unchanged f []

/-- The last stage: verify the function and report what each stage left alone. -/
def finish (pipeline : Pipeline) (f : Func) (events : List Event) (report : CompileReport) :
    Compilation :=
  match f.verify with
  | .error error => ⟨f, events, .error error⟩
  | .ok () =>
      ⟨f, events ++ [.compiled f.name pipeline.optimizer.name report.overall], .ok report⟩

/-- The stages of a compilation that follow the first one. The first refusal is the last. -/
def goOn (pipeline : Pipeline) (first : Outcome) (after : Func → Outcome) : Compilation :=
  match first.result with
  | .error error => ⟨first.func, first.events, .error error⟩
  | .ok before =>
      let second := pipeline.optimizer.run first.func
      match second.result with
      | .error error => ⟨second.func, first.events ++ second.events, .error error⟩
      | .ok optimizer =>
          let third := after second.func
          let events := first.events ++ second.events ++ third.events
          match third.result with
          | .error error => ⟨third.func, events, .error error⟩
          | .ok after => pipeline.finish third.func events ⟨before, optimizer, after⟩

/-- Compile a function against the counters as they are now. -/
def compile (pipeline : Pipeline) (counters : Counters) (store : Option Store) (f : Func) :
    Option Store × Compilation :=
  let (store, first) := pipeline.before counters store f
  (store, pipeline.goOn first (pipeline.after counters store))

end Pipeline

end FlowProfile
