/-
What a transformation did

A step always succeeds: it hands on a function, what it reported, and what it left alone.
An outcome may be a refusal as well; it still tells which function was left behind and
what had been reported until then.
-/

import FlowProfile.Compile.Event
import FlowProfile.Error

namespace FlowProfile

/-- A change of a function that cannot fail. -/
structure Step where
  func : Func
  events : List Event
  preserved : Preserved

namespace Step

/-- No change. -/
def skip (f : Func) : Step :=
  ⟨f, [], .all⟩

/-- Change a function further if a condition holds. -/
def andThen (step : Step) (condition : Bool) (change : Func → Step) : Step :=
  if condition then
    let next := change step.func
    ⟨next.func, step.events ++ next.events, step.preserved.inter next.preserved⟩
  else step

end Step

/-- The end of a transformation. -/
structure Outcome where
  func : Func
  events : List Event
  result : Except Error Preserved

namespace Outcome

/-- Accept a function as it is. -/
def unchanged (f : Func) (events : List Event) : Outcome :=
  ⟨f, events, .ok .all⟩

/-- Refuse a function and leave it as it is. -/
def refused (f : Func) (events : List Event) (error : Error) : Outcome :=
  ⟨f, events, .error error⟩

/-- Accept what a step made of a function. -/
def ofStep (step : Step) : Outcome :=
  ⟨step.func, step.events, .ok step.preserved⟩

/-- Change an accepted function further if a condition holds. Where that is refused the
function stays as the changes until then have left it. -/
def andThen (outcome : Outcome) (condition : Bool) (change : Func → Outcome) : Outcome :=
  match condition, outcome.result with
  | true, .ok preserved =>
      let next := change outcome.func
      ⟨next.func, outcome.events ++ next.events, next.result.map preserved.inter⟩
  | true, .error _ | false, _ => outcome

end Outcome

end FlowProfile
