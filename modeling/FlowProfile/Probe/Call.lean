/-
Call probes

At the very start of a function one is added to its counter of calls. With a reporter the
counter's value from before, plus one, is compared with the threshold, and the entry
block is split so that the reporter's routine is called exactly where they are equal.
-/

import FlowProfile.Compile.Outcome
import FlowProfile.Probe.Allocation
import FlowProfile.Probe.Reporter

namespace FlowProfile.Probe

/-- The addition to the counter of calls, which keeps the value from before. -/
def countCall (counter : Counter) (previous : ValueId) : Instr :=
  .count (some previous) counter one .monotonic

/-- Put the call probe into a function without a reporter. -/
def plainCalls (store : Store) (f : Func) : Step :=
  let (previous, f') := f.freshValue
  { func := f'.insertInstrs Func.entry 0 [countCall (store.counter f.name .calls) previous]
    events := [.callsInstalled f.name]
    preserved := .graphOnly }

/-- The code that decides whether this call is the one to report. -/
def prologue (counter : Counter) (threshold : Int64) (previous current hit : ValueId) :
    List Instr :=
  [countCall counter previous,
    .binop current .add (.value previous) one,
    .binop hit .eq (.value current) (.const (.word threshold))]

/-- Put the call probe into a function with a reporter. -/
def reportedCalls (store : Store) (counters : Counters) (reporter : Reporter) (f : Func) :
    Step :=
  let counter := store.counter f.name .calls
  let (previous, f₁) := f.freshValue
  let (current, f₂) := f₁.freshValue
  let (hit, f₃) := f₂.freshValue
  let code := prologue counter reporter.threshold previous current hit
  let begun := f₃.insertInstrs Func.entry 0 code
  let (report, cut) := begun.splitBlock Func.entry code.length (.value hit)
    (some (reporter.weights (counters.read counter)))
  let callback : Instr :=
    .call none (.address reporter.callback) (reporter.args.map .const)
  { func := cut.modifyBlock report fun block => { block with instrs := block.instrs ++ [callback] }
    events := [.reporterInstalled f.name reporter.threshold reporter.callback]
    preserved := .nothing }

/-- Put the call probe into a function. -/
def calls (store : Store) (counters : Counters) (reporter : Option Reporter) (f : Func) :
    Step :=
  match reporter with
  | some reporter => reportedCalls store counters reporter f
  | none => plainCalls store f

end FlowProfile.Probe
