/-
The sample workload

A counted loop that requests memory and branches on an input in each trip. Its argument
is the number of trips. It adds three to its result for every odd input. A builder makes it
step by step, as a front end would.
-/

import FlowProfile.Func.Builder
import FlowProfile.Probe.Reporter
import FlowProfile.Profile.Flags
import FlowProfile.Run.Host

namespace FlowProfile.Workload

/-- The name of the workload. -/
def name : String := "workload"

/-- The code address of the workload's reporter routine. -/
def reporterAddress : UInt64 := 1

/-- The reporter for a threshold: it is passed the threshold itself. -/
def reporter (threshold : Int64) : Reporter :=
  ⟨threshold, reporterAddress, [.word threshold]⟩

/-- A literal operand. -/
def literal (value : Int64) : Operand :=
  .const (.word value)

/-- The steps that note the flags and the reporter, as far as they are given, and what the
workload is. -/
def annotations (flags : Option Flags) (threshold : Option Int64) : List Builder.Op :=
  (flags.map fun flags => .annotate flagsKey flags.toNote).toList ++
    (threshold.map fun threshold => .annotate reporterKey (reporter threshold).toNote).toList ++
    [.annotate "workload.kind" (.str "sample")]

/-- The steps that make the code. Value 0 is the number of trips, values 1 and 2 are the trip
and the result so far, and value 3 is the result at the end of a trip; the values from 4 on are
those of the instructions. -/
def layout : List Builder.Op :=
  [.param, .block "header", .blockParam 1, .blockParam 1, .block "body", .block "odd",
    .block "even", .block "latch", .blockParam 5, .block "exit",
    .terminate (.jump ⟨1, [literal 0, literal 0]⟩),
    .switchTo 1, .binop .slt (.value 1) (.value 0),
    .terminate (.branch (.value 4) ⟨2, []⟩ ⟨6, []⟩ none),
    .switchTo 2, .call "jit.gc_alloc_obj" [literal 0, literal 48, literal 0],
    .call "input" [.value 1], .binop .and (.value 6) (literal 1),
    .binop .ne (.value 7) (literal 0),
    .terminate (.branch (.value 8) ⟨3, []⟩ ⟨4, []⟩ none),
    .switchTo 3, .binop .add (.value 2) (literal 3), .terminate (.jump ⟨5, [.value 9]⟩),
    .switchTo 4, .terminate (.jump ⟨5, [.value 2]⟩),
    .switchTo 5, .binop .add (.value 1) (literal 1),
    .terminate (.jump ⟨1, [.value 10, .value 3]⟩),
    .switchTo 6, .terminate (.ret (some (.value 2)))]

/-- The workload with the given flags and reporter, as the builder makes it. -/
def build (flags : Option Flags) (threshold : Option Int64) : Except Error Func :=
  ((Builder.start name).applyAll (annotations flags threshold ++ layout)).2.bind Builder.build

/-- The routines that the workload and its lowered forms call. Only the inputs vary. -/
def host (input : Nat → List Int64 → Int64) : Host :=
  .ofRoutines
    [(.symbol "input", .ofAnswer input),
      (.symbol "jit.gc_alloc_obj", .always 0),
      (.symbol "jit.gc_pool_alloc", .always 0),
      (.symbol "jit.gc_big_alloc", .always 0),
      (.address reporterAddress, .always 0)]

/-- Inputs of 32 bits without an apparent order: the state of a mixer that is advanced by a
fixed odd step for every call. -/
def scrambled (seed : UInt64) (call : Nat) : Int64 :=
  let z := seed + (call.toUInt64 + 1) * 0x9E3779B97F4A7C15
  let z := (z ^^^ (z >>> 30)) * 0xBF58476D1CE4E5B9
  let z := (z ^^^ (z >>> 27)) * 0x94D049BB133111EB
  ((z ^^^ (z >>> 31)) &&& 0xFFFFFFFF).toInt64

end FlowProfile.Workload
