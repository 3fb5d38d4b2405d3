/-
# What the sample workload is

The builder is used as it should be: whatever flags and reporter are asked for, no step fails
or is a misuse, every block is terminated, and what was made is accepted.  It is written out
here as a value, so that runs of it can be followed.
-/

import FlowProfile.CommandLine.Workload
import FlowProfile.Proofs.Func.Verified

namespace FlowProfile

namespace Workload

/-- The notes of the workload: its flags and its reporter, as far as they are given,
and what it is. -/
def notes (flags : Option Flags) (threshold : Option Int64) : Table Note :=
  .ofList ((flags.map fun flags => (flagsKey, flags.toNote)).toList ++
    (threshold.map fun threshold => (reporterKey, (reporter threshold).toNote)).toList ++
    [("workload.kind", .str "sample")])

/-- The blocks of the workload. Value 0 is the number of trips, values 1 and 2 are the trip
and the result so far, and value 3 is the result at the end of a trip. -/
def blocks : Array Block :=
  #[⟨some "entry", [], [], .jump ⟨1, [literal 0, literal 0]⟩⟩,
    ⟨some "header", [1, 2], [.binop 4 .slt (.value 1) (.value 0)],
      .branch (.value 4) ⟨2, []⟩ ⟨6, []⟩ none⟩,
    ⟨some "body", [],
      [.call (some 5) (.symbol "jit.gc_alloc_obj") [literal 0, literal 48, literal 0],
        .call (some 6) (.symbol "input") [.value 1],
        .binop 7 .and (.value 6) (literal 1),
        .binop 8 .ne (.value 7) (literal 0)],
      .branch (.value 8) ⟨3, []⟩ ⟨4, []⟩ none⟩,
    ⟨some "odd", [], [.binop 9 .add (.value 2) (literal 3)], .jump ⟨5, [.value 9]⟩⟩,
    ⟨some "even", [], [], .jump ⟨5, [.value 2]⟩⟩,
    ⟨some "latch", [3], [.binop 10 .add (.value 1) (literal 1)],
      .jump ⟨1, [.value 10, .value 3]⟩⟩,
    ⟨some "exit", [], [], .ret (some (.value 2))⟩]

/-- The workload with the given notes. -/
def func (flags : Option Flags) (threshold : Option Int64) : Func :=
  { name
    params := [0]
    blocks
    notes := notes flags threshold
    entryCount := none
    nextValue := 11 }

variable {flags : Option Flags} {threshold : Option Int64}

theorem wellFormed_func : (func flags threshold).WellFormed :=
  Func.verify_eq_ok_iff.mp rfl

end Workload

end FlowProfile
