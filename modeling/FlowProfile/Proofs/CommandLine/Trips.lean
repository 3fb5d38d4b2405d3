/-
# Trips of the sample workload

A run of the workload is followed trip by trip and, within a trip, step by step.  A
`Stage` says where it stands, which inputs it has drawn, and how often it has done each
thing that can be counted.  What a step does to the score is what is added to the counters
ahead of it, whatever others have done to the world since the last one.

All that is asked of the host is that the routines are there and that inputs come from the
source that is given.
-/

import FlowProfile.Proofs.CommandLine.Workload
import FlowProfile.Proofs.Weave.Pacing
import FlowProfile.Proofs.Weave.Compiled
import FlowProfile.Proofs.Weave.Entering

namespace FlowProfile

/-! ## Single steps -/

namespace Machine

variable {g : Func} {values : Array (Option Int64)} {id : BlockId} {rest : List Instr}
  {world : World}

theorem step_binop {result : ValueId} {op : BinOp} {lhs rhs : Operand} {left right value : Int64}
    (readLeft : (⟨values, id, rest⟩ : Frame).read lhs = .ok left)
    (readRight : (⟨values, id, rest⟩ : Frame).read rhs = .ok right)
    (evaluates : op.eval? left right = some value) (inside : result < values.size) :
    step g ⟨values, id, .binop result op lhs rhs :: rest⟩ world =
      .running ⟨values.setIfInBounds result (some value), id, rest⟩ world := by
  apply step_of_execute
  simp only [execute, readLeft, readRight, evaluates]
  exact congrArg (·, world) (Frame.write_of_lt inside value)

theorem step_call {result : ValueId} {callee : Callee} {args : List Operand}
    {incoming : List Int64} {routine : Routine}
    (found : world.host.routine? callee = some routine)
    (read : (⟨values, id, rest⟩ : Frame).readAll args = .ok incoming)
    (inside : result < values.size) :
    step g ⟨values, id, .call (some result) callee args :: rest⟩ world =
      .running
        ⟨values.setIfInBounds result (some (routine.answer routine.calls incoming)), id, rest⟩
        ⟨world.counters, (world.host.invoke callee routine incoming).1⟩ := by
  obtain ⟨counters, host⟩ := world
  apply step_of_execute
  simp only at found
  simp only [execute, Host.resolve, found, read]
  rw [Frame.writeResult, Frame.write, if_pos inside]
  rfl

theorem step_jump {block : Block} (found : g.block? id = some block) {edge : Edge}
    (flow : block.terminator = .jump edge) {next : Frame}
    (followed : (⟨values, id, []⟩ : Frame).follow g edge = .ok next) :
    step g ⟨values, id, []⟩ world = .running next world := by
  rw [step_of_block found, flow, Frame.finishBlock, followed]
  rfl

theorem step_branch {block : Block} (found : g.block? id = some block) {condition : ValueId}
    {whenTrue whenFalse : Edge} {weights : Option Weights}
    (flow : block.terminator = .branch (.value condition) whenTrue whenFalse weights)
    {truth : Bool} (held : values.getD condition none = some (BinOp.ofTruth truth)) {next : Frame}
    (followed : (⟨values, id, []⟩ : Frame).follow g (if truth then whenTrue else whenFalse) =
      .ok next) :
    step g ⟨values, id, []⟩ world = .running next world := by
  have read : (⟨values, id, []⟩ : Frame).read (.value condition) = .ok (BinOp.ofTruth truth) := by
    rw [Frame.read_value, held]
  have chosen : (⟨values, id, []⟩ : Frame).chooses (.value condition) whenTrue whenFalse =
      .ok (if truth then whenTrue else whenFalse) := by
    rw [Frame.chooses, read]
    cases truth <;> rfl
  rw [step_of_block found, flow, Frame.finishBlock, chosen]
  simp only [followed, Except.map]

end Machine

namespace Workload

/-- The number of trips that a run makes: none if the argument is negative. -/
def trips (count : Int64) : Nat :=
  count.toInt.toNat

/-- Whether an input is odd. -/
def isOdd (input : Int64) : Bool :=
  decide (input &&& 1 ≠ 0)

/-- The inputs that a source has given in answer to calls, the latest first. -/
def drawn (source : Nat → List Int64 → Int64) : List Call → List Int64
  | [] => []
  | (callee, args) :: earlier =>
      if callee = .symbol "input" then
        source (drawn source earlier).length args :: drawn source earlier
      else drawn source earlier

/-! ## The host -/

/-- The host has the routines of the workload and its lowered forms, and inputs come from a
source that has given these so far. -/
structure Attends (source : Nat → List Int64 → Int64) (host : Host) (inputs : List Int64) :
    Prop where
  drawn_eq : drawn source host.calls = inputs
  input_eq : host.routine? (.symbol "input") = some ⟨source, inputs.length⟩
  pool : (host.routine? (.symbol "jit.gc_pool_alloc")).isSome = true
  reporter : (host.routine? (.address reporterAddress)).isSome = true

variable {source : Nat → List Int64 → Int64} {inputs : List Int64}

theorem attends_host (source : Nat → List Int64 → Int64) : Attends source (host source) [] where
  drawn_eq := rfl
  input_eq := rfl
  pool := rfl
  reporter := rfl

/-- A call of another routine draws no input. -/
theorem Attends.invoke {host : Host} (attends : Attends source host inputs) {callee : Callee}
    (other : callee ≠ .symbol "input") (routine : Routine) (args : List Int64) :
    Attends source (host.invoke callee routine args).1 inputs where
  drawn_eq := by
    show drawn source ((callee, args) :: host.calls) = inputs
    rw [drawn, if_neg other, attends.drawn_eq]
  input_eq := by rw [Host.routine?_invoke, if_neg (Ne.symm other), attends.input_eq]
  pool := by rw [Host.isSome_routine?_invoke, attends.pool]
  reporter := by rw [Host.isSome_routine?_invoke, attends.reporter]

/-- A call for an input draws the next one. -/
theorem Attends.draw {host : Host} (attends : Attends source host inputs) (args : List Int64) :
    Attends source (host.invoke (.symbol "input") ⟨source, inputs.length⟩ args).1
      (source inputs.length args :: inputs) where
  drawn_eq := by
    show drawn source ((.symbol "input", args) :: host.calls) = _
    rw [drawn, if_pos rfl, attends.drawn_eq]
  input_eq := by
    rw [Host.routine?_invoke, if_pos rfl, attends.input_eq]
    rfl
  pool := by rw [Host.isSome_routine?_invoke, attends.pool]
  reporter := by rw [Host.isSome_routine?_invoke, attends.reporter]

/-! ## Keeping score -/

/-- What is woven into the workload. -/
def weave (flags : Flags) : Weave :=
  ⟨"store", name, flags.branches, if flags.allocations then some .standard else none,
    some .standard⟩

/-- How often what can be counted was done: a run was begun, it was asked whether to make one
more trip, a trip was begun, memory was requested, an input was told to be odd or not, and it
was odd. -/
structure Score where
  called : Nat
  asked : Nat
  begun : Nat
  requested : Nat
  parted : Nat
  odd : Nat

namespace Score

/-- What the counters show of a score. -/
def amount (flags : Flags) (score : Score) : Measure → UInt64
  | .calls => if flags.calls then score.called.toUInt64 else 0
  | .size _ => if flags.allocations then (48 * score.requested).toUInt64 else 0
  | .count _ => if flags.allocations then score.requested.toUInt64 else 0
  | .total 1 => if flags.branches then score.asked.toUInt64 else 0
  | .taken 1 => if flags.branches then score.begun.toUInt64 else 0
  | .total 2 => if flags.branches then score.parted.toUInt64 else 0
  | .taken 2 => if flags.branches then score.odd.toUInt64 else 0
  | .total _ | .taken _ => 0

/-- The score of a run after as many trips as inputs were drawn. -/
def after (inputs : List Int64) : Score :=
  ⟨1, inputs.length, inputs.length, inputs.length, inputs.length, inputs.countP isOdd⟩

/-- It is asked whether to make one more trip. -/
def ask (score : Score) (more : Bool) : Score :=
  { score with asked := score.asked + 1, begun := score.begun + more.toNat }

/-- Memory is requested. -/
def request (score : Score) : Score :=
  { score with requested := score.requested + 1 }

/-- An input is told to be odd or not. -/
def part (score : Score) (odd : Bool) : Score :=
  { score with parted := score.parted + 1, odd := score.odd + odd.toNat }

/-- What a branch on a truth value adds to its counters, if branches are counted. -/
def branchLedger (flags : Flags) (id : BlockId) (truth : Bool) : Ledger :=
  if flags.branches then Weave.branchLedger id (BinOp.ofTruth truth) else []

/-- What a request adds to the counters of both stages, if allocations are counted. -/
def requestLedger (flags : Flags) : Ledger :=
  if flags.allocations then
    [(.size .before, 48), (.count .before, 1), (.size .after, 48), (.count .after, 1)]
  else []

theorem after_cons (input : Int64) (inputs : List Int64) :
    (((after inputs).ask true).request).part (isOdd input) = after (input :: inputs) := by
  rw [after, after, List.countP_cons]
  cases isOdd input <;> rfl

theorem toUInt64_add_toNat (number : Nat) (truth : Bool) :
    (number + truth.toNat).toUInt64 =
      number.toUInt64 + if BinOp.ofTruth truth ≠ 0 then 1 else 0 := by
  cases truth with
  | false => exact (UInt64.add_zero _).symm
  | true => exact UInt64.ofNat_add number 1

variable (flags : Flags) (score : Score) (measure : Measure)

theorem amount_ask (more : Bool) :
    (score.ask more).amount flags measure =
      score.amount flags measure + (branchLedger flags 1 more).total measure := by
  have one : (score.asked + 1).toUInt64 = score.asked.toUInt64 + 1 := UInt64.ofNat_add _ 1
  have begun := toUInt64_add_toNat score.begun more
  unfold branchLedger
  rcases measure with _ | _ | _ | (_ | _ | _ | _) | (_ | _ | _ | _) <;>
    cases on : flags.branches <;>
      simp [amount, ask, on, Weave.branchLedger, Ledger.total, one, begun]

theorem amount_part (odd : Bool) :
    (score.part odd).amount flags measure =
      score.amount flags measure + (branchLedger flags 2 odd).total measure := by
  have one : (score.parted + 1).toUInt64 = score.parted.toUInt64 + 1 := UInt64.ofNat_add _ 1
  have more := toUInt64_add_toNat score.odd odd
  unfold branchLedger
  rcases measure with _ | _ | _ | (_ | _ | _ | _) | (_ | _ | _ | _) <;>
    cases on : flags.branches <;>
      simp [amount, part, on, Weave.branchLedger, Ledger.total, one, more]

theorem amount_request :
    score.request.amount flags measure =
      score.amount flags measure + (requestLedger flags).total measure := by
  have one : (score.requested + 1).toUInt64 = score.requested.toUInt64 + 1 := UInt64.ofNat_add _ 1
  have size : (48 * (score.requested + 1)).toUInt64 = (48 * score.requested).toUInt64 + 48 :=
    UInt64.ofNat_add _ 48
  unfold requestLedger
  rcases measure with _ | (_ | _) | (_ | _) | (_ | _ | _ | _) | (_ | _ | _ | _) <;>
    cases on : flags.allocations <;> simp [amount, request, on, Ledger.total, one, size]

end Score

/-! ## The code -/

/-- Whether there is one more trip. -/
def compare : Instr :=
  .binop 4 .slt (.value 1) (.value 0)

/-- The request of a trip. -/
def request : Instr :=
  .call (some 5) (.symbol "jit.gc_alloc_obj") [literal 0, literal 48, literal 0]

/-- The call for the input of a trip. -/
def draw : Instr :=
  .call (some 6) (.symbol "input") [.value 1]

/-- The lowest bit of the input. -/
def mask : Instr :=
  .binop 7 .and (.value 6) (literal 1)

/-- Whether the input is odd. -/
def test : Instr :=
  .binop 8 .ne (.value 7) (literal 0)

/-- The result after an odd input. -/
def raise : Instr :=
  .binop 9 .add (.value 2) (literal 3)

/-- The number of the next trip. -/
def advance : Instr :=
  .binop 10 .add (.value 1) (literal 1)

section

variable {noted : Option Flags} {threshold : Option Int64}

theorem counters_func : (func noted threshold).counters = [] := rfl

theorem entry_func : (func noted threshold).block? Func.entry =
    some ⟨some "entry", [], [], .jump ⟨1, [literal 0, literal 0]⟩⟩ := rfl

variable (flags : Flags) (values : Array (Option Int64)) (id : BlockId)

theorem ledger_of_unnamed {instr : Instr} (unnamed : instr.calledSymbol? = none)
    (rest : List Instr) :
    (weave flags).ledger (func noted threshold) ⟨values, id, instr :: rest⟩ = [] := by
  have none (stage : Stage) (seen : Instr) (unnamed : seen.calledSymbol? = none) :
      (weave flags).talliesAt stage seen = [] := by
    apply ((weave flags).talliesAt_eq_or stage seen).resolve_right
    rintro ⟨symbols, -, -, recognized, -⟩
    rw [AllocSymbols.recognizesCall, unnamed] at recognized
    cases recognized
  have tallies : (weave flags).tallies instr = [] := by
    rw [Weave.tallies, none .before instr unnamed, (weave flags).lower_of_calledSymbol? unnamed,
      none .after instr unnamed]
    rfl
  rw [Weave.ledger]
  simp only [tallies, List.map_nil]

theorem ledger_draw (rest : List Instr) :
    (weave flags).ledger (func noted threshold) ⟨values, id, draw :: rest⟩ = [] := by
  have tallies : (weave flags).tallies draw = [] := by
    obtain ⟨allocations, branches, calls, feedback⟩ := flags
    cases allocations <;> rfl
  rw [Weave.ledger]
  simp only [tallies, List.map_nil]

theorem ledger_request (rest : List Instr) :
    (weave flags).ledger (func noted threshold) ⟨values, id, request :: rest⟩ =
      Score.requestLedger flags := by
  obtain ⟨allocations, branches, calls, feedback⟩ := flags
  cases allocations <;> rfl

theorem ledger_end {block : Block} (found : (func noted threshold).block? id = some block)
    (isStatic : block.terminator.runtimeCondition? = none) :
    (weave flags).ledger (func noted threshold) ⟨values, id, []⟩ = [] := by
  have condition : (⟨values, id, []⟩ : Frame).branchCondition? (func noted threshold) = none := by
    simp only [Frame.branchCondition?, List.isEmpty_nil, if_true, found, Option.bind_some, isStatic]
  simp only [Weave.ledger, condition]
  cases (weave flags).branches <;> rfl

theorem ledger_branch {block : Block} (found : (func noted threshold).block? id = some block)
    {condition : ValueId} (isRuntime : block.terminator.runtimeCondition? = some (.value condition))
    {truth : Bool} (held : values.getD condition none = some (BinOp.ofTruth truth)) :
    (weave flags).ledger (func noted threshold) ⟨values, id, []⟩ =
      Score.branchLedger flags id truth := by
  have decides : (⟨values, id, []⟩ : Frame).branchCondition? (func noted threshold) =
      some (.value condition) := by
    simp only [Frame.branchCondition?, List.isEmpty_nil, if_true, found, Option.bind_some,
      isRuntime]
  have read : (⟨values, id, []⟩ : Frame).read (.value condition) = .ok (BinOp.ofTruth truth) := by
    rw [Frame.read_value, held]
  have counted : (weave flags).branches = flags.branches := rfl
  rw [Weave.ledger, Score.branchLedger]
  simp only [decides, counted]
  cases flags.branches with
  | false => rfl
  | true =>
      simp only [read]
      rfl

end

/-! ## Stages -/

/-- A run in its trips holds its argument, the number of the trip, and a result so far. -/
structure Holds (count : Int64) (trip : Nat) (values : Array (Option Int64)) : Prop where
  size_eq : values.size = 11
  count_eq : values.getD 0 none = some count
  trip_eq : values.getD 1 none = some trip.toInt64
  result : ∃ result, values.getD 2 none = some result

theorem getD_set_self {values : Array (Option Int64)} {id : ValueId} (inside : id < values.size)
    (value : Option Int64) : (values.setIfInBounds id value).getD id none = value := by
  rw [getD_setIfInBounds, if_pos ⟨rfl, inside⟩]

theorem getD_set_of_ne (values : Array (Option Int64)) {id other : ValueId} (apart : id ≠ other)
    (value : Option Int64) :
    (values.setIfInBounds id value).getD other none = values.getD other none := by
  rw [getD_setIfInBounds, if_neg fun both => apart both.1]

namespace Holds

variable {count : Int64} {trip : Nat} {values : Array (Option Int64)}

theorem set (holds : Holds count trip values) {id : Nat} (other : 2 < id)
    (value : Option Int64) : Holds count trip (values.setIfInBounds id value) := by
  have kept {early : Nat} (le : early ≤ 2) :
      (values.setIfInBounds id value).getD early none = values.getD early none :=
    getD_set_of_ne values (Nat.ne_of_gt (Nat.lt_of_le_of_lt le other)) value
  obtain ⟨result, held⟩ := holds.result
  exact
    { size_eq := Array.size_setIfInBounds.trans holds.size_eq
      count_eq := (kept (by decide)).trans holds.count_eq
      trip_eq := (kept (by decide)).trans holds.trip_eq
      result := ⟨result, (kept (by decide)).trans held⟩ }

theorem lt_size (holds : Holds count trip values) {id : Nat} (below : id < 11) :
    id < values.size :=
  holds.size_eq ▸ below

/-- A trip begins with its number and the result so far. -/
theorem begin (size : values.size = 11) (held : values.getD 0 none = some count) (trip : Nat)
    (result : Int64) :
    Holds count trip ((values.setIfInBounds 1 (some trip.toInt64)).setIfInBounds 2 (some result))
    where
  size_eq := by rw [Array.size_setIfInBounds, Array.size_setIfInBounds, size]
  count_eq := by rw [getD_set_of_ne _ (by decide), getD_set_of_ne _ (by decide), held]
  trip_eq := by
    rw [getD_set_of_ne _ (by decide), getD_set_self (by rw [size]; decide)]
  result := ⟨result, getD_set_self (by rw [Array.size_setIfInBounds, size]; decide) _⟩

end Holds

/-- Where a run stands, with its score and the inputs that it has drawn. -/
inductive Stage (count : Int64) : Score → List Int64 → Frame → Prop
  | entering {values : Array (Option Int64)} (size : values.size = 11)
      (held : values.getD 0 none = some count) : Stage count (.after []) [] ⟨values, 0, []⟩
  | asking {inputs : List Int64} {values : Array (Option Int64)}
      (holds : Holds count inputs.length values) (le : inputs.length ≤ trips count) :
      Stage count (.after inputs) inputs ⟨values, 1, [compare]⟩
  | asked {inputs : List Int64} {values : Array (Option Int64)}
      (holds : Holds count inputs.length values) (le : inputs.length ≤ trips count)
      (held : values.getD 4 none = some (BinOp.ofTruth (inputs.length < trips count))) :
      Stage count (.after inputs) inputs ⟨values, 1, []⟩
  | requesting {inputs : List Int64} {values : Array (Option Int64)}
      (holds : Holds count inputs.length values) (lt : inputs.length < trips count) :
      Stage count ((Score.after inputs).ask true) inputs
        ⟨values, 2, [request, draw, mask, test]⟩
  | drawing {inputs : List Int64} {values : Array (Option Int64)}
      (holds : Holds count inputs.length values) (lt : inputs.length < trips count) :
      Stage count ((Score.after inputs).ask true).request inputs ⟨values, 2, [draw, mask, test]⟩
  | masking {input : Int64} {inputs : List Int64} {values : Array (Option Int64)}
      (holds : Holds count inputs.length values) (lt : inputs.length < trips count)
      (held : values.getD 6 none = some input) :
      Stage count ((Score.after inputs).ask true).request (input :: inputs)
        ⟨values, 2, [mask, test]⟩
  | testing {input : Int64} {inputs : List Int64} {values : Array (Option Int64)}
      (holds : Holds count inputs.length values) (lt : inputs.length < trips count)
      (held : values.getD 7 none = some (input &&& 1)) :
      Stage count ((Score.after inputs).ask true).request (input :: inputs) ⟨values, 2, [test]⟩
  | parting {input : Int64} {inputs : List Int64} {values : Array (Option Int64)}
      (holds : Holds count inputs.length values) (lt : inputs.length < trips count)
      (held : values.getD 8 none = some (BinOp.ofTruth (isOdd input))) :
      Stage count ((Score.after inputs).ask true).request (input :: inputs) ⟨values, 2, []⟩
  | raising {input : Int64} {inputs : List Int64} {values : Array (Option Int64)}
      (holds : Holds count inputs.length values) (lt : inputs.length < trips count) :
      Stage count (.after (input :: inputs)) (input :: inputs) ⟨values, 3, [raise]⟩
  | raised {input result : Int64} {inputs : List Int64} {values : Array (Option Int64)}
      (holds : Holds count inputs.length values) (lt : inputs.length < trips count)
      (held : values.getD 9 none = some result) :
      Stage count (.after (input :: inputs)) (input :: inputs) ⟨values, 3, []⟩
  | even {input : Int64} {inputs : List Int64} {values : Array (Option Int64)}
      (holds : Holds count inputs.length values) (lt : inputs.length < trips count) :
      Stage count (.after (input :: inputs)) (input :: inputs) ⟨values, 4, []⟩
  | advancing {input result : Int64} {inputs : List Int64} {values : Array (Option Int64)}
      (holds : Holds count inputs.length values) (lt : inputs.length < trips count)
      (held : values.getD 3 none = some result) :
      Stage count (.after (input :: inputs)) (input :: inputs) ⟨values, 5, [advance]⟩
  | advanced {input result : Int64} {inputs : List Int64} {values : Array (Option Int64)}
      (holds : Holds count inputs.length values) (lt : inputs.length < trips count)
      (held : values.getD 3 none = some result)
      (next : values.getD 10 none = some (inputs.length + 1).toInt64) :
      Stage count (.after (input :: inputs)) (input :: inputs) ⟨values, 5, []⟩
  | leaving {inputs : List Int64} {values : Array (Option Int64)}
      (holds : Holds count inputs.length values) (all : inputs.length = trips count) :
      Stage count ((Score.after inputs).ask false) inputs ⟨values, 6, []⟩

/-- What the next step from a stage leads to, in a world whose host attends to the run. -/
inductive Leads (source : Nat → List Int64 → Int64) (flags : Flags) (count : Int64)
    (score : Score) (inputs : List Int64) (ledger : Ledger) (counters : Counters)
    (given : List Int64) : Progress → Prop
  | running (new : List Int64) {score' : Score} {next : Frame} {host : Host}
      (stage : Stage count score' (new ++ inputs) next)
      (attends : Attends source host (new ++ given))
      (pays : ∀ measure, score'.amount flags measure =
        score.amount flags measure + ledger.total measure) :
      Leads source flags count score inputs ledger counters given (.running next ⟨counters, host⟩)
  | returned {host : Host} (value : Option Int64) (attends : Attends source host given)
      (all : inputs.length = trips count) (final : score = (Score.after inputs).ask false)
      (unpaid : ledger = []) :
      Leads source flags count score inputs ledger counters given
        (.returned value ⟨counters, host⟩)

section

variable {noted : Option Flags} {threshold : Option Int64} {flags : Flags} {count : Int64}
  {score : Score} {frame : Frame} {counters : Counters} {host : Host} {given : List Int64}

/-- A step that adds nothing, draws nothing and keeps the score. -/
theorem Leads.quiet {next : Frame} {ledger : Ledger} (stage : Stage count score inputs next)
    (attends : Attends source host given) (unpaid : ledger = []) :
    Leads source flags count score inputs ledger counters given
      (.running next ⟨counters, host⟩) := by
  subst unpaid
  exact .running [] stage attends fun measure => (UInt64.add_zero _).symm

theorem lt_iff_lt_trips {trip : Nat} (le : trip ≤ trips count) :
    trip.toInt64 < count ↔ trip < trips count := by
  -- The number of a trip does not wrap around, since it is at most the argument.
  have below := count.toInt_lt
  unfold trips at le ⊢
  have word : trip.toInt64.toInt = trip := Int64.toInt_ofNat_of_lt (by omega)
  rw [Int64.lt_iff_toInt_lt, word]
  omega

/-- An edge into the header begins a trip. -/
theorem follow_header {values : Array (Option Int64)} {id : BlockId} (size : values.size = 11)
    {number so : Operand} {trip result : Int64}
    (readTrip : (⟨values, id, []⟩ : Frame).read number = .ok trip)
    (readResult : (⟨values, id, []⟩ : Frame).read so = .ok result) :
    (⟨values, id, []⟩ : Frame).follow (func noted threshold) ⟨1, [number, so]⟩ =
      .ok ⟨(values.setIfInBounds 1 (some trip)).setIfInBounds 2 (some result), 1, [compare]⟩ := by
  have read : (⟨values, id, []⟩ : Frame).readAll [number, so] = .ok [trip, result] := by
    simp only [Frame.readAll, readTrip, readResult, Except.map]
  have found : (func noted threshold).block? 1 = some ⟨some "header", [1, 2], [compare],
    .branch (.value 4) ⟨2, []⟩ ⟨6, []⟩ none⟩ := rfl
  simp [Frame.follow, found, read, Frame.writeAll, Frame.write, size]

/-- An edge into the latch brings the result of the trip. -/
theorem follow_latch {values : Array (Option Int64)} {id : BlockId} (size : values.size = 11)
    {operand : Operand} {result : Int64}
    (read : (⟨values, id, []⟩ : Frame).read operand = .ok result) :
    (⟨values, id, []⟩ : Frame).follow (func noted threshold) ⟨5, [operand]⟩ =
      .ok ⟨values.setIfInBounds 3 (some result), 5, [advance]⟩ := by
  have readAll : (⟨values, id, []⟩ : Frame).readAll [operand] = .ok [result] := by
    simp only [Frame.readAll, read, Except.map]
  have found : (func noted threshold).block? 5 = some ⟨some "latch", [3], [advance],
    .jump ⟨1, [.value 10, .value 3]⟩⟩ := rfl
  simp [Frame.follow, found, readAll, Frame.writeAll, Frame.write, size]

/-- Whatever host attends to a run, the next step from a frame leads on. -/
def LeadsOn (source : Nat → List Int64 → Int64) (noted : Option Flags) (threshold : Option Int64)
    (flags : Flags) (count : Int64) (score : Score) (inputs : List Int64) (frame : Frame) : Prop :=
  ∀ ⦃counters : Counters⦄ ⦃host : Host⦄ ⦃given : List Int64⦄, Attends source host given →
    Leads source flags count score inputs ((weave flags).ledger (func noted threshold) frame)
      counters given
      (Machine.step (func noted threshold) ((weave flags).poised frame) ⟨counters, host⟩)

namespace LeadsOn

variable {values : Array (Option Int64)} {id : BlockId} {rest : List Instr} {block : Block}
  {next : Frame}

theorem binop {result : ValueId} {op : BinOp} {lhs rhs : Operand} {left right value : Int64}
    (readLeft : (⟨values, id, rest⟩ : Frame).read lhs = .ok left)
    (readRight : (⟨values, id, rest⟩ : Frame).read rhs = .ok right)
    (evaluates : op.eval? left right = some value) (inside : result < values.size)
    (stage : Stage count score inputs ⟨values.setIfInBounds result (some value), id, rest⟩) :
    LeadsOn source noted threshold flags count score inputs
      ⟨values, id, .binop result op lhs rhs :: rest⟩ := by
  intro counters host given attends
  have stepped : Machine.step (func noted threshold) ⟨values, id, .binop result op lhs rhs :: rest⟩
      ⟨counters, host⟩ =
        .running ⟨values.setIfInBounds result (some value), id, rest⟩ ⟨counters, host⟩ :=
    Machine.step_binop readLeft readRight evaluates inside
  rw [Weave.poised]
  exact stepped ▸ .quiet stage attends (ledger_of_unnamed flags values id rfl rest)

theorem jump (found : (func noted threshold).block? id = some block) {edge : Edge}
    (flow : block.terminator = .jump edge)
    (followed : (⟨values, id, []⟩ : Frame).follow (func noted threshold) edge = .ok next)
    (stage : Stage count score inputs next) :
    LeadsOn source noted threshold flags count score inputs ⟨values, id, []⟩ := by
  intro counters host given attends
  rw [Weave.poised, Machine.step_jump found flow followed]
  exact .quiet stage attends (ledger_end flags values id found (by rw [flow]; rfl))

theorem branch (found : (func noted threshold).block? id = some block) {condition : ValueId}
    {whenTrue whenFalse : Edge} {weights : Option Weights}
    (flow : block.terminator = .branch (.value condition) whenTrue whenFalse weights)
    {truth : Bool} (held : values.getD condition none = some (BinOp.ofTruth truth))
    (followed : (⟨values, id, []⟩ : Frame).follow (func noted threshold)
      (if truth then whenTrue else whenFalse) = .ok next)
    {score' : Score} (stage : Stage count score' inputs next)
    (pays : ∀ measure, score'.amount flags measure =
      score.amount flags measure + (Score.branchLedger flags id truth).total measure) :
    LeadsOn source noted threshold flags count score inputs ⟨values, id, []⟩ := by
  intro counters host given attends
  have isRuntime : block.terminator.runtimeCondition? = some (.value condition) := by
    rw [flow]
    rfl
  rw [ledger_branch flags values id found isRuntime held, Weave.poised,
    Machine.step_branch found flow held followed]
  exact .running [] stage attends pays

/-- A request is counted under its own name, and made under the name it is lowered to. -/
theorem request (inside : 5 < values.size)
    (stage : ∀ value, Stage count score.request inputs
      ⟨values.setIfInBounds 5 (some value), id, rest⟩) :
    LeadsOn source noted threshold flags count score inputs
      ⟨values, id, Workload.request :: rest⟩ := by
  intro counters host given attends
  obtain ⟨routine, found⟩ := Option.isSome_iff_exists.mp attends.pool
  have stepped : Machine.step (func noted threshold)
      ⟨values, id, (weave flags).lower Workload.request :: rest⟩ ⟨counters, host⟩ =
        .running ⟨values.setIfInBounds 5 (some (routine.answer routine.calls [0, 48, 0])), id, rest⟩
          ⟨counters, (host.invoke (.symbol "jit.gc_pool_alloc") routine [0, 48, 0]).1⟩ :=
    Machine.step_call found rfl inside
  rw [ledger_request, Weave.poised, stepped]
  exact .running [] (stage _) (attends.invoke (by decide) routine _)
    fun measure => Score.amount_request flags _ measure

theorem draw {number : Int64} (held : values.getD 1 none = some number) (inside : 6 < values.size)
    (stage : ∀ input, Stage count score (input :: inputs)
      ⟨values.setIfInBounds 6 (some input), id, rest⟩) :
    LeadsOn source noted threshold flags count score inputs
      ⟨values, id, Workload.draw :: rest⟩ := by
  intro counters host given attends
  have read : (⟨values, id, rest⟩ : Frame).readAll [.value 1] = .ok [number] := by
    simp only [Frame.readAll, Frame.read_value, held, Except.map]
  have found : (World.mk counters host).host.routine? (.symbol "input") =
      some ⟨source, given.length⟩ := attends.input_eq
  have stepped : Machine.step (func noted threshold) ⟨values, id, Workload.draw :: rest⟩
      ⟨counters, host⟩ =
        .running ⟨values.setIfInBounds 6 (some (source given.length [number])), id, rest⟩
          ⟨counters, (host.invoke (.symbol "input") ⟨source, given.length⟩ [number]).1⟩ :=
    Machine.step_call found read inside
  rw [ledger_draw, Weave.poised]
  exact stepped ▸ .running [_] (stage _) (attends.draw _)
    fun measure => (UInt64.add_zero _).symm

theorem leave {result : Int64} (held : values.getD 2 none = some result)
    (all : inputs.length = trips count) :
    LeadsOn source noted threshold flags count ((Score.after inputs).ask false) inputs
      ⟨values, 6, []⟩ := by
  intro counters host given attends
  have found : (func noted threshold).block? 6 =
      some ⟨some "exit", [], [], .ret (some (.value 2))⟩ := rfl
  have read : (⟨values, 6, []⟩ : Frame).read (.value 2) = .ok result := by
    rw [Frame.read_value, held]
  have stepped : Machine.step (func noted threshold) ⟨values, 6, []⟩ ⟨counters, host⟩ =
      .returned (some result) ⟨counters, host⟩ := by
    rw [Machine.step_of_block found]
    simp only [Frame.finishBlock, read, Except.map]
  rw [Weave.poised, stepped]
  exact .returned _ attends all rfl (ledger_end flags values 6 found rfl)

end LeadsOn

/-- To each stage its step. -/
theorem Stage.leads (stage : Stage count score inputs frame) :
    LeadsOn source noted threshold flags count score inputs frame := by
  cases stage with
  | entering size held =>
      exact .jump rfl rfl (follow_header size rfl rfl)
        (.asking (.begin size held 0 0) (Nat.zero_le _))
  | @asking inputs values holds le =>
      have less : BinOp.eval? .slt inputs.length.toInt64 count =
          some (BinOp.ofTruth (inputs.length < trips count)) := by
        simp only [BinOp.eval?, lt_iff_lt_trips le]
      have inside : 4 < values.size := holds.lt_size (by decide)
      exact .binop (by rw [Frame.read_value, holds.trip_eq])
        (by rw [Frame.read_value, holds.count_eq]) less inside
        (.asked (holds.set (by decide) _) le (getD_set_self inside _))
  | @asked inputs values holds le held =>
      by_cases more : inputs.length < trips count
      · rw [decide_eq_true more] at held
        exact .branch rfl rfl held rfl (.requesting holds more)
          fun measure => Score.amount_ask flags _ measure true
      · rw [decide_eq_false more] at held
        exact .branch rfl rfl held rfl (.leaving holds (Nat.le_antisymm le (Nat.not_lt.mp more)))
          fun measure => Score.amount_ask flags _ measure false
  | requesting holds lt =>
      exact .request (holds.lt_size (by decide)) fun _ => .drawing (holds.set (by decide) _) lt
  | @drawing inputs values holds lt =>
      have inside : 6 < values.size := holds.lt_size (by decide)
      exact .draw holds.trip_eq inside
        fun _ => .masking (holds.set (by decide) _) lt (getD_set_self inside _)
  | @masking input inputs values holds lt held =>
      have inside : 7 < values.size := holds.lt_size (by decide)
      exact .binop (by rw [Frame.read_value, held]) rfl rfl inside
        (.testing (holds.set (by decide) _) lt (getD_set_self inside _))
  | @testing input inputs values holds lt held =>
      have odd : BinOp.eval? .ne (input &&& 1) 0 = some (BinOp.ofTruth (isOdd input)) := rfl
      have inside : 8 < values.size := holds.lt_size (by decide)
      exact .binop (by rw [Frame.read_value, held]) rfl odd inside
        (.parting (holds.set (by decide) _) lt (getD_set_self inside _))
  | @parting input inputs values holds lt held =>
      have pays (measure : Measure) : (Score.after (input :: inputs)).amount flags measure =
          ((Score.after inputs).ask true).request.amount flags measure +
            (Score.branchLedger flags 2 (isOdd input)).total measure := by
        rw [← Score.after_cons]
        exact Score.amount_part flags _ measure (isOdd input)
      cases odd : isOdd input with
      | true =>
          rw [odd] at held pays
          exact .branch rfl rfl held rfl (.raising holds lt) pays
      | false =>
          rw [odd] at held pays
          exact .branch rfl rfl held rfl (.even holds lt) pays
  | @raising input inputs values holds lt =>
      obtain ⟨result, held⟩ := holds.result
      have inside : 9 < values.size := holds.lt_size (by decide)
      have raised : (values.setIfInBounds 9 (some (result + 3))).getD 9 none = some (result + 3) :=
        getD_set_self inside _
      exact .binop (by rw [Frame.read_value, held]) rfl rfl inside
        (.raised (holds.set (by decide) _) lt raised)
  | raised holds lt held =>
      exact .jump rfl rfl (follow_latch holds.size_eq (by rw [Frame.read_value, held]))
        (.advancing (holds.set (by decide) _) lt (getD_set_self (holds.lt_size (by decide)) _))
  | even holds lt =>
      obtain ⟨result, held⟩ := holds.result
      exact .jump rfl rfl (follow_latch holds.size_eq (by rw [Frame.read_value, held]))
        (.advancing (holds.set (by decide) _) lt (getD_set_self (holds.lt_size (by decide)) _))
  | @advancing input result inputs values holds lt held =>
      have next : BinOp.eval? .add inputs.length.toInt64 1 = some (inputs.length + 1).toInt64 :=
        congrArg some (Int64.ofNat_add inputs.length 1).symm
      have kept : (values.setIfInBounds 10 (some (inputs.length + 1).toInt64)).getD 3 none =
          some result := (getD_set_of_ne values (by decide) _).trans held
      have inside : 10 < values.size := holds.lt_size (by decide)
      exact .binop (by rw [Frame.read_value, holds.trip_eq]) rfl next inside
        (.advanced (holds.set (by decide) _) lt kept (getD_set_self inside _))
  | @advanced input result inputs values holds lt held next =>
      exact .jump rfl rfl
        (follow_header holds.size_eq (by rw [Frame.read_value, next])
          (by rw [Frame.read_value, held]))
        (.asking (.begin holds.size_eq holds.count_eq (inputs.length + 1) result) lt)
  | leaving holds all =>
      obtain ⟨result, held⟩ := holds.result
      exact .leave held all

end

end Workload

end FlowProfile
