/-
# What the woven instructions do

The instructions that a weave puts in add to counters of the function's profile and to
nothing else.  What is to be added to which measure is written down in a ledger; here the
instructions ahead of one instruction, and those at the end of a block, are run and their
ledgers are found in the memory.

An addition fails only if its operand is undefined, and then the function's own code,
which reads the same operand next, fails as well.
-/

import FlowProfile.Proofs.Run.Service
import FlowProfile.Proofs.Run.Trail
import FlowProfile.Proofs.Weave.Basic

namespace FlowProfile

/-! ## Ledgers -/

/-- Amounts to be added to measures. -/
abbrev Ledger := List (Measure × UInt64)

/-- All that a ledger adds to one measure, modulo the width of a counter. -/
def Ledger.total (measure : Measure) : Ledger → UInt64
  | [] => 0
  | (other, amount) :: rest =>
      if other = measure then amount + total measure rest else total measure rest

theorem Ledger.total_append (measure : Measure) (first second : Ledger) :
    total measure (first ++ second) = total measure first + total measure second := by
  induction first with
  | nil => exact (UInt64.zero_add _).symm
  | cons entry rest ih =>
      obtain ⟨other, amount⟩ := entry
      rw [List.cons_append, total, total, ih]
      split
      · exact (UInt64.add_assoc _ _ _).symm
      · rfl

namespace Weave

variable (weave : Weave)

/-- Two worlds differ at most in the counters of the function's profile. -/
structure Agrees (world world' : World) : Prop where
  host_eq : world'.host = world.host
  read_eq : ∀ counter, ¬ weave.Owns counter →
    world'.counters.read counter = world.counters.read counter

/-- The counters of the function's profile have grown by what is in a ledger. -/
def Grows (ledger : Ledger) (world world' : World) : Prop :=
  ∀ measure, world'.counters.read (weave.counter measure) =
    world.counters.read (weave.counter measure) + ledger.total measure

variable {weave : Weave} {world world' world'' : World}

theorem Agrees.refl (world : World) : weave.Agrees world world :=
  ⟨rfl, fun _ _ => rfl⟩

theorem Agrees.trans (first : weave.Agrees world world') (second : weave.Agrees world' world'') :
    weave.Agrees world world'' where
  host_eq := second.host_eq.trans first.host_eq
  read_eq counter foreign :=
    (second.read_eq counter foreign).trans (first.read_eq counter foreign)

theorem Grows.refl (world : World) : weave.Grows [] world world :=
  fun _ => (UInt64.add_zero _).symm

theorem Grows.trans {first second : Ledger} (grows : weave.Grows first world world')
    (grows' : weave.Grows second world' world'') :
    weave.Grows (first ++ second) world world'' := by
  intro measure
  rw [grows' measure, grows measure, Ledger.total_append, UInt64.add_assoc]

/-- A world with an amount added to one measure. -/
def credit (weave : Weave) (measure : Measure) (amount : UInt64) (world : World) : World :=
  ⟨world.counters.add (weave.counter measure) amount, world.host⟩

theorem agrees_credit (measure : Measure) (amount : UInt64) (world : World) :
    weave.Agrees world (weave.credit measure amount world) where
  host_eq := rfl
  read_eq counter foreign := by
    have apart : weave.counter measure ≠ counter := by
      rintro rfl
      exact foreign (weave.owns_counter measure)
    exact Counters.read_add_of_ne apart _ _

theorem grows_credit (measure : Measure) (amount : UInt64) (world : World) :
    weave.Grows [(measure, amount)] world (weave.credit measure amount world) := by
  intro other
  rw [credit, Counters.read_add, Ledger.total, Ledger.total]
  by_cases same : measure = other
  · rw [if_pos same, if_pos (congrArg _ same), UInt64.add_zero, same]
  · rw [if_neg same, if_neg (same ∘ weave.counter_injective), UInt64.add_zero]

end Weave

/-! ## Running what was put in -/

theorem Frame.read_rest (values : Array (Option Int64)) (block : BlockId)
    (rest rest' : List Instr) (operand : Operand) :
    (⟨values, block, rest⟩ : Frame).read operand = (⟨values, block, rest'⟩ : Frame).read operand :=
  by cases operand <;> rfl

/-- What a tally of an operand adds. -/
def Frame.amount (frame : Frame) (operand : Operand) : UInt64 :=
  match frame.read operand with
  | .ok value => value.toUInt64
  | .error _ => 0

theorem Frame.amount_of_read {frame : Frame} {operand : Operand} {value : Int64}
    (read : frame.read operand = .ok value) : frame.amount operand = value.toUInt64 := by
  rw [amount, read]

/-- The next step executes an instruction, and it is not a call by name. -/
structure Frame.Silent (frame : Frame) : Prop where
  busy : frame.rest ≠ []
  unnamed : frame.namedCall? = none

theorem Frame.silent_cons {instr : Instr} (unnamed : instr.calledSymbol? = none)
    (values : Array (Option Int64)) (block : BlockId) (rest : List Instr) :
    (⟨values, block, instr :: rest⟩ : Frame).Silent where
  busy := List.cons_ne_nil _ _
  unnamed := by
    rw [namedCall?_cons, Instr.isNamedCall, unnamed]
    rfl

namespace Machine

theorem step_of_execute {g : Func} {values : Array (Option Int64)} {block : BlockId}
    {instr : Instr} {rest : List Instr} {world world' : World} {next : Frame}
    (executed : execute instr ⟨values, block, rest⟩ world = (.ok next, world')) :
    step g ⟨values, block, instr :: rest⟩ world = .running next world' := by
  rw [step, executed]

theorem step_of_execute_error {g : Func} {values : Array (Option Int64)} {block : BlockId}
    {instr : Instr} {rest : List Instr} {world world' : World} {error : Error}
    (executed : execute instr ⟨values, block, rest⟩ world = (.error error, world')) :
    step g ⟨values, block, instr :: rest⟩ world = .failed error world' := by
  rw [step, executed]

theorem step_tally {g : Func} {values : Array (Option Int64)} {position : BlockId}
    {rest : List Instr} {world : World} {operand : Operand} {value : Int64}
    (read : (⟨values, position, rest⟩ : Frame).read operand = .ok value) {counter : Counter} :
    step g ⟨values, position, .tally counter operand :: rest⟩ world =
      .running ⟨values, position, rest⟩
        ⟨world.counters.add counter value.toUInt64, world.host⟩ := by
  apply step_of_execute
  rw [Instr.tally, execute, read]
  rfl

theorem step_tally_error {g : Func} {values : Array (Option Int64)} {position : BlockId}
    {rest : List Instr} {world : World} {operand : Operand} {error : Error}
    (read : (⟨values, position, rest⟩ : Frame).read operand = .error error) {counter : Counter} :
    step g ⟨values, position, .tally counter operand :: rest⟩ world = .failed error world := by
  apply step_of_execute_error
  rw [Instr.tally, execute, read]

end Machine

namespace Weave

variable (weave : Weave)

/-- Steps that only do what a weave put in: on the way no block ends, no routine is called
by name, and nothing but the ledger is added to the counters. -/
structure Pays (g : Func) (steps : Nat) (frame : Frame) (world : World) (ledger : Ledger)
    (next : Frame) (world' : World) : Prop where
  passes : ∃ path, Machine.Passes g steps frame world path (.running next world') ∧
    ∀ middle ∈ path, middle.Silent
  agrees : weave.Agrees world world'
  grows : weave.Grows ledger world world'

variable {weave : Weave} {g : Func} {world world' world'' : World} {values : Array (Option Int64)}
  {block : BlockId}

theorem Pays.refl (g : Func) (frame : Frame) (world : World) :
    weave.Pays g 0 frame world [] frame world where
  passes := ⟨[], .refl g frame world, by simp⟩
  agrees := .refl world
  grows := .refl world

theorem Pays.trans {steps steps' : Nat} {frame next last : Frame} {first second : Ledger}
    (pays : weave.Pays g steps frame world first next world')
    (pays' : weave.Pays g steps' next world' second last world'') :
    weave.Pays g (steps + steps') frame world (first ++ second) last world'' where
  passes := by
    obtain ⟨path, passes, silent⟩ := pays.passes
    obtain ⟨path', passes', silent'⟩ := pays'.passes
    refine ⟨path ++ path', passes.trans passes', ?_⟩
    intro middle mem
    rcases List.mem_append.mp mem with here | there
    · exact silent middle here
    · exact silent' middle there
  agrees := pays.agrees.trans pays'.agrees
  grows := pays.grows.trans pays'.grows

theorem Pays.single {instr : Instr} {rest : List Instr} {next : Frame} {ledger : Ledger}
    (executed : Machine.execute instr ⟨values, block, rest⟩ world = (.ok next, world'))
    (unnamed : instr.calledSymbol? = none) (agrees : weave.Agrees world world')
    (grows : weave.Grows ledger world world') :
    weave.Pays g 1 ⟨values, block, instr :: rest⟩ world ledger next world' where
  passes := by
    refine ⟨_, .single (Machine.step_of_execute executed), ?_⟩
    intro middle mem
    rw [List.mem_singleton.mp mem]
    exact Frame.silent_cons unnamed values block rest
  agrees := agrees
  grows := grows

/-- A tally of an operand that is defined. -/
theorem pays_tally {rest rest' : List Instr} {measure : Measure} {operand : Operand}
    {value : Int64} (read : (⟨values, block, rest'⟩ : Frame).read operand = .ok value) :
    weave.Pays g 1 ⟨values, block, weave.tally (measure, operand) :: rest⟩ world
      [(measure, value.toUInt64)] ⟨values, block, rest⟩
      (weave.credit measure value.toUInt64 world) := by
  refine Pays.single ?_ rfl (agrees_credit ..) (grows_credit measure value.toUInt64 world)
  obtain ⟨counters, host⟩ := world
  show Machine.execute (.count none (weave.counter measure) operand .monotonic) _ _ = _
  rw [Machine.execute, Frame.read_rest values block rest rest', read]
  rfl

/-- A tally of an operand that is not defined fails. -/
theorem execute_tally_error {frame : Frame} {measure : Measure} {operand : Operand}
    {error : Error} (read : frame.read operand = .error error) :
    Machine.execute (weave.tally (measure, operand)) frame world = (.error error, world) := by
  obtain ⟨counters, host⟩ := world
  show Machine.execute (.count none (weave.counter measure) operand .monotonic) _ _ = _
  rw [Machine.execute, read]

variable (weave) (g)

/-- The tallies ahead of an instruction, in a frame where their operands are defined. -/
theorem pays_tallies {rest : List Instr} {entries : List (Measure × Operand)}
    (readable : ∀ entry ∈ entries, ∃ value,
      (⟨values, block, rest⟩ : Frame).read entry.2 = .ok value) (world : World) :
    ∃ world', weave.Pays g entries.length ⟨values, block, entries.map weave.tally ++ rest⟩ world
      (entries.map fun entry => (entry.1, (⟨values, block, rest⟩ : Frame).amount entry.2))
      ⟨values, block, rest⟩ world' := by
  induction entries generalizing world with
  | nil => exact ⟨world, .refl g _ world⟩
  | cons entry later ih =>
      obtain ⟨measure, operand⟩ := entry
      obtain ⟨value, read⟩ := readable (measure, operand) List.mem_cons_self
      obtain ⟨world', others⟩ := ih (fun other mem => readable other (List.mem_cons_of_mem _ mem))
        (weave.credit measure value.toUInt64 world)
      refine ⟨world', ?_⟩
      rw [List.length_cons, Nat.add_comm, List.map_cons, List.map_cons,
        Frame.amount_of_read read]
      exact (pays_tally read).trans others

/-- The tallies ahead of an instruction fail where an operand is not defined. -/
theorem fails_tallies {rest : List Instr} {entries : List (Measure × Operand)}
    {entry : Measure × Operand} (mem : entry ∈ entries) {error : Error}
    (unreadable : (⟨values, block, rest⟩ : Frame).read entry.2 = .error error) (world : World) :
    ∃ steps id world', steps ≤ entries.length ∧
      Machine.advance g steps ⟨values, block, entries.map weave.tally ++ rest⟩ world =
        .failed (.undefinedValue id block) world' ∧ weave.Agrees world world' := by
  induction entries generalizing world with
  | nil => cases mem
  | cons head later ih =>
      obtain ⟨measure, operand⟩ := head
      cases read : (⟨values, block, rest⟩ : Frame).read operand with
      | error error' =>
          obtain ⟨id, rfl⟩ := Frame.eq_undefinedValue_of_read read
          refine ⟨1, id, world, Nat.le_add_left 1 _, ?_, .refl world⟩
          rw [Machine.advance_one]
          exact Machine.step_of_execute_error
            (execute_tally_error ((Frame.read_rest ..).trans read))
      | ok value =>
          have here : weave.Pays g 1 _ world [(measure, value.toUInt64)]
              ⟨values, block, later.map weave.tally ++ rest⟩ _ := pays_tally read
          have there : entry ∈ later := by
            rcases List.mem_cons.mp mem with rfl | there
            · rw [read] at unreadable
              cases unreadable
            · exact there
          obtain ⟨steps, id, world', le, fails, agrees⟩ :=
            ih there (weave.credit measure value.toUInt64 world)
          obtain ⟨path, passes, -⟩ := here.passes
          refine ⟨1 + steps, id, world', ?_, ?_, here.agrees.trans agrees⟩
          · rw [List.length_cons, Nat.add_comm]
            exact Nat.succ_le_succ le
          · exact (Machine.advance_add_of_running passes.advance_eq steps).trans fails

variable {weave} {g}

/-- What the probe of a branch adds when the condition has a value. -/
def branchLedger (id : BlockId) (value : Int64) : Ledger :=
  [(.total id, 1), (.taken id, if value ≠ 0 then 1 else 0)]

/-- Widening a condition changes the fresh value alone. -/
theorem pays_widen {rest rest' : List Instr} {fresh : ValueId} {condition : Operand}
    {value : Int64} (read : (⟨values, block, rest'⟩ : Frame).read condition = .ok value)
    (inside : fresh < values.size) (world : World) :
    weave.Pays g 1 ⟨values, block, .widen fresh condition :: rest⟩ world []
      ⟨values.setIfInBounds fresh (some (BinOp.ofTruth (value ≠ 0))), block, rest⟩ world := by
  refine Pays.single ?_ rfl (.refl world) (.refl world)
  rw [Machine.execute, Frame.read_rest values block rest rest', read]
  exact congrArg (·, world) (Frame.write_of_lt inside _)

theorem toUInt64_ofTruth (truth : Bool) :
    (BinOp.ofTruth truth).toUInt64 = if truth then 1 else 0 := by
  cases truth <;> rfl

/-- The probe of a branch begins with the addition to its total. -/
theorem pays_total {terminator : Terminator} {condition : Operand} (on : weave.branches = true)
    (isRuntime : terminator.runtimeCondition? = some condition) (fresh : ValueId)
    (id : BlockId) (world : World) :
    weave.Pays g 1 ⟨values, block, weave.tail fresh id terminator⟩ world [(.total id, 1)]
      ⟨values, block, [.widen fresh condition, weave.tally (.taken id, .value fresh)]⟩
      (weave.credit (.total id) 1 world) := by
  have readOne : (⟨values, block, []⟩ : Frame).read Probe.one = .ok 1 := rfl
  rw [tail_of_some on isRuntime]
  exact pays_tally readOne

variable (g)

/-- The probe at the end of a block, in a frame where the condition is defined. -/
theorem pays_tail {rest' : List Instr} {terminator : Terminator} {condition : Operand}
    {value : Int64} {fresh : ValueId} (on : weave.branches = true)
    (isRuntime : terminator.runtimeCondition? = some condition)
    (read : (⟨values, block, rest'⟩ : Frame).read condition = .ok value)
    (inside : fresh < values.size) (id : BlockId) (world : World) :
    ∃ world', weave.Pays g 3 ⟨values, block, weave.tail fresh id terminator⟩ world
      (branchLedger id value)
      ⟨values.setIfInBounds fresh (some (BinOp.ofTruth (value ≠ 0))), block, []⟩ world' := by
  have readFresh :
      (⟨values.setIfInBounds fresh (some (BinOp.ofTruth (value ≠ 0))), block, []⟩ : Frame).read
        (.value fresh) = .ok (BinOp.ofTruth (value ≠ 0)) := by
    rw [Frame.read_value, getD_setIfInBounds, if_pos ⟨rfl, inside⟩]
  have followed : weave.Pays g 1
      ⟨values.setIfInBounds fresh (some (BinOp.ofTruth (value ≠ 0))), block,
        [weave.tally (.taken id, .value fresh)]⟩ (weave.credit (.total id) 1 world)
      [(.taken id, (BinOp.ofTruth (value ≠ 0)).toUInt64)]
      ⟨values.setIfInBounds fresh (some (BinOp.ofTruth (value ≠ 0))), block, []⟩ _ :=
    pays_tally readFresh
  have counted : weave.Pays g 1 ⟨values, block, weave.tail fresh id terminator⟩ world _ _ _ :=
    pays_total on isRuntime fresh id world
  have probed := (counted.trans (pays_widen read inside _)).trans followed
  simp only [toUInt64_ofTruth, decide_eq_true_eq] at probed
  exact ⟨_, probed⟩

/-- The probe at the end of a block fails where the condition is not defined. -/
theorem fails_tail {rest' : List Instr} {terminator : Terminator} {condition : Operand}
    {error : Error} (on : weave.branches = true)
    (isRuntime : terminator.runtimeCondition? = some condition)
    (unreadable : (⟨values, block, rest'⟩ : Frame).read condition = .error error)
    (fresh : ValueId) (id : BlockId) (world : World) :
    ∃ world', Machine.advance g 2 ⟨values, block, weave.tail fresh id terminator⟩ world =
      .failed error world' ∧ weave.Agrees world world' := by
  have counted : weave.Pays g 1 ⟨values, block, weave.tail fresh id terminator⟩ world _ _ _ :=
    pays_total on isRuntime fresh id world
  obtain ⟨path, passes, -⟩ := counted.passes
  refine ⟨_, ?_, counted.agrees⟩
  rw [Machine.advance_add_of_running passes.advance_eq 1, Machine.advance_one]
  apply Machine.step_of_execute_error
  rw [Machine.execute, Frame.read_rest values block _ rest', unreadable]

end Weave

end FlowProfile
