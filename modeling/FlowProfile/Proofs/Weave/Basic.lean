/-
# Woven functions

Compiling a function weaves additions to counters into its code and may rename some of
its calls.  A `Weave` says what is woven into every block, and a `Prologue` what is put
ahead of the function's own code.  Both are data: a compiled function is described by
`Woven`, which compares it with the original block by block and does not mention the
passes.

With a reporter the entry block is split.  The function's own entry code then stands in
the first of two new blocks, its new `home`; every other block keeps its position.
-/

import FlowProfile.Compile.Pipeline
import FlowProfile.Proofs.Func.Verified

namespace FlowProfile

/-- A terminator without its weights, which never change what runs. -/
def Terminator.unweighted : Terminator → Terminator
  | branch condition whenTrue whenFalse _ => branch condition whenTrue whenFalse none
  | ret value => ret value
  | jump edge => jump edge
  | unreachable => unreachable

theorem Terminator.runtimeCondition?_unweighted (terminator : Terminator) :
    terminator.unweighted.runtimeCondition? = terminator.runtimeCondition? := by
  cases terminator <;> rfl

theorem Terminator.edges_unweighted (terminator : Terminator) :
    terminator.unweighted.edges = terminator.edges := by
  cases terminator <;> rfl

theorem Terminator.operands_unweighted (terminator : Terminator) :
    terminator.unweighted.operands = terminator.operands := by
  cases terminator <;> rfl

theorem Terminator.mem_operands_of_runtimeCondition? {terminator : Terminator}
    {condition : Operand} (isRuntime : terminator.runtimeCondition? = some condition) :
    condition ∈ terminator.operands := by
  cases terminator with
  | branch operand whenTrue whenFalse weights =>
      rw [runtimeCondition?] at isRuntime
      split at isRuntime
      · cases isRuntime
      · cases isRuntime
        exact List.mem_cons_self
  | ret value => cases isRuntime
  | jump edge => cases isRuntime
  | unreachable => cases isRuntime

theorem Terminator.eq_branch_of_unweighted {terminator : Terminator} {condition : Operand}
    {whenTrue whenFalse : Edge} {weights : Option Weights}
    (same : terminator.unweighted = (branch condition whenTrue whenFalse weights).unweighted) :
    ∃ weights, terminator = branch condition whenTrue whenFalse weights := by
  cases terminator with
  | branch condition' whenTrue' whenFalse' weights' =>
      cases same
      exact ⟨weights', rfl⟩
  | ret value => cases same
  | jump edge => cases same
  | unreachable => cases same

theorem Terminator.eq_jump_of_unweighted {terminator : Terminator} {edge : Edge}
    (same : terminator.unweighted = (jump edge).unweighted) : terminator = jump edge := by
  cases terminator with
  | branch condition whenTrue whenFalse weights => cases same
  | ret value => cases same
  | jump edge => exact same
  | unreachable => cases same

/-- What a compilation weaves into the blocks of a function. -/
structure Weave where
  store : String
  function : String
  branches : Bool
  allocations : Option AllocSymbols
  lowering : Option Lowering

namespace Weave

variable (weave : Weave)

/-- The counter of a measure of the function. -/
def counter (measure : Measure) : Counter :=
  .owned weave.store weave.function measure

/-- The counters of the function's profile. -/
def Owns (counter : Counter) : Prop :=
  counter.BelongsTo weave.store weave.function

/-- What becomes of an instruction of the function itself. -/
def lower (instr : Instr) : Instr :=
  match weave.lowering with
  | some lowering => lowering.lowerInstr instr
  | none => instr

/-- What is added to which measure ahead of an instruction, as seen at one stage. -/
def talliesAt (stage : Stage) (instr : Instr) : List (Measure × Operand) :=
  match weave.allocations with
  | some symbols =>
      if symbols.recognizesCall stage instr then
        match instr.operands[symbols.sizeArg]? with
        | some size => [(.size stage, size), (.count stage, Probe.one)]
        | none => []
      else []
  | none => []

/-- What is added to which measure ahead of an instruction. -/
def tallies (instr : Instr) : List (Measure × Operand) :=
  weave.talliesAt .before instr ++ weave.talliesAt .after (weave.lower instr)

/-- The instruction that adds an operand to a measure. -/
def tally (entry : Measure × Operand) : Instr :=
  .tally (weave.counter entry.1) entry.2

/-- What an instruction is woven into. -/
def instr (instr : Instr) : List Instr :=
  (weave.tallies instr).map weave.tally ++ [weave.lower instr]

/-- What is put at the end of a block, ahead of its terminator. -/
def tail (fresh : ValueId) (id : BlockId) (terminator : Terminator) : List Instr :=
  match weave.branches, terminator.runtimeCondition? with
  | true, some condition =>
      Probe.branchProbe (weave.counter (.total id)) (weave.counter (.taken id)) fresh condition
  | true, none | false, _ => []

/-- The rest of a block's code is woven into this. -/
def code (fresh : ValueId) (id : BlockId) (terminator : Terminator) (rest : List Instr) :
    List Instr :=
  rest.flatMap weave.instr ++ weave.tail fresh id terminator

/-- The block at a position of the woven function is what a block is woven into, after
some code that leads up to it. -/
def Hosts (woven : Func) (position : BlockId) (lead : List Instr) (fresh : ValueId)
    (id : BlockId) (block : Block) : Prop :=
  ∃ image, woven.block? position = some image ∧ image.params = block.params ∧
    image.instrs = lead ++ weave.code fresh id block.terminator block.instrs ∧
    image.terminator.unweighted = block.terminator.unweighted

/-- Nothing is added ahead of an instruction, unless it calls an allocator with a size. -/
theorem talliesAt_eq_or (stage : Stage) (instr : Instr) :
    weave.talliesAt stage instr = [] ∨ ∃ symbols size, weave.allocations = some symbols ∧
      symbols.recognizesCall stage instr = true ∧
      instr.operands[symbols.sizeArg]? = some size ∧
      weave.talliesAt stage instr = [(.size stage, size), (.count stage, Probe.one)] := by
  unfold talliesAt
  split
  · next symbols asked =>
      split
      · next recognized =>
          split
          · next size found => exact .inr ⟨symbols, size, asked, recognized, found, rfl⟩
          · exact .inl rfl
      · exact .inl rfl
  · exact .inl rfl

theorem code_cons (fresh : ValueId) (id : BlockId) (terminator : Terminator)
    (first : Instr) (rest : List Instr) :
    weave.code fresh id terminator (first :: rest) =
      (weave.tallies first).map weave.tally ++
        weave.lower first :: weave.code fresh id terminator rest := by
  simp [code, instr]

theorem code_nil (fresh : ValueId) (id : BlockId) (terminator : Terminator) :
    weave.code fresh id terminator [] = weave.tail fresh id terminator := rfl

theorem tail_of_some {weave : Weave} (on : weave.branches = true) {terminator : Terminator}
    {condition : Operand} (isRuntime : terminator.runtimeCondition? = some condition)
    (fresh : ValueId) (id : BlockId) :
    weave.tail fresh id terminator =
      Probe.branchProbe (weave.counter (.total id)) (weave.counter (.taken id)) fresh
        condition := by
  rw [tail, on, isRuntime]

theorem tail_of_none {terminator : Terminator}
    (isStatic : terminator.runtimeCondition? = none) (fresh : ValueId) (id : BlockId) :
    weave.tail fresh id terminator = [] := by
  rw [tail, isStatic]
  cases weave.branches <;> rfl

theorem tail_of_off {weave : Weave} (off : weave.branches = false) (fresh : ValueId)
    (id : BlockId) (terminator : Terminator) : weave.tail fresh id terminator = [] := by
  rw [tail, off]

theorem counter_injective {first second : Measure}
    (same : weave.counter first = weave.counter second) : first = second := by
  injection same

theorem owns_counter (measure : Measure) : weave.Owns (weave.counter measure) :=
  ⟨measure, rfl⟩

end Weave

/-- What is put ahead of a function's own code: nothing, the addition to its counter of
calls, or that addition with the decision whether to report. -/
inductive Prologue
  | bare
  | counted (previous : ValueId)
  | reported (reporter : Reporter) (previous current hit : ValueId)

namespace Prologue

/-- Where a block of a function of so many blocks stands after the prologue was put in. -/
def home (prologue : Prologue) (blocks : Nat) (id : BlockId) : BlockId :=
  match prologue with
  | bare | counted _ => id
  | reported .. => if id = Func.entry then blocks else id

theorem home_of_ne (prologue : Prologue) (blocks : Nat) {id : BlockId}
    (inner : id ≠ Func.entry) : prologue.home blocks id = id := by
  cases prologue with
  | bare => rfl
  | counted previous => rfl
  | reported reporter previous current hit => exact if_neg inner

/-- The values from `low` on and below `high` that a prologue defines are fresh. -/
def Fresh (prologue : Prologue) (low high : Nat) : Prop :=
  match prologue with
  | bare => True
  | counted previous => low ≤ previous ∧ previous < high
  | reported _ previous current hit =>
      (low ≤ previous ∧ previous < high) ∧ (low ≤ current ∧ current < high) ∧
        (low ≤ hit ∧ hit < high)

/-- The call of a reporter's routine. -/
def callback (reporter : Reporter) : Instr :=
  .call none (.address reporter.callback) (reporter.args.map .const)

/-- The block in which the decision to report is made. -/
def Decides (counter : Counter) (woven : Func) (blocks : Nat) (reporter : Reporter)
    (previous current hit : ValueId) : Prop :=
  ∃ head weights, woven.block? Func.entry = some head ∧
    head.instrs = Probe.prologue counter reporter.threshold previous current hit ∧
    head.terminator = .branch (.value hit) ⟨blocks + 1, []⟩ ⟨blocks, []⟩ weights

/-- The block from which the reporter's routine is called. -/
def Reports (woven : Func) (blocks : Nat) (reporter : Reporter) : Prop :=
  ∃ report, woven.block? (blocks + 1) = some report ∧ report.params = [] ∧
    report.instrs = [callback reporter] ∧ report.terminator = .jump ⟨blocks, []⟩

/-- The woven function begins with the prologue and goes on with what its entry block is
woven into. -/
def Begins (prologue : Prologue) (weave : Weave) (woven : Func) (blocks : Nat)
    (fresh : ValueId) (block : Block) : Prop :=
  match prologue with
  | bare => weave.Hosts woven Func.entry [] fresh Func.entry block
  | counted previous =>
      weave.Hosts woven Func.entry [Probe.countCall (weave.counter .calls) previous] fresh
        Func.entry block
  | reported reporter previous current hit =>
      Decides (weave.counter .calls) woven blocks reporter previous current hit ∧
        weave.Hosts woven blocks [] fresh Func.entry block ∧
        Reports woven blocks reporter

end Prologue

/-- `woven` is what a function becomes when a weave is worked into its blocks and an
prologue is put ahead of them.  `fresh` tells which value the branch probe of a block
uses. -/
structure Woven (weave : Weave) (prologue : Prologue) (fresh : BlockId → ValueId)
    (f woven : Func) : Prop where
  name_eq : woven.name = f.name
  params_eq : woven.params = f.params
  le_nextValue : f.nextValue ≤ woven.nextValue
  fresh_between : ∀ id block, f.block? id = some block → weave.branches = true →
    block.terminator.runtimeCondition?.isSome = true →
    f.nextValue ≤ fresh id ∧ fresh id < woven.nextValue
  prologue_fresh : prologue.Fresh f.nextValue woven.nextValue
  inner : ∀ id block, id ≠ Func.entry → f.block? id = some block →
    weave.Hosts woven id [] (fresh id) id block
  begins : ∀ block, f.block? Func.entry = some block →
    prologue.Begins weave woven f.blocks.size (fresh Func.entry) block

/-- Every block is found at its home, after some code that leads up to it. -/
theorem Woven.hosts {weave : Weave} {prologue : Prologue} {fresh : BlockId → ValueId}
    {f woven : Func} (isWoven : Woven weave prologue fresh f woven) {id : BlockId}
    {block : Block} (found : f.block? id = some block) :
    ∃ lead, weave.Hosts woven (prologue.home f.blocks.size id) lead (fresh id) id block := by
  by_cases outer : id = Func.entry
  · subst outer
    have begins := isWoven.begins block found
    cases prologue with
    | bare => exact ⟨[], begins⟩
    | counted previous => exact ⟨_, begins⟩
    | reported reporter previous current hit => exact ⟨[], begins.2.1⟩
  · rw [prologue.home_of_ne _ outer]
    exact ⟨[], isWoven.inner id block outer found⟩

end FlowProfile
