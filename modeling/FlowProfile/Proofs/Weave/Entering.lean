/-
# How a woven function begins

A prologue counts the call and, with a reporter, decides on the value that the counter had
in the moment of the addition.  Each of its steps is described by itself, for every world
that it may find, because other runs may come between any two of them.  What the first
step has read is kept in a value of the run and never read again from the counter.

For a run that is alone the steps are put together: it reaches the place where the
function itself would start.
-/

import FlowProfile.Proofs.Weave.Following

namespace FlowProfile

/-- The host after the routine of a reporter was called. -/
def Host.report (host : Host) (reporter : Reporter) : Host :=
  match host.routine? (.address reporter.callback) with
  | some routine =>
      (host.invoke (.address reporter.callback) routine (reporter.args.map Constant.value)).1
  | none => host

theorem Frame.readAll_const (frame : Frame) (constants : List Constant) :
    frame.readAll (constants.map .const) = .ok (constants.map Constant.value) := by
  induction constants with
  | nil => rfl
  | cons constant rest ih =>
      rw [List.map_cons, readAll, ih]
      rfl

namespace Machine

variable (g : Func) (weave : Weave) {values : Array (Option Int64)} (world : World)
  {reporter : Reporter} {previous current hit : ValueId} (block : BlockId) (rest : List Instr)

/-- The call is counted and the value from before is kept. -/
theorem step_countCall (inside : previous < values.size) :
    step g ⟨values, block, Probe.countCall (weave.counter .calls) previous :: rest⟩ world =
      .running
        ⟨values.setIfInBounds previous
          (some (world.counters.read (weave.counter .calls)).toInt64), block, rest⟩
        (weave.credit .calls 1 world) := by
  obtain ⟨counters, host⟩ := world
  have written (value : Int64) : (⟨values, block, rest⟩ : Frame).write previous value =
      .ok ⟨values.setIfInBounds previous (some value), block, rest⟩ := Frame.write_of_lt inside _
  apply step_of_execute
  rw [Probe.countCall, execute]
  exact congrArg (·, _) (written _)

/-- One is added to the value from before. -/
theorem step_increment {value : Int64} (held : values.getD previous none = some value)
    (inside : current < values.size) :
    step g ⟨values, block, .binop current .add (.value previous) Probe.one :: rest⟩ world =
      .running ⟨values.setIfInBounds current (some (value + 1)), block, rest⟩ world := by
  have read : (⟨values, block, rest⟩ : Frame).read (.value previous) = .ok value := by
    rw [Frame.read_value, held]
  apply step_of_execute
  rw [execute, read]
  exact congrArg (·, world) (Frame.write_of_lt inside _)

/-- The sum is compared with the threshold. -/
theorem step_compare (threshold : Int64) {value : Int64} (held : values.getD current none = some value)
    (inside : hit < values.size) :
    step g ⟨values, block, .binop hit .eq (.value current) (.const (.word threshold)) :: rest⟩
        world =
      .running ⟨values.setIfInBounds hit (some (BinOp.ofTruth (value = threshold))), block, rest⟩
        world := by
  have read : (⟨values, block, rest⟩ : Frame).read (.value current) = .ok value := by
    rw [Frame.read_value, held]
  apply step_of_execute
  rw [execute, read]
  exact congrArg (·, world) (Frame.write_of_lt inside _)

/-- An edge without arguments leads to a block without parameters. -/
theorem follow_plain {g : Func} {frame : Frame} {target : BlockId} {image : Block}
    (found : g.block? target = some image) (params : image.params = []) :
    frame.follow g ⟨target, []⟩ = .ok ⟨frame.values, target, image.instrs⟩ := by
  rw [Frame.follow, found]
  simp [params, Frame.readAll, Frame.writeAll]

/-- The comparison decides whether the block that reports is entered. -/
theorem step_decide {g : Func} {block : BlockId} {head report rest : Block}
    {calm alarm : BlockId} {weights : Option Weights}
    (found : g.block? block = some head)
    (flow : head.terminator = .branch (.value hit) ⟨alarm, []⟩ ⟨calm, []⟩ weights)
    (foundReport : g.block? alarm = some report) (paramsReport : report.params = [])
    (foundRest : g.block? calm = some rest) (paramsRest : rest.params = [])
    {truth : Bool} (held : values.getD hit none = some (BinOp.ofTruth truth)) :
    step g ⟨values, block, []⟩ world =
      .running (if truth then ⟨values, alarm, report.instrs⟩ else ⟨values, calm, rest.instrs⟩)
        world := by
  have read : (⟨values, block, []⟩ : Frame).read (.value hit) = .ok (BinOp.ofTruth truth) := by
    rw [Frame.read_value, held]
  have finished : (⟨values, block, []⟩ : Frame).finishBlock g head.terminator =
      .ok (.inl (if truth then ⟨values, alarm, report.instrs⟩
        else ⟨values, calm, rest.instrs⟩)) := by
    rw [flow, Frame.finishBlock, Frame.chooses, read]
    cases truth with
    | true =>
        show (Frame.follow g ⟨values, block, []⟩ ⟨alarm, []⟩).map Sum.inl = _
        rw [follow_plain foundReport paramsReport]
        rfl
    | false =>
        show (Frame.follow g ⟨values, block, []⟩ ⟨calm, []⟩).map Sum.inl = _
        rw [follow_plain foundRest paramsRest]
        rfl
  rw [step_of_block found, finished]

variable (values)

/-- The routine of the reporter is called with the annotated literals. -/
theorem step_callback
    (registered : (world.host.routine? (.address reporter.callback)).isSome = true) :
    step g ⟨values, block, Prologue.callback reporter :: rest⟩ world =
      .running ⟨values, block, rest⟩ ⟨world.counters, world.host.report reporter⟩ := by
  obtain ⟨counters, host⟩ := world
  obtain ⟨routine, found⟩ := Option.isSome_iff_exists.mp registered
  apply step_of_execute
  rw [Prologue.callback, execute, Host.resolve, found]
  simp only [Frame.readAll_const, Host.report, found]
  rfl

/-- A reporter whose routine is not registered fails the run. -/
theorem step_callback_unregistered
    (unregistered : world.host.routine? (.address reporter.callback) = none) :
    step g ⟨values, block, Prologue.callback reporter :: rest⟩ world =
      .failed (.unknownAddress reporter.callback) world := by
  obtain ⟨counters, host⟩ := world
  apply step_of_execute_error
  rw [Prologue.callback, execute, Host.resolve, unregistered]
  rfl

/-- After the report the run goes where it would have gone without. -/
theorem step_leave {g : Func} {block : BlockId} {report rest : Block} {calm : BlockId}
    (found : g.block? block = some report) (flow : report.terminator = .jump ⟨calm, []⟩)
    (foundRest : g.block? calm = some rest) (paramsRest : rest.params = []) :
    step g ⟨values, block, []⟩ world = .running ⟨values, calm, rest.instrs⟩ world := by
  rw [step_of_block found, flow, Frame.finishBlock, follow_plain foundRest paramsRest]
  rfl

end Machine

/-! ## A run that is alone -/

namespace Prologue

/-- The reporter whose routine a run is to call, seen from the counters at its start. -/
def fires? (prologue : Prologue) (weave : Weave) (counters : Counters) : Option Reporter :=
  match prologue with
  | bare | counted _ => none
  | reported reporter _ _ _ =>
      if (counters.read (weave.counter .calls)).toInt64 + 1 = reporter.threshold then
        some reporter
      else none

/-- The number of steps before a run is where the function itself would start. -/
def cost (prologue : Prologue) (fired : Option Reporter) : Nat :=
  match prologue with
  | bare => 0
  | counted _ => 1
  | reported .. => if fired.isSome then 6 else 4

/-- What the prologue adds to the counters. -/
def ledger : Prologue → Ledger
  | bare => []
  | counted _ | reported .. => [(.calls, 1)]

end Prologue

namespace Woven

variable {weave : Weave} {prologue : Prologue} {fresh : BlockId → ValueId} {f woven : Func}
  {values values' : Array (Option Int64)} {world : World} {head : Block}

/-- Both functions begin with the values of the arguments, if there are as many as they
take. -/
theorem starts (isWoven : Woven weave prologue fresh f woven) (sound : f.WellFormed)
    {args : List Int64} (arity : args.length = f.params.length) :
    ∃ head image values values', f.block? Func.entry = some head ∧
      woven.block? Func.entry = some image ∧
      Frame.start f args = .ok ⟨values, Func.entry, head.instrs⟩ ∧
      Frame.start woven args = .ok ⟨values', Func.entry, image.instrs⟩ ∧
      Covers f.nextValue values values' ∧ values'.size = woven.nextValue := by
  obtain ⟨head, entered, -⟩ := sound.entry_params
  have begins := isWoven.begins head entered
  obtain ⟨image, found⟩ : ∃ image, woven.block? Func.entry = some image := by
    cases prologue with
    | bare =>
        obtain ⟨image, found, -⟩ := begins
        exact ⟨image, found⟩
    | counted previous =>
        obtain ⟨image, found, -⟩ := begins
        exact ⟨image, found⟩
    | reported reporter previous current hit =>
        obtain ⟨⟨image, weights, found, -⟩, -⟩ := begins
        exact ⟨image, found⟩
  rw [Frame.start, Frame.start, isWoven.name_eq, isWoven.params_eq]
  simp only [arity, ne_eq, not_true_eq_false, if_false, entered, found]
  have inside : ∀ pair ∈ f.params.zip args, pair.1 < f.nextValue := by
    intro pair mem
    exact sound.param_lt (List.of_mem_zip mem).1
  have covers : Covers f.nextValue
      (⟨Array.replicate f.nextValue none, Func.entry, []⟩ : Frame).values
      (⟨Array.replicate woven.nextValue none, Func.entry, []⟩ : Frame).values :=
    covers_replicate isWoven.le_nextValue
  obtain ⟨values, values', written, written', covers', size⟩ :=
    Frame.writeAll_covered covers inside
  simp only [written, written']
  exact ⟨head, image, values, values', rfl, rfl, rfl, rfl, covers',
    size.trans Array.size_replicate⟩

/-- Both functions take the same arguments, and begin with the same values. -/
theorem start (isWoven : Woven weave prologue fresh f woven) (sound : f.WellFormed)
    (args : List Int64) :
    (Frame.start f args = .error (.functionArity f.name f.params.length args.length) ∧
        Frame.start woven args = .error (.functionArity f.name f.params.length args.length)) ∨
      ∃ head image values values', f.block? Func.entry = some head ∧
        woven.block? Func.entry = some image ∧
        Frame.start f args = .ok ⟨values, Func.entry, head.instrs⟩ ∧
        Frame.start woven args = .ok ⟨values', Func.entry, image.instrs⟩ ∧
        Covers f.nextValue values values' ∧ values'.size = woven.nextValue := by
  by_cases arity : args.length = f.params.length
  · exact .inr (isWoven.starts sound arity)
  · left
    have refused (counted : f.params.length ≠ args.length) (g : Func) (name_eq : g.name = f.name)
        (params_eq : g.params = f.params) :
        Frame.start g args = .error (.functionArity f.name f.params.length args.length) := by
      rw [Frame.start, name_eq, params_eq, if_pos counted]
    exact ⟨refused (Ne.symm arity) f rfl rfl,
      refused (Ne.symm arity) woven isWoven.name_eq isWoven.params_eq⟩

end Woven

/-- A run of the woven function gets from its start to the function's own code. -/
structure Weave.Enters (weave : Weave) (prologue : Prologue) (fresh : BlockId → ValueId)
    (f woven : Func) (frame frame' : Frame) (world : World) (next : Frame) (world' : World) :
    Prop where
  passes : ∃ path, Machine.Passes woven (prologue.cost (prologue.fires? weave world.counters))
      frame' world path (.running next world') ∧
    ∀ middle ∈ path, middle.namedCall? = none ∧ (middle.rest ≠ [] ∨
      ∀ id < f.blocks.size, middle.block ≠ prologue.home f.blocks.size id)
  follows : weave.Follows prologue fresh f woven frame next
  host_eq : world'.host =
    match prologue.fires? weave world.counters with
    | some reporter => world.host.report reporter
    | none => world.host
  read_eq : ∀ counter, ¬ weave.Owns counter →
    world'.counters.read counter = world.counters.read counter
  grows : weave.Grows prologue.ledger world world'

namespace Woven

variable {weave : Weave} {fresh : BlockId → ValueId} {f woven : Func}
  {values values' : Array (Option Int64)} {world : World} {head image : Block}

/-- Where nothing is put ahead, a run is at the function's own code from the start. -/
theorem enters_bare (isWoven : Woven weave .bare fresh f woven)
    (entered : f.block? Func.entry = some head) (found : woven.block? Func.entry = some image)
    (covers : Covers f.nextValue values values') (size : values'.size = woven.nextValue) :
    weave.Enters .bare fresh f woven ⟨values, Func.entry, head.instrs⟩
      ⟨values', Func.entry, image.instrs⟩ world ⟨values', Func.entry, image.instrs⟩ world := by
  obtain ⟨image', found', -, instrs, -⟩ := isWoven.begins head entered
  obtain rfl : image = image' := Option.some.inj (found.symm.trans found')
  exact
    { passes := ⟨[], .refl .., by simp⟩
      follows := ⟨⟨head, entered, List.suffix_refl _, instrs⟩, rfl, covers, size⟩
      host_eq := rfl
      read_eq := fun _ _ => rfl
      grows := .refl world }

/-- Without a reporter, a run counts itself and is at the function's own code. -/
theorem enters_counted {previous : ValueId} (world : World)
    (isWoven : Woven weave (.counted previous) fresh f woven)
    (entered : f.block? Func.entry = some head) (found : woven.block? Func.entry = some image)
    (covers : Covers f.nextValue values values') (size : values'.size = woven.nextValue) :
    ∃ next, weave.Enters (.counted previous) fresh f woven ⟨values, Func.entry, head.instrs⟩
      ⟨values', Func.entry, image.instrs⟩ world next (weave.credit .calls 1 world) := by
  obtain ⟨image', found', -, instrs, -⟩ := isWoven.begins head entered
  obtain rfl : image = image' := Option.some.inj (found.symm.trans found')
  obtain ⟨low, high⟩ := isWoven.prologue_fresh
  have code : image.instrs = Probe.countCall (weave.counter .calls) previous ::
      weave.code (fresh Func.entry) Func.entry head.terminator head.instrs := instrs
  have counts := Machine.step_countCall woven weave world Func.entry
    (weave.code (fresh Func.entry) Func.entry head.terminator head.instrs)
    (size ▸ high : previous < values'.size)
  rw [code]
  refine ⟨_, ⟨_, .single counts, ?_⟩, ?_, rfl, (Weave.agrees_credit _ _ world).read_eq,
    weave.grows_credit _ _ world⟩
  · intro middle mem
    rw [List.mem_singleton.mp mem]
    exact ⟨rfl, .inl (List.cons_ne_nil _ _)⟩
  · exact ⟨⟨head, entered, List.suffix_refl _, rfl⟩, rfl, covers.setBeyond low _,
      Array.size_setIfInBounds.trans size⟩

section

variable {reporter : Reporter} {previous current hit : ValueId}

/-- The values of a run that has decided whether to report. -/
def decided (reporter : Reporter) (previous current hit : ValueId)
    (values : Array (Option Int64)) (before : Int64) : Array (Option Int64) :=
  ((values.setIfInBounds previous (some before)).setIfInBounds current
    (some (before + 1))).setIfInBounds hit
      (some (BinOp.ofTruth (before + 1 = reporter.threshold)))

/-- The blocks that the decision leads to. -/
theorem after_decision (isWoven : Woven weave (.reported reporter previous current hit) fresh f woven)
    (sound : f.WellFormed) (entered : f.block? Func.entry = some head) :
    (∃ rest, woven.block? f.blocks.size = some rest ∧ rest.params = [] ∧
        rest.instrs = weave.code (fresh Func.entry) Func.entry head.terminator head.instrs) ∧
      ∃ report, woven.block? (f.blocks.size + 1) = some report ∧ report.params = [] ∧
        report.instrs = [Prologue.callback reporter] ∧
        report.terminator = .jump ⟨f.blocks.size, []⟩ := by
  obtain ⟨-, ⟨rest, foundRest, params, instrs, -⟩, reports⟩ := isWoven.begins head entered
  obtain ⟨head', entered', noParams⟩ := sound.entry_params
  obtain rfl : head = head' := Option.some.inj (entered.symm.trans entered')
  exact ⟨⟨rest, foundRest, params.trans noParams, instrs⟩, reports⟩

/-- With a reporter, a run counts itself and decides by the value from before. -/
theorem decides (isWoven : Woven weave (.reported reporter previous current hit) fresh f woven)
    (sound : f.WellFormed) (entered : f.block? Func.entry = some head)
    (found : woven.block? Func.entry = some image) (size : values'.size = woven.nextValue)
    (world : World) {before : Int64}
    (counted : (world.counters.read (weave.counter .calls)).toInt64 = before) :
    ∃ path, Machine.Passes woven 4 ⟨values', Func.entry, image.instrs⟩ world path
        (.running
          (if before + 1 = reporter.threshold then
            ⟨decided reporter previous current hit values' before, f.blocks.size + 1,
              [Prologue.callback reporter]⟩
          else
            ⟨decided reporter previous current hit values' before, f.blocks.size,
              weave.code (fresh Func.entry) Func.entry head.terminator head.instrs⟩)
          (weave.credit .calls 1 world)) ∧
      ∀ middle ∈ path, middle.block = Func.entry ∧ middle.namedCall? = none := by
  obtain ⟨⟨image', weights, found', instrs, flow⟩, -⟩ := isWoven.begins head entered
  obtain rfl : image = image' := Option.some.inj (found.symm.trans found')
  obtain ⟨⟨-, insidePrevious⟩, ⟨-, insideCurrent⟩, ⟨-, insideHit⟩⟩ := isWoven.prologue_fresh
  obtain ⟨⟨rest, foundRest, paramsRest, code⟩, report, foundReport, paramsReport, call, -⟩ :=
    isWoven.after_decision sound entered
  rw [← size] at insidePrevious insideCurrent insideHit
  let counting := values'.setIfInBounds previous (some before)
  let summing := counting.setIfInBounds current (some (before + 1))
  have sizeCounting : counting.size = values'.size := Array.size_setIfInBounds
  have sizeSumming : summing.size = values'.size := Array.size_setIfInBounds.trans sizeCounting
  have first := Machine.step_countCall woven weave world Func.entry
    [.binop current .add (.value previous) Probe.one,
      .binop hit .eq (.value current) (.const (.word reporter.threshold))] insidePrevious
  have heldPrevious : counting.getD previous none = some before := by
    rw [getD_setIfInBounds, if_pos ⟨rfl, insidePrevious⟩]
  have second := Machine.step_increment woven (weave.credit .calls 1 world) Func.entry
    [.binop hit .eq (.value current) (.const (.word reporter.threshold))] heldPrevious
    (sizeCounting ▸ insideCurrent)
  have heldCurrent : summing.getD current none = some (before + 1) := by
    rw [getD_setIfInBounds, if_pos ⟨rfl, sizeCounting ▸ insideCurrent⟩]
  have third := Machine.step_compare woven (weave.credit .calls 1 world) Func.entry []
    reporter.threshold heldCurrent (sizeSumming ▸ insideHit)
  have heldHit : (decided reporter previous current hit values' before).getD hit none =
      some (BinOp.ofTruth (before + 1 = reporter.threshold)) := by
    rw [decided, getD_setIfInBounds, if_pos ⟨rfl, sizeSumming ▸ insideHit⟩]
  have fourth := Machine.step_decide (weave.credit .calls 1 world) found flow foundReport
    paramsReport foundRest paramsRest heldHit
  rw [counted] at first
  rw [call, code] at fourth
  have all := (((Machine.Passes.single first).trans (.single second)).trans (.single third)).trans
    (.single fourth)
  simp only [decide_eq_true_eq] at all
  rw [instrs]
  refine ⟨_, all, ?_⟩
  intro middle mem
  simp only [List.mem_append, List.mem_singleton] at mem
  rcases mem with ((rfl | rfl) | rfl) | rfl <;> exact ⟨rfl, rfl⟩

theorem covers_decided (covers : Covers f.nextValue values values')
    (isWoven : Woven weave (.reported reporter previous current hit) fresh f woven)
    (before : Int64) :
    Covers f.nextValue values (decided reporter previous current hit values' before) ∧
      (decided reporter previous current hit values' before).size = values'.size := by
  obtain ⟨⟨lowPrevious, -⟩, ⟨lowCurrent, -⟩, ⟨lowHit, -⟩⟩ := isWoven.prologue_fresh
  constructor
  · exact ((covers.setBeyond lowPrevious _).setBeyond lowCurrent _).setBeyond lowHit _
  · simp only [decided, Array.size_setIfInBounds]

/-- The blocks of the prologue are nobody's home. -/
theorem home_reported_ne (reporter : Reporter) (previous current hit : ValueId) {blocks : Nat}
    {id : BlockId} (inside : id < blocks) :
    (Prologue.reported reporter previous current hit).home blocks id ≠ Func.entry ∧
      (Prologue.reported reporter previous current hit).home blocks id ≠ blocks + 1 := by
  have pos : 0 < blocks := Nat.lt_of_le_of_lt (Nat.zero_le id) inside
  rw [Prologue.home]
  split
  · exact ⟨Nat.ne_of_gt pos, Nat.ne_of_lt (Nat.lt_succ_self blocks)⟩
  · next outer => exact ⟨outer, Nat.ne_of_lt (Nat.lt_succ_of_lt inside)⟩

/-- With a reporter, a run counts itself, reports if it is the one to do so, and is at the
function's own code. -/
theorem enters_reported
    (isWoven : Woven weave (.reported reporter previous current hit) fresh f woven)
    (sound : f.WellFormed) (entered : f.block? Func.entry = some head)
    (found : woven.block? Func.entry = some image)
    (covers : Covers f.nextValue values values') (size : values'.size = woven.nextValue)
    (registered : Prologue.fires? (.reported reporter previous current hit) weave world.counters =
        some reporter →
      (world.host.routine? (.address reporter.callback)).isSome = true) :
    ∃ next world', weave.Enters (.reported reporter previous current hit) fresh f woven
      ⟨values, Func.entry, head.instrs⟩ ⟨values', Func.entry, image.instrs⟩ world next world' := by
  obtain ⟨path, passes, inEntry⟩ := isWoven.decides sound entered found size world rfl
  obtain ⟨⟨rest, foundRest, paramsRest, code⟩, report, foundReport, -, call, flow⟩ :=
    isWoven.after_decision sound entered
  obtain ⟨covers', size'⟩ := covers_decided covers isWoven
    (world.counters.read (weave.counter .calls)).toInt64
  generalize decided reporter previous current hit values'
    (world.counters.read (weave.counter .calls)).toInt64 = ready at passes covers' size'
  have apart : ∀ middle ∈ path, middle.namedCall? = none ∧ (middle.rest ≠ [] ∨
      ∀ id < f.blocks.size, middle.block ≠
        (Prologue.reported reporter previous current hit).home f.blocks.size id) := by
    intro middle mem
    refine ⟨(inEntry middle mem).2, .inr fun id inside => ?_⟩
    rw [(inEntry middle mem).1]
    exact (home_reported_ne reporter previous current hit inside).1.symm
  have follows : weave.Follows (.reported reporter previous current hit) fresh f woven
      ⟨values, Func.entry, head.instrs⟩
      ⟨ready, f.blocks.size,
        weave.code (fresh Func.entry) Func.entry head.terminator head.instrs⟩ :=
    ⟨⟨head, entered, List.suffix_refl _, rfl⟩, rfl, covers', size'.trans size⟩
  have grows := weave.grows_credit .calls 1 world
  have untouched := (weave.agrees_credit .calls 1 world).read_eq
  by_cases fires : (world.counters.read (weave.counter .calls)).toInt64 + 1 = reporter.threshold
  · have fired : Prologue.fires? (.reported reporter previous current hit) weave world.counters =
        some reporter := if_pos fires
    rw [if_pos fires] at passes
    have calls := Machine.step_callback woven ready (weave.credit .calls 1 world)
      (f.blocks.size + 1) [] (registered fired)
    have leaves := Machine.step_leave ready
      ⟨(weave.credit .calls 1 world).counters, world.host.report reporter⟩ foundReport flow
      foundRest paramsRest
    rw [code] at leaves
    have all := (passes.trans (.single calls)).trans (.single leaves)
    have steps : (Prologue.reported reporter previous current hit).cost
        (Prologue.fires? (.reported reporter previous current hit) weave world.counters) =
          4 + 1 + 1 := by
      rw [fired]
      rfl
    rw [← steps] at all
    refine ⟨_, ⟨_, world.host.report reporter⟩, ⟨_, all, ?_⟩, follows, ?_, untouched, grows⟩
    · intro middle mem
      simp only [List.mem_append, List.mem_singleton] at mem
      rcases mem with (early | rfl) | rfl
      · exact apart middle early
      · exact ⟨rfl, .inl (List.cons_ne_nil _ _)⟩
      · exact ⟨rfl, .inr fun id inside =>
          (home_reported_ne reporter previous current hit inside).2.symm⟩
    · rw [fired]
  · have silent : Prologue.fires? (.reported reporter previous current hit) weave world.counters =
        none := if_neg fires
    rw [if_neg fires] at passes
    refine ⟨_, _, ⟨path, ?_, apart⟩, follows, ?_, untouched, grows⟩
    · rw [silent]
      exact passes
    · rw [silent]
      rfl

/-- A run that is to report to a routine that is not registered fails. -/
theorem fails_reported
    (isWoven : Woven weave (.reported reporter previous current hit) fresh f woven)
    (sound : f.WellFormed) (entered : f.block? Func.entry = some head)
    (found : woven.block? Func.entry = some image) (size : values'.size = woven.nextValue)
    (fired : Prologue.fires? (.reported reporter previous current hit) weave world.counters =
      some reporter)
    (unregistered : world.host.routine? (.address reporter.callback) = none) :
    Machine.advance woven 5 ⟨values', Func.entry, image.instrs⟩ world =
      .failed (.unknownAddress reporter.callback) (weave.credit .calls 1 world) := by
  obtain ⟨path, passes, -⟩ := isWoven.decides sound entered found size world rfl
  have fires : (world.counters.read (weave.counter .calls)).toInt64 + 1 = reporter.threshold := by
    by_cases fires : (world.counters.read (weave.counter .calls)).toInt64 + 1 = reporter.threshold
    · exact fires
    · rw [Prologue.fires?, if_neg fires] at fired
      cases fired
  rw [if_pos fires] at passes
  rw [Machine.advance_add_of_running passes.advance_eq 1, Machine.advance_one]
  exact Machine.step_callback_unregistered woven _ _ _ _ unregistered

end

/-- A run of a woven function gets to the function's own code. -/
theorem enters {prologue : Prologue} (isWoven : Woven weave prologue fresh f woven)
    (sound : f.WellFormed) (entered : f.block? Func.entry = some head)
    (found : woven.block? Func.entry = some image)
    (covers : Covers f.nextValue values values') (size : values'.size = woven.nextValue)
    (registered : ∀ reporter, prologue.fires? weave world.counters = some reporter →
      (world.host.routine? (.address reporter.callback)).isSome = true) :
    ∃ next world', weave.Enters prologue fresh f woven ⟨values, Func.entry, head.instrs⟩
      ⟨values', Func.entry, image.instrs⟩ world next world' := by
  cases prologue with
  | bare => exact ⟨_, _, isWoven.enters_bare entered found covers size⟩
  | counted previous =>
      obtain ⟨next, entering⟩ := enters_counted world isWoven entered found covers size
      exact ⟨next, _, entering⟩
  | reported reporter previous current hit =>
      exact isWoven.enters_reported sound entered found covers size (registered reporter)

end Woven

end FlowProfile
