/-
# A run among others

Between any two steps of a run other runs may do whatever they do to the world.  So a run
is followed here through its phases, each of which says where the run stands and what it
has done, and nothing about the world.  A run waits, then has counted itself and decides
by the value that it found in that moment, and then is past its prologue for good.

`Woven.turns` is the one step of this: a turn leads from phase to phase, and what it does
to the world is one of three things.  It counts a call, it reports, or it is quiet.
-/

import FlowProfile.Proofs.Run.Interleaving
import FlowProfile.Proofs.Run.Likeness
import FlowProfile.Proofs.Weave.Inside
import FlowProfile.Proofs.Weave.Launching

namespace FlowProfile

namespace Prologue

/-- The reporter that the prologue may call. -/
def reporter? : Prologue → Option Reporter
  | bare | counted _ => none
  | reported reporter _ _ _ => some reporter

theorem reporter?_ofCalls {calls : Bool} {reporter : Option Reporter}
    (asked : calls = false → reporter = none) (next : ValueId) :
    (ofCalls calls reporter next).reporter? = reporter := by
  cases calls with
  | false =>
      rw [asked rfl]
      rfl
  | true => cases reporter <;> rfl

/-- The steps after which a run has reported if it is the one to do so. -/
def reach (prologue : Prologue) : Nat :=
  if prologue.reporter?.isSome then 5 else 1

/-- Where a run stands some steps after it has counted itself, and the values that it has
on the way to its decision. -/
inductive Stands (reporter : Reporter) (previous current hit : ValueId) (woven : Func)
    (blocks : Nat) (before : Int64) : Nat → Frame → Prop
  | counted {values : Array (Option Int64)} (size : values.size = woven.nextValue)
      (held : values.getD previous none = some before) :
      Stands reporter previous current hit woven blocks before 0
        ⟨values, Func.entry, [.binop current .add (.value previous) Probe.one,
          .binop hit .eq (.value current) (.const (.word reporter.threshold))]⟩
  | summed {values : Array (Option Int64)} (size : values.size = woven.nextValue)
      (held : values.getD current none = some (before + 1)) :
      Stands reporter previous current hit woven blocks before 1
        ⟨values, Func.entry,
          [.binop hit .eq (.value current) (.const (.word reporter.threshold))]⟩
  | compared {values : Array (Option Int64)}
      (held : values.getD hit none =
        some (BinOp.ofTruth (before + 1 = reporter.threshold))) :
      Stands reporter previous current hit woven blocks before 2 ⟨values, Func.entry, []⟩
  | alarmed {values : Array (Option Int64)} (due : before + 1 = reporter.threshold) :
      Stands reporter previous current hit woven blocks before 3
        ⟨values, blocks + 1, [callback reporter]⟩

/-- What a step does on the way to the decision: the run goes on deciding, or it comes to
the function's own code without a report, or it reports. -/
inductive Advances (reporter : Reporter) (previous current hit : ValueId) (woven : Func)
    (blocks : Nat) (code : List Instr) (before : Int64) :
    Nat → Frame → World → Frame → World → Prop
  | deciding {steps : Nat} {frame next : Frame} (world : World) (here : frame.block = Func.entry)
      (stands : Stands reporter previous current hit woven blocks before (steps + 1) next) :
      Advances reporter previous current hit woven blocks code before steps frame world next world
  | passes (values : Array (Option Int64)) (world : World)
      (undue : before + 1 ≠ reporter.threshold) :
      Advances reporter previous current hit woven blocks code before 2 ⟨values, Func.entry, []⟩
        world ⟨values, blocks, code⟩ world
  | reports (values : Array (Option Int64)) (world : World)
      (due : before + 1 = reporter.threshold) :
      Advances reporter previous current hit woven blocks code before 3
        ⟨values, blocks + 1, [callback reporter]⟩ world ⟨values, blocks + 1, []⟩
        ⟨world.counters, world.host.report reporter⟩

end Prologue

namespace Weave

variable (weave : Weave)

/-- The number of calls that were counted. -/
def entries (world : World) : UInt64 :=
  world.counters.read (weave.counter .calls)

/-- What is to be told of a run past its prologue.  It counts itself with its first step
and never again, and ahead of the function's own code it calls the reporter's routine if
that count has made it due.  From there on it never calls that routine. -/
def Account (reporter : Option Reporter) (f : Func) (moves : List Move) : Prop :=
  ∃ first ahead own, moves = first :: (ahead ++ own) ∧
    weave.entries first.after = weave.entries first.before + 1 ∧
    (∀ move ∈ ahead ++ own, weave.entries move.after = weave.entries move.before) ∧
    (first :: ahead).flatMap Move.calls =
      Reporter.callsAhead reporter (weave.entries first.before) ∧
    (reporter.isSome = true → ∀ move ∈ first :: ahead, ∀ id < f.blocks.size,
      move.frame.block ≠ f.home reporter id) ∧
    ∀ move ∈ own, ∀ call ∈ move.calls, ¬ Reporter.IsRoutine reporter call.1

/-- What a run has done on the way to its decision: it has counted itself, and it has not
left the entry block. -/
structure Undecided (first : Move) (ahead : List Move) : Prop where
  counts : weave.entries first.after = weave.entries first.before + 1
  still : ∀ move ∈ ahead, weave.entries move.after = weave.entries move.before
  silent : ∀ move ∈ first :: ahead, move.calls = []
  early : ∀ move ∈ first :: ahead, move.frame.block = Func.entry

/-- How far a run has got: whether it has counted itself, and whether it still has to
report. -/
inductive Status
  | waiting
  | deciding (due : Bool)
  | past

/-- Whether a run has counted itself. -/
def Status.hasStarted : Status → Bool
  | waiting => false
  | deciding _ | past => true

/-- Whether a run still owes a report. -/
def Status.owes : Status → Bool
  | waiting | past => false
  | deciding due => due

/-- A run past its prologue is over, or at the function's own code, or about to leave the
block from which it has reported. -/
def Beyond (prologue : Prologue) (fresh : BlockId → ValueId) (f : Func) (strand : Strand) :
    Prop :=
  ∀ limit left frame, strand = .going limit left frame →
    weave.Inside prologue fresh f frame ∨
      prologue.reporter?.isSome = true ∧ frame.block = f.blocks.size + 1 ∧ frame.rest = []

/-- What a run has done and where it stands, phase by phase. -/
inductive Phase (prologue : Prologue) (fresh : BlockId → ValueId) (f woven : Func)
    (limit : Nat) : List Move → Strand → Status → Prop
  | waiting {values : Array (Option Int64)} {image : Block}
      (found : woven.block? Func.entry = some image) (size : values.size = woven.nextValue) :
      Phase prologue fresh f woven limit [] (.going limit limit ⟨values, Func.entry, image.instrs⟩)
        .waiting
  | deciding {reporter : Reporter} {previous current hit : ValueId}
      (isReported : prologue = .reported reporter previous current hit)
      {first : Move} {ahead : List Move} {left : Nat} {frame : Frame}
      (undecided : weave.Undecided first ahead)
      (spent : left + (ahead.length + 1) = limit)
      (stands : Prologue.Stands reporter previous current hit woven f.blocks.size
        (weave.entries first.before).toInt64 ahead.length frame) :
      Phase prologue fresh f woven limit (first :: ahead) (.going limit left frame)
        (.deciding ((weave.entries first.before).toInt64 + 1 == reporter.threshold))
  | past {moves : List Move} {strand : Strand}
      (account : weave.Account prologue.reporter? f moves)
      (beyond : weave.Beyond prologue fresh f strand) :
      Phase prologue fresh f woven limit moves strand .past

/-- What a turn does to the world, as its run goes from one status to another. -/
inductive Turn (reporter : Option Reporter) : Status → Status → World → World → Prop
  | counts {status : Status} {world world' : World} (host_eq : world'.host = world.host)
      (read_eq : weave.entries world' = weave.entries world + 1)
      (started : status.hasStarted = true)
      (owed : status.owes.toNat = (Reporter.callsAhead reporter (weave.entries world)).length) :
      Turn reporter .waiting status world world'
  | quiet {status status' : Status} {world world' : World}
      (quiet : weave.Quiet reporter world world')
      (started : status'.hasStarted = status.hasStarted) (owed : status'.owes = status.owes) :
      Turn reporter status status' world world'
  | reports {used : Reporter} {world world' : World} (asked : reporter = some used)
      (counters_eq : world'.counters = world.counters)
      (calls_eq : world'.host.calls = used.call :: world.host.calls)
      (kept : ∀ callee,
        (world'.host.routine? callee).isSome = (world.host.routine? callee).isSome) :
      Turn reporter (.deciding true) .past world world'

end Weave

theorem Weave.Beyond.of_ended {weave : Weave} {prologue : Prologue}
    {fresh : BlockId → ValueId} {f : Func} (result : Except Error (Option Int64)) :
    weave.Beyond prologue fresh f (.ended result) := by
  intro limit left frame same
  cases same

/-! ## Turn by turn -/

/-- What holds of all steps so far and of one more holds of them together. -/
theorem forall_mem_concat {α : Type} {property : α → Prop} {list : List α} {last : α}
    (before : ∀ item ∈ list, property item) (here : property last) :
    ∀ item ∈ list ++ [last], property item := by
  intro item mem
  rcases List.mem_append.mp mem with earlier | late
  · exact before item earlier
  · rw [List.mem_singleton.mp late]
    exact here

section

variable {weave : Weave} {reporter : Option Reporter} {f : Func} {first last : Move}
  {ahead moves : List Move}

/-- One more step in the entry block that changes nothing. -/
theorem Weave.Undecided.later (undecided : weave.Undecided first ahead)
    (idle : last.after = last.before) (here : last.frame.block = Func.entry) :
    weave.Undecided first (ahead ++ [last]) where
  counts := undecided.counts
  still := forall_mem_concat undecided.still (by rw [idle])
  silent := by
    rw [← List.cons_append]
    exact forall_mem_concat undecided.silent (Move.calls_eq (by rw [idle]; rfl))
  early := by
    rw [← List.cons_append]
    exact forall_mem_concat undecided.early here

/-- The account of a run that is past its prologue with the step it has just taken, which
is the only one in which it may have made a call. -/
theorem Weave.Undecided.account (undecided : weave.Undecided first ahead)
    (aside : ∀ id < f.blocks.size, f.home reporter id ≠ Func.entry)
    (still : weave.entries last.after = weave.entries last.before)
    (calls : last.calls = Reporter.callsAhead reporter (weave.entries first.before))
    (outside : ∀ id < f.blocks.size, last.frame.block ≠ f.home reporter id) :
    weave.Account reporter f (first :: ahead ++ [last]) := by
  refine ⟨first, ahead ++ [last], [], ?_, undecided.counts, ?_, ?_, ?_, nofun⟩
  · rw [List.append_nil, List.cons_append]
  · rw [List.append_nil]
    exact forall_mem_concat undecided.still still
  · rw [← List.cons_append, List.flatMap_append, List.flatMap_eq_nil_iff.mpr undecided.silent,
      List.flatMap_singleton, List.nil_append, calls]
  · intro _
    have before : ∀ move ∈ first :: ahead, ∀ id < f.blocks.size,
        move.frame.block ≠ f.home reporter id := by
      intro move mem id inside
      rw [undecided.early move mem]
      exact (aside id inside).symm
    rw [← List.cons_append]
    exact forall_mem_concat before outside

/-- One more step that neither counts nor calls the reporter's routine. -/
theorem Weave.Account.later (account : weave.Account reporter f moves)
    (still : weave.entries last.after = weave.entries last.before)
    (apart : ∀ call ∈ last.calls, ¬ Reporter.IsRoutine reporter call.1) :
    weave.Account reporter f (moves ++ [last]) := by
  obtain ⟨first, ahead, own, rfl, counts, steady, calls, early, quiet⟩ := account
  refine ⟨first, ahead, own ++ [last], ?_, counts, ?_, calls, early, ?_⟩
  · rw [List.cons_append, List.append_assoc]
  · rw [← List.append_assoc]
    exact forall_mem_concat steady still
  · exact forall_mem_concat quiet apart

end

theorem Host.isSome_routine?_report (host : Host) (reporter : Reporter) (callee : Callee) :
    ((host.report reporter).routine? callee).isSome = (host.routine? callee).isSome := by
  unfold report
  split
  · exact isSome_routine?_invoke ..
  · rfl

theorem Prologue.home_eq (prologue : Prologue) (f : Func) (id : BlockId) :
    prologue.home f.blocks.size id = f.home prologue.reporter? id := by
  cases prologue with
  | bare => rfl
  | counted previous => rfl
  | reported reporter previous current hit => simp [home, Func.home, reporter?]

theorem Reporter.callsAhead_some (reporter : Reporter) (calls : UInt64) :
    callsAhead (some reporter) calls =
      if calls.toInt64 + 1 = reporter.threshold then [reporter.call] else [] := by
  by_cases due : calls.toInt64 + 1 = reporter.threshold <;> simp [callsAhead, due?, due]

section

variable {weave : Weave} {prologue : Prologue} {fresh : BlockId → ValueId} {f woven : Func}
  {index limit left : Nat} {moves : List Move} {frame next : Frame} {world world' : World}
  {status status' : Weave.Status} {strand : Strand}

/-- What has become of a run after its turn. -/
def Weave.Turns (weave : Weave) (prologue : Prologue) (fresh : BlockId → ValueId)
    (f woven : Func) (limit index : Nat) (moves : List Move) (strand : Strand)
    (status : Weave.Status) (world : World) : Prop :=
  ∃ status', weave.Phase prologue fresh f woven limit
      (moves ++ strand.moves index world (strand.step woven world).2)
      (strand.step woven world).1 status' ∧
    weave.Turn prologue.reporter? status status' world (strand.step woven world).2

/-- A turn in which the run takes a step and goes on. -/
theorem Weave.Turns.of_running (stepped : Machine.step woven frame world = .running next world')
    (phase : weave.Phase prologue fresh f woven limit (moves ++ [⟨index, frame, world, world'⟩])
      (.going limit left next) status')
    (turn : weave.Turn prologue.reporter? status status' world world') :
    weave.Turns prologue fresh f woven limit index moves (.going limit (left + 1) frame) status
      world := by
  unfold Turns
  simp only [Strand.step, Strand.moves, stepped]
  exact ⟨status', phase, turn⟩

variable (isWoven : Woven weave prologue fresh f woven) (sound : f.WellFormed)

include isWoven sound

/-- A run that waits counts itself. -/
theorem Woven.turns_waiting (counts : prologue.counts = true) (enough : 1 ≤ limit)
    {values : Array (Option Int64)} {image : Block}
    (found : woven.block? Func.entry = some image) (size : values.size = woven.nextValue)
    (index : Nat) (world : World) :
    weave.Turns prologue fresh f woven limit index []
      (.going limit limit ⟨values, Func.entry, image.instrs⟩) .waiting world := by
  obtain ⟨left, rfl⟩ := Nat.exists_eq_add_of_le' enough
  obtain ⟨head, entered, -⟩ := sound.entry_params
  have begins := isWoven.begins head entered
  have counted : weave.entries (weave.credit .calls 1 world) = weave.entries world + 1 :=
    Counters.read_add_self ..
  have silent {frame : Frame} :
      (⟨index, frame, world, weave.credit .calls 1 world⟩ : Move).calls = [] :=
    Move.calls_eq rfl
  cases prologue with
  | bare => cases counts
  | counted previous =>
      obtain ⟨image', found', -, instrs, -⟩ := begins
      obtain rfl : image = image' := Option.some.inj (found.symm.trans found')
      obtain ⟨-, inside⟩ := isWoven.prologue_fresh
      rw [instrs]
      have stepped := Machine.step_countCall woven weave world Func.entry
        (weave.code (fresh Func.entry) Func.entry head.terminator head.instrs) (size ▸ inside)
      apply Weave.Turns.of_running stepped
      · apply Weave.Phase.past
        · exact ⟨_, [], [], rfl, counted, nofun, by simp [silent, Reporter.callsAhead,
            Reporter.due?, Prologue.reporter?], nofun, nofun⟩
        · intro limit left frame same
          cases same
          exact .inl ⟨Func.entry, head, entered, rfl, List.suffix_refl _⟩
      · exact .counts rfl counted rfl rfl
  | reported reporter previous current hit =>
      obtain ⟨⟨image', weights, found', instrs, -⟩, -⟩ := begins
      obtain rfl : image = image' := Option.some.inj (found.symm.trans found')
      obtain ⟨⟨-, inside⟩, -⟩ := isWoven.prologue_fresh
      rw [instrs]
      have stepped := Machine.step_countCall woven weave world Func.entry
        [.binop current .add (.value previous) Probe.one,
          .binop hit .eq (.value current) (.const (.word reporter.threshold))] (size ▸ inside)
      apply Weave.Turns.of_running stepped
      · refine .deciding rfl ⟨counted, nofun, ?_, ?_⟩ rfl (.counted ?_ ?_)
        · intro move mem
          rw [List.mem_singleton.mp mem]
          exact silent
        · intro move mem
          rw [List.mem_singleton.mp mem]
        · exact Array.size_setIfInBounds.trans size
        · rw [getD_setIfInBounds, if_pos ⟨rfl, size ▸ inside⟩]
          rfl
      · refine .counts rfl counted rfl ?_
        rw [Prologue.reporter?, Reporter.callsAhead_some, Weave.Status.owes]
        by_cases due : (weave.entries world).toInt64 + 1 = reporter.threshold <;> simp [due]

section

variable {reporter : Reporter} {previous current hit : ValueId} {first : Move} {ahead : List Move}

omit isWoven sound in
/-- One silent step more in the entry block. -/
theorem Weave.Turns.of_silent (isReported : prologue = .reported reporter previous current hit)
    (undecided : weave.Undecided first ahead)
    (spent : left + 1 + (ahead.length + 1) = limit) (here : frame.block = Func.entry)
    (stepped : Machine.step woven frame world = .running next world)
    (stands : Prologue.Stands reporter previous current hit woven f.blocks.size
      (weave.entries first.before).toInt64 (ahead.length + 1) next) (index : Nat) :
    weave.Turns prologue fresh f woven limit index (first :: ahead)
      (.going limit (left + 1) frame)
      (.deciding ((weave.entries first.before).toInt64 + 1 == reporter.threshold)) world := by
  have length : (ahead ++ [(⟨index, frame, world, world⟩ : Move)]).length = ahead.length + 1 :=
    List.length_append
  have spent' : left + ((ahead ++ [(⟨index, frame, world, world⟩ : Move)]).length + 1) = limit := by
    rw [length, ← spent]
    omega
  apply Weave.Turns.of_running stepped
  · exact .deciding isReported (undecided.later rfl here) spent' (length ▸ stands)
  · exact .quiet (.refl weave _ world) rfl rfl

omit isWoven sound in
/-- No block of the function has its own code where the prologue decides or reports. -/
theorem Prologue.home_ne (isReported : prologue = .reported reporter previous current hit)
    {id : BlockId} (inside : id < f.blocks.size) :
    f.home prologue.reporter? id ≠ Func.entry ∧
      f.home prologue.reporter? id ≠ f.blocks.size + 1 := by
  rw [← prologue.home_eq, isReported]
  exact Woven.home_reported_ne reporter previous current hit inside

omit isWoven sound in
/-- A run that is due reports, and is past its prologue then. -/
theorem Weave.Turns.of_alarmed (isReported : prologue = .reported reporter previous current hit)
    (undecided : weave.Undecided first ahead)
    (due : (weave.entries first.before).toInt64 + 1 = reporter.threshold)
    (registered : (world.host.routine? (.address reporter.callback)).isSome = true)
    (values : Array (Option Int64)) (index : Nat) :
    weave.Turns prologue fresh f woven limit index (first :: ahead)
      (.going limit (left + 1) ⟨values, f.blocks.size + 1, [Prologue.callback reporter]⟩)
      (.deciding ((weave.entries first.before).toInt64 + 1 == reporter.threshold)) world := by
  have asked : prologue.reporter? = some reporter := by rw [isReported]; rfl
  have stepped := Machine.step_callback woven values world (f.blocks.size + 1) [] registered
  have calls : (world.host.report reporter).calls = reporter.call :: world.host.calls :=
    Host.calls_report registered
  apply Weave.Turns.of_running stepped
  · apply Weave.Phase.past
    · apply undecided.account (fun id inside => (Prologue.home_ne isReported inside).1) rfl
      · rw [asked, Reporter.callsAhead_some, if_pos due]
        exact Move.calls_eq calls
      · intro id inside
        exact (Prologue.home_ne isReported inside).2.symm
    · intro limit left frame same
      cases same
      exact .inr ⟨by rw [asked]; rfl, rfl, rfl⟩
  · rw [beq_iff_eq.mpr due]
    exact .reports asked rfl calls (Host.isSome_routine?_report world.host reporter)

/-- A run that decides gets on with it.  None of the function's own values is written. -/
theorem Woven.step_deciding (isReported : prologue = .reported reporter previous current hit)
    {head : Block} (entered : f.block? Func.entry = some head) {before : Int64} {steps : Nat}
    (stands : Prologue.Stands reporter previous current hit woven f.blocks.size before steps frame)
    (registered : (world.host.routine? (.address reporter.callback)).isSome = true) :
    ∃ next world', Machine.step woven frame world = .running next world' ∧
      SameBelow f.nextValue frame.values next.values ∧
      Prologue.Advances reporter previous current hit woven f.blocks.size
        (weave.code (fresh Func.entry) Func.entry head.terminator head.instrs) before steps frame
        world next world' := by
  subst isReported
  obtain ⟨⟨image, weights, found, -, flow⟩, -⟩ := isWoven.begins head entered
  obtain ⟨-, ⟨lowCurrent, insideCurrent⟩, ⟨lowHit, insideHit⟩⟩ := isWoven.prologue_fresh
  obtain ⟨⟨rest, foundRest, paramsRest, code⟩, report, foundReport, paramsReport, call, -⟩ :=
    isWoven.after_decision sound entered
  cases stands with
  | @counted values size held =>
      have stepped := Machine.step_increment woven world Func.entry
        [.binop hit .eq (.value current) (.const (.word reporter.threshold))] held
        (size ▸ insideCurrent)
      refine ⟨_, world, stepped, (SameBelow.refl ..).setBeyond lowCurrent _,
        .deciding world rfl (.summed ?_ ?_)⟩
      · exact Array.size_setIfInBounds.trans size
      · rw [getD_setIfInBounds, if_pos ⟨rfl, size ▸ insideCurrent⟩]
  | @summed values size held =>
      have stepped := Machine.step_compare woven world Func.entry [] reporter.threshold held
        (size ▸ insideHit)
      refine ⟨_, world, stepped, (SameBelow.refl ..).setBeyond lowHit _,
        .deciding world rfl (.compared ?_)⟩
      rw [getD_setIfInBounds, if_pos ⟨rfl, size ▸ insideHit⟩]
  | @compared values held =>
      have stepped := Machine.step_decide world found flow foundReport paramsReport foundRest
        paramsRest held
      simp only [decide_eq_true_eq] at stepped
      by_cases due : before + 1 = reporter.threshold
      · rw [if_pos due, call] at stepped
        exact ⟨_, world, stepped, .refl .., .deciding world rfl (.alarmed due)⟩
      · rw [if_neg due, code] at stepped
        exact ⟨_, world, stepped, .refl .., .passes values world due⟩
  | @alarmed values due =>
      have stepped := Machine.step_callback woven values world (f.blocks.size + 1) [] registered
      exact ⟨_, _, stepped, .refl .., .reports values world due⟩

/-- A run that decides gets on with it, and reports in the end if it has to. -/
theorem Woven.turns_deciding (isReported : prologue = .reported reporter previous current hit)
    (enough : 5 ≤ limit)
    (undecided : weave.Undecided first ahead)
    (spent : left + (ahead.length + 1) = limit)
    (stands : Prologue.Stands reporter previous current hit woven f.blocks.size
      (weave.entries first.before).toInt64 ahead.length frame)
    (registered : (world.host.routine? (.address reporter.callback)).isSome = true)
    (index : Nat) :
    weave.Turns prologue fresh f woven limit index (first :: ahead) (.going limit left frame)
      (.deciding ((weave.entries first.before).toInt64 + 1 == reporter.threshold)) world := by
  obtain ⟨head, entered, -⟩ := sound.entry_params
  have asked : prologue.reporter? = some reporter := by rw [isReported]; rfl
  obtain ⟨next, world', stepped, -, advances⟩ :=
    isWoven.step_deciding sound isReported entered stands registered
  generalize counted : ahead.length = number at stands advances
  obtain ⟨left, rfl⟩ : ∃ more, left = more + 1 := by
    cases left with
    | zero => cases stands <;> omega
    | succ left => exact ⟨left, rfl⟩
  cases advances with
  | deciding world here stands' =>
      exact .of_silent isReported undecided spent here stepped (counted ▸ stands') index
  | passes values world undue =>
      apply Weave.Turns.of_running stepped
      · apply Weave.Phase.past
        · apply undecided.account (fun id inside => (Prologue.home_ne isReported inside).1) rfl
          · rw [asked, Reporter.callsAhead_some, if_neg undue]
            exact Move.calls_eq rfl
          · intro id inside
            exact (Prologue.home_ne isReported inside).1.symm
        · intro limit left frame same
          cases same
          refine .inl ⟨Func.entry, head, entered, ?_, List.suffix_refl _⟩
          rw [isReported]
          rfl
      · refine .quiet (.refl weave _ world) rfl ?_
        rw [Weave.Status.owes, beq_eq_false_iff_ne.mpr undue]
        rfl
  | reports values world due =>
      exact .of_alarmed isReported undecided due registered values index

end

/-- From the block in which it has reported a run goes to the function's own code. -/
theorem Woven.leaves (asked : prologue.reporter?.isSome = true)
    (here : frame.block = f.blocks.size + 1) (done : frame.rest = []) (world : World) :
    ∃ next, Machine.step woven frame world = .running next world ∧
      weave.Inside prologue fresh f next := by
  obtain ⟨values, block, rest⟩ := frame
  obtain rfl : block = f.blocks.size + 1 := here
  obtain rfl : rest = [] := done
  cases prologue with
  | bare => cases asked
  | counted previous => cases asked
  | reported reporter previous current hit =>
      obtain ⟨head, entered, -⟩ := sound.entry_params
      obtain ⟨⟨rest, foundRest, paramsRest, code⟩, report, foundReport, -, -, flow⟩ :=
        isWoven.after_decision sound entered
      refine ⟨_, Machine.step_leave values world foundReport flow foundRest paramsRest, ?_⟩
      rw [code]
      exact ⟨Func.entry, head, entered, rfl, List.suffix_refl _⟩

/-- Past its prologue a run is quiet. -/
theorem Woven.turns_past (spares : ∀ counter ∈ f.counters, ¬ weave.Owns counter)
    (uncalled : ∀ callee, Reporter.IsRoutine prologue.reporter? callee → ¬ f.Calls callee)
    (account : weave.Account prologue.reporter? f moves)
    (beyond : weave.Beyond prologue fresh f strand) (index : Nat) (world : World) :
    weave.Turns prologue fresh f woven limit index moves strand .past world := by
  cases strand with
  | ended result =>
      refine ⟨.past, .past ?_ beyond, .quiet (.refl weave _ world) rfl rfl⟩
      rw [Strand.moves, List.append_nil]
      exact account
  | going budget left frame =>
      cases left with
      | zero =>
          refine ⟨.past, .past ?_ (.of_ended _), .quiet (.refl weave _ world) rfl rfl⟩
          rw [Strand.moves, List.append_nil]
          exact account
      | succ left =>
          obtain ⟨quiet, onward⟩ : weave.Quiet prologue.reporter? world
                (Machine.step woven frame world).world ∧
              ∀ next world', Machine.step woven frame world = .running next world' →
                weave.Inside prologue fresh f next := by
            rcases beyond budget (left + 1) frame rfl with inside | ⟨asked, here, done⟩
            · exact ⟨inside.quiet_step spares uncalled world,
                fun next world' => inside.next isWoven sound⟩
            · obtain ⟨next, stepped, inside⟩ := isWoven.leaves sound asked here done world
              rw [stepped]
              refine ⟨.refl weave _ world, fun place world' same => ?_⟩
              cases same
              exact inside
          refine ⟨.past, .past ?_ ?_, .quiet ?_ rfl rfl⟩
          · rw [Strand.world_of_step]
            obtain ⟨made, recorded, apart⟩ := quiet.made
            apply account.later
            · exact quiet.counted
            · rw [Move.calls_eq recorded]
              exact apart
          · intro limit' left' next goes
            obtain ⟨-, world', stepped⟩ := Strand.running_of_step goes
            exact .inl (onward next world' stepped)
          · rw [Strand.world_of_step]
            exact quiet

/-- Every turn of a run leads from one of its phases to another, and what it does to the
world is told by its status before and after. -/
theorem Woven.turns (spares : ∀ counter ∈ f.counters, ¬ weave.Owns counter)
    (uncalled : ∀ callee, Reporter.IsRoutine prologue.reporter? callee → ¬ f.Calls callee)
    (counts : prologue.counts = true) (enough : prologue.reach ≤ limit)
    (registered : ∀ callee, Reporter.IsRoutine prologue.reporter? callee →
      (world.host.routine? callee).isSome = true)
    (phase : weave.Phase prologue fresh f woven limit moves strand status) (index : Nat) :
    weave.Turns prologue fresh f woven limit index moves strand status world := by
  cases phase with
  | waiting found size =>
      have positive : 1 ≤ limit := by
        refine Nat.le_trans ?_ enough
        unfold Prologue.reach
        split
        · decide
        · decide
      exact isWoven.turns_waiting sound counts positive found size index world
  | @deciding reporter previous current hit isReported first ahead left frame undecided spent
      stands =>
      have asked : prologue.reporter? = some reporter := by rw [isReported]; rfl
      have reach : prologue.reach = 5 := by rw [Prologue.reach, asked]; rfl
      exact isWoven.turns_deciding sound isReported (reach ▸ enough) undecided spent stands
        (registered _ ⟨reporter, asked, rfl⟩) index
  | past account beyond =>
      exact isWoven.turns_past sound spares uncalled account beyond index world

end

end FlowProfile
