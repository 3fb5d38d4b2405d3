/-
# Runs of the sample workload

Runs of the compiled workload take turns.  For each of them a `Tab` is kept of what it has
added to the counters and of the inputs that it has drawn.  A turn changes the tab of one
run, by as much as it changes the counters and the calls that the host has recorded.

Once all runs are over, and none was cut off, each tab is that of a whole run.  What the
counters show is then the sum of these, and hence depends on the inputs only through the
number of odd ones.
-/

import FlowProfile.Proofs.CommandLine.Trips
import FlowProfile.Proofs.Run.Consecutive
import FlowProfile.Proofs.Weave.Crossing

namespace FlowProfile

theorem Covers.of_same {bound : Nat} {inner outer outer' : Array (Option Int64)}
    (covers : Covers bound inner outer) (same : SameBelow bound outer outer') :
    Covers bound inner outer' where
  size_eq := covers.size_eq
  le_size := same.size_eq ▸ covers.le_size
  same id below := (same.same id below).trans (covers.same id below)

/-- A list with an item that has got more parts has got these parts. -/
theorem flatMap_set_perm {α β : Type} (parts : α → List β) {list : List α} {index : Nat}
    {old new : α} {more : List β} (found : list[index]? = some old)
    (grown : parts new = more ++ parts old) :
    ((list.set index new).flatMap parts).Perm (more ++ list.flatMap parts) := by
  induction list generalizing index with
  | nil => cases found
  | cons head rest ih =>
      cases index with
      | zero =>
          cases found
          rw [List.set_cons_zero, List.flatMap_cons, List.flatMap_cons, grown, List.append_assoc]
      | succ index =>
          rw [List.set_cons_succ, List.flatMap_cons, List.flatMap_cons]
          exact ((ih found).append_left _).trans (List.perm_append_comm_assoc ..)

namespace Machine

/-- An instruction changes the host only by calling a routine. -/
theorem host_execute (instr : Instr) (frame : Frame) (world : World) :
    (execute instr frame world).2.host = world.host ∨
      ∃ result callee args routine values, instr = .call result callee args ∧
        (execute instr frame world).2.host = (world.host.invoke callee routine values).1 := by
  obtain ⟨counters, host⟩ := world
  cases instr with
  | const result constant => exact .inl rfl
  | binop result op lhs rhs =>
      left
      rw [execute]
      split
      · rfl
      · split
        · rfl
        · split <;> rfl
  | widen result operand =>
      left
      rw [execute]
      split <;> rfl
  | call result callee args =>
      rw [execute]
      split
      · exact .inl rfl
      · next routine resolved =>
          split
          · exact .inl rfl
          · next values read => exact .inr ⟨result, callee, args, routine, values, rfl, rfl⟩
  | count result changed amount order =>
      left
      rw [execute]
      split <;> rfl

end Machine

/-- What a step adds to a counter of the profile is what the counter has grown by. -/
theorem Weave.Grows.adds_eq {weave : Weave} {frame : Frame} {world after : World}
    {paid : Ledger} (grows : weave.Grows paid world after) {measure : Measure}
    (read : after.counters.read (weave.counter measure) =
      world.counters.read (weave.counter measure) + frame.adds (weave.counter measure)) :
    frame.adds (weave.counter measure) = paid.total measure :=
  add_left_cancel (read.symm.trans (grows measure))

namespace Workload

variable {source : Nat → List Int64 → Int64} {given : List Int64}

/-- A step that calls no routine by name draws no input. -/
theorem Attends.step {g : Func} {frame : Frame} {world : World}
    (attends : Attends source world.host given)
    (unnamed : ∀ first rest, frame.rest = first :: rest → first.calledSymbol? = none) :
    Attends source (Machine.step g frame world).world.host given := by
  obtain ⟨values, block, rest⟩ := frame
  cases rest with
  | nil =>
      rw [Machine.world_step_nil]
      exact attends
  | cons first rest =>
      rw [Machine.world_step_cons]
      rcases Machine.host_execute first ⟨values, block, rest⟩ world with
        same | ⟨result, callee, args, routine, values', rfl, called⟩
      · rw [same]
        exact attends
      · rw [called]
        refine attends.invoke ?_ routine values'
        rintro rfl
        cases unnamed _ rest rfl

/-! ## One run -/

/-- What is noted of a run: what it has added to the counters, and the inputs that it has
drawn. -/
structure Tab where
  spent : Measure → UInt64
  draws : List Int64

/-- Where a run stands that has this tab: ahead of the workload's own code, on the way to
the next step of the workload, or at its end. -/
inductive Stands (flags : Flags) (prologue : Prologue) (fresh : BlockId → ValueId) (f g : Func)
    (values : Array (Option Int64)) (count : Int64) : Tab → Strand → Prop
  | ahead {tab : Tab} {limit left : Nat} {frame : Frame} {counted : Bool}
      (ahead : prologue.Ahead f g values counted frame)
      (spent_eq : ∀ measure, tab.spent measure =
        if counted then prologue.toll (weave flags) ((weave flags).counter measure) else 0)
      (undrawn : tab.draws = []) :
      Stands flags prologue fresh f g values count tab (.going limit left frame)
  | own {tab : Tab} {limit left : Nat} {score : Score} {frame frame' : Frame} {due : Ledger}
      (stage : Stage count score tab.draws frame)
      (nears : (weave flags).Nears prologue fresh f g frame due frame')
      (spent_eq : ∀ measure, tab.spent measure + due.total measure =
        score.amount flags measure + ((weave flags).ledger f frame).total measure) :
      Stands flags prologue fresh f g values count tab (.going limit left frame')
  | returned {tab : Tab} (value : Option Int64) (all : tab.draws.length = trips count)
      (spent_eq : ∀ measure,
        tab.spent measure = ((Score.after tab.draws).ask false).amount flags measure) :
      Stands flags prologue fresh f g values count tab (.ended (.ok value))
  | exhausted (tab : Tab) (limit : Nat) :
      Stands flags prologue fresh f g values count tab
        (.ended (.error (.stepLimitExceeded limit)))

/-- What becomes of a run in its turn. -/
def Turns (source : Nat → List Int64 → Int64) (flags : Flags) (g : Func)
    (stands : Tab → Strand → Prop) (tab : Tab) (strand : Strand) (given : List Int64)
    (world : World) : Prop :=
  ∃ new,
    stands ⟨fun measure => tab.spent measure + strand.adds ((weave flags).counter measure),
        new ++ tab.draws⟩ (strand.step g world).1 ∧
      Attends source (strand.step g world).2.host (new ++ given)

section

variable {noted : Option Flags} {threshold : Option Int64} {flags : Flags} {prologue : Prologue}
  {fresh : BlockId → ValueId} {g : Func} {values : Array (Option Int64)} {count : Int64}
  {world : World} {tab : Tab} {strand : Strand}

/-- At no stage does the workload fail with its next step. -/
theorem Stage.goesOn {score : Score} {inputs : List Int64} {frame : Frame}
    (stage : Stage count score inputs frame) (attends : Attends source world.host given) :
    (weave flags).GoesOn (func noted threshold) frame world := by
  obtain ⟨counters, host⟩ := world
  intro error after failed
  have leads : Leads source flags count score inputs _ counters given
      (Machine.step (func noted threshold) ((weave flags).poised frame) ⟨counters, host⟩) :=
    stage.leads attends
  rw [failed] at leads
  cases leads

/-- The first step of the prologue, and those to its decision, call nothing by name. -/
theorem unnamed_of_ahead
    (isWoven : Woven (weave flags) prologue fresh (func noted threshold) g) {counted : Bool}
    {frame : Frame} (ahead : prologue.Ahead (func noted threshold) g values counted frame)
    {first : Instr} {rest : List Instr} (next : frame.rest = first :: rest) :
    first.calledSymbol? = none := by
  cases ahead with
  | waiting counts found =>
      have begins := isWoven.begins _ entry_func
      cases prologue with
      | bare => cases counts
      | counted previous =>
          obtain ⟨image, found', -, instrs, -⟩ := begins
          obtain rfl := Option.some.inj (found.symm.trans found')
          rw [instrs] at next
          cases next
          rfl
      | reported reporter previous current hit =>
          obtain ⟨⟨image, weights, found', instrs, -⟩, -⟩ := begins
          obtain rfl := Option.some.inj (found.symm.trans found')
          rw [instrs] at next
          cases next
          rfl
  | deciding isReported stands same =>
      cases stands with
      | counted size held => cases next; rfl
      | summed size held => cases next; rfl
      | compared held => cases next
      | alarmed due => cases next; rfl
  | reported isReported same => cases next

variable (isWoven : Woven (weave flags) prologue fresh (func noted threshold) g)

include isWoven

/-- A turn on the way to the next step of the workload. -/
theorem Stands.turn_own {limit left : Nat} {score : Score} {frame frame' : Frame} {due : Ledger}
    (stage : Stage count score tab.draws frame)
    (nears : (weave flags).Nears prologue fresh (func noted threshold) g frame due frame')
    (spent_eq : ∀ measure, tab.spent measure + due.total measure =
      score.amount flags measure +
        ((weave flags).ledger (func noted threshold) frame).total measure)
    (attends : Attends source world.host given) :
    Turns source flags g
      (Stands flags prologue fresh (func noted threshold) g values count) tab
      (.going limit (left + 1) frame') given world := by
  have leads : Leads source flags count score tab.draws _ world.counters given
      (Machine.step (func noted threshold) ((weave flags).poised frame) world) :=
    stage.leads attends
  have spares : ∀ counter ∈ (func noted threshold).counters, ¬ (weave flags).Owns counter := by
    rw [counters_func]
    exact nofun
  have paces := isWoven.paces wellFormed_func spares nears (stage.goesOn attends)
  have reads (measure : Measure) :=
    Machine.read_step_eq g frame' world ((weave flags).counter measure)
  unfold Turns
  rw [Strand.step]
  generalize Machine.step g frame' world = progress at paces reads
  cases paces with
  | @adds paid left next after nears split agrees grows =>
      refine ⟨[], .own stage nears fun measure => ?_, ?_⟩
      · simp only [Strand.adds]
        rw [grows.adds_eq (reads measure), UInt64.add_assoc, ← Ledger.total_append, ← split,
          spent_eq]
      · rw [agrees.host_eq]
        exact attends
  | @running next next' after after' settled stepped follows agrees grows =>
      subst settled
      rw [stepped] at leads
      cases leads with
      | @running new score' _ host stage' attends' pays =>
          have onward : Attends source after'.host (new ++ given) := agrees.host_eq ▸ attends'
          refine ⟨new, .own stage' (follows.nears (stage'.goesOn onward)) fun measure => ?_, onward⟩
          have paid : tab.spent measure + 0 = _ := spent_eq measure
          simp only [Strand.adds]
          rw [grows.adds_eq (reads measure), pays measure, ← paid]
          rfl
  | @returned value after after' settled stepped agrees grows =>
      subst settled
      rw [stepped] at leads
      cases leads with
      | @returned host _ attends' all final unpaid =>
          refine ⟨[], .returned value all fun measure => ?_, agrees.host_eq ▸ attends'⟩
          have paid : tab.spent measure + 0 = _ := spent_eq measure
          rw [unpaid, final] at paid
          simp only [Strand.adds]
          rw [grows.adds_eq (reads measure)]
          exact paid.trans (UInt64.add_zero _)

end

section

variable {noted : Option Flags} {threshold : Option Int64} {flags : Flags} {prologue : Prologue}
  {fresh : BlockId → ValueId} {g : Func} {inner values : Array (Option Int64)} {count : Int64}
  {world : World} {tab : Tab} {strand : Strand}

/-- The prologue counts one call, if calls are counted. -/
theorem toll_eq (counts : prologue.counts = flags.calls) (measure : Measure) :
    prologue.toll (weave flags) ((weave flags).counter measure) =
      (Score.after []).amount flags measure := by
  rw [Prologue.toll, counts]
  rcases measure with _ | _ | _ | (_ | _ | _ | _) | (_ | _ | _ | _) <;>
    simp [Weave.counter, Score.amount, Score.after]

/-- A run comes to the workload's own code with its argument. -/
theorem stands_gate (counts : prologue.counts = flags.calls)
    (covers : Covers (func noted threshold).nextValue inner values)
    (held : inner.getD 0 none = some count) (size : values.size = g.nextValue)
    {values' : Array (Option Int64)}
    (same : SameBelow (func noted threshold).nextValue values values') {limit left : Nat}
    (spent_eq : ∀ measure, tab.spent measure =
      prologue.toll (weave flags) ((weave flags).counter measure))
    (undrawn : tab.draws = []) :
    Stands flags prologue fresh (func noted threshold) g values count tab
      (.going limit left ⟨values', prologue.home (func noted threshold).blocks.size 0, []⟩) := by
  obtain ⟨spent, draws⟩ := tab
  obtain rfl : draws = [] := undrawn
  have stage : Stage count (.after []) [] ⟨inner, 0, []⟩ := .entering covers.size_eq held
  have nears : (weave flags).Nears prologue fresh (func noted threshold) g ⟨inner, 0, []⟩ []
      ⟨values', prologue.home (func noted threshold).blocks.size 0, []⟩ :=
    .ending rfl (covers.of_same same) (same.size_eq.trans size)
  refine .own stage nears fun measure => ?_
  rw [ledger_end flags inner 0 rfl rfl, spent_eq, toll_eq counts]

/-- What a run of the compiled workload relies on: how the workload was compiled, and the
values with which the run begins. -/
structure Setting (flags : Flags) (prologue : Prologue) (fresh : BlockId → ValueId) (f g : Func)
    (inner values : Array (Option Int64)) (count : Int64) : Prop where
  isWoven : Woven (weave flags) prologue fresh f g
  counts : prologue.counts = flags.calls
  routed : ∀ used, prologue.reporter? = some used → used.callback = reporterAddress
  covers : Covers f.nextValue inner values
  size : values.size = g.nextValue
  held : inner.getD 0 none = some count

variable (setting : Setting flags prologue fresh (func noted threshold) g inner values count)

include setting

/-- A turn on the way to the workload's own code. -/
theorem Stands.turn_ahead {limit left : Nat} {frame : Frame} {counted : Bool}
    (ahead : prologue.Ahead (func noted threshold) g values counted frame)
    (spent_eq : ∀ measure, tab.spent measure =
      if counted then prologue.toll (weave flags) ((weave flags).counter measure) else 0)
    (undrawn : tab.draws = []) (attends : Attends source world.host given) :
    Turns source flags g
      (Stands flags prologue fresh (func noted threshold) g values count) tab
      (.going limit (left + 1) frame) given world := by
  have registered (used : Reporter) (asked : prologue.reporter? = some used) :
      (world.host.routine? (.address used.callback)).isSome = true := by
    rw [setting.routed used asked]
    exact attends.reporter
  have kept : Attends source (Machine.step g frame world).world.host given :=
    attends.step fun first rest next => unnamed_of_ahead setting.isWoven ahead next
  obtain ⟨next, after, stepped, adds, onward⟩ :=
    setting.isWoven.cross wellFormed_func counters_func entry_func setting.size registered ahead
  rw [stepped] at kept
  have spent_eq' (measure : Measure) :
      tab.spent measure + frame.adds ((weave flags).counter measure) =
        prologue.toll (weave flags) ((weave flags).counter measure) := by
    rw [spent_eq, adds]
  unfold Turns
  rw [Strand.step, stepped]
  refine ⟨[], ?_, kept⟩
  rcases onward with ahead | alike
  · exact .ahead ahead spent_eq' undrawn
  · have gated : (weave flags).gate prologue fresh (func noted threshold)
        ⟨some "entry", [], [], .jump ⟨1, [literal 0, literal 0]⟩⟩ values =
          ⟨values, prologue.home (func noted threshold).blocks.size 0, []⟩ := by
      rw [Weave.gate, Weave.code_nil, (weave flags).tail_of_none rfl]
      rfl
    rw [gated] at alike
    cases alike with
    | plain code same =>
        exact stands_gate setting.counts setting.covers setting.held setting.size same spent_eq'
          undrawn

/-- What becomes of a run in its turn, wherever it stands. -/
theorem Stands.turn
    (stands : Stands flags prologue fresh (func noted threshold) g values count tab strand)
    (attends : Attends source world.host given) :
    Turns source flags g
      (Stands flags prologue fresh (func noted threshold) g values count) tab strand given
      world := by
  cases stands with
  | @ahead limit left frame counted ahead spent_eq undrawn =>
      cases left with
      | zero => exact ⟨[], .exhausted _ limit, attends⟩
      | succ left => exact turn_ahead setting ahead spent_eq undrawn attends
  | @own limit left score frame frame' due stage nears spent_eq =>
      cases left with
      | zero => exact ⟨[], .exhausted _ limit, attends⟩
      | succ left => exact turn_own setting.isWoven stage nears spent_eq attends
  | returned value all spent_eq =>
      exact ⟨[], .returned value all fun measure => (UInt64.add_zero _).trans (spent_eq measure),
        attends⟩
  | exhausted limit => exact ⟨[], .exhausted _ limit, attends⟩

/-- A run begins ahead of the workload's own code, or there. -/
theorem stands_start {image : Block} (found : g.block? Func.entry = some image) (limit : Nat) :
    Stands flags prologue fresh (func noted threshold) g values count ⟨fun _ => 0, []⟩
      (.going limit limit ⟨values, Func.entry, image.instrs⟩) := by
  cases counts : prologue.counts with
  | true => exact .ahead (.waiting counts found) (fun _ => rfl) rfl
  | false =>
      cases prologue with
      | counted previous => cases counts
      | reported reporter previous current hit => cases counts
      | bare =>
          obtain ⟨image', found', -, instrs, -⟩ := setting.isWoven.begins _ entry_func
          obtain rfl := Option.some.inj (found.symm.trans found')
          have empty : image.instrs = [] := by
            rw [instrs, List.nil_append, Weave.code_nil, (weave flags).tail_of_none rfl]
          rw [empty]
          exact stands_gate setting.counts setting.covers setting.held setting.size (.refl ..)
            (fun _ => rfl) rfl

end

/-! ## All runs together -/

namespace Score

/-- The two scores together. -/
def add (first second : Score) : Score :=
  ⟨first.called + second.called, first.asked + second.asked, first.begun + second.begun,
    first.requested + second.requested, first.parted + second.parted, first.odd + second.odd⟩

/-- The score of so many runs of so many trips each, with so many odd inputs in all. -/
def whole (runs trips odd : Nat) : Score :=
  ⟨runs, runs * (trips + 1), runs * trips, runs * trips, runs * trips, odd⟩

theorem amount_add (flags : Flags) (first second : Score) (measure : Measure) :
    (first.add second).amount flags measure =
      first.amount flags measure + second.amount flags measure := by
  have sum (left right : Nat) : (left + right).toUInt64 = left.toUInt64 + right.toUInt64 :=
    UInt64.ofNat_add left right
  rcases measure with _ | _ | _ | (_ | _ | _ | _) | (_ | _ | _ | _) <;>
    cases onCalls : flags.calls <;> cases onBranches : flags.branches <;>
      cases onAllocations : flags.allocations <;>
        simp [amount, add, onCalls, onBranches, onAllocations, sum, Nat.mul_add]

theorem add_whole (runs trips odd more : Nat) :
    (whole 1 trips more).add (whole runs trips odd) = whole (runs + 1) trips (more + odd) := by
  simp only [add, whole, Nat.one_mul, Nat.add_mul, Nat.add_comm runs 1]

theorem whole_of_after (draws : List Int64) :
    (after draws).ask false = whole 1 draws.length (draws.countP isOdd) := by
  simp only [after, ask, whole, Bool.toNat_false, Nat.add_zero, Nat.one_mul]

end Score

/-- The tabs of whole runs add up to the score of all of them. -/
theorem sum_tabs {flags : Flags} {trips : Nat} {tabs : List Tab}
    (whole : ∀ tab ∈ tabs, tab.draws.length = trips ∧ ∀ measure,
      tab.spent measure = ((Score.after tab.draws).ask false).amount flags measure) :
    (∀ measure, (tabs.map (·.spent measure)).sum =
      (Score.whole tabs.length trips ((tabs.flatMap Tab.draws).countP isOdd)).amount flags
        measure) ∧
      (tabs.flatMap Tab.draws).length = tabs.length * trips := by
  induction tabs with
  | nil =>
      refine ⟨fun measure => ?_, (Nat.zero_mul trips).symm⟩
      rcases measure with _ | _ | _ | (_ | _ | _ | _) | (_ | _ | _ | _) <;>
        simp [Score.amount, Score.whole]
  | cons tab rest ih =>
      obtain ⟨sums, length⟩ := ih fun other mem => whole other (List.mem_cons_of_mem _ mem)
      obtain ⟨all, spent_eq⟩ := whole tab List.mem_cons_self
      rw [List.flatMap_cons, List.countP_append, List.length_append, List.length_cons, length, all]
      refine ⟨fun measure => ?_, by rw [Nat.add_mul, Nat.one_mul, Nat.add_comm]⟩
      rw [List.map_cons, List.sum_cons, sums, spent_eq, Score.whole_of_after, all,
        ← Score.amount_add, Score.add_whole]

/-- The world after so many whole runs: what the counters show, and how many inputs were
drawn. -/
structure Finished (source : Nat → List Int64 → Int64) (flags : Flags) (runs trips : Nat)
    (world : World) : Prop where
  read_eq : ∀ measure, world.counters.read ((weave flags).counter measure) =
    (Score.whole runs trips ((drawn source world.host.calls).countP isOdd)).amount flags measure
  drawn_eq : (drawn source world.host.calls).length = runs * trips

section

variable {noted : Option Flags} {threshold : Option Int64} {flags : Flags} {prologue : Prologue}
  {fresh : BlockId → ValueId} {g : Func} {inner values : Array (Option Int64)} {count : Int64}
  {runs limit : Nat}

/-- Runs of the compiled workload at their start. -/
def runsOf (g : Func) (limit : Nat) (count : Int64) (runs : Nat) : List Job :=
  List.replicate runs ⟨g, limit, [count]⟩

/-- After any turns there is a tab for every run, and the counters and the host have got
what is in the tabs. -/
theorem Setting.tabs_interleaved
    (setting : Setting flags prologue fresh (func noted threshold) g inner values count)
    (begins : ∃ image, g.block? Func.entry = some image ∧
      Frame.start g [count] = .ok ⟨values, Func.entry, image.instrs⟩)
    (source : Nat → List Int64 → Int64) (limit runs : Nat) (schedule : List Nat) :
    ∃ tabs, Pool.Noted
      (fun _ => Stands flags prologue fresh (func noted threshold) g values count)
      (fun tabs world =>
        (∀ measure, world.counters.read ((weave flags).counter measure) =
          (tabs.map (·.spent measure)).sum) ∧
        ∃ given, Attends source world.host given ∧ given.Perm (tabs.flatMap Tab.draws))
      tabs (Job.interleaved ⟨.zero, host source⟩ (runsOf g limit count runs) schedule) := by
  obtain ⟨image, found, starts⟩ := begins
  have strand : (⟨g, limit, [count]⟩ : Job).strand =
      .going limit limit ⟨values, Func.entry, image.instrs⟩ := by
    rw [Job.strand, Strand.start, starts]
  induction schedule using List.reverseRecOn with
  | nil =>
      refine ⟨List.replicate runs ⟨fun _ => 0, []⟩, ?_, ?_, ?_, [], attends_host source, ?_⟩
      · rw [List.length_replicate, Job.length_interleaved, runsOf, List.length_replicate]
      · intro index place tab found' here
        obtain rfl := List.eq_of_mem_replicate (List.mem_of_getElem? here)
        have mem : place ∈ (runsOf g limit count runs).map Job.strand := List.mem_of_getElem? found'
        rw [runsOf, List.map_replicate] at mem
        rw [List.eq_of_mem_replicate mem, strand]
        exact stands_start setting found limit
      · intro measure
        rw [List.map_replicate, List.sum_replicate, nsmul_zero]
        exact Counters.read_zero _
      · rw [List.flatMap_replicate]
        simp
  | append_singleton earlier index ih =>
      obtain ⟨tabs, kept⟩ := ih
      rw [Job.interleaved, Pool.playAmong_concat]
      refine kept.turn fun code place tab coded found' here stands => ?_
      obtain ⟨reads, given, attends, perm⟩ := kept.tells
      have mem : code ∈ (runsOf g limit count runs).map Job.func := List.mem_of_getElem? coded
      rw [runsOf, List.map_replicate] at mem
      obtain rfl := List.eq_of_mem_replicate mem
      obtain ⟨new, stands', attends'⟩ := stands.turn setting attends
      refine ⟨_, stands', fun measure => ?_, _, attends', ?_⟩
      · rw [Strand.read_step]
        exact (congrArg (· + _) (reads measure)).trans
          (sum_set_add (fun tab : Tab => tab.spent measure) here rfl).symm
      · exact (perm.append_left new).trans (flatMap_set_perm Tab.draws here rfl).symm

/-- Once all runs are over, and none was cut off, all have returned, and the counters show
the score of so many whole runs. -/
theorem Setting.finished
    (setting : Setting flags prologue fresh (func noted threshold) g inner values count)
    (begins : ∃ image, g.block? Func.entry = some image ∧
      Frame.start g [count] = .ok ⟨values, Func.entry, image.instrs⟩)
    (source : Nat → List Int64 → Int64) {limit runs : Nat} {schedule : List Nat} {pool : Pool}
    (played : Job.interleaved ⟨.zero, host source⟩ (runsOf g limit count runs) schedule = pool)
    (ended : pool.HasEnded)
    (finishes : ∀ outcome, .ended outcome ∈ pool.strands → Machine.Finishes outcome) :
    (∀ strand ∈ pool.strands, ∃ value, strand = .ended (.ok value)) ∧
      Finished source flags runs (trips count) pool.world := by
  obtain ⟨tabs, kept⟩ := setting.tabs_interleaved begins source limit runs schedule
  rw [played] at kept
  have length : tabs.length = runs := by
    rw [kept.length_eq, ← played, Job.length_interleaved, runsOf, List.length_replicate]
  -- A run that is over has returned, since no run fails but for want of steps.
  have each (index : Nat) (place : Strand) (tab : Tab) (found : pool.strands[index]? = some place)
      (here : tabs[index]? = some tab) :
      (∃ value, place = .ended (.ok value)) ∧ tab.draws.length = trips count ∧
        ∀ measure,
          tab.spent measure = ((Score.after tab.draws).ask false).amount flags measure := by
    have mem := List.mem_of_getElem? found
    cases kept.stands found here with
    | ahead => cases ended _ mem
    | own => cases ended _ mem
    | returned value all spent_eq => exact ⟨⟨value, rfl⟩, all, spent_eq⟩
    | exhausted limit => exact absurd rfl (finishes _ mem limit)
  obtain ⟨reads, given, attends, perm⟩ := kept.tells
  constructor
  · intro strand mem
    obtain ⟨index, found⟩ := List.getElem?_of_mem mem
    have inside : index < tabs.length := kept.length_eq ▸ (List.getElem?_eq_some_iff.mp found).1
    exact (each index strand _ found (List.getElem?_eq_getElem inside)).1
  · have whole : ∀ tab ∈ tabs, tab.draws.length = trips count ∧ ∀ measure,
        tab.spent measure = ((Score.after tab.draws).ask false).amount flags measure := by
      intro tab mem
      obtain ⟨index, here⟩ := List.getElem?_of_mem mem
      have inside : index < pool.strands.length :=
        kept.length_eq ▸ (List.getElem?_eq_some_iff.mp here).1
      exact (each index _ tab (List.getElem?_eq_getElem inside) here).2
    obtain ⟨sums, total⟩ := sum_tabs whole
    rw [length] at sums total
    constructor
    · intro measure
      rw [reads, sums, attends.drawn_eq, perm.countP_eq]
    · rw [attends.drawn_eq, perm.length_eq, total]

/-- A form of the workload that was compiled under some flags. -/
def Compiled (flags : Flags) (g : Func) : Prop :=
  ∃ noted threshold prologue fresh, Woven (weave flags) prologue fresh (func noted threshold) g ∧
    prologue.counts = flags.calls ∧
    ∀ used, prologue.reporter? = some used → used.callback = reporterAddress

/-- A run of the compiled workload begins with its argument. -/
theorem Compiled.setting (compiled : Compiled flags g) (count : Int64) :
    ∃ noted threshold prologue fresh inner values,
      Setting flags prologue fresh (func noted threshold) g inner values count ∧
        ∃ image, g.block? Func.entry = some image ∧
          Frame.start g [count] = .ok ⟨values, Func.entry, image.instrs⟩ := by
  obtain ⟨noted, threshold, prologue, fresh, isWoven, counts, routed⟩ := compiled
  have arity : [count].length = (func noted threshold).params.length := rfl
  obtain ⟨head, image, inner, values, entered, found, begins, begins', covers, size⟩ :=
    isWoven.starts wellFormed_func arity
  obtain rfl := Option.some.inj (entered.symm.trans entry_func)
  have known : Frame.start (func noted threshold) [count] =
      .ok ⟨(Array.replicate 11 none).setIfInBounds 0 (some count), Func.entry, []⟩ := rfl
  rw [known] at begins
  cases begins
  exact ⟨noted, threshold, prologue, fresh, _, values, ⟨isWoven, counts, routed, covers, size, rfl⟩,
    image, found, begins'⟩

/-- Runs of the compiled workload that take turns and are all over, none of them cut off. -/
theorem Compiled.finished (compiled : Compiled flags g) (source : Nat → List Int64 → Int64)
    {schedule : List Nat} {pool : Pool}
    (played : Job.interleaved ⟨.zero, host source⟩ (runsOf g limit count runs) schedule = pool)
    (ended : pool.HasEnded)
    (finishes : ∀ outcome, .ended outcome ∈ pool.strands → Machine.Finishes outcome) :
    (∀ strand ∈ pool.strands, ∃ value, strand = .ended (.ok value)) ∧
      Finished source flags runs (trips count) pool.world := by
  obtain ⟨noted, threshold, prologue, fresh, inner, values, setting, begins⟩ :=
    compiled.setting count
  exact setting.finished begins source played ended finishes

end

end Workload

end FlowProfile
