/-
# Calls are counted and reported exactly

However runs of a compiled function interleave, each of them is counted once, and the
reporter's routine is called by exactly those runs whose own count has reached the
threshold.  A run reports what it has read in the moment of its count, so that no order of
steps makes two runs report for one count, or none.

What the runs together have still to report is kept as a debt.  A run takes it on when it
counts itself and pays it back when it reports; at every moment the reports made and the
debts add up to the number of times that the count has been the threshold.
-/

import FlowProfile.Proofs.Compile.Transparency
import FlowProfile.Proofs.Weave.Racing

namespace FlowProfile

namespace Reporter

/-- How many of the numbers that a count runs through from some number on are the
threshold.  The count wraps around at the width of a counter. -/
def hits (reporter : Reporter) (before : UInt64) (calls : Nat) : Nat :=
  (List.range calls).countP fun call =>
    before + (call + 1).toUInt64 == reporter.threshold.toUInt64

/-- The calls of the reporter's routine among others. -/
def among (reporter : Option Reporter) (calls : List Call) : List Call :=
  calls.filter fun call => reporter.any fun used => call.1 == .address used.callback

/-- The reports that are due on the way from some number on. -/
def dues (reporter : Option Reporter) (before : UInt64) (calls : Nat) : List Call :=
  (List.range calls).flatMap fun call => callsAhead reporter (before + call.toUInt64)

theorem among_eq_nil {reporter : Option Reporter} {calls : List Call}
    (apart : ∀ call ∈ calls, ¬ IsRoutine reporter call.1) : among reporter calls = [] := by
  apply List.filter_eq_nil_iff.mpr
  intro call mem asked
  cases reporter with
  | none => cases asked
  | some used => exact apart call mem ⟨used, rfl, eq_of_beq asked⟩

theorem among_append (reporter : Option Reporter) (first second : List Call) :
    among reporter (first ++ second) = among reporter first ++ among reporter second :=
  List.filter_append ..

theorem among_call (reporter : Reporter) :
    among (some reporter) [reporter.call] = [reporter.call] := by
  simp [among, call]

theorem dues_succ (reporter : Option Reporter) (before : UInt64) (calls : Nat) :
    dues reporter before (calls + 1) =
      dues reporter before calls ++ callsAhead reporter (before + calls.toUInt64) := by
  rw [dues, List.range_succ, List.flatMap_append, List.flatMap_singleton, dues]

/-- The reports that are due are as many as the count hits the threshold. -/
theorem length_dues (reporter : Reporter) (before : UInt64) (calls : Nat) :
    (dues (some reporter) before calls).length = reporter.hits before calls := by
  induction calls with
  | zero => rfl
  | succ calls ih =>
      have due : (before + calls.toUInt64).toInt64 + 1 = reporter.threshold ↔
          before + (calls + 1).toUInt64 = reporter.threshold.toUInt64 := by
        have next : before + (calls + 1).toUInt64 = before + calls.toUInt64 + 1 := by
          rw [UInt64.add_assoc]
          exact congrArg (before + ·) (UInt64.ofNat_add calls 1)
        rw [next]
        constructor
        · intro same
          exact congrArg Int64.toUInt64 same
        · intro same
          exact congrArg UInt64.toInt64 same
      rw [dues_succ, List.length_append, ih, hits, hits, List.range_succ, List.countP_append,
        List.countP_singleton, callsAhead_some]
      by_cases hit : before + (calls + 1).toUInt64 = reporter.threshold.toUInt64
      · rw [if_pos (due.mpr hit), if_pos (beq_iff_eq.mpr hit)]
        rfl
      · rw [if_neg (mt due.mp hit), if_neg (mt beq_iff_eq.mp hit)]
        rfl

/-- A count that does not wrap around hits the threshold once if it passes it, and else
never. -/
theorem hits_of_lt (reporter : Reporter) {before : UInt64} {calls : Nat}
    (small : before.toNat + calls < UInt64.size) :
    reporter.hits before calls =
      if before.toNat < reporter.threshold.toUInt64.toNat ∧
        reporter.threshold.toUInt64.toNat ≤ before.toNat + calls then 1 else 0 := by
  induction calls with
  | zero =>
      rw [if_neg (by omega)]
      rfl
  | succ calls ih =>
      have reached : (before + (calls + 1).toUInt64).toNat = before.toNat + (calls + 1) := by
        have step : (calls + 1).toUInt64.toNat = calls + 1 :=
          UInt64.toNat_ofNat_of_lt' (Nat.lt_of_le_of_lt (Nat.le_add_left _ _) small)
        rw [UInt64.toNat_add, step, Nat.mod_eq_of_lt small]
      have hit : (before + (calls + 1).toUInt64 == reporter.threshold.toUInt64) =
          decide (before.toNat + (calls + 1) = reporter.threshold.toUInt64.toNat) := by
        rw [Bool.eq_iff_iff, beq_iff_eq, decide_eq_true_eq, ← reached, UInt64.toNat_inj]
      have earlier := ih (by omega)
      rw [hits] at earlier
      rw [hits, List.range_succ, List.countP_append, List.countP_singleton, earlier, hit]
      simp only [decide_eq_true_eq]
      split <;> split <;> split <;> omega

end Reporter

/-! ## The books -/

/-- What runs have counted and reported since some moment, when so many of them have
counted themselves and so many reports are still owed. -/
structure Weave.Balanced (weave : Weave) (reporter : Option Reporter) (origin world : World)
    (started debt : Nat) : Prop where
  registered : ∀ callee, Reporter.IsRoutine reporter callee →
    (world.host.routine? callee).isSome = true
  entries_eq : weave.entries world = weave.entries origin + started.toUInt64
  made : ∃ made, world.host.calls = made ++ origin.host.calls ∧
    (∀ call ∈ Reporter.among reporter made, ∃ used, reporter = some used ∧ call = used.call) ∧
    (Reporter.among reporter made).length + debt =
      (Reporter.dues reporter (weave.entries origin) started).length

/-- The books stay balanced when a run takes its turn. -/
theorem Weave.Balanced.turn {weave : Weave} {reporter : Option Reporter}
    {origin world world' : World} {started started' debt debt' : Nat}
    {status status' : Weave.Status}
    (balanced : weave.Balanced reporter origin world started debt)
    (turn : weave.Turn reporter status status' world world')
    (starts : started' + status.hasStarted.toNat = started + status'.hasStarted.toNat)
    (owes : debt' + status.owes.toNat = debt + status'.owes.toNat) :
    weave.Balanced reporter origin world' started' debt' := by
  obtain ⟨registered, entries_eq, made, recorded, known, sum⟩ := balanced
  cases turn with
  | counts host_eq read_eq isStarted isOwed =>
      obtain rfl : started' = started + 1 := by
        rw [isStarted] at starts
        exact starts
      obtain rfl : debt' = debt + (Reporter.callsAhead reporter (weave.entries world)).length := by
        rw [isOwed] at owes
        exact owes
      constructor
      · rw [host_eq]
        exact registered
      · rw [read_eq, entries_eq, UInt64.add_assoc]
        exact congrArg (weave.entries origin + ·) (UInt64.ofNat_add started 1).symm
      · refine ⟨made, by rw [host_eq, recorded], known, ?_⟩
        rw [Reporter.dues_succ, List.length_append, ← entries_eq, ← sum, Nat.add_assoc]
  | quiet quiet isStarted isOwed =>
      obtain rfl : started' = started := by
        rw [isStarted] at starts
        exact Nat.add_right_cancel starts
      obtain rfl : debt' = debt := by
        rw [isOwed] at owes
        exact Nat.add_right_cancel owes
      obtain ⟨more, recorded', apart⟩ := quiet.made
      have unheard : Reporter.among reporter (more ++ made) = Reporter.among reporter made := by
        rw [Reporter.among_append, Reporter.among_eq_nil apart, List.nil_append]
      constructor
      · intro callee isRoutine
        rw [quiet.kept]
        exact registered callee isRoutine
      · exact quiet.counted.trans entries_eq
      · refine ⟨more ++ made, ?_, ?_, ?_⟩
        · rw [recorded', recorded, List.append_assoc]
        · rw [unheard]
          exact known
        · rw [unheard, sum]
  | @reports used world world' asked counters_eq calls_eq kept =>
      obtain rfl : started' = started := Nat.add_right_cancel starts
      obtain rfl : debt = debt' + 1 := owes.symm
      have heard : Reporter.among reporter (used.call :: made) =
          used.call :: Reporter.among reporter made := by
        rw [← List.singleton_append, Reporter.among_append, asked, Reporter.among_call]
        rfl
      constructor
      · intro callee isRoutine
        rw [kept]
        exact registered callee isRoutine
      · rw [Weave.entries, counters_eq]
        exact entries_eq
      · refine ⟨used.call :: made, by rw [calls_eq, recorded]; rfl, ?_, ?_⟩
        · intro call mem
          rw [heard] at mem
          rcases List.mem_cons.mp mem with rfl | earlier
          · exact ⟨used, asked, rfl⟩
          · exact known call earlier
        · rw [heard, List.length_cons, ← sum]
          omega

/-! ## All runs together -/

/-- How runs of a woven function stand since they started together. -/
structure Weave.Course (weave : Weave) (prologue : Prologue) (fresh : BlockId → ValueId)
    (f woven : Func) (origin : World) (limits : List Nat) (statuses : List Weave.Status)
    (pool : Pool) : Prop where
  statuses_length : statuses.length = pool.strands.length
  limits_length : limits.length = pool.strands.length
  phases : ∀ index strand status limit, pool.strands[index]? = some strand →
    statuses[index]? = some status → limits[index]? = some limit →
      weave.Phase prologue fresh f woven limit (pool.movesOf index) strand status
  balanced : weave.Balanced prologue.reporter? origin pool.world
    (statuses.countP Status.hasStarted) (statuses.countP Status.owes)

section

variable {weave : Weave} {prologue : Prologue} {fresh : BlockId → ValueId} {f woven : Func}
  {origin : World} {limits : List Nat} {statuses : List Weave.Status} {pool : Pool}

/-- Every turn keeps the runs on their course. -/
theorem Woven.course_turn (isWoven : Woven weave prologue fresh f woven) (sound : f.WellFormed)
    (spares : ∀ counter ∈ f.counters, ¬ weave.Owns counter)
    (uncalled : ∀ callee, Reporter.IsRoutine prologue.reporter? callee → ¬ f.Calls callee)
    (counts : prologue.counts = true) (enough : ∀ limit ∈ limits, prologue.reach ≤ limit)
    (course : weave.Course prologue fresh f woven origin limits statuses pool) {index : Nat}
    {strand : Strand} (found : pool.strands[index]? = some strand) :
    ∃ statuses', weave.Course prologue fresh f woven origin limits statuses'
      (pool.turn woven index) := by
  have inside : index < pool.strands.length := (List.getElem?_eq_some_iff.mp found).1
  obtain ⟨status, hasStatus⟩ : ∃ status, statuses[index]? = some status :=
    ⟨_, List.getElem?_eq_getElem (course.statuses_length ▸ inside)⟩
  obtain ⟨limit, hasLimit⟩ : ∃ limit, limits[index]? = some limit :=
    ⟨_, List.getElem?_eq_getElem (course.limits_length ▸ inside)⟩
  obtain ⟨status', phase, turn⟩ := isWoven.turns sound spares uncalled counts
    (enough limit (List.mem_of_getElem? hasLimit)) course.balanced.registered
    (course.phases index strand status limit found hasStatus hasLimit) index
  rw [← Pool.movesOf_turn_self found] at phase
  refine ⟨statuses.set index status', ?_, ?_, ?_, ?_⟩
  · rw [Pool.turn_of_some found, List.length_set, List.length_set]
    exact course.statuses_length
  · rw [Pool.turn_of_some found, List.length_set]
    exact course.limits_length
  · intro other strand' status'' limit' found' hasStatus' hasLimit'
    rw [Pool.turn_of_some found] at found'
    by_cases same : other = index
    · subst same
      rw [List.getElem?_set_self inside] at found'
      rw [List.getElem?_set_self (course.statuses_length ▸ inside)] at hasStatus'
      cases found'
      cases hasStatus'
      cases hasLimit.symm.trans hasLimit'
      exact phase
    · rw [List.getElem?_set_ne (Ne.symm same)] at found' hasStatus'
      rw [Pool.movesOf_turn_of_ne same]
      exact course.phases other strand' status'' limit' found' hasStatus' hasLimit'
  · have balanced := course.balanced.turn turn
      (countP_set_add Weave.Status.hasStarted hasStatus status')
      (countP_set_add Weave.Status.owes hasStatus status')
    rw [Pool.turn_of_some found]
    exact balanced

/-- The runs keep on their course whatever the schedule. -/
theorem Woven.course_play (isWoven : Woven weave prologue fresh f woven) (sound : f.WellFormed)
    (spares : ∀ counter ∈ f.counters, ¬ weave.Owns counter)
    (uncalled : ∀ callee, Reporter.IsRoutine prologue.reporter? callee → ¬ f.Calls callee)
    (counts : prologue.counts = true) (enough : ∀ limit ∈ limits, prologue.reach ≤ limit)
    (course : weave.Course prologue fresh f woven origin limits statuses pool)
    (schedule : List Nat) :
    ∃ statuses', weave.Course prologue fresh f woven origin limits statuses'
      (pool.play woven schedule) := by
  have kept (pool : Pool) (index : Nat) (strand : Strand)
      (begun : ∃ statuses, weave.Course prologue fresh f woven origin limits statuses pool)
      (found : pool.strands[index]? = some strand) :
      ∃ statuses, weave.Course prologue fresh f woven origin limits statuses
        (pool.turn woven index) := by
    obtain ⟨statuses, course⟩ := begun
    exact isWoven.course_turn sound spares uncalled counts enough course found
  exact Pool.play_invariant kept schedule ⟨statuses, course⟩

/-- Runs that are given as many arguments as the function takes start on their course. -/
theorem Woven.course_start (isWoven : Woven weave prologue fresh f woven) (sound : f.WellFormed)
    (registered : ∀ callee, Reporter.IsRoutine prologue.reporter? callee →
      (origin.host.routine? callee).isSome = true)
    {inputs : List (Nat × List Int64)}
    (accepted : ∀ input ∈ inputs, input.2.length = f.params.length) :
    weave.Course prologue fresh f woven origin (inputs.map Prod.fst)
      (.replicate inputs.length .waiting) (.start woven origin inputs) where
  statuses_length := by rw [Pool.start, List.length_replicate, List.length_map]
  limits_length := by rw [Pool.start, List.length_map, List.length_map]
  phases := by
    intro index strand status limit found hasStatus hasLimit
    rw [Pool.start, List.getElem?_map] at found
    obtain ⟨input, given, rfl⟩ := Option.map_eq_some_iff.mp found
    rw [List.getElem?_map, given] at hasLimit
    obtain rfl : status = .waiting := List.eq_of_mem_replicate (List.mem_of_getElem? hasStatus)
    obtain rfl : input.1 = limit := Option.some.inj hasLimit
    obtain ⟨head, image, values, values', -, found', -, starts, -, size⟩ :=
      isWoven.starts sound (accepted input (List.mem_of_getElem? given))
    rw [Strand.start, starts]
    exact .waiting found' size
  balanced := by
    have silent : ∀ call ∈ Reporter.among prologue.reporter? [], ∃ used,
        prologue.reporter? = some used ∧ call = used.call := by
      intro call absent
      cases absent
    rw [List.countP_replicate, List.countP_replicate]
    exact ⟨registered, (UInt64.add_zero _).symm, [], rfl, silent, rfl⟩

/-- When all runs are over, each is past its prologue. -/
theorem Weave.Course.past_of_hasEnded
    (course : weave.Course prologue fresh f woven origin limits statuses pool)
    (finished : pool.HasEnded) {index : Nat} {status : Weave.Status}
    (hasStatus : statuses[index]? = some status) :
    status = .past ∧ weave.Account prologue.reporter? f (pool.movesOf index) := by
  have inside : index < pool.strands.length := by
    rw [← course.statuses_length]
    exact (List.getElem?_eq_some_iff.mp hasStatus).1
  have ended := finished _ (List.getElem_mem inside)
  have phase := course.phases index _ status _ (List.getElem?_eq_getElem inside) hasStatus
    (List.getElem?_eq_getElem (course.limits_length ▸ inside))
  generalize pool.strands[index] = strand at ended phase
  generalize pool.movesOf index = moves at phase ⊢
  cases phase with
  | waiting => cases ended
  | deciding => cases ended
  | past account => exact ⟨rfl, account⟩

/-- When all runs are over, each has counted itself and none owes a report. -/
theorem Weave.Course.settled
    (course : weave.Course prologue fresh f woven origin limits statuses pool)
    (finished : pool.HasEnded) :
    weave.Balanced prologue.reporter? origin pool.world pool.strands.length 0 := by
  have past : statuses = List.replicate pool.strands.length .past := by
    apply List.eq_replicate_iff.mpr
    constructor
    · exact course.statuses_length
    · intro status mem
      obtain ⟨index, hasStatus⟩ := List.getElem?_of_mem mem
      exact (course.past_of_hasEnded finished hasStatus).1
  have balanced := course.balanced
  rw [past, List.countP_replicate, List.countP_replicate] at balanced
  exact balanced

end

/-! ## Compiled functions -/

/-- Between two worlds so many calls were counted, and so many of them reported, in the way
that the reporter asks for. -/
structure Reporter.Heard (reporter : Option Reporter) (counter : Counter) (world world' : World)
    (calls reports : Nat) : Prop where
  counted : world'.counters.read counter = world.counters.read counter + calls.toUInt64
  reported : ∃ made, world'.host.calls = made ++ world.host.calls ∧
    ∀ used, reporter = some used →
      made.filter (·.1 == .address used.callback) = List.replicate reports used.call

theorem Weave.Balanced.heard {weave : Weave} {reporter : Option Reporter} {origin world : World}
    {started debt : Nat} (balanced : weave.Balanced reporter origin world started debt) :
    ∃ reports, Reporter.Heard reporter (weave.counter .calls) origin world started reports ∧
      ∀ used, reporter = some used →
        reports + debt = used.hits (weave.entries origin) started := by
  obtain ⟨-, entries_eq, made, recorded, known, sum⟩ := balanced
  refine ⟨(Reporter.among reporter made).length, ⟨entries_eq, made, recorded, ?_⟩, ?_⟩
  · intro used asked
    subst asked
    apply List.eq_replicate_iff.mpr
    constructor
    · rfl
    · intro call mem
      obtain ⟨used', same, isCall⟩ := known call mem
      cases same
      exact isCall
  · intro used asked
    rw [sum, asked, Reporter.length_dues]

/-- Runs of a compiled function that counts its calls are on their course whatever the
schedule. -/
theorem Pipeline.Compiles.course {pipeline : Pipeline} {lowering : Option Lowering}
    {flags : Flags} {reporter : Option Reporter} {store store' : Store} {f compiled : Func}
    (compiles : pipeline.Compiles lowering flags reporter store store' f compiled)
    (sound : f.WellFormed) (foreign : ∀ counter ∈ f.counters, ¬ counter.BelongsTo store.name f.name)
    (counts : flags.calls = true)
    (uncalled : ∀ used, reporter = some used → ¬ f.Calls (.address used.callback))
    {world : World} (registered : ∀ used, reporter = some used →
      (world.host.routine? (.address used.callback)).isSome = true)
    {inputs : List (Nat × List Int64)}
    (accepted : ∀ input ∈ inputs, input.2.length = f.params.length ∧
      (if reporter.isSome then 5 else 1) ≤ input.1)
    (schedule : List Nat) :
    ∃ prologue statuses, prologue.reporter? = reporter ∧
      (Weave.ofFlags pipeline.settings flags lowering store.name f.name).Course prologue
        (branchValue f) f compiled world (inputs.map Prod.fst) statuses
        ((Pool.start compiled world inputs).play compiled schedule) := by
  obtain ⟨next, isWoven⟩ := compiles.isWoven
  have same : (Prologue.ofCalls flags.calls reporter next).reporter? = reporter :=
    Prologue.reporter?_ofCalls (Probe.After.reporterOf_off compiles.reporter_eq) next
  have routine {callee : Callee}
      (isRoutine : Reporter.IsRoutine (Prologue.ofCalls flags.calls reporter next).reporter? callee) :
      ∃ used, reporter = some used ∧ callee = .address used.callback := by
    rw [same] at isRoutine
    exact isRoutine
  have there (callee : Callee) (isRoutine : Reporter.IsRoutine
      (Prologue.ofCalls flags.calls reporter next).reporter? callee) :
      (world.host.routine? callee).isSome = true := by
    obtain ⟨used, isUsed, rfl⟩ := routine isRoutine
    exact registered used isUsed
  have apart (callee : Callee) (isRoutine : Reporter.IsRoutine
      (Prologue.ofCalls flags.calls reporter next).reporter? callee) : ¬ f.Calls callee := by
    obtain ⟨used, isUsed, rfl⟩ := routine isRoutine
    exact uncalled used isUsed
  have enough : ∀ limit ∈ inputs.map Prod.fst,
      (Prologue.ofCalls flags.calls reporter next).reach ≤ limit := by
    intro limit mem
    obtain ⟨input, given, rfl⟩ := List.mem_map.mp mem
    rw [Prologue.reach, same]
    exact (accepted input given).2
  obtain ⟨statuses, course⟩ := isWoven.course_play sound foreign apart
    ((Prologue.counts_ofCalls ..).trans counts) enough
    (isWoven.course_start sound there fun input mem => (accepted input mem).1) schedule
  exact ⟨_, statuses, same, course⟩

namespace Sample

theorem uncalled_choose (flags : Flags) (used : Reporter) (isUsed : some reporter = some used) :
    ¬ (choose flags).Calls (.address used.callback) := by
  rintro ⟨id, block, result, args, found, mem⟩
  cases isUsed
  match id with
  | 0 =>
      cases found
      cases mem with
      | tail _ absent => cases absent
  | 1 =>
      cases found
      cases mem
  | 2 =>
      cases found
      cases mem
  | _ + 3 => cases found

/-- Two runs that take their steps in turn. -/
def runs : List (Nat × List Int64) :=
  [(16, [1]), (16, [0])]

/-- One step of each run after the other. -/
def alternating : List Nat :=
  (List.replicate 17 [0, 1]).flatten

theorem hasEnded_runs (compiled : Func) :
    ((Pool.start compiled world runs).play compiled alternating).HasEnded := by
  apply Pool.hasEnded_start
  intro index input given
  match index with
  | 0 =>
      cases given
      decide
  | 1 =>
      cases given
      decide
  | _ + 2 => cases given

end Sample

/-- Runs of a function that was compiled with its calls counted interleave in any order.
At every moment the counter of calls tells how many of them have counted themselves, and
the reporter's routine was not called more often than the count was the threshold.  When
all runs are over each is counted, and the routine was called as often as the count was
the threshold, by the runs whose own count it was and before any of the function's own
code. -/
theorem calls_exact_when_interleaved {pipeline : Pipeline} {lowering : Option Lowering}
    (shipped : pipeline.optimizer = .ofLowering lowering) {counters : Counters} {store : Store}
    {f compiled : Func} (verified : f.verify = .ok ())
    (foreign : ∀ counter ∈ f.counters, ¬ counter.BelongsTo store.name f.name)
    {after : Option Store} {events : List Event} {report : CompileReport}
    (success : pipeline.compile counters (some store) f =
      (after, ⟨compiled, events, .ok report⟩))
    {flags : Flags} (read : pipeline.settings.flagsOf f = .ok flags) (counts : flags.calls = true)
    {reporter : Option Reporter} (asked : Probe.After.reporterOf flags f = .ok reporter)
    (uncalled : ∀ used, reporter = some used → ¬ f.Calls (.address used.callback))
    {world : World} (registered : ∀ used, reporter = some used →
      (world.host.routine? (.address used.callback)).isSome = true)
    {before : UInt64} (begins : world.counters.read (.owned store.name f.name .calls) = before)
    {inputs : List (Nat × List Int64)}
    (accepted : ∀ input ∈ inputs, input.2.length = f.params.length ∧
      (if reporter.isSome then 5 else 1) ≤ input.1)
    {schedule : List Nat} {pool : Pool}
    (played : (Pool.start compiled world inputs).play compiled schedule = pool) :
    (∃ started reports, started ≤ inputs.length ∧
        Reporter.Heard reporter (.owned store.name f.name .calls) world pool.world started
          reports ∧
        ∀ used, reporter = some used → reports ≤ used.hits before started) ∧
      (pool.HasEnded →
        (∃ reports,
          Reporter.Heard reporter (.owned store.name f.name .calls) world pool.world
            inputs.length reports ∧
          ∀ used, reporter = some used →
            reports = used.hits before inputs.length ∧
              (before.toNat + inputs.length < UInt64.size →
                reports = if before.toNat < used.threshold.toUInt64.toNat ∧
                  used.threshold.toUInt64.toNat ≤ before.toNat + inputs.length then 1 else 0)) ∧
        ∀ index < inputs.length,
          (Weave.ofFlags pipeline.settings flags lowering store.name f.name).Account reporter f
            (pool.movesOf index)) := by
  have sound : f.WellFormed := Func.verify_eq_ok_iff.mp verified
  obtain ⟨flags', reporter', store', -, compiles⟩ :=
    Pipeline.compiles_of_compile shipped sound success
  obtain rfl : flags = flags' := Except.ok.inj (read.symm.trans compiles.flags_eq)
  obtain rfl : reporter = reporter' := Except.ok.inj (asked.symm.trans compiles.reporter_eq)
  obtain ⟨prologue, statuses, same, course⟩ :=
    compiles.course sound foreign counts uncalled registered accepted schedule
  rw [played] at course
  have length : inputs.length = pool.strands.length := by
    rw [← course.limits_length, List.length_map]
  have origin : (Weave.ofFlags pipeline.settings flags lowering store.name f.name).entries world =
      before := begins
  constructor
  · obtain ⟨reports, heard, bound⟩ := course.balanced.heard
    rw [same] at heard bound
    rw [origin] at bound
    refine ⟨_, reports, ?_, heard, ?_⟩
    · rw [length, ← course.statuses_length]
      exact List.countP_le_length
    · intro used isUsed
      exact Nat.le_of_add_right_le (Nat.le_of_eq (bound used isUsed))
  · intro finished
    constructor
    · obtain ⟨reports, heard, bound⟩ := (course.settled finished).heard
      rw [same, ← length] at heard bound
      refine ⟨reports, heard, fun used isUsed => ?_⟩
      have hits := bound used isUsed
      rw [origin, Nat.add_zero] at hits
      refine ⟨hits, fun small => ?_⟩
      rw [hits, used.hits_of_lt small]
    · intro index inside
      have account := (course.past_of_hasEnded finished (List.getElem?_eq_getElem
        (by rw [course.statuses_length, ← length]; exact inside))).2
      rw [same] at account
      exact account

theorem calls_exact_when_interleaved_choose :
    ∃ compiled pool,
      (Pool.start compiled Sample.world Sample.runs).play compiled Sample.alternating = pool ∧
      pool.world.counters.read (.owned "profiles" "choose" .calls) = 2 ∧
      pool.world.host.calls.filter (·.1 == .address 4096) = [Sample.reporter.call] := by
  obtain ⟨stored, compiled, events, report, success⟩ := Pipeline.compile_eq_of_isOk
    Sample.compile_choose
  have unused : Sample.world.counters.read (.owned "profiles" "choose" .calls) = 0 :=
    Counters.read_zero _
  have foreign : ∀ counter ∈ (Sample.choose Sample.counting).counters,
      ¬ counter.BelongsTo "profiles" "choose" := nofun
  have read : Sample.pipeline.settings.flagsOf (Sample.choose Sample.counting) =
      .ok Sample.counting := rfl
  have asked : Probe.After.reporterOf Sample.counting (Sample.choose Sample.counting) =
      .ok (some Sample.reporter) := rfl
  have accepted : ∀ input ∈ Sample.runs, input.2.length = 1 ∧ 5 ≤ input.1 := by decide
  obtain ⟨-, whole⟩ := calls_exact_when_interleaved Sample.shipped_pipeline rfl foreign success
    read rfl asked (Sample.uncalled_choose Sample.counting) Sample.registered_world unused
    accepted rfl
  obtain ⟨⟨reports, ⟨counted, made, recorded, asIs⟩, exact'⟩, -⟩ :=
    whole (Sample.hasEnded_runs compiled)
  have once : reports = 1 := (exact' Sample.reporter rfl).1
  refine ⟨compiled, _, rfl, ?_, ?_⟩
  · apply counted.trans
    show Sample.world.counters.read (.owned "profiles" "choose" .calls) + 2 = 2
    rw [unused]
    rfl
  · rw [recorded, show Sample.world.host.calls = [] from rfl, List.append_nil]
    apply (asIs Sample.reporter rfl).trans
    rw [once]
    rfl

end FlowProfile
