/-
# Compilation is transparent

What a function does is not changed by compiling it.  A run of the compiled function ends
as the run of the function does, makes the same calls and leaves the same counters, those
of the function's own profile apart.  It needs more steps, and how many is said by looking
at the run of the function alone.

Two things are allowed to differ.  Calls that were lowered go to the routines they were
lowered to, and a run that is the one to report makes this call ahead of all others.
-/

import FlowProfile.Proofs.Run.Causes
import FlowProfile.Proofs.Weave.Compiled
import FlowProfile.Proofs.Weave.Running

namespace FlowProfile

namespace Reporter

/-- The steps of a compiled function ahead of the function's own: one where calls are
counted, and where there is a reporter three more, or five if it is due. -/
def stepsAhead (counts : Bool) (reporter : Option Reporter) (calls : UInt64) : Nat :=
  match counts, reporter with
  | false, _ => 0
  | true, none => 1
  | true, some _ => if (due? reporter calls).isSome then 6 else 4

end Reporter

/-- The steps that a compiled function takes on the way along a trail of the function:
three for a branch, and two for a call that is recognized as one of an allocator, at each
stage at which it is. -/
def Weave.probeSteps (weave : Weave) (f : Func) (path : List Frame) : Nat :=
  3 * path.countP (weave.probesBranch f) + 2 * path.countP (weave.probesCall .before) +
    2 * path.countP (weave.probesCall .after)

/-- Two runs from one world have made the same calls and left the same in all counters but
those of a profile, when the second has made some calls ahead. -/
structure SameEffects (weave : Weave) (ahead : List Call) (world after after' : World) :
    Prop where
  calls : ∃ made made', after.host.calls = made ++ world.host.calls ∧
    after'.host.calls = made' ++ (ahead ++ world.host.calls) ∧
    List.Forall₂ (Lowering.Renames weave.lowering) made made'
  counters : ∀ counter, ¬ weave.Owns counter →
    after'.counters.read counter = after.counters.read counter

/-- Runs of a function and of what it was compiled to, on the same arguments and from the
same world, end alike, when the latter takes so many steps and makes these calls ahead. -/
structure Transparent (weave : Weave) (steps : Nat) (ahead : List Call) (f compiled : Func)
    (args : List Int64) (world : World) : Prop where
  returned : ∀ limit value after, Machine.run f limit args world = (.ok value, after) →
    ∀ limit', (Machine.trailOf f limit args world).length +
        weave.probeSteps f (Machine.trailOf f limit args world) + steps ≤ limit' →
      ∃ after', Machine.run compiled limit' args world = (.ok value, after') ∧
        SameEffects weave ahead world after after'
  failed : ∀ limit error after, Machine.run f limit args world = (.error error, after) →
    error ≠ .stepLimitExceeded limit →
    ∀ limit', (Machine.trailOf f limit args world).length +
        weave.probeSteps f (Machine.trailOf f limit args world) + steps ≤ limit' →
      ∃ error' after', Machine.run compiled limit' args world = (.error error', after') ∧
        weave.Mirrors error error' ∧
        (SameEffects weave ahead world after after' ∨ SameEffects weave [] world after after')
  exhausted : ∀ limit after,
    Machine.run f limit args world = (.error (.stepLimitExceeded limit), after) →
      ∃ after', Machine.run compiled limit args world =
        (.error (.stepLimitExceeded limit), after')

/-! ## The prologue in terms of the flags -/

namespace Prologue

variable {calls : Bool} {reporter : Option Reporter} (next : ValueId) (weave : Weave)
  (counters : Counters)

theorem fires?_ofCalls (asked : calls = false → reporter = none) :
    (ofCalls calls reporter next).fires? weave counters =
      Reporter.due? reporter (counters.read (weave.counter .calls)) := by
  cases calls with
  | false =>
      rw [asked rfl]
      rfl
  | true =>
      cases reporter with
      | none => rfl
      | some reporter => simp [ofCalls, fires?, Reporter.due?, Option.filter]

theorem cost_ofCalls :
    (ofCalls calls reporter next).cost
        (Reporter.due? reporter (counters.read (weave.counter .calls))) =
      Reporter.stepsAhead calls reporter (counters.read (weave.counter .calls)) := by
  cases calls with
  | false => rfl
  | true => cases reporter <;> rfl

end Prologue

theorem Probe.After.reporterOf_off {flags : Flags} {f : Func} {reporter : Option Reporter}
    (asked : reporterOf flags f = .ok reporter) (off : flags.calls = false) :
    reporter = none := by
  rw [reporterOf, off] at asked
  cases asked
  rfl

/-! ## Runs side by side -/

section

variable {weave : Weave} {prologue : Prologue} {fresh : BlockId → ValueId} {f woven : Func}
  {args : List Int64} {world : World}

/-- Two runs that were kin when the second had made some calls have the same effects. -/
theorem Weave.Kin.sameEffects {answers : Callee → Option (List Int64 → Int64)}
    {ahead : List Call} {middle after after' : World}
    (kin : weave.Kin answers world.host.calls middle.host.calls after after')
    (calls : middle.host.calls = ahead ++ world.host.calls) :
    SameEffects weave ahead world after after' where
  calls := by
    obtain ⟨made, made', recorded, recorded', renamed⟩ := kin.concur.calls
    rw [calls] at recorded'
    exact ⟨made, made', recorded, recorded', renamed⟩
  counters := kin.read_eq

theorem SameEffects.refl (weave : Weave) (world : World) :
    SameEffects weave [] world world world where
  calls := ⟨[], [], rfl, rfl, .nil⟩
  counters := fun _ _ => rfl

/-- Where both functions refuse the arguments nothing happens. -/
theorem transparent_of_refused {weave : Weave} {steps : Nat} {ahead : List Call} {expected : Nat}
    {function : String}
    (refused : Frame.start f args = .error (.functionArity function expected args.length))
    (refused' : Frame.start woven args = .error (.functionArity function expected args.length)) :
    Transparent weave steps ahead f woven args world := by
  have ran (limit : Nat) : Machine.run f limit args world =
      (.error (.functionArity function expected args.length), world) := by
    rw [Machine.run, refused]
  have ran' (limit : Nat) : Machine.run woven limit args world =
      (.error (.functionArity function expected args.length), world) := by
    rw [Machine.run, refused']
  refine ⟨?_, ?_, ?_⟩
  · intro limit value after returned
    rw [ran] at returned
    cases returned
  · intro limit error after failed cause limit' le
    rw [ran] at failed
    cases failed
    exact ⟨_, _, ran' limit', .within _ Func.entry, .inr (.refl weave world)⟩
  · intro limit after exhausted
    rw [ran] at exhausted
    cases exhausted

section

variable (isWoven : Woven weave prologue fresh f woven) (sound : f.WellFormed)
  (spares : ∀ counter ∈ f.counters, ¬ weave.Owns counter)
  (functional : world.host.IsFunctional)
  (interchanges : Lowering.Interchanges weave.lowering world.host.answer?)

include isWoven sound spares functional interchanges

/-- Where the woven function gets to the function's own code, it keeps pace from there on. -/
theorem Woven.transparent_of_enters {frame frame' next : Frame} {middle : World}
    {ahead : List Call} (starts : Frame.start f args = .ok frame)
    (starts' : Frame.start woven args = .ok frame')
    (enters : weave.Enters prologue fresh f woven frame frame' world next middle)
    (calls : middle.host.calls = ahead ++ world.host.calls) :
    Transparent weave (prologue.cost (prologue.fires? weave world.counters)) ahead f woven args
      world := by
  obtain ⟨entering, passes, -⟩ := enters.passes
  have tracks (limit : Nat) := isWoven.tracks sound spares interchanges limit enters.follows
    (enters.kin functional)
  -- The woven run, seen from where it has reached the function's own code.
  have onward (steps : Nat) :
      Machine.advance woven (prologue.cost (prologue.fires? weave world.counters) + steps)
        frame' world = Machine.advance woven steps next middle :=
    Machine.advance_add_of_running passes.advance_eq steps
  have enough {limit limit' : Nat}
      (le : (Machine.trailOf f limit args world).length +
        weave.probeSteps f (Machine.trailOf f limit args world) +
          prologue.cost (prologue.fires? weave world.counters) ≤ limit') :
      prologue.cost (prologue.fires? weave world.counters) +
        weave.costs f (Machine.trail f limit frame world) ≤ limit' := by
    rw [Machine.trailOf_of_start starts] at le
    have bound : weave.costs f (Machine.trail f limit frame world) ≤ _ := Weave.costs_le _
    unfold Weave.probeSteps at le
    omega
  refine ⟨?_, ?_, ?_⟩
  · intro limit value after returned limit' le
    rw [Machine.run_of_start starts] at returned
    have tracked := tracks limit
    rw [Progress.eq_returned_of_result returned] at tracked
    cases tracked with
    | @returned value after after' reaches kin grows =>
        rw [← onward] at reaches
        refine ⟨after', ?_, kin.sameEffects calls⟩
        rw [Machine.run_of_start starts',
          Machine.advance_of_ended (by rw [reaches]; rfl) (enough le), reaches]
        rfl
  · intro limit error after failed cause limit' le
    rw [Machine.run_of_start starts] at failed
    have tracked := tracks limit
    rw [Progress.eq_failed_of_result failed cause] at tracked
    cases tracked with
    | @failed error error' after after' steps short fails mirrors kin =>
        rw [← onward] at fails
        have le' := Nat.le_trans (Nat.add_le_add_left short _) (enough le)
        refine ⟨error', after', ?_, mirrors, .inl (kin.sameEffects calls)⟩
        rw [Machine.run_of_start starts', Machine.advance_of_ended (by rw [fails]; rfl) le', fails]
        rfl
  · intro limit after exhausted
    rw [Machine.run_of_start starts] at exhausted
    obtain ⟨stop, reached⟩ := Machine.running_of_exhausted exhausted
    have length : (Machine.trail f limit frame world).length = limit :=
      Machine.length_trail_of_running reached
    have tracked := tracks limit
    rw [reached] at tracked
    cases tracked with
    | running reaches follows kin grows =>
        rw [← onward] at reaches
        have le : limit ≤ prologue.cost (prologue.fires? weave world.counters) +
            weave.costs f (Machine.trail f limit frame world) := by
          have slower := weave.length_le_costs f (Machine.trail f limit frame world)
          omega
        have going : (Machine.advance woven limit frame' world).isRunning = true :=
          Machine.isRunning_of_le le (by rw [reaches]; rfl)
        rw [Machine.run_of_start starts']
        exact Progress.result_of_isRunning going limit

/-- A woven function whose routines are there is transparent. -/
theorem Woven.transparent (registered : prologue.Registered weave world) :
    Transparent weave (prologue.cost (prologue.fires? weave world.counters))
      ((prologue.fires? weave world.counters).map Reporter.call).toList f woven args world := by
  rcases isWoven.enters_run sound registered args with
    ⟨refused, refused'⟩ | ⟨frame, frame', next, middle, starts, starts', enters⟩
  · exact transparent_of_refused refused refused'
  · exact isWoven.transparent_of_enters sound spares functional interchanges starts starts' enters
      (enters.calls registered)

end

end

namespace Pipeline

/-- What is known of a compilation makes it transparent. -/
theorem Compiles.transparent {pipeline : Pipeline} {lowering : Option Lowering} {flags : Flags}
    {reporter : Option Reporter} {store store' : Store} {f compiled : Func}
    (compiles : pipeline.Compiles lowering flags reporter store store' f compiled)
    (sound : f.WellFormed)
    (foreign : ∀ counter ∈ f.counters, ¬ counter.BelongsTo store.name f.name)
    {world : World} (functional : world.host.IsFunctional)
    (interchanges : Lowering.Interchanges lowering world.host.answer?)
    (there : ∀ used, reporter = some used →
      (world.host.routine? (.address used.callback)).isSome = true) (args : List Int64) :
    Transparent (.ofFlags pipeline.settings flags lowering store.name f.name)
      (Reporter.stepsAhead flags.calls reporter
        (world.counters.read (.owned store.name f.name .calls)))
      (Reporter.callsAhead reporter (world.counters.read (.owned store.name f.name .calls)))
      f compiled args world := by
  obtain ⟨next, isWoven⟩ := compiles.isWoven
  have fires : Prologue.fires? _ _ world.counters = _ :=
    Prologue.fires?_ofCalls next
      (.ofFlags pipeline.settings flags lowering store.name f.name) world.counters
      (Probe.After.reporterOf_off compiles.reporter_eq)
  have registered : (Prologue.ofCalls flags.calls reporter next).Registered
      (.ofFlags pipeline.settings flags lowering store.name f.name) world := by
    intro used fired
    rw [fires] at fired
    exact there used (Option.eq_some_of_filter_eq_some fired)
  have transparent : Transparent _ _ _ f compiled args world :=
    isWoven.transparent sound foreign functional interchanges registered
  rw [fires, Prologue.cost_ofCalls] at transparent
  exact transparent

/-- The parts of a compilation that succeeds. -/
theorem compile_eq_of_isOk {pipeline : Pipeline} {counters : Counters} {store : Option Store}
    {f : Func} (isOk : (pipeline.compile counters store f).2.result.isOk = true) :
    ∃ after compiled events report,
      pipeline.compile counters store f = (after, ⟨compiled, events, .ok report⟩) := by
  generalize pipeline.compile counters store f = outcome at isOk
  obtain ⟨after, compiled, events, result⟩ := outcome
  cases result with
  | error error => cases isOk
  | ok report => exact ⟨after, compiled, events, report, rfl⟩

end Pipeline

namespace Sample

/-- A function that requests memory, branches on its parameter, and asks to have its first
call reported. -/
def choose (flags : Flags) : Func where
  name := "choose"
  params := [0]
  blocks := #[
    ⟨none, [], [.call (some 1) (.symbol "jit.gc_alloc_obj")
      [.const (.word 0), .const (.word 8), .const (.word 0)]],
      .branch (.value 0) ⟨1, []⟩ ⟨2, []⟩ none⟩,
    ⟨none, [], [], .ret (some (.value 1))⟩,
    ⟨none, [], [], .ret (some (.const (.word 0)))⟩]
  notes := (Table.empty.insert flagsKey flags.toNote).insert reporterKey
    (.tuple [.int 1, .int 4096, .int 7])
  entryCount := none
  nextValue := 2

/-- All that can be counted. -/
def counting : Flags :=
  ⟨true, true, true, false⟩

/-- Only branches are counted. -/
def branching : Flags :=
  ⟨false, true, false, false⟩

/-- The reporter that the function asks for. -/
def reporter : Reporter :=
  ⟨1, 4096, [.word 7]⟩

/-- The pipeline that lowers requests. -/
def pipeline : Pipeline :=
  ⟨.standard, .ofLowering (some .standard)⟩

/-- Where nothing was counted, and every routine that is needed is there. -/
def world : World :=
  ⟨.zero, .ofRoutines [(.symbol "jit.gc_alloc_obj", .always 5),
    (.symbol "jit.gc_pool_alloc", .always 5), (.symbol "jit.gc_big_alloc", .always 5),
    (.address 4096, .always 0)]⟩

theorem shipped_pipeline : pipeline.optimizer = .ofLowering (some .standard) := rfl

theorem compile_choose :
    (pipeline.compile .zero (some (.empty "profiles")) (choose counting)).2.result.isOk =
      true := by
  decide +kernel

theorem functional_world : world.host.IsFunctional := by
  intro entry mem before after args
  simp only [world, Host.ofRoutines, List.mem_cons, List.not_mem_nil, or_false] at mem
  rcases mem with rfl | rfl | rfl | rfl <;> rfl

theorem interchanges_world :
    Lowering.Interchanges (some .standard) world.host.answer? := by
  intro lowering same
  cases same
  exact ⟨rfl, rfl⟩

theorem registered_world (used : Reporter) (same : some reporter = some used) :
    (world.host.routine? (.address used.callback)).isSome = true := by
  cases same
  rfl

/-- The branch, the request at both stages, and the call of the reporter are paid for. -/
theorem steps_choose :
    (Machine.trailOf (choose counting) 3 [1] world).length +
        (Weave.ofFlags .standard counting (some .standard) "profiles" "choose").probeSteps
          (choose counting) (Machine.trailOf (choose counting) 3 [1] world) +
        Reporter.stepsAhead true (some reporter)
          (world.counters.read (.owned "profiles" "choose" .calls)) ≤ 16 := by
  have counted : world.counters.read (.owned "profiles" "choose" .calls) = 0 :=
    Counters.read_zero _
  rw [counted]
  decide

end Sample

namespace Pipeline

/-- Compiling a function with one of the library's optimizers changes nothing about what it
does, if the function adds to no counter of its own profile, the routines it calls are
functions of their arguments that serve lowered requests alike, and that of its reporter
is there. -/
theorem compile_transparent {pipeline : Pipeline} {lowering : Option Lowering}
    (shipped : pipeline.optimizer = .ofLowering lowering) {counters : Counters} {store : Store}
    {f compiled : Func} (verified : f.verify = .ok ())
    (foreign : ∀ counter ∈ f.counters, ¬ counter.BelongsTo store.name f.name)
    {after : Option Store} {events : List Event} {report : CompileReport}
    (success : pipeline.compile counters (some store) f =
      (after, ⟨compiled, events, .ok report⟩)) :
    ∃ flags reporter, pipeline.settings.flagsOf f = .ok flags ∧
      Probe.After.reporterOf flags f = .ok reporter ∧
      ∀ (args : List Int64) (world : World), world.host.IsFunctional →
        Lowering.Interchanges lowering world.host.answer? →
        (∀ used, reporter = some used →
          (world.host.routine? (.address used.callback)).isSome = true) →
        Transparent (.ofFlags pipeline.settings flags lowering store.name f.name)
          (Reporter.stepsAhead flags.calls reporter
            (world.counters.read (.owned store.name f.name .calls)))
          (Reporter.callsAhead reporter (world.counters.read (.owned store.name f.name .calls)))
          f compiled args world := by
  have sound : f.WellFormed := Func.verify_eq_ok_iff.mp verified
  obtain ⟨flags, reporter, store', -, compiles⟩ := compiles_of_compile shipped sound success
  refine ⟨flags, reporter, compiles.flags_eq, compiles.reporter_eq, ?_⟩
  intro args world functional interchanges there
  exact compiles.transparent sound foreign functional interchanges there args

theorem compile_transparent_choose :
    ∃ stored compiled events report after,
      Sample.pipeline.compile .zero (some (.empty "profiles")) (Sample.choose Sample.counting) =
        (stored, ⟨compiled, events, .ok report⟩) ∧
      Machine.run compiled 16 [1] Sample.world = (.ok (some 5), after) := by
  obtain ⟨stored, compiled, events, report, success⟩ := compile_eq_of_isOk
    Sample.compile_choose
  have foreign : ∀ counter ∈ (Sample.choose Sample.counting).counters,
      ¬ counter.BelongsTo "profiles" "choose" := nofun
  obtain ⟨flags, reporter, read, asked, transparent⟩ :=
    compile_transparent Sample.shipped_pipeline rfl foreign success
  obtain rfl : flags = Sample.counting := (Except.ok.inj read).symm
  obtain rfl : reporter = some Sample.reporter := (Except.ok.inj asked).symm
  have same := transparent [1] Sample.world Sample.functional_world Sample.interchanges_world
    Sample.registered_world
  obtain ⟨after, ran, -⟩ := same.returned 3 (some 5) _ rfl 16 Sample.steps_choose
  exact ⟨stored, compiled, events, report, after, success, ran⟩

end Pipeline

end FlowProfile
