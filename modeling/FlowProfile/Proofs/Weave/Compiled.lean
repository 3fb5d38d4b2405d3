/-
# Compiled functions are woven

A successful compilation is the composition of its stages.  `Compiles` keeps what there
is to know about one: the flags in force, the reporter in use, what the profile is left
with, and a description of the function that comes out by a weave and a prologue.  That
description is all the theory of execution uses.
-/

import FlowProfile.Proofs.Weave.Checks

namespace FlowProfile

theorem Store.slotsOf_put (store : Store) (function : String) (profile : Profile) :
    (store.put function profile).slotsOf function = profile.slots := by
  simp [slotsOf, put, profile?]

/-- What weaving amounts to under given flags. -/
def Weave.ofFlags (settings : Settings) (flags : Flags) (lowering : Option Lowering)
    (store function : String) : Weave :=
  ⟨store, function, flags.branches, if flags.allocations then some settings.alloc else none,
    lowering⟩

namespace Probe.Before

/-- What the pass before the optimizer makes of the profile of a function. -/
structure Leaves (flags : Flags) (store : Store) (f : Func) (store' : Store) : Prop where
  name_eq : store'.name = store.name
  profile_isSome : flags.isEmpty = false → (store'.profile? f.name).isSome = true
  fits : flags.branches = true → (store.slotsOf f.name).fits f.blocks.size = true
  slots_eq : store'.slotsOf f.name =
    if flags.branches then branchSlots (store.slotsOf f.name) f else store.slotsOf f.name

/-- Looking up a profile, or creating it, changes no slots. -/
theorem slotsOf_of_obtain {store base : Store} {function : String} {shape : Except Error Shape}
    {profile : Profile} {created : Bool}
    (obtained : store.obtain function shape = .ok (base, profile, created)) :
    base.name = store.name ∧ base.profile? function = some profile ∧
      profile.slots = store.slotsOf function := by
  unfold Store.obtain at obtained
  unfold Store.slotsOf
  cases known : store.profile? function with
  | some old =>
      rw [known] at obtained
      cases obtained
      exact ⟨rfl, known, rfl⟩
  | none =>
      rw [known] at obtained
      cases shape with
      | error error => cases obtained
      | ok shape =>
          cases obtained
          exact ⟨rfl, by simp [Store.profile?, Store.put], rfl⟩

section

variable (settings : Settings) (flags : Flags) (lowering : Option Lowering)
  (counters : Counters) (store : Store) (profile : Profile) (f : Func)

/-- What the pass does to the blocks of a function. -/
theorem retouched_change :
    Retouched
      (fun id block =>
        (block.instrs ++ (Weave.ofFlags settings flags lowering store.name f.name).tail
          (branchValue f id) id block.terminator).flatMap
            ((Weave.ofFlags settings flags lowering store.name f.name).probedAt .before))
      f (change settings flags counters store profile f).2.func := by
  let weave := Weave.ofFlags settings flags lowering store.name f.name
  have branched : Retouched
      (fun id block => block.instrs ++ weave.tail (branchValue f id) id block.terminator) f
      ((Step.skip f).andThen flags.branches (branches store)).func := by
    rw [Step.func_andThen]
    cases on : flags.branches with
    | true => exact Retouched.branches weave rfl rfl on
    | false =>
        have none (id : BlockId) (block : Block) :
            weave.tail (branchValue f id) id block.terminator = [] := Weave.tail_of_off on ..
        simp only [none, List.append_nil]
        exact Retouched.refl f
  have allocated : Retouched
      (fun id block =>
        (block.instrs ++ weave.tail (branchValue f id) id block.terminator).flatMap
          (weave.probedAt .before)) f
      (((Step.skip f).andThen flags.branches (branches store)).andThen flags.allocations
        (allocations settings.alloc .before store)).func := by
    rw [Step.func_andThen]
    cases on : flags.allocations with
    | true =>
        have asked : weave.allocations = some settings.alloc := if_pos on
        exact branched.trans _ (Retouched.allocations weave rfl branched.name_eq asked .before)
    | false =>
        have unasked : weave.allocations = none := if_neg (by simp [on])
        have alone (instrs : List Instr) : instrs.flatMap (weave.probedAt .before) = instrs :=
          weave.flatMap_probedAt_of_off unasked instrs .before
        simp only [alone]
        exact branched
  show Retouched _ f (Step.andThen _ flags.feedback _).func
  rw [Step.func_andThen]
  split
  · have fed := Retouched.feedback counters store
      (if flags.branches then branchSlots profile.slots f else profile.slots)
    exact Retouched.trans (fun instrs => instrs) allocated (fed _)
  · exact allocated

/-- The pass gives out the values of the branch probes. -/
theorem le_nextValue_change (on : flags.branches = true) :
    f.nextValue + (branchSites f).length ≤
      (change settings flags counters store profile f).2.func.nextValue := by
  have branched : f.nextValue + (branchSites f).length =
      ((Step.skip f).andThen flags.branches (branches store)).func.nextValue := by
    rw [Step.func_andThen, if_pos on]
    rfl
  rw [branched]
  refine Nat.le_trans ?_ (Step.le_nextValue_andThen (fun g => ?_) _ flags.feedback)
  · exact Step.le_nextValue_andThen (fun g => Nat.le_refl _) _ flags.allocations
  · exact (Retouched.feedback counters store _ g).le_nextValue

end

/-- Flags that do not concern the pass leave the function as it is. -/
theorem change_of_unconcerned {settings : Settings} {flags : Flags} {counters : Counters}
    {store : Store} {profile : Profile} {f : Func} (unconcerned : concerns flags = false) :
    (change settings flags counters store profile f).2.func = f := by
  obtain ⟨allocations, branches, calls, feedback⟩ := flags
  simp only [concerns, Bool.or_eq_false_iff] at unconcerned
  obtain ⟨⟨rfl, rfl⟩, rfl⟩ := unconcerned
  rfl

/-- A success of the pass is its change under the flags of the function. -/
theorem run_eq_ok {settings : Settings} {counters : Counters} {store store' : Store}
    {f func : Func} {events : List Event} {preserved : Preserved}
    (ran : run settings counters store f = (store', ⟨func, events, .ok preserved⟩)) :
    ∃ flags base profile, settings.flagsOf f = .ok flags ∧ base.name = store.name ∧
      func = (change settings flags counters base profile f).2.func ∧
      Leaves flags store f store' := by
  cases ends_of_run ran with
  | @idle flags read empty =>
      have unconcerned : concerns flags = false ∧ flags.branches = false := by
        simp only [Flags.isEmpty, Bool.not_eq_true', Bool.or_eq_false_iff] at empty
        simp [concerns, empty]
      refine ⟨flags, store, ⟨default, .unsized⟩, read, rfl,
        (change_of_unconcerned unconcerned.1).symm, rfl, ?_, ?_, ?_⟩
      · rw [empty]; exact nofun
      · rw [unconcerned.2]; exact nofun
      · rw [unconcerned.2]; rfl
  | @unconcerned flags _ profile _ read nonempty obtained apart =>
      obtain ⟨name, known, slots⟩ := slotsOf_of_obtain obtained
      have off : flags.branches = false := by
        simp only [concerns, Bool.or_eq_false_iff] at apart
        exact apart.1.1
      refine ⟨flags, store', profile, read, name, (change_of_unconcerned apart).symm, name,
        fun _ => ?_, ?_, ?_⟩
      · rw [known]; rfl
      · rw [off]; exact nofun
      · rw [off, Store.slotsOf, known]; exact slots
  | @changed flags base profile _ read nonempty obtained concerned checked =>
      obtain ⟨name, known, slots⟩ := slotsOf_of_obtain obtained
      refine ⟨flags, base, profile, read, name, rfl, name, fun _ => ?_, fun on => ?_, ?_⟩
      · simp [change, Store.profile?, Store.put]
      · rw [← slots]; exact (check_eq_ok_iff.mp checked).2 (.inl on)
      · rw [← slots]; exact Store.slotsOf_put ..

end Probe.Before

namespace Probe.After

/-- The pass after the optimizer finds the profile that the pass before it has seen to, so
that a success of it is its change under the flags of the function. -/
theorem run_eq_ok {settings : Settings} {flags : Flags} {counters : Counters} {store : Store}
    {f func : Func} {events : List Event} {preserved : Preserved}
    (ran : run settings counters store f = ⟨func, events, .ok preserved⟩)
    (read : settings.flagsOf f = .ok flags)
    (profile : flags.isEmpty = false → (store.profile? f.name).isSome = true) :
    ∃ reporter, reporterOf flags f = .ok reporter ∧
      func = (change settings flags counters store reporter f).func := by
  have same {flags' : Flags} (read' : settings.flagsOf f = .ok flags') : flags = flags' :=
    Except.ok.inj (read.symm.trans read')
  cases ends_of_run ran with
  | unconcerned read' off off' =>
      obtain rfl := same read'
      refine ⟨none, ?_, ?_⟩
      · rw [reporterOf, off]
      · rw [change, off, off']; rfl
  | unknown read' concerned unknown =>
      obtain rfl := same read'
      have nonempty : flags.isEmpty = false := by
        rcases concerned with on | on <;> simp [Flags.isEmpty, on]
      rw [unknown] at profile
      cases profile nonempty
  | changed read' concerned known checked =>
      obtain rfl := same read'
      exact ⟨_, (check_eq_ok_iff.mp checked).2.1, rfl⟩

/-- What the pass does to a function, after counting its calls. -/
theorem retouched_change {settings : Settings} {flags : Flags} {lowering : Option Lowering}
    {counters : Counters} {store : Store} {reporter : Option Reporter} {f : Func}
    {name function : String} (hstore : store.name = name) (hname : f.name = function) :
    Retouched
      (fun _ block => block.instrs.flatMap
        ((Weave.ofFlags settings flags lowering name function).probedAt .after))
      (counted store f counters flags.calls reporter)
      (change settings flags counters store reporter f).func := by
  let weave := Weave.ofFlags settings flags lowering name function
  have callsCounted : ((Step.skip f).andThen flags.calls (calls store counters reporter)).func =
      counted store f counters flags.calls reporter := Step.func_andThen ..
  show Retouched _ _ (Step.andThen _ flags.allocations _).func
  rw [Step.func_andThen, callsCounted]
  cases on : flags.allocations with
  | true =>
      have asked : weave.allocations = some settings.alloc := if_pos on
      refine Retouched.allocations weave hstore ?_ asked .after
      exact (header_counted store f counters flags.calls reporter).1.trans hname
  | false =>
      have unasked : weave.allocations = none := if_neg (by simp [on])
      have alone (instrs : List Instr) : instrs.flatMap (weave.probedAt .after) = instrs :=
        weave.flatMap_probedAt_of_off unasked instrs .after
      show Retouched (fun _ block => block.instrs.flatMap (weave.probedAt .after)) _ _
      simp only [alone]
      exact Retouched.refl _

end Probe.After

namespace Pipeline

/-- What there is to know about a compilation of `f` to `woven` by a pipeline with one of
the library's optimizers, which took the store from `store` to `store'`. -/
structure Compiles (pipeline : Pipeline) (lowering : Option Lowering) (flags : Flags)
    (reporter : Option Reporter) (store store' : Store) (f woven : Func) : Prop where
  flags_eq : pipeline.settings.flagsOf f = .ok flags
  reporter_eq : Probe.After.reporterOf flags f = .ok reporter
  leaves : Probe.Before.Leaves flags store f store'
  verified : woven.WellFormed
  isWoven : ∃ next, Woven (.ofFlags pipeline.settings flags lowering store.name f.name)
    (.ofCalls flags.calls reporter next) (branchValue f) f woven

/-- All the ways in which a compilation can end: in the stage that refuses the function, in
its verification, or with a report from every stage. -/
inductive Ends (pipeline : Pipeline) (counters : Counters) (store : Option Store) (f : Func) :
    Option Store → Compilation → Prop
  | before {after : Option Store} {g : Func} {events : List Event} {error : Error}
      (first : pipeline.before counters store f = (after, ⟨g, events, .error error⟩)) :
      Ends pipeline counters store f after ⟨g, events, .error error⟩
  | optimizer {after : Option Store} {g h : Func} {events events' : List Event}
      {preserved : Preserved} {error : Error}
      (first : pipeline.before counters store f = (after, ⟨g, events, .ok preserved⟩))
      (second : pipeline.optimizer.run g = ⟨h, events', .error error⟩) :
      Ends pipeline counters store f after ⟨h, events ++ events', .error error⟩
  | after {after : Option Store} {g h woven : Func} {events events' events'' : List Event}
      {preserved preserved' : Preserved} {error : Error}
      (first : pipeline.before counters store f = (after, ⟨g, events, .ok preserved⟩))
      (second : pipeline.optimizer.run g = ⟨h, events', .ok preserved'⟩)
      (third : pipeline.after counters after h = ⟨woven, events'', .error error⟩) :
      Ends pipeline counters store f after ⟨woven, events ++ events' ++ events'', .error error⟩
  | finish {after : Option Store} {g h woven : Func} {events events' events'' : List Event}
      {report : CompileReport}
      (first : pipeline.before counters store f = (after, ⟨g, events, .ok report.before⟩))
      (second : pipeline.optimizer.run g = ⟨h, events', .ok report.optimizer⟩)
      (third : pipeline.after counters after h = ⟨woven, events'', .ok report.after⟩) :
      Ends pipeline counters store f after
        (pipeline.finish woven (events ++ events' ++ events'') report)

theorem ends_of_compile {pipeline : Pipeline} {counters : Counters} {store after : Option Store}
    {f : Func} {compilation : Compilation}
    (compiled : pipeline.compile counters store f = (after, compilation)) :
    pipeline.Ends counters store f after compilation := by
  unfold compile goOn at compiled
  rcases first : pipeline.before counters store f with ⟨stored, g, events, result⟩
  simp only [first] at compiled
  cases result with
  | error error =>
      cases compiled
      exact .before first
  | ok preserved =>
      rcases second : pipeline.optimizer.run g with ⟨h, events', result'⟩
      simp only [second] at compiled
      cases result' with
      | error error =>
          cases compiled
          exact .optimizer first second
      | ok preserved' =>
          rcases third : pipeline.after counters stored h with ⟨woven, events'', result''⟩
          simp only [third] at compiled
          cases result'' with
          | error error =>
              cases compiled
              exact .after first second third
          | ok preserved'' =>
              cases compiled
              exact .finish first second third

/-- The stages of a compilation that succeeds, with what each has reported. -/
theorem reports_of_compile {pipeline : Pipeline} {counters : Counters}
    {store after : Option Store} {f woven : Func} {events : List Event} {report : CompileReport}
    (compiled : pipeline.compile counters store f = (after, ⟨woven, events, .ok report⟩)) :
    ∃ g h first second third,
      pipeline.before counters store f = (after, ⟨g, first, .ok report.before⟩) ∧
      pipeline.optimizer.run g = ⟨h, second, .ok report.optimizer⟩ ∧
      pipeline.after counters after h = ⟨woven, third, .ok report.after⟩ ∧
      woven.verify = .ok () ∧
      events = first ++ second ++ third ++
        [.compiled woven.name pipeline.optimizer.name report.overall] := by
  generalize made : (⟨woven, events, .ok report⟩ : Compilation) = compilation at compiled
  cases ends_of_compile compiled with
  | before first => cases made
  | optimizer first second => cases made
  | after first second third => cases made
  | @finish g h last _ _ _ report' first second third =>
      unfold finish at made
      cases verified : last.verify with
      | error error =>
          rw [verified] at made
          cases made
      | ok accepted =>
          rw [verified] at made
          cases made
          exact ⟨g, h, _, _, _, first, second, third, verified, rfl⟩

/-- The stages of a compilation that succeeds. -/
theorem stages_of_compile {pipeline : Pipeline} {counters : Counters}
    {store after : Option Store} {f woven : Func} {events : List Event} {report : CompileReport}
    (compiled : pipeline.compile counters store f = (after, ⟨woven, events, .ok report⟩)) :
    ∃ g h first second third,
      pipeline.before counters store f = (after, ⟨g, first, .ok report.before⟩) ∧
      pipeline.optimizer.run g = ⟨h, second, .ok report.optimizer⟩ ∧
      pipeline.after counters after h = ⟨woven, third, .ok report.after⟩ ∧
      woven.verify = .ok () := by
  obtain ⟨g, h, first, second, third, ran, optimized, last, verified, -⟩ :=
    reports_of_compile compiled
  exact ⟨g, h, first, second, third, ran, optimized, last, verified⟩

/-- With a store the first stage is the pass before the optimizer. -/
theorem before_of_some {pipeline : Pipeline} {counters : Counters} {store : Store}
    {after : Option Store} {f : Func} {outcome : Outcome}
    (first : pipeline.before counters (some store) f = (after, outcome)) :
    ∃ store', after = some store' ∧
      Probe.Before.run pipeline.settings counters store f = (store', outcome) := by
  rcases ran : Probe.Before.run pipeline.settings counters store f with ⟨store', outcome'⟩
  unfold before at first
  simp only [ran] at first
  cases first
  exact ⟨store', rfl, rfl⟩

/-- What the function is like when the first two stages have seen it. -/
structure Reaches (pipeline : Pipeline) (lowering : Option Lowering) (flags : Flags)
    (store : Store) (f : Func) (store' : Store) (middle : Func) : Prop where
  flags_eq : pipeline.settings.flagsOf f = .ok flags
  leaves : Probe.Before.Leaves flags store f store'
  retouched : Retouched ((Weave.ofFlags pipeline.settings flags lowering store.name
    f.name).beforeCalls (branchValue f)) f middle
  given : flags.branches = true → f.nextValue + (Probe.branchSites f).length ≤ middle.nextValue

theorem reaches_of_stages {pipeline : Pipeline} {lowering : Option Lowering}
    (shipped : pipeline.optimizer = .ofLowering lowering) {counters : Counters}
    {store store' : Store} {f before middle : Func} {events events' : List Event}
    {preserved : Preserved} {result : Except Error Preserved}
    (first : Probe.Before.run pipeline.settings counters store f =
      (store', ⟨before, events, .ok preserved⟩))
    (second : pipeline.optimizer.run before = ⟨middle, events', result⟩) :
    ∃ flags, pipeline.Reaches lowering flags store f store' middle := by
  obtain ⟨flags, base, profile, read, baseName, changed, leaves⟩ := Probe.Before.run_eq_ok first
  have retouched := Probe.Before.retouched_change pipeline.settings flags lowering counters base
    profile f
  have given := Probe.Before.le_nextValue_change pipeline.settings flags counters base profile f
  rw [← changed] at retouched given
  rw [baseName] at retouched
  have optimized : Retouched (fun _ block => block.instrs.map
      (Weave.ofFlags pipeline.settings flags lowering store.name f.name).lower) before
        (pipeline.optimizer.run before).func := Retouched.optimized shipped before
  rw [second] at optimized
  exact ⟨flags, read, leaves, retouched.trans _ optimized,
    fun on => Nat.le_trans (given on) optimized.le_nextValue⟩

/-- Both passes read the same notes. -/
theorem Reaches.flagsOf_eq {pipeline : Pipeline} {lowering : Option Lowering} {flags : Flags}
    {store store' : Store} {f middle : Func}
    (reaches : pipeline.Reaches lowering flags store f store' middle) :
    pipeline.settings.flagsOf middle = .ok flags := by
  rw [← reaches.flags_eq, Settings.flagsOf, Settings.flagsOf, Func.note?, Func.note?,
    reaches.retouched.notes_eq, reaches.retouched.name_eq]

theorem Reaches.reporterOf_eq {pipeline : Pipeline} {lowering : Option Lowering} {flags : Flags}
    {store store' : Store} {f middle : Func}
    (reaches : pipeline.Reaches lowering flags store f store' middle) :
    Probe.After.reporterOf flags middle = Probe.After.reporterOf flags f := by
  rw [Probe.After.reporterOf, Probe.After.reporterOf, Func.note?, Func.note?,
    reaches.retouched.notes_eq, reaches.retouched.name_eq]

theorem compiles_of_compile {pipeline : Pipeline} {lowering : Option Lowering}
    (shipped : pipeline.optimizer = .ofLowering lowering) {counters : Counters} {store : Store}
    {f woven : Func} (sound : f.WellFormed) {after : Option Store} {events : List Event}
    {report : CompileReport}
    (compiled : pipeline.compile counters (some store) f = (after, ⟨woven, events, .ok report⟩)) :
    ∃ flags reporter store', after = some store' ∧
      pipeline.Compiles lowering flags reporter store store' f woven := by
  obtain ⟨before, middle, _, _, _, first, second, third, verified⟩ := stages_of_compile compiled
  obtain ⟨store', stored, ran⟩ := before_of_some first
  rw [stored] at third
  obtain ⟨flags, reaches⟩ := reaches_of_stages shipped ran second
  have inner := reaches.retouched
  obtain ⟨reporter, asked, changed⟩ := Probe.After.run_eq_ok third reaches.flagsOf_eq (by
    rw [inner.name_eq]
    exact reaches.leaves.profile_isSome)
  refine ⟨flags, reporter, store', stored, reaches.flags_eq, ?_, reaches.leaves,
    Func.verify_eq_ok_iff.mp verified, middle.nextValue, ?_⟩
  · rw [← asked, reaches.reporterOf_eq]
  · let weave := Weave.ofFlags pipeline.settings flags lowering store.name f.name
    have last : Retouched (fun _ block => block.instrs.flatMap (weave.probedAt .after))
        (Probe.counted store' middle counters flags.calls reporter) woven := by
      rw [changed]
      exact Probe.After.retouched_change reaches.leaves.name_eq inner.name_eq
    refine woven_of_stages sound reaches.leaves.name_eq rfl inner ?_ last
    intro id block found on isRuntime
    have low : f.nextValue ≤ branchValue f id := Nat.le_add_right _ _
    have high := Probe.branchValue_lt found isRuntime
    exact ⟨low, Nat.lt_of_lt_of_le high (reaches.given on)⟩

end Pipeline

end FlowProfile
