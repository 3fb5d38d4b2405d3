/-
# Events agree with the code

A pass announces the places that it gives probes, one by one and then their number, and the
optimizer announces how many requests it lowered.  What is announced is what is there: the
branches on conditions known only at run time, the calls of allocators, and the requests.
The additions to counters that a compilation puts in are accounted for as well, two for each
announced place and one for the count of calls.  A pass that refuses a function announces
nothing of the kind.

The places of the pass after the optimizer are those of the function that comes out, where
the code of the entry block may have moved; those before it are those of the function as it
was handed in.
-/

import FlowProfile.Proofs.Compile.Transparency
import FlowProfile.Proofs.Weave.Accounting

namespace FlowProfile

namespace Probe

/-! ## What a pass announces -/

namespace Before

variable {settings : Settings} {flags : Flags} {counters : Counters} {store : Store}
  {profile : Profile} {f : Func}

/-- What is announced before the optimizer: every branch on a condition known only at run
time, and every call of an allocator of the stage. -/
def announced (settings : Settings) (flags : Flags) (f : Func) : List Event :=
  (if flags.branches then
    Event.announcement (.branchSite f.name) (.branchesInstalled f.name) f.runtimeBranches
  else []) ++
    if flags.allocations then
      Event.announcement (.allocationSite f.name · .before)
        (.allocationsInstalled f.name .before) (f.allocatorCalls settings.alloc .before)
    else []

/-- What the pass changes it accounts for. -/
theorem accounts_change (checked : check settings flags profile f = .ok ()) :
    (change settings flags counters store profile f).2.Accounts f := by
  have named := (check_eq_ok_iff.mp checked).1
  have skipped : (Step.skip f).Accounts f := rfl
  have branched := skipped.andThen flags.branches fun _ => accounts_branches store f
  have allocated := branched.andThen flags.allocations fun on =>
    accounts_allocations store
      (Step.holds_andThen (motive := (settings.alloc.checkCalls .before · = .ok ())) (named on)
        fun _ checked => checkCalls_branches store checked)
  exact allocated.andThen flags.feedback fun _ => Feedback.accounts_apply counters store _ _

theorem countP_announced (settings : Settings) (flags : Flags) (f : Func) :
    (announced settings flags f).countP Event.entersCounted = 0 := by
  rw [announced, List.countP_append]
  have branches : (if flags.branches then Event.announcement (.branchSite f.name)
      (.branchesInstalled f.name) f.runtimeBranches else []).countP Event.entersCounted = 0 := by
    split
    · exact Event.countP_announcement (fun _ => rfl) (fun _ => rfl) _
    · rfl
  rw [branches, Nat.zero_add]
  split
  · exact Event.countP_announcement (fun _ => rfl) (fun _ => rfl) _
  · rfl

/-- What the pass changes are not the calls by name. -/
theorem callsByBlock_change :
    (change settings flags counters store profile f).2.func.callsByBlock = f.callsByBlock := by
  refine Step.holds_andThen (motive := (·.callsByBlock = f.callsByBlock)) ?_ fun _ same =>
    (Retouched.feedback counters store _ _).callsByBlock_eq.trans same
  refine Step.holds_andThen (motive := (·.callsByBlock = f.callsByBlock)) ?_ fun _ same =>
    (callsByBlock_allocations settings.alloc .before store _).trans same
  exact Step.holds_andThen (motive := (·.callsByBlock = f.callsByBlock)) rfl fun _ _ =>
    callsByBlock_branches store f

/-- What the pass announces of its changes is what there is in the function. -/
theorem events_change (settings : Settings) (flags : Flags) (counters : Counters) (store : Store)
    (profile : Profile) (f : Func) :
    ∃ fed, (∀ event ∈ fed, event.isSilent = true) ∧
      (change settings flags counters store profile f).2.events =
        announced settings flags f ++ fed := by
  let branched := (Step.skip f).andThen flags.branches (branches store)
  have name : branched.func.name = f.name :=
    Step.holds_andThen (motive := (·.name = f.name)) rfl fun _ _ => rfl
  have calls : branched.func.callsByBlock = f.callsByBlock :=
    Step.holds_andThen (motive := (·.callsByBlock = f.callsByBlock)) rfl fun _ _ =>
      callsByBlock_branches store f
  have sites : allocationSites settings.alloc .before branched.func =
      f.allocatorCalls settings.alloc .before := by
    rw [← allocationSites_eq_allocatorCalls, allocationSites_eq, allocationSites_eq, calls]
  have first : branched.events = if flags.branches then
      Event.announcement (.branchSite f.name) (.branchesInstalled f.name) f.runtimeBranches
      else [] := by
    rw [← branchSites_eq]
    exact Step.events_andThen ..
  have second : (branched.andThen flags.allocations
      (allocations settings.alloc .before store)).events = announced settings flags f := by
    rw [Step.events_andThen, first, announced]
    simp only [allocations, sites, name]
    rfl
  refine ⟨_, ?_, (Step.events_andThen ..).trans (congrArg (· ++ _) second)⟩
  cases flags.feedback with
  | false => exact List.forall_mem_nil _
  | true => exact Feedback.isSilent_of_apply counters store _ _

theorem isSilent_of_creation {created : Bool} :
    ∀ event ∈ creation f profile created, event.isSilent = true := by
  cases created with
  | false => exact List.forall_mem_nil _
  | true => exact List.forall_mem_singleton.mpr rfl

/-- A pass that accepts a function announces what there is in it, accounts for what it adds
and keeps the calls by name. -/
theorem announces_of_run {store' : Store} {g : Func} {events : List Event} {preserved : Preserved}
    (ran : run settings counters store f = (store', ⟨g, events, .ok preserved⟩)) :
    ∃ flags created fed, settings.flagsOf f = .ok flags ∧
      (∀ event ∈ created ++ fed, event.isSilent = true) ∧
      events = created ++ announced settings flags f ++ fed ∧
      g.counters.length = f.counters.length + Event.total events ∧
      g.callsByBlock = f.callsByBlock := by
  cases ends_of_run ran with
  | @idle flags read empty =>
      obtain ⟨allocations, branches, calls, feedback⟩ := flags
      simp only [Flags.isEmpty, Bool.not_eq_true', Bool.or_eq_false_iff] at empty
      obtain ⟨⟨⟨rfl, rfl⟩, rfl⟩, rfl⟩ := empty
      exact ⟨_, [], [], read, List.forall_mem_nil _, rfl, rfl, rfl⟩
  | @unconcerned flags _ profile created read nonempty obtained apart =>
      obtain ⟨allocations, branches, calls, feedback⟩ := flags
      simp only [concerns, Bool.or_eq_false_iff] at apart
      obtain ⟨⟨rfl, rfl⟩, rfl⟩ := apart
      refine ⟨_, creation f profile created, [], read, ?_, ?_, ?_, rfl⟩
      · rw [List.append_nil]
        exact isSilent_of_creation
      · exact (List.append_nil _).symm.trans (List.append_nil _).symm
      · rw [Event.total_of_isSilent isSilent_of_creation]
        rfl
  | @changed flags base profile created read nonempty obtained concerned checked =>
      obtain ⟨fed, silent, told⟩ := events_change settings flags counters base profile f
      refine ⟨flags, creation f profile created, fed, read, ?_, ?_, ?_, callsByBlock_change⟩
      · exact List.forall_mem_append.mpr ⟨isSilent_of_creation, silent⟩
      · rw [told, List.append_assoc]
      · rw [Event.total_append, Event.total_of_isSilent isSilent_of_creation, Nat.zero_add]
        exact accounts_change checked

/-- A pass that refuses a function announces nothing. -/
theorem isSilent_of_refused {store' : Store} {g : Func} {events : List Event} {error : Error}
    (ran : run settings counters store f = (store', ⟨g, events, .error error⟩)) :
    ∀ event ∈ events, event.isSilent = true := by
  cases ends_of_run ran with
  | misread => exact List.forall_mem_nil _
  | shapeless => exact List.forall_mem_nil _
  | refused => exact isSilent_of_creation

end Before

namespace After

variable {settings : Settings} {flags : Flags} {counters : Counters} {store : Store} {f : Func}

/-- What is announced of the calls of a function that are counted. -/
def entered (flags : Flags) (reporter : Option Reporter) (f : Func) : List Event :=
  if flags.calls then
    match reporter with
    | some reporter => [.reporterInstalled f.name reporter.threshold reporter.callback]
    | none => [.callsInstalled f.name]
  else []

/-- What is announced after the optimizer: that calls are counted, and every call of an
allocator of the stage in the function as it is then. -/
def announced (settings : Settings) (flags : Flags) (reporter : Option Reporter) (f g : Func) :
    List Event :=
  entered flags reporter f ++
    if flags.allocations then
      Event.announcement (.allocationSite f.name · .after)
        (.allocationsInstalled f.name .after) (g.allocatorCalls settings.alloc .after)
    else []

/-- That calls are counted is announced once. -/
theorem countP_announced (settings : Settings) (flags : Flags) (reporter : Option Reporter)
    (f g : Func) :
    (announced settings flags reporter f g).countP Event.entersCounted = flags.calls.toNat := by
  have once : (entered flags reporter f).countP Event.entersCounted = flags.calls.toNat := by
    unfold entered
    cases flags.calls with
    | false => rfl
    | true => cases reporter <;> rfl
  rw [announced, List.countP_append, once]
  split
  · rw [Event.countP_announcement (fun _ => rfl) (fun _ => rfl), Nat.add_zero]
  · rfl

/-- What the pass changes it accounts for. -/
theorem accounts_change {reporter : Option Reporter}
    (checked : check settings flags f = .ok reporter) :
    (change settings flags counters store reporter f).Accounts f := by
  obtain ⟨named, -, nonempty⟩ := check_eq_ok_iff.mp checked
  have skipped : (Step.skip f).Accounts f := rfl
  have called := skipped.andThen flags.calls fun on =>
    accounts_calls store counters reporter (nonempty on)
  exact called.andThen flags.allocations fun on => accounts_allocations store
    (Step.holds_andThen (motive := (settings.alloc.checkCalls .after · = .ok ())) (named on)
      fun on checked => checkCalls_calls counters store reporter (nonempty on) checked)

/-- What the pass announces of its changes is what there is in the function when it has
made them. -/
theorem events_change (reporter : Option Reporter) :
    (change settings flags counters store reporter f).events =
      announced settings flags reporter f
        (change settings flags counters store reporter f).func := by
  let called := (Step.skip f).andThen flags.calls (calls store counters reporter)
  have name : called.func.name = f.name := by
    rw [Step.func_andThen]
    exact (header_counted store f counters flags.calls reporter).1
  have first : called.events = entered flags reporter f := by
    cases reporter <;> exact Step.events_andThen ..
  have sites : (change settings flags counters store reporter f).func.allocatorCalls
      settings.alloc .after = allocationSites settings.alloc .after called.func := by
    rw [← allocationSites_eq_allocatorCalls, allocationSites_eq, allocationSites_eq]
    have same : (change settings flags counters store reporter f).func.callsByBlock =
        called.func.callsByBlock :=
      Step.holds_andThen (motive := (·.callsByBlock = called.func.callsByBlock)) rfl fun _ _ =>
        callsByBlock_allocations settings.alloc .after store called.func
    rw [same]
  rw [announced, sites, ← first, ← name]
  exact Step.events_andThen ..

/-- A pass that accepts a function announces what there is in it and accounts for what it
adds. -/
theorem announces_of_run {g : Func} {events : List Event} {preserved : Preserved}
    (ran : run settings counters store f = ⟨g, events, .ok preserved⟩)
    (read : settings.flagsOf f = .ok flags)
    (profile : flags.isEmpty = false → (store.profile? f.name).isSome = true) :
    ∃ reporter, reporterOf flags f = .ok reporter ∧
      events = announced settings flags reporter f g ∧
      g.counters.length = f.counters.length + Event.total events := by
  have same {flags' : Flags} (read' : settings.flagsOf f = .ok flags') : flags = flags' :=
    Except.ok.inj (read.symm.trans read')
  cases ends_of_run ran with
  | unconcerned read' off off' =>
      obtain rfl := same read'
      refine ⟨none, by rw [reporterOf, off], ?_, rfl⟩
      rw [announced, entered, off, off']
      rfl
  | unknown read' concerned unknown =>
      obtain rfl := same read'
      have nonempty : flags.isEmpty = false := by
        rcases concerned with on | on <;> simp [Flags.isEmpty, on]
      rw [unknown] at profile
      cases profile nonempty
  | changed read' concerned known checked =>
      obtain rfl := same read'
      exact ⟨_, (check_eq_ok_iff.mp checked).2.1, events_change _, accounts_change checked⟩

/-- A pass that refuses a function announces nothing. -/
theorem isSilent_of_refused {g : Func} {events : List Event} {error : Error}
    (ran : run settings counters store f = ⟨g, events, .error error⟩) :
    ∀ event ∈ events, event.isSilent = true := by
  cases ends_of_run ran with
  | misread => exact List.forall_mem_nil _
  | refused => exact List.forall_mem_nil _

end After

end Probe

/-! ## Compilations -/

/-- The event is of a level, and says a number under the name of a detail. -/
def Event.Says (event : Event) (level : Level) (detail : String) (number : Nat) : Prop :=
  event.level = level ∧ (detail, toString number) ∈ event.details

/-- What lowering announces: the number of calls of the routine that it replaces. -/
def Lowering.announced (lowering : Lowering) (f : Func) : Event :=
  .requestsLowered f.name
    (f.calls.countP fun call => call.2.2.calledSymbol? == some lowering.symbols.request)

/-- Lowering announces as many requests as the function has had from the start. -/
theorem Lowering.events_lower (lowering : Lowering) {f g : Func} (name : g.name = f.name)
    (calls : g.callsByBlock = f.callsByBlock) :
    (lowering.lower g).events = [lowering.announced f] := by
  rw [announced, ← requests_eq_calls, requests_eq, ← calls, ← requests_eq, ← name]
  rfl

/-- An optimizer announces what it lowers, and leaves the counters alone. -/
theorem Optimizer.announces_ofLowering {lowering : Option Lowering} {f g h : Func}
    {events : List Event} {result : Except Error Preserved}
    (optimized : (Optimizer.ofLowering lowering).run g = ⟨h, events, result⟩)
    (name : g.name = f.name) (calls : g.callsByBlock = f.callsByBlock) :
    events = (lowering.map (·.announced f)).toList ∧
      h.counters.length = g.counters.length := by
  cases lowering with
  | none =>
      obtain rfl : [] = events := congrArg Outcome.events optimized
      obtain rfl : g = h := congrArg Outcome.func optimized
      exact ⟨rfl, rfl⟩
  | some lowering =>
      have told : (lowering.lower g).events = events := congrArg Outcome.events optimized
      obtain rfl : (lowering.lower g).func = h := congrArg Outcome.func optimized
      rw [← told]
      exact ⟨lowering.events_lower name calls, lowering.accounts_lower g⟩

namespace Pipeline

/-- The events of a compilation of `f` to `woven`, stage by stage. -/
structure Announces (settings : Settings) (flags : Flags) (reporter : Option Reporter)
    (lowering : Option Lowering) (f woven : Func) (first second third : List Event) : Prop where
  before : ∃ created fed, (∀ event ∈ created ++ fed, event.isSilent = true) ∧
    first = created ++ Probe.Before.announced settings flags f ++ fed
  optimizer : second = (lowering.map (·.announced f)).toList
  after : third = Probe.After.announced settings flags reporter f woven
  additions : woven.counters.length = f.counters.length +
    (2 * ((first ++ second ++ third).filterMap Event.sites?).sum + flags.calls.toNat)

/-- A compilation that succeeds tells what it has done. -/
theorem announces_of_stages {pipeline : Pipeline} {lowering : Option Lowering}
    (shipped : pipeline.optimizer = .ofLowering lowering) {counters : Counters}
    {store store' : Store} {f g h woven : Func} {first second third : List Event}
    {report : CompileReport}
    (ran : Probe.Before.run pipeline.settings counters store f =
      (store', ⟨g, first, .ok report.before⟩))
    (optimized : pipeline.optimizer.run g = ⟨h, second, .ok report.optimizer⟩)
    (last : Probe.After.run pipeline.settings counters store' h =
      ⟨woven, third, .ok report.after⟩) :
    ∃ flags reporter, pipeline.settings.flagsOf f = .ok flags ∧
      Probe.After.reporterOf flags f = .ok reporter ∧
      Announces pipeline.settings flags reporter lowering f woven first second third := by
  obtain ⟨flags, reaches⟩ := reaches_of_stages shipped ran optimized
  obtain ⟨known, created, fed, read, silent, told, added, calls⟩ :=
    Probe.Before.announces_of_run ran
  obtain rfl : flags = known := Except.ok.inj (reaches.flags_eq.symm.trans read)
  have name : h.name = f.name := reaches.retouched.name_eq
  have present : flags.isEmpty = false → (store'.profile? h.name).isSome = true := by
    rw [name]
    exact reaches.leaves.profile_isSome
  obtain ⟨reporter, asked, told', added'⟩ :=
    Probe.After.announces_of_run last reaches.flagsOf_eq present
  have named : g.name = f.name := by
    obtain ⟨flags, base, profile, -, -, changed, -⟩ := Probe.Before.run_eq_ok ran
    rw [changed]
    exact (Probe.Before.retouched_change _ flags none counters base profile f).name_eq
  rw [shipped] at optimized
  obtain ⟨lowered, kept⟩ := Optimizer.announces_ofLowering optimized named calls
  have announced : third = Probe.After.announced pipeline.settings flags reporter f woven := by
    unfold Probe.After.announced Probe.After.entered at told' ⊢
    rw [told', name]
  refine ⟨flags, reporter, read, ?_, ⟨created, fed, silent, told⟩, lowered, announced, ?_⟩
  · rw [← asked, reaches.reporterOf_eq]
  · have entered : (first ++ second ++ third).countP Event.entersCounted = flags.calls.toNat := by
      have quiet := List.forall_mem_append.mp silent
      have none : second.countP Event.entersCounted = 0 := by
        rw [lowered]
        cases lowering <;> rfl
      rw [List.countP_append, List.countP_append, none, announced, Probe.After.countP_announced,
        told, List.countP_append, List.countP_append, Event.countP_of_isSilent quiet.1,
        Event.countP_of_isSilent quiet.2, Probe.Before.countP_announced]
      exact Nat.zero_add _
    have total : Event.total second = 0 := by
      rw [lowered]
      cases lowering <;> rfl
    rw [← entered, ← Event.total_eq, Event.total_append, Event.total_append, total, added',
      kept, added, Nat.add_zero, Nat.add_assoc]

/-- Events of the places that are given probes are of the lowest level and name the block,
and those of their number, or of the number of requests, are one level above and say it. -/
theorem says_of_told (event : Event) :
    (∀ id, event.site? = some id → event.Says .trace "block" id) ∧
      (∀ count, event.sites? = some count → event.Says .debug "sites" count) ∧
      ∀ function count, event = .requestsLowered function count →
        event.Says .debug "lowered" count := by
  refine ⟨fun id here => ?_, fun count here => ?_, ?_⟩
  · cases event <;> cases here
    · exact ⟨rfl, by simp [Event.details]⟩
    · exact ⟨rfl, by simp [Event.details]⟩
  · cases event <;> cases here
    · exact ⟨rfl, by simp [Event.details]⟩
    · exact ⟨rfl, by simp [Event.details]⟩
  · rintro function count rfl
    exact ⟨rfl, by simp [Event.details]⟩

/-- A compilation that succeeds with a store tells stage by stage what there is in the code,
each place by an event of its own and then their number.  Before the optimizer these are the
branches on conditions known only at run time and the calls of allocators of the function as
it was handed in; the optimizer tells how many calls of the routine that it lowers it has
had; after the optimizer these are the calls of allocators of the function that comes out.
That function has two more additions to counters for each place that was announced, and one
more if its calls are counted.  A stage that refuses a function announces nothing. -/
theorem compile_announces {pipeline : Pipeline} {lowering : Option Lowering}
    (shipped : pipeline.optimizer = .ofLowering lowering) (counters : Counters) :
    (∀ store f after woven events report,
      pipeline.compile counters (some store) f = (after, ⟨woven, events, .ok report⟩) →
      ∃ flags reporter g h first second third,
        pipeline.settings.flagsOf f = .ok flags ∧
        Probe.After.reporterOf flags f = .ok reporter ∧
        pipeline.before counters (some store) f = (after, ⟨g, first, .ok report.before⟩) ∧
        pipeline.optimizer.run g = ⟨h, second, .ok report.optimizer⟩ ∧
        pipeline.after counters after h = ⟨woven, third, .ok report.after⟩ ∧
        events = first ++ second ++ third ++
          [.compiled woven.name pipeline.optimizer.name report.overall] ∧
        Announces pipeline.settings flags reporter lowering f woven first second third) ∧
    (∀ event : Event,
      (∀ id, event.site? = some id → event.Says .trace "block" id) ∧
      (∀ count, event.sites? = some count → event.Says .debug "sites" count) ∧
      ∀ function count, event = .requestsLowered function count →
        event.Says .debug "lowered" count) ∧
    ∀ store f outcome, outcome.result.isOk = false →
      (pipeline.before counters store f).2 = outcome ∨ pipeline.optimizer.run f = outcome ∨
        pipeline.after counters store f = outcome →
      ∀ event ∈ outcome.events, event.isSilent = true := by
  refine ⟨?_, says_of_told, ?_⟩
  · intro store f after woven events report compiled
    obtain ⟨g, h, first, second, third, ran, optimized, last, -, told⟩ :=
      reports_of_compile compiled
    obtain ⟨store', rfl, ran'⟩ := before_of_some ran
    obtain ⟨flags, reporter, read, asked, announces⟩ :=
      announces_of_stages shipped ran' optimized last
    exact ⟨flags, reporter, g, h, first, second, third, read, asked, ran, optimized, last, told,
      announces⟩
  · rintro store f ⟨g, events, _ | _⟩ refused ended
    · rcases ended with first | second | third
      · cases store with
        | none => cases first
        | some store =>
            rcases ran : pipeline.before counters (some store) f with ⟨after, outcome⟩
            obtain ⟨store', rfl, ran'⟩ := before_of_some ran
            rw [ran] at first
            obtain rfl : outcome = _ := first
            exact Probe.Before.isSilent_of_refused ran'
      · rw [shipped] at second
        cases lowering <;> cases second
      · cases store with
        | none => cases third
        | some store => exact Probe.After.isSilent_of_refused third
    · cases refused

/-- A function with a branch and a request, compiled with all counters and a reporter. -/
theorem compile_announces_choose :
    ∃ woven first second third,
      Announces .standard Sample.counting (some Sample.reporter) (some .standard)
        (Sample.choose Sample.counting) woven first second third ∧
      (Sample.choose Sample.counting).runtimeBranches = [0] ∧
      (Sample.choose Sample.counting).allocatorCalls .standard .before = [0] := by
  obtain ⟨stored, woven, events, report, success⟩ := compile_eq_of_isOk Sample.compile_choose
  obtain ⟨flags, reporter, _, _, first, second, third, read, asked, -, -, -, -, announces⟩ :=
    (compile_announces Sample.shipped_pipeline _).1 _ _ _ _ _ _ success
  obtain rfl : flags = Sample.counting := (Except.ok.inj read).symm
  obtain rfl : reporter = some Sample.reporter := (Except.ok.inj asked).symm
  exact ⟨woven, first, second, third, announces, by decide, by decide⟩

end Pipeline

end FlowProfile
