/-
# What is reported to be preserved is preserved

A pass puts its report together from its flags and from the number of sites it has found,
apart from the edits it makes.  `Preserved.Tells` relates the two: a function that is said
to be untouched is the same function, and where only instructions are said to have
changed, the graph is the same.  The relation composes as reports do, so that what a whole
compilation reports can be relied on as well.
-/

import FlowProfile.Proofs.Compile.Transparency

namespace FlowProfile

/-! ## Reports and changes -/

namespace Preserved

/-- What is reported about a change from one function to another goes with the change. -/
inductive Tells : Preserved → Func → Func → Prop
  | all (f : Func) : Tells .all f f
  | graphOnly {f g : Func} (same : f.SameGraph g) : Tells .graphOnly f g
  | nothing (f g : Func) : Tells .nothing f g

/-- What can be relied on after a change about which `preserved` was reported.  The last two
say how little has to be reported: less than everything when there are more instructions,
and nothing when there are more blocks. -/
structure Sound (preserved : Preserved) (f g : Func) : Prop where
  same : preserved.preservesAll = true → g = f
  sameGraph : preserved.preservesGraph = true → f.SameGraph g
  sameFlow : preserved.preservesGraph = true → f.SameFlow g
  atMostGraph : f.instrCount < g.instrCount → preserved = .graphOnly ∨ preserved = .nothing
  nothing : f.blocks.size < g.blocks.size → preserved = .nothing

theorem inter_nothing (preserved : Preserved) : preserved.inter .nothing = .nothing := by
  simp [inter, nothing]

namespace Tells

variable {first second preserved : Preserved} {f g h : Func}

/-- Reports about changes in a row are put together. -/
theorem inter (told : first.Tells f g) (told' : second.Tells g h) :
    (first.inter second).Tells f h := by
  cases told with
  | all => cases told' with
    | all => exact .all f
    | graphOnly same => exact .graphOnly same
    | nothing => exact .nothing f h
  | graphOnly same => cases told' with
    | all => exact .graphOnly same
    | graphOnly same' => exact .graphOnly (same.trans same')
    | nothing => exact .nothing f h
  | nothing => cases told' <;> exact .nothing f _

/-- An insertion tells the truth if it keeps the graph, and everything where it has no
site. -/
theorem ofSites {sites : Nat} (same : f.SameGraph g) (idle : sites = 0 → g = f) :
    (Preserved.ofSites sites).Tells f g := by
  unfold Preserved.ofSites
  split
  · exact .graphOnly same
  · next none =>
      rw [idle (Nat.eq_zero_of_not_pos none)]
      exact .all f

theorem sound (told : preserved.Tells f g) : preserved.Sound f g := by
  cases told with
  | all =>
      exact ⟨fun _ => rfl, fun _ => .refl f, fun _ => (Func.SameGraph.refl f).sameFlow,
        fun more => absurd more (Nat.lt_irrefl _), fun more => absurd more (Nat.lt_irrefl _)⟩
  | graphOnly same =>
      exact ⟨nofun, fun _ => same, fun _ => same.sameFlow, fun _ => .inl rfl,
        fun more => absurd more (Nat.not_lt_of_le (Nat.le_of_eq same.size_eq))⟩
  | nothing => exact ⟨nofun, nofun, nofun, fun _ => .inr rfl, fun _ => rfl⟩

end Tells

end Preserved

/-- A step and, if a condition holds, a further one. -/
theorem Step.tells_andThen {step : Step} {condition : Bool} {change : Func → Step} {f : Func}
    (told : step.preserved.Tells f step.func)
    (told' : ∀ g, (change g).preserved.Tells g (change g).func) :
    (step.andThen condition change).preserved.Tells f (step.andThen condition change).func := by
  unfold andThen
  split
  · exact told.inter (told' step.func)
  · exact told

/-! ## The parts of the passes -/

/-- A change of the code that leaves the code of every block alone changes nothing. -/
theorem Func.map_blocks_eq_self {f : Func} {code : Block → List Instr}
    (same : ∀ block ∈ f.blocks.toList, code block = block.instrs) :
    { f with blocks := f.blocks.map fun block => { block with instrs := code block } } = f := by
  have blocks : (f.blocks.map fun block => { block with instrs := code block }) = f.blocks := by
    have kept : f.blocks.map (fun block => { block with instrs := code block }) =
        f.blocks.map id :=
      Array.map_congr_left fun block mem => by
        rw [same block (Array.mem_toList_iff.mpr mem)]
        rfl
    rw [kept, Array.map_id]
  rw [blocks]


namespace Probe

theorem branchBlocks_of_static {blocks : List Block}
    (static : ∀ block ∈ blocks, block.terminator.runtimeCondition? = none)
    (counter : Measure → Counter) (slot : Nat) (fresh : ValueId) :
    branchBlocks counter slot fresh blocks = blocks := by
  induction blocks generalizing slot with
  | nil => rfl
  | cons block rest ih =>
      rw [branchBlocks, static block List.mem_cons_self]
      exact congrArg (block :: ·)
        (ih (fun other mem => static other (List.mem_cons_of_mem _ mem)) (slot + 1))

theorem tells_branches (store : Store) (f : Func) :
    (branches store f).preserved.Tells f (branches store f).func := by
  refine .ofSites (sameGraph_branches store f) fun idle => ?_
  have static : ∀ block ∈ f.blocks.toList, block.terminator.runtimeCondition? = none := by
    rw [length_branchSites, List.countP_eq_zero] at idle
    exact fun block mem => Option.not_isSome_iff_eq_none.mp (idle block mem)
  simp only [branches, branchBlocks_of_static static, idle, Nat.add_zero, Array.toArray_toList]

theorem recognizesCall_of_no_site {symbols : AllocSymbols} {stage : Stage} {f : Func}
    (idle : (allocationSites symbols stage f).length = 0) {block : Block}
    (mem : block ∈ f.blocks.toList) {instr : Instr} (here : instr ∈ block.instrs) :
    symbols.recognizesCall stage instr = false := by
  obtain ⟨id, found⟩ := List.getElem?_of_mem mem
  have entry : (block, id) ∈ f.blocks.toList.zipIdx := List.mk_mem_zipIdx_iff_getElem?.mpr found
  have none := List.flatMap_eq_nil_iff.mp (List.eq_nil_of_length_eq_zero idle) _ entry
  have unrecognized := List.filter_eq_nil_iff.mp (List.map_eq_nil_iff.mp none) instr here
  exact Bool.eq_false_iff.mpr unrecognized

theorem tells_allocations (symbols : AllocSymbols) (stage : Stage) (store : Store) (f : Func) :
    (allocations symbols stage store f).preserved.Tells f
      (allocations symbols stage store f).func := by
  refine .ofSites (sameGraph_allocations symbols stage store f) fun idle => ?_
  refine Func.map_blocks_eq_self fun block mem => ?_
  have alone (instr : Instr) (here : instr ∈ block.instrs) :
      withAllocation symbols stage (store.counter f.name (.size stage))
        (store.counter f.name (.count stage)) instr = [instr] := by
    rw [withAllocation, recognizesCall_of_no_site idle mem here]
    rfl
  rw [List.flatMap_congr alone, List.flatMap_singleton']

theorem preserved_feedback (counters : Counters) (store : Store) (slots : Slots) (f : Func) :
    (Feedback.apply counters store slots f).preserved = .nothing := by
  unfold Feedback.apply
  split <;> rfl

theorem tells_calls (store : Store) (counters : Counters) (reporter : Option Reporter)
    (f : Func) :
    (calls store counters reporter f).preserved.Tells f
      (calls store counters reporter f).func := by
  cases reporter with
  | none => exact .graphOnly (sameGraph_plainCalls store f)
  | some reporter => exact .nothing f _

end Probe

namespace Lowering

variable (lowering : Lowering)

theorem lowerInstr_of_not_concerns {instr : Instr} (apart : ¬ lowering.concerns instr = true) :
    lowering.lowerInstr instr = instr := by
  unfold lowerInstr
  split
  · next name args =>
      refine if_neg fun same => apart ?_
      rw [concerns, same]
      exact beq_self_eq_true _
  · rfl

theorem tells_lower (f : Func) :
    (lowering.lower f).preserved.Tells f (lowering.lower f).func := by
  refine .ofSites (lowering.sameGraph_lower f) fun idle => ?_
  refine Func.map_blocks_eq_self fun block mem => ?_
  have alone (instr : Instr) (here : instr ∈ block.instrs) : lowering.lowerInstr instr = id instr :=
    lowering.lowerInstr_of_not_concerns
      (List.countP_eq_zero.mp idle instr (List.mem_flatMap.mpr ⟨block, mem, here⟩))
  rw [List.map_congr_left alone, List.map_id]

end Lowering

/-! ## The stages -/

theorem Probe.Before.tells_of_run {settings : Settings} {counters : Counters}
    {store store' : Store} {f g : Func} {events : List Event} {preserved : Preserved}
    (ran : run settings counters store f = (store', ⟨g, events, .ok preserved⟩)) :
    preserved.Tells f g := by
  cases ends_of_run ran with
  | idle => exact .all f
  | unconcerned => exact .all f
  | changed =>
      refine Step.tells_andThen (Step.tells_andThen (Step.tells_andThen (.all f) fun g => ?_)
        fun g => ?_) fun g => ?_
      · exact tells_branches _ g
      · exact tells_allocations _ _ _ g
      · rw [preserved_feedback]
        exact .nothing g _

/-- Where weights may be rewritten nothing is said to be preserved. -/
theorem Probe.Before.preserved_of_feedback {settings : Settings} {counters : Counters}
    {store store' : Store} {f g : Func} {events : List Event} {preserved : Preserved}
    {flags : Flags} (read : settings.flagsOf f = .ok flags) (feedback : flags.feedback = true)
    (ran : run settings counters store f = (store', ⟨g, events, .ok preserved⟩)) :
    preserved = .nothing := by
  have same {flags' : Flags} (read' : settings.flagsOf f = .ok flags') : flags = flags' :=
    Except.ok.inj (read.symm.trans read')
  cases ends_of_run ran with
  | idle read' empty =>
      obtain rfl := same read'
      simp [Flags.isEmpty, feedback] at empty
  | unconcerned read' nonempty obtained apart =>
      obtain rfl := same read'
      simp [concerns, feedback] at apart
  | changed read' =>
      obtain rfl := same read'
      simp only [change, Step.andThen, feedback, if_true, preserved_feedback]
      exact Preserved.inter_nothing _

theorem Probe.After.tells_of_run {settings : Settings} {counters : Counters} {store : Store}
    {f g : Func} {events : List Event} {preserved : Preserved}
    (ran : run settings counters store f = ⟨g, events, .ok preserved⟩) :
    preserved.Tells f g := by
  cases ends_of_run ran with
  | unconcerned => exact .all f
  | unknown => exact .all f
  | changed =>
      refine Step.tells_andThen (Step.tells_andThen (.all f) fun g => ?_) fun g => ?_
      · exact tells_calls _ _ _ g
      · exact tells_allocations _ _ _ g

theorem Optimizer.tells_of_run (lowering : Option Lowering) {f g : Func} {events : List Event}
    {preserved : Preserved} (ran : (ofLowering lowering).run f = ⟨g, events, .ok preserved⟩) :
    preserved.Tells f g := by
  cases lowering with
  | none =>
      cases ran
      exact .all f
  | some lowering =>
      cases ran
      exact lowering.tells_lower f

namespace Pipeline

variable {pipeline : Pipeline} {counters : Counters} {store after : Option Store} {f g : Func}
  {events : List Event}

theorem tells_of_before {preserved : Preserved}
    (first : pipeline.before counters store f = (after, ⟨g, events, .ok preserved⟩)) :
    preserved.Tells f g := by
  cases store with
  | none =>
      cases first
      exact .all f
  | some store =>
      obtain ⟨store', -, ran⟩ := before_of_some first
      exact Probe.Before.tells_of_run ran

theorem tells_of_after {preserved : Preserved}
    (third : pipeline.after counters store f = ⟨g, events, .ok preserved⟩) :
    preserved.Tells f g := by
  cases store with
  | none =>
      cases third
      exact .all f
  | some store => exact Probe.After.tells_of_run third

theorem tells_of_compile {lowering : Option Lowering}
    (shipped : pipeline.optimizer = .ofLowering lowering) {report : CompileReport}
    (compiled : pipeline.compile counters store f = (after, ⟨g, events, .ok report⟩)) :
    report.overall.Tells f g := by
  obtain ⟨before, middle, _, _, _, first, second, third, -⟩ := stages_of_compile compiled
  rw [shipped] at second
  have told := (tells_of_before first).inter (Optimizer.tells_of_run lowering second)
  exact told.inter (tells_of_after third)

end Pipeline

/-! ## What is reported can be relied on -/

/-- If the transformation of a function is not refused, what it reports can be relied on. -/
def Outcome.ReportsOn (outcome : Outcome) (f : Func) : Prop :=
  ∀ preserved, outcome.result = .ok preserved → preserved.Sound f outcome.func

namespace Pipeline

/-- Whatever a stage reports to be preserved is, and so is what the report of a whole
compilation amounts to.  Neither the first stage nor a compilation reports anything to be
preserved where counts are fed back. -/
theorem reports_sound {pipeline : Pipeline} {lowering : Option Lowering}
    (shipped : pipeline.optimizer = .ofLowering lowering) (counters : Counters)
    (store : Option Store) (f : Func) :
    (pipeline.before counters store f).2.ReportsOn f ∧
      (pipeline.optimizer.run f).ReportsOn f ∧
      (pipeline.after counters store f).ReportsOn f ∧
      (∀ report, (pipeline.compile counters store f).2.result = .ok report →
        report.overall.Sound f (pipeline.compile counters store f).2.func) ∧
      ∀ flags, pipeline.settings.flagsOf f = .ok flags → flags.feedback = true →
        store.isSome = true →
        (∀ preserved, (pipeline.before counters store f).2.result = .ok preserved →
          preserved = .nothing) ∧
        ∀ report, (pipeline.compile counters store f).2.result = .ok report →
          report.overall = .nothing := by
  rcases first : pipeline.before counters store f with ⟨stored, g, before, result⟩
  rcases second : pipeline.optimizer.run f with ⟨g', events, result'⟩
  rcases third : pipeline.after counters store f with ⟨g'', events', result''⟩
  rcases compiled : pipeline.compile counters store f with ⟨after, woven, made, ended⟩
  refine ⟨?_, ?_, ?_, ?_, ?_⟩
  · rintro preserved rfl
    exact (tells_of_before first).sound
  · rintro preserved rfl
    rw [shipped] at second
    exact (Optimizer.tells_of_run lowering second).sound
  · rintro preserved rfl
    exact (tells_of_after third).sound
  · rintro report rfl
    exact (tells_of_compile shipped compiled).sound
  · intro flags read feedback attached
    obtain ⟨store, rfl⟩ := Option.isSome_iff_exists.mp attached
    constructor
    · rintro preserved rfl
      obtain ⟨store', -, ran⟩ := before_of_some first
      exact Probe.Before.preserved_of_feedback read feedback ran
    · rintro report rfl
      obtain ⟨g, h, _, _, _, first, -⟩ := stages_of_compile compiled
      obtain ⟨store', -, ran⟩ := before_of_some first
      rw [CompileReport.overall, Probe.Before.preserved_of_feedback read feedback ran]
      rfl

theorem reports_sound_choose :
    ∃ report, (Sample.pipeline.compile .zero (some (.empty "profiles"))
        (Sample.choose Sample.branching)).2.result = .ok report ∧
      report.overall = .graphOnly ∧
      (Sample.choose Sample.branching).SameFlow
        (Sample.pipeline.compile .zero (some (.empty "profiles"))
          (Sample.choose Sample.branching)).2.func := by
  have overall : (Sample.pipeline.compile .zero (some (.empty "profiles"))
      (Sample.choose Sample.branching)).2.result.map (·.overall) = .ok .graphOnly := by
    decide +kernel
  obtain ⟨-, -, -, sound, -⟩ := reports_sound Sample.shipped_pipeline .zero
    (some (.empty "profiles")) (Sample.choose Sample.branching)
  cases ended : (Sample.pipeline.compile .zero (some (.empty "profiles"))
      (Sample.choose Sample.branching)).2.result with
  | error error =>
      rw [ended] at overall
      cases overall
  | ok report =>
      rw [ended] at overall
      have graphOnly : report.overall = .graphOnly := Except.ok.inj overall
      exact ⟨report, rfl, graphOnly, (sound report ended).sameFlow (by rw [graphOnly]; rfl)⟩

end Pipeline

end FlowProfile
