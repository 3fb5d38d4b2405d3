/-
# What feedback leaves in the code

The counts that are fed back into a function stay in its code through all later stages of
the compilation.  Probes and the lowering of requests change neither the ends of blocks nor
the number of entries, and without a reporter no block is split.
-/

import FlowProfile.Proofs.Compile.FeedbackLoop

namespace FlowProfile

/-- In the code of a function stand the ends of another's blocks with their weights, and how
often it was entered. -/
structure Feedback.Marks (f : Func) (weightsOf : BlockId → Option Weights) (entered : UInt64)
    (g : Func) : Prop where
  entryCount_eq : g.entryCount = some entered
  images : ∀ id block, f.block? id = some block → ∃ image, g.block? id = some image ∧
    image.terminator = (weighBlock (weightsOf id) block).terminator

namespace Feedback

variable {f g h : Func} {counters : Counters} {store : Store} {slots : Slots}
  {weightsOf : BlockId → Option Weights} {entered : UInt64}

theorem Marks.sameGraph (marks : Marks f weightsOf entered g) (same : g.SameGraph h)
    (entry : h.entryCount = g.entryCount) : Marks f weightsOf entered h where
  entryCount_eq := entry.trans marks.entryCount_eq
  images id block found := by
    obtain ⟨image, there, flow⟩ := marks.images id block found
    obtain ⟨last, there', -, flow'⟩ := same.image id image there
    exact ⟨last, there', flow'.trans flow⟩

/-- The weight of a block concerns its end alone. -/
theorem terminator_weighBlock (weights : Option Weights) {block image : Block}
    (flow : image.terminator = block.terminator) :
    (weighBlock weights image).terminator = (weighBlock weights block).terminator := by
  cases weights with
  | none => exact flow
  | some weights => exact congrArg (Terminator.withWeights weights) flow

/-- Feeding counts back into a function with the graph of another one. -/
theorem marks_apply (same : f.SameGraph g) (name_eq : g.name = f.name) :
    Marks f (weights? counters (store.counter f.name) slots)
      (counters.read (store.counter f.name .calls)) (apply counters store slots g).func where
  entryCount_eq := by rw [entryCount_apply, name_eq]
  images id block found := by
    obtain ⟨image, there, -, flow⟩ := same.image id block found
    cases known : slots.isEmpty with
    | false =>
        rw [block?_apply counters store known, there, name_eq]
        exact ⟨_, rfl, terminator_weighBlock _ flow⟩
    | true =>
        have none : weights? counters (store.counter f.name) slots id = none := by
          apply weights?_of_not_has
          rw [Slots.isEmpty, List.isEmpty_iff] at known
          rw [Slots.has, known]
          rfl
        have same : (apply counters store slots g).func.block? id = some image := by
          simp only [apply, known, if_true]
          exact there
        exact ⟨image, same, by rw [none]; exact flow⟩

end Feedback

namespace Probe

variable {settings : Settings} {flags : Flags} {counters : Counters} {store : Store} {f g : Func}
  {weightsOf : BlockId → Option Weights} {entered : UInt64}

/-- The pass before the optimizer feeds the counts back last. -/
theorem Before.marks_change (feedback : flags.feedback = true) (profile : Profile) :
    Feedback.Marks f
      (Feedback.weights? counters (store.counter f.name)
        ((change settings flags counters store profile f).1.slotsOf f.name))
      (counters.read (store.counter f.name .calls))
      (change settings flags counters store profile f).2.func := by
  have probed : f.SameGraph (((Step.skip f).andThen flags.branches (branches store)).andThen
        flags.allocations (allocations settings.alloc .before store)).func ∧
      (((Step.skip f).andThen flags.branches (branches store)).andThen flags.allocations
        (allocations settings.alloc .before store)).func.name = f.name := by
    refine Step.holds_andThen (motive := fun g => f.SameGraph g ∧ g.name = f.name)
      (Step.holds_andThen (motive := fun g => f.SameGraph g ∧ g.name = f.name) ⟨.refl f, rfl⟩ ?_) ?_
    · exact fun _ here => ⟨here.1.trans (sameGraph_branches store _), here.2⟩
    · exact fun _ here =>
        ⟨here.1.trans (sameGraph_allocations settings.alloc .before store _), here.2⟩
  rw [change, Store.slotsOf_put]
  simp only [Step.func_andThen, feedback, if_true] at probed ⊢
  exact Feedback.marks_apply probed.1 probed.2

/-- The pass after the optimizer leaves the marks where they are, if there is no reporter. -/
theorem After.marks_change (marks : Feedback.Marks f weightsOf entered g) :
    Feedback.Marks f weightsOf entered (change settings flags counters store none g).func := by
  refine Step.holds_andThen (Step.holds_andThen marks ?_) ?_
  · exact fun _ here => here.sameGraph (sameGraph_plainCalls store _) rfl
  · exact fun _ here => here.sameGraph (sameGraph_allocations settings.alloc .after store _) rfl

end Probe

/-- A compilation with feedback and without a reporter leaves in the code what the counters
have shown. -/
theorem Pipeline.marks_compile {pipeline : Pipeline} {lowering : Option Lowering}
    (shipped : pipeline.optimizer = .ofLowering lowering) {counters : Counters}
    {store store' : Store} {f woven : Func} {events : List Event} {report : CompileReport}
    {flags : Flags} (read : pipeline.settings.flagsOf f = .ok flags)
    (feedback : flags.feedback = true) (unasked : Probe.After.reporterOf flags f = .ok none)
    (compiled : pipeline.compile counters (some store) f =
      (some store', ⟨woven, events, .ok report⟩)) :
    Feedback.Marks f
      (Feedback.weights? counters (store.counter f.name) (store'.slotsOf f.name))
      (counters.read (store.counter f.name .calls)) woven := by
  obtain ⟨early, lowered, late⟩ := report
  obtain ⟨before, middle, _, _, _, first, second, third, -⟩ := stages_of_compile compiled
  obtain ⟨_, stored, ran⟩ := before_of_some first
  obtain rfl := Option.some.inj stored
  have fed : Feedback.Marks f
      (Feedback.weights? counters (store.counter f.name) (store'.slotsOf f.name))
      (counters.read (store.counter f.name .calls)) before := by
    have concerned {flags' : Flags} (read' : pipeline.settings.flagsOf f = .ok flags') :
        flags'.isEmpty = false ∧ Probe.Before.concerns flags' = true := by
      obtain rfl := Except.ok.inj (read.symm.trans read')
      simp [Flags.isEmpty, Probe.Before.concerns, feedback]
    cases Probe.Before.ends_of_run ran with
    | idle read' empty => exact absurd empty (by rw [(concerned read').1]; exact Bool.false_ne_true)
    | unconcerned read' nonempty obtained apart =>
        exact absurd apart (by rw [(concerned read').2]; exact Bool.false_ne_true.symm)
    | @changed flags' base profile _ read' nonempty obtained =>
        obtain rfl := Except.ok.inj (read.symm.trans read')
        have named : base.counter f.name = store.counter f.name := by
          funext measure
          rw [Store.counter, (Probe.Before.slotsOf_of_obtain obtained).1, Store.counter]
        rw [← named]
        exact Probe.Before.marks_change feedback profile
  have optimized : Feedback.Marks f
      (Feedback.weights? counters (store.counter f.name) (store'.slotsOf f.name))
      (counters.read (store.counter f.name .calls)) middle := by
    have ran' : middle = (pipeline.optimizer.run before).func := by rw [second]
    rw [ran', shipped]
    cases lowering with
    | none => exact fed
    | some lowering => exact fed.sameGraph (lowering.sameGraph_lower before) rfl
  obtain ⟨flags', reaches⟩ := reaches_of_stages shipped ran second
  obtain rfl := Except.ok.inj (read.symm.trans reaches.flags_eq)
  cases Probe.After.ends_of_run (third : Probe.After.run _ _ _ _ = _) with
  | unconcerned => exact optimized
  | unknown => exact optimized
  | changed read' concerned known checked =>
      obtain rfl := Except.ok.inj (reaches.flagsOf_eq.symm.trans read')
      have asked := (Probe.After.check_eq_ok_iff.mp checked).2.1
      rw [reaches.reporterOf_eq, unasked] at asked
      cases asked
      exact Probe.After.marks_change optimized

end FlowProfile
