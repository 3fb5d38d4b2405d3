/-
# Properties of code that compilations keep

A compilation renames routines that are called, puts probes ahead of instructions and at
the ends of blocks, and counts calls ahead of the entry block.  What is true of the code of
every block and survives each of these changes is true after the whole compilation, whether
it succeeds or not.
-/

import FlowProfile.Proofs.Weave.Additions

namespace FlowProfile

/-- A property of code that has it as long as it adds to allowed counters only, and keeps it
through everything that a compilation does. -/
structure Instr.Durable (allowed : Counter → Prop) (holds : List Instr → Prop) : Prop where
  free : ∀ code : List Instr, (∀ instr ∈ code, instr.CountsOnly allowed) → holds code
  append : ∀ first second, holds first → holds second → holds (first ++ second)
  lowered : ∀ (weave : Weave) code, holds code → holds (code.map weave.lower)
  probed : ∀ (weave : Weave) stage code, holds code → holds (code.flatMap (weave.probedAt stage))
  tail : ∀ (weave : Weave) fresh id terminator, holds (weave.tail fresh id terminator)
  calls : ∀ store function, allowed (.owned store function .calls)

variable {allowed : Counter → Prop} {holds : List Instr → Prop} {f f' : Func} {store : Store}
  {settings : Settings} {flags : Flags} {counters : Counters}

theorem Retouched.blockwise {code : BlockId → Block → List Instr}
    (retouched : Retouched code f f')
    (each : ∀ id block, f.block? id = some block → holds (code id block)) :
    f'.Blockwise holds := by
  intro id image found
  obtain ⟨block, here, -, instrs, -⟩ := retouched.origin found
  rw [instrs]
  exact each id block here

namespace Instr.Durable

variable (durable : Instr.Durable allowed holds)

include durable

theorem cons {instr : Instr} {code : List Instr} (only : instr.CountsOnly allowed)
    (later : holds code) : holds (instr :: code) := by
  apply durable.append [instr] code (durable.free [instr] ?_) later
  intro first mem
  rw [List.mem_singleton.mp mem]
  exact only

theorem blockwise (only : f.CountsOnly allowed) : f.Blockwise holds :=
  fun id block found => durable.free block.instrs (Func.countsOnly_iff.mp only id block found)

/-! ## The passes -/

theorem before_change (only : f.CountsOnly allowed) (profile : Profile) :
    (Probe.Before.change settings flags counters store profile f).2.func.Blockwise holds := by
  refine (Probe.Before.retouched_change settings flags none counters store profile f).blockwise ?_
  intro id block found
  apply durable.probed
  exact durable.append _ _ (durable.blockwise only id block found) (durable.tail ..)

/-- Counting calls puts something ahead of the code or moves it, and changes it nowhere. -/
theorem calls_change (each : f.Blockwise holds) (nonempty : f.blocks.isEmpty = false)
    (reporter : Option Reporter) :
    (Probe.calls store counters reporter f).func.Blockwise holds := by
  have counts (previous : ValueId) :
      (Probe.countCall (store.counter f.name .calls) previous).CountsOnly allowed := by
    intro counter same
    cases same
    exact durable.calls store.name f.name
  have silent {instr : Instr} (none : instr.counter? = none) : instr.CountsOnly allowed :=
    Instr.countsOnly_of_counter? none
  have empty : holds [] := durable.free [] fun _ mem => absurd mem List.not_mem_nil
  intro id image found
  cases reporter with
  | none =>
      replace found : (Probe.plainCalls store f).func.block? id = some image := found
      rw [Probe.block?_plainCalls] at found
      split at found
      · obtain ⟨block, here, rfl⟩ := Option.map_eq_some_iff.mp found
        exact durable.cons (counts _) (each id block here)
      · exact each id image found
  | some reporter =>
      obtain ⟨head, entered⟩ := Func.entry_of_nonempty nonempty
      replace found :
        (Probe.reportedCalls store counters reporter f).func.block? id = some image := found
      rw [Probe.block?_reportedCalls store f counters reporter entered] at found
      split at found
      · cases found
        exact durable.cons (silent rfl) empty
      · split at found
        · cases found
          exact each Func.entry head entered
        · split at found
          · cases found
            exact durable.cons (counts _) (durable.cons (silent rfl)
              (durable.cons (silent rfl) empty))
          · exact each id image found

theorem after_change (each : f.Blockwise holds)
    (nonempty : flags.calls = true → f.blocks.isEmpty = false) (reporter : Option Reporter) :
    (Probe.After.change settings flags counters store reporter f).func.Blockwise holds := by
  have counted : (Probe.counted store f counters flags.calls reporter).Blockwise holds := by
    unfold Probe.counted
    split
    · next on => exact durable.calls_change each (nonempty on) reporter
    · exact each
  refine (@Probe.After.retouched_change settings flags none counters store reporter f
    _ _ rfl rfl).blockwise ?_
  exact fun id block found => durable.probed _ .after _ (counted id block found)

theorem before_run {store' : Store} {outcome : Outcome} (only : f.CountsOnly allowed)
    (ran : Probe.Before.run settings counters store f = (store', outcome)) :
    outcome.func.Blockwise holds := by
  cases Probe.Before.ends_of_run ran with
  | misread => exact durable.blockwise only
  | idle => exact durable.blockwise only
  | shapeless => exact durable.blockwise only
  | unconcerned => exact durable.blockwise only
  | refused => exact durable.blockwise only
  | changed => exact durable.before_change only _

theorem after_run {outcome : Outcome} (each : f.Blockwise holds)
    (ran : Probe.After.run settings counters store f = outcome) :
    outcome.func.Blockwise holds := by
  cases Probe.After.ends_of_run ran with
  | misread => exact each
  | unconcerned => exact each
  | unknown => exact each
  | refused => exact each
  | changed read concerned known checked =>
      exact durable.after_change each (Probe.After.check_eq_ok_iff.mp checked).2.2 _

/-- Whether it succeeds or not, a compilation keeps the property in all blocks. -/
theorem compile {pipeline : Pipeline} {lowering : Option Lowering}
    (shipped : pipeline.optimizer = .ofLowering lowering) {after : Option Store}
    {compilation : Compilation} (only : f.CountsOnly allowed)
    (compiled : pipeline.compile counters (some store) f = (after, compilation)) :
    compilation.func.Blockwise holds := by
  let weave : Weave := ⟨"", "", false, none, lowering⟩
  refine Pipeline.holds_compile (Func.Blockwise holds) (Func.Blockwise holds) compiled ?_ ?_ ?_
    fun _ => id
  · intro outcome ran
    obtain ⟨store', -, passed⟩ := Pipeline.before_of_some ran
    exact durable.before_run only passed
  · intro g each
    have retouched : Retouched (fun _ block => block.instrs.map weave.lower) g
        (pipeline.optimizer.run g).func := Retouched.optimized shipped g
    exact retouched.blockwise fun id block found => durable.lowered weave _ (each id block found)
  · intro g each
    cases after with
    | none => exact each
    | some store' => exact durable.after_run each rfl

end Instr.Durable

end FlowProfile
