/-
# Which counters the passes add to

A pass makes code add to counters of the profile of the function's own name, and only to
those that the flags ask for: the one of calls, those of allocations, or those of the slots
of blocks that branch at run time.  Whatever else the code adds to it has added to before.

The same holds of a whole compilation when the optimizer keeps to itself, as those of the
library do.
-/

import FlowProfile.Proofs.Compile.Atomicity
import FlowProfile.Proofs.Run.Footprint
import FlowProfile.Proofs.Weave.Following
import FlowProfile.Proofs.Weave.Compiled

namespace FlowProfile

/-- The measures that the passes may make a function add to under given flags. -/
def Flags.Permits (flags : Flags) (f : Func) : Measure → Prop
  | .calls => flags.calls = true
  | .size _ | .count _ => flags.allocations = true
  | .taken slot | .total slot => flags.branches = true ∧ slot ∈ Probe.branchSites f

/-- An optimizer that gives a function neither another name nor other notes, and does not
make it add to further counters. -/
structure Optimizer.Harmless (optimizer : Optimizer) : Prop where
  name_eq : ∀ f, (optimizer.run f).func.name = f.name
  notes_eq : ∀ f, (optimizer.run f).func.notes = f.notes
  counters_sub : ∀ f, ∀ counter ∈ (optimizer.run f).func.counters, counter ∈ f.counters

variable {allowed : Counter → Prop} {f f' : Func} {store : Store} {settings : Settings}
  {flags : Flags} {counters : Counters}

/-! ## Block by block -/

theorem Retouched.countsOnly {code : BlockId → Block → List Instr}
    (retouched : Retouched code f f')
    (each : ∀ id block, f.block? id = some block → ∀ instr ∈ code id block,
      instr.CountsOnly allowed) : f'.CountsOnly allowed := by
  refine Func.countsOnly_iff.mpr fun id image found instr mem => ?_
  obtain ⟨block, here, -, instrs, -⟩ := retouched.origin found
  rw [instrs] at mem
  exact each id block here instr mem

theorem Instr.countsOnly_tally {counter : Counter} (own : allowed counter) (amount : Operand) :
    (Instr.tally counter amount).CountsOnly allowed := by
  intro other same
  cases same
  exact own

theorem Instr.countsOnly_of_counter? {instr : Instr} (silent : instr.counter? = none) :
    instr.CountsOnly allowed := by
  intro counter same
  rw [silent] at same
  cases same

namespace Weave

variable {weave : Weave} {stage : Stage}

theorem countsOnly_probedAt {instr : Instr} (only : instr.CountsOnly allowed)
    (own : weave.allocations.isSome = true →
      allowed (weave.counter (.size stage)) ∧ allowed (weave.counter (.count stage))) :
    ∀ probe ∈ weave.probedAt stage instr, probe.CountsOnly allowed := by
  intro probe mem
  rcases List.mem_append.mp mem with ahead | last
  · obtain ⟨entry, listed, rfl⟩ := List.mem_map.mp ahead
    rcases weave.talliesAt_eq_or stage instr with none | ⟨symbols, size, asked, -, -, two⟩
    · rw [none] at listed
      cases listed
    · obtain ⟨ownSize, ownCount⟩ := own (by rw [asked]; rfl)
      simp only [two, List.mem_cons, List.not_mem_nil, or_false] at listed
      rcases listed with rfl | rfl
      · exact Instr.countsOnly_tally ownSize _
      · exact Instr.countsOnly_tally ownCount _
  · rw [List.mem_singleton.mp last]
    exact only

theorem countsOnly_tail (weave : Weave) {fresh : ValueId} {id : BlockId} {terminator : Terminator}
    (own : weave.branches = true → terminator.runtimeCondition?.isSome = true →
      allowed (weave.counter (.total id)) ∧ allowed (weave.counter (.taken id))) :
    ∀ probe ∈ weave.tail fresh id terminator, probe.CountsOnly allowed := by
  intro probe mem
  unfold tail at mem
  split at mem
  · next condition on isRuntime =>
      obtain ⟨total, taken⟩ := own on (by rw [isRuntime]; rfl)
      simp only [Probe.branchProbe, List.mem_cons, List.not_mem_nil, or_false] at mem
      rcases mem with rfl | rfl | rfl
      · exact Instr.countsOnly_tally total _
      · exact Instr.countsOnly_of_counter? rfl
      · exact Instr.countsOnly_tally taken _
  · cases mem
  · cases mem

theorem allocations_of_isSome {lowering : Option Lowering} {store function : String}
    (asked : (ofFlags settings flags lowering store function).allocations.isSome = true) :
    flags.allocations = true := by
  rw [ofFlags] at asked
  split at asked
  · assumption
  · cases asked

end Weave

/-! ## The passes -/

namespace Probe

/-- The pass before the optimizer makes a function add to measures that are permitted. -/
theorem Before.countsOnly_change (only : f.CountsOnly allowed)
    (own : ∀ measure, flags.Permits f measure → allowed (store.counter f.name measure))
    (profile : Profile) :
    (change settings flags counters store profile f).2.func.CountsOnly allowed := by
  let weave : Weave := .ofFlags settings flags none store.name f.name
  refine (retouched_change settings flags none counters store profile f).countsOnly ?_
  intro id block found instr mem
  obtain ⟨origin, listed, here⟩ := List.mem_flatMap.mp mem
  refine Weave.countsOnly_probedAt ?_ (fun asked => ?_) instr here
  · rcases List.mem_append.mp listed with inside | probe
    · exact Func.countsOnly_iff.mp only id block found origin inside
    · refine weave.countsOnly_tail (fun on isRuntime => ?_) origin probe
      have site : id ∈ branchSites f := mem_branchSites.mpr ⟨block, found, isRuntime⟩
      exact ⟨own (.total id) ⟨on, site⟩, own (.taken id) ⟨on, site⟩⟩
  · have on := Weave.allocations_of_isSome asked
    exact ⟨own (.size .before) on, own (.count .before) on⟩

theorem Before.name_change (profile : Profile) :
    (change settings flags counters store profile f).2.func.name = f.name :=
  (retouched_change settings flags none counters store profile f).name_eq

theorem Before.notes_change (profile : Profile) :
    (change settings flags counters store profile f).2.func.notes = f.notes :=
  (retouched_change settings flags none counters store profile f).notes_eq

/-- Counting calls adds to the counter of calls alone. -/
theorem countsOnly_calls (only : f.CountsOnly allowed) (nonempty : f.blocks.isEmpty = false)
    (own : allowed (store.counter f.name .calls)) (reporter : Option Reporter) :
    (calls store counters reporter f).func.CountsOnly allowed := by
  rw [Func.countsOnly_iff] at only ⊢
  intro id image found instr mem
  cases reporter with
  | none =>
      replace found : (plainCalls store f).func.block? id = some image := found
      rw [block?_plainCalls] at found
      split at found
      · obtain ⟨block, here, rfl⟩ := Option.map_eq_some_iff.mp found
        rcases List.mem_cons.mp mem with rfl | inside
        · intro counter same
          cases same
          exact own
        · exact only id block here instr inside
      · exact only id image found instr mem
  | some reporter =>
      obtain ⟨head, entered⟩ := Func.entry_of_nonempty nonempty
      replace found : (reportedCalls store counters reporter f).func.block? id = some image :=
        found
      rw [block?_reportedCalls store f counters reporter entered] at found
      split at found
      · cases found
        rw [List.mem_singleton.mp mem]
        exact Instr.countsOnly_of_counter? rfl
      · split at found
        · cases found
          exact only Func.entry head entered instr mem
        · split at found
          · cases found
            simp only [decision, prologue, List.mem_cons, List.not_mem_nil, or_false] at mem
            rcases mem with rfl | rfl | rfl
            · intro counter same
              cases same
              exact own
            · exact Instr.countsOnly_of_counter? rfl
            · exact Instr.countsOnly_of_counter? rfl
          · exact only id image found instr mem

/-- The pass after the optimizer makes a function add to measures that are permitted, seen
from any function. -/
theorem After.countsOnly_change {source : Func} (only : f.CountsOnly allowed)
    (nonempty : flags.calls = true → f.blocks.isEmpty = false)
    (own : ∀ measure, flags.Permits source measure → allowed (store.counter f.name measure))
    (reporter : Option Reporter) :
    (change settings flags counters store reporter f).func.CountsOnly allowed := by
  have callsCounted : (counted store f counters flags.calls reporter).CountsOnly allowed := by
    unfold counted
    split
    · next on => exact countsOnly_calls only (nonempty on) (own .calls on) reporter
    · exact only
  refine (@retouched_change settings flags none counters store reporter f _ _ rfl rfl).countsOnly ?_
  intro id block found instr mem
  obtain ⟨origin, listed, here⟩ := List.mem_flatMap.mp mem
  refine Weave.countsOnly_probedAt (Func.countsOnly_iff.mp callsCounted id block found origin
    listed) (fun asked => ?_) instr here
  have on := Weave.allocations_of_isSome asked
  exact ⟨own (.size .after) on, own (.count .after) on⟩

theorem After.name_change (reporter : Option Reporter) :
    (change settings flags counters store reporter f).func.name = f.name :=
  (@retouched_change settings flags none counters store reporter f _ _ rfl rfl).name_eq.trans
    (header_counted store f counters flags.calls reporter).1

theorem Before.countsOnly_run {store' : Store} {outcome : Outcome}
    (ran : run settings counters store f = (store', outcome)) (only : f.CountsOnly allowed)
    (own : ∀ flags, settings.flagsOf f = .ok flags → ∀ measure, flags.Permits f measure →
      allowed (store.counter f.name measure)) : outcome.func.CountsOnly allowed := by
  cases ends_of_run ran with
  | misread => exact only
  | idle => exact only
  | shapeless => exact only
  | unconcerned => exact only
  | refused => exact only
  | changed read nonempty obtained concerned checked =>
      have name := (slotsOf_of_obtain obtained).1
      refine countsOnly_change only (fun measure permits => ?_) _
      rw [Store.counter, name]
      exact own _ read measure permits

/-- The pass leaves the store under its name, and the function under its name and with its
notes. -/
theorem Before.names_run {store' : Store} {outcome : Outcome}
    (ran : run settings counters store f = (store', outcome)) :
    store'.name = store.name ∧ outcome.func.name = f.name ∧ outcome.func.notes = f.notes := by
  cases ends_of_run ran with
  | misread => exact ⟨rfl, rfl, rfl⟩
  | idle => exact ⟨rfl, rfl, rfl⟩
  | shapeless => exact ⟨rfl, rfl, rfl⟩
  | unconcerned read nonempty obtained => exact ⟨(slotsOf_of_obtain obtained).1, rfl, rfl⟩
  | refused read nonempty obtained => exact ⟨(slotsOf_of_obtain obtained).1, rfl, rfl⟩
  | changed read nonempty obtained =>
      exact ⟨(slotsOf_of_obtain obtained).1, name_change _, notes_change _⟩

theorem After.countsOnly_run (source : Func) {outcome : Outcome}
    (ran : run settings counters store f = outcome) (only : f.CountsOnly allowed)
    (own : ∀ flags, settings.flagsOf f = .ok flags → (store.profile? f.name).isSome = true →
      ∀ measure, flags.Permits source measure → allowed (store.counter f.name measure)) :
    outcome.func.CountsOnly allowed := by
  cases ends_of_run ran with
  | misread => exact only
  | unconcerned => exact only
  | unknown => exact only
  | refused => exact only
  | changed read concerned known checked =>
      exact countsOnly_change only (check_eq_ok_iff.mp checked).2.2 (own _ read known) _

theorem After.name_run {outcome : Outcome} (ran : run settings counters store f = outcome) :
    outcome.func.name = f.name := by
  cases ends_of_run ran with
  | misread => rfl
  | unconcerned => rfl
  | unknown => rfl
  | refused => rfl
  | changed => exact name_change _

end Probe

/-! ## Compilations -/

theorem Func.CountsOnly.optimized {optimizer : Optimizer} (harmless : optimizer.Harmless)
    (only : f.CountsOnly allowed) : (optimizer.run f).func.CountsOnly allowed :=
  fun counter mem => only counter (harmless.counters_sub f counter mem)

/-- The optimizers of the library are harmless. -/
theorem Optimizer.harmless_ofLowering (lowering : Option Lowering) :
    (Optimizer.ofLowering lowering).Harmless := by
  let weave : Weave := ⟨"", "", false, none, lowering⟩
  have retouched (f : Func) : Retouched (fun _ block => block.instrs.map weave.lower) f
      ((Optimizer.ofLowering lowering).run f).func := Retouched.optimized rfl f
  refine ⟨fun f => (retouched f).name_eq, fun f => (retouched f).notes_eq, fun f => ?_⟩
  have own : f.CountsOnly (· ∈ f.counters) := fun _ mem => mem
  refine (retouched f).countsOnly fun id block found instr mem => ?_
  obtain ⟨origin, listed, rfl⟩ := List.mem_map.mp mem
  intro counter same
  rw [weave.counter?_lower] at same
  exact Func.countsOnly_iff.mp own id block found origin listed counter same

namespace Pipeline

variable {pipeline : Pipeline} {after : Option Store} {compilation : Compilation}

/-- What holds after the first stage and is kept by the optimizer holds, perhaps in a weaker
form, at the end of the stages, whichever is the last. -/
theorem holds_goOn (early late : Func → Prop) {first : Outcome} {last : Func → Outcome}
    (begun : early first.func) (second : ∀ g, early g → early (pipeline.optimizer.run g).func)
    (third : ∀ g, early g → late (last g).func) (weaker : ∀ g, early g → late g) :
    late (pipeline.goOn first last).func := by
  obtain ⟨g, events, result⟩ := first
  unfold goOn
  cases result with
  | error error => exact weaker g begun
  | ok before =>
      have optimized := second g begun
      dsimp only
      cases (pipeline.optimizer.run g).result with
      | error error => exact weaker _ optimized
      | ok optimizer =>
          have ended := third _ optimized
          dsimp only
          cases (last (pipeline.optimizer.run g).func).result with
          | error error => exact ended
          | ok after =>
              dsimp only
              unfold finish
              split <;> exact ended

/-- The same of a compilation. -/
theorem holds_compile (early late : Func → Prop) {before : Option Store}
    (compiled : pipeline.compile counters before f = (after, compilation))
    (first : ∀ outcome, pipeline.before counters before f = (after, outcome) → early outcome.func)
    (second : ∀ g, early g → early (pipeline.optimizer.run g).func)
    (third : ∀ g, early g → late (pipeline.after counters after g).func)
    (weaker : ∀ g, early g → late g) : late compilation.func := by
  rcases ran : pipeline.before counters before f with ⟨stored, outcome⟩
  simp only [compile, ran] at compiled
  cases compiled
  exact holds_goOn early late (first outcome ran) second third weaker

/-- Whether it succeeds or not, a compilation makes a function add to measures of its own
name that the flags permit, and leaves it under its name. -/
theorem countsOnly_compile (harmless : pipeline.optimizer.Harmless)
    (compiled : pipeline.compile counters (some store) f = (after, compilation))
    (only : f.CountsOnly allowed)
    (own : ∀ flags, pipeline.settings.flagsOf f = .ok flags → ∀ measure,
      flags.Permits f measure → allowed (store.counter f.name measure)) :
    compilation.func.CountsOnly allowed ∧ compilation.func.name = f.name := by
  refine holds_compile
    (fun g => g.CountsOnly allowed ∧ g.name = f.name ∧ g.notes = f.notes)
    (fun g => g.CountsOnly allowed ∧ g.name = f.name) compiled ?_ ?_ ?_ ?_
  · intro outcome ran
    obtain ⟨store', rfl, passed⟩ := before_of_some ran
    exact ⟨Probe.Before.countsOnly_run passed only own, (Probe.Before.names_run passed).2⟩
  · rintro g ⟨here, name, notes⟩
    exact ⟨here.optimized harmless, (harmless.name_eq g).trans name,
      (harmless.notes_eq g).trans notes⟩
  · rintro g ⟨here, name, notes⟩
    obtain ⟨store', stored, kept⟩ : ∃ store', after = some store' ∧ store'.name = store.name := by
      rcases ran : pipeline.before counters (some store) f with ⟨after', outcome⟩
      obtain ⟨store', rfl, passed⟩ := before_of_some ran
      have same := congrArg Prod.fst compiled
      rw [store_of_compile, ran] at same
      exact ⟨store', same.symm, (Probe.Before.names_run passed).1⟩
    subst stored
    have same : pipeline.settings.flagsOf g = pipeline.settings.flagsOf f := by
      rw [Settings.flagsOf, Settings.flagsOf, Func.note?, Func.note?, name, notes]
    have counters_eq : store'.counter g.name = store.counter f.name := by
      funext measure
      rw [Store.counter, kept, name, Store.counter]
    have permitted (flags : Flags) (read : pipeline.settings.flagsOf g = .ok flags)
        (_ : (store'.profile? g.name).isSome = true) (measure : Measure)
        (permits : flags.Permits f measure) : allowed (store'.counter g.name measure) := by
      rw [counters_eq]
      exact own flags (same ▸ read) measure permits
    exact ⟨Probe.After.countsOnly_run f rfl here permitted, (Probe.After.name_run rfl).trans name⟩
  · rintro g ⟨here, name, -⟩
    exact ⟨here, name⟩

end Pipeline

end FlowProfile
