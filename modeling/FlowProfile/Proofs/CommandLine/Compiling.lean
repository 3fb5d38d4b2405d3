/-
# Compiling the sample workload

Whatever flags are in force and whatever reporter is asked for, the workload is compiled:
no settings that come from the environment and the command line give a reason to refuse it.
What comes out is a woven form of it, and the store then has a profile of it if any flag was
set.

When it is compiled again with feedback, the counts of the first runs stand in its code.
-/

import FlowProfile.CommandLine.Program
import FlowProfile.Proofs.CommandLine.Tabs
import FlowProfile.Proofs.Compile.Acceptance
import FlowProfile.Proofs.Compile.Recompiling
import FlowProfile.Proofs.Settings.Variables

namespace FlowProfile

/-! ## Settings -/

/-- The program lowers requests to their standard forms. -/
theorem Program.shipped (settings : Settings) :
    (⟨settings, Lowering.standard.optimizer⟩ : Pipeline).optimizer =
      .ofLowering (some .standard) := rfl

namespace Workload

/-! ## Flags and reporters -/

section

variable (noted : Option Flags) (threshold : Option Int64)

theorem note_flags : (func noted threshold).note? flagsKey = noted.map Flags.toNote := by
  cases noted <;> cases threshold <;>
    simp [Func.note?, func, notes, Table.ofList, Table.get?_insert, flagsKey, reporterKey]

theorem note_reporter :
    (func noted threshold).note? reporterKey =
      threshold.map fun threshold => (reporter threshold).toNote := by
  cases noted <;> cases threshold <;>
    simp [Func.note?, func, notes, Table.ofList, Table.get?_insert, flagsKey, reporterKey]

/-- The flags in force: those of the note, and those that are forced if there is none. -/
theorem flagsOf_func (settings : Settings) :
    settings.flagsOf (func noted threshold) = .ok (noted.getD settings.forced) := by
  rw [Settings.flagsOf, note_flags]
  cases noted with
  | none => rfl
  | some flags =>
      obtain ⟨_ | _, _ | _, _ | _, _ | _⟩ := flags <;> rfl

/-- The reporter is asked for if calls are counted. -/
theorem reporterOf_func (flags : Flags) :
    Probe.After.reporterOf flags (func noted threshold) =
      .ok (if flags.calls then threshold.map reporter else none) := by
  rw [Probe.After.reporterOf, note_reporter]
  cases flags.calls with
  | false => rfl
  | true => cases threshold <;> rfl

end

/-! ## Compilations -/

section

variable {settings : Settings} {store : Store} (noted : Option Flags) (threshold : Option Int64)

/-- The pipeline of the program does not refuse the workload, unless it has the slots of another
function. -/
theorem compile_func (standard : settings.alloc = .standard) (counters : Counters)
    (fits : (store.slotsOf name).fits 7 = true) :
    ∃ store' woven events report,
      (⟨settings, Lowering.standard.optimizer⟩ : Pipeline).compile counters (some store)
        (func noted threshold) = (some store', ⟨woven, events, .ok report⟩) := by
  have read := flagsOf_func noted threshold settings
  rcases compiled : (⟨settings, Lowering.standard.optimizer⟩ : Pipeline).compile counters
    (some store) (func noted threshold) with ⟨after, woven, events, result⟩
  rcases Pipeline.settles (Program.shipped settings) wellFormed_func compiled with
    ⟨error, rfl, objection, objects, -⟩ | ⟨⟨report, rfl⟩, -, -⟩
  · refine absurd objects ?_
    have request : settings.alloc.checkCalls .before (func noted threshold) = .ok () := by
      rw [standard]
      rfl
    have allocator : settings.alloc.checkCalls .after
        (Lowering.standard.optimizer.run (func noted threshold)).func = .ok () := by
      have known : AllocSymbols.standard.checkCalls .after
          (Lowering.standard.lower (func none none)).func = .ok () := by decide +kernel
      rw [standard]
      exact known
    cases objection with
    | flags => exact Pipeline.passes_flags read error
    | request => exact Pipeline.passes_request read (fun _ => request) error
    | slots => exact Pipeline.passes_slots read (fun _ => fits) error
    | allocator => exact Pipeline.passes_allocator read (fun _ => allocator) error
    | reporter => exact Pipeline.passes_reporter read (reporterOf_func noted threshold _) error
  · obtain ⟨flags, reporter, store', rfl, -⟩ :=
      Pipeline.compiles_of_compile (Program.shipped settings) wellFormed_func compiled
    exact ⟨store', woven, events, report, rfl⟩

end

/-! ## The profile -/

theorem shape_func (noted : Option Flags) (threshold : Option Int64) :
    (func noted threshold).shape = .ok ⟨1, 7, 14⟩ := by
  have known : (func none none).shape = .ok ⟨1, 7, 14⟩ := by decide +kernel
  exact known

/-- The slots of the workload under some flags. -/
def slots (flags : Flags) : Slots :=
  if flags.branches then Probe.branchSlots .unsized (func none none) else .unsized

section

variable {settings : Settings} {store' : Store} {noted : Option Flags} {threshold : Option Int64}
  {flags : Flags}

/-- A compilation into an empty store leaves one profile in it, if any flag is set. -/
theorem store_of_compile {counters : Counters} {woven : Func} {events : List Event}
    {report : CompileReport} (inForce : noted.getD settings.forced = flags)
    (compiled : (⟨settings, Lowering.standard.optimizer⟩ : Pipeline).compile counters
      (some (.empty "store")) (func noted threshold) = (some store', ⟨woven, events, .ok report⟩)) :
    store'.name = "store" ∧ store'.profiles.entries =
      if flags.isEmpty then [] else [(name, ⟨⟨1, 7, 14⟩, slots flags⟩)] := by
  obtain ⟨early, _, _⟩ := report
  obtain ⟨_, _, _, _, _, first, -⟩ := Pipeline.stages_of_compile compiled
  obtain ⟨_, stored, ran⟩ := Pipeline.before_of_some first
  obtain rfl := Option.some.inj stored
  have read' := flagsOf_func noted threshold settings
  rw [inForce] at read'
  have created {base : Store} {profile : Profile} {created : Bool}
      (obtained : (Store.empty "store").obtain name (func noted threshold).shape =
        .ok (base, profile, created)) :
      base = (Store.empty "store").put name ⟨⟨1, 7, 14⟩, .unsized⟩ ∧
        profile = ⟨⟨1, 7, 14⟩, .unsized⟩ := by
    rw [shape_func] at obtained
    cases obtained
    exact ⟨rfl, rfl⟩
  cases Probe.Before.ends_of_run ran with
  | idle read empty =>
      obtain rfl := Except.ok.inj (read'.symm.trans read)
      rw [empty]
      exact ⟨rfl, rfl⟩
  | unconcerned read nonempty obtained apart =>
      obtain rfl := Except.ok.inj (read'.symm.trans read)
      obtain ⟨rfl, -⟩ := created obtained
      have off : flags.branches = false := by
        simp only [Probe.Before.concerns, Bool.or_eq_false_iff] at apart
        exact apart.1.1
      rw [nonempty, slots, off]
      exact ⟨rfl, rfl⟩
  | changed read nonempty obtained concerned checked =>
      obtain rfl := Except.ok.inj (read'.symm.trans read)
      obtain ⟨rfl, rfl⟩ := created obtained
      have twice (first second : Profile) :
          (((Store.empty "store").put name first).put name second).profiles.entries =
            [(name, second)] := by
        show Table.insertEntry name second [(name, first)] = [(name, second)]
        rw [Table.insertEntry, if_neg (String.lt_irrefl name), if_pos rfl]
      rw [nonempty]
      exact ⟨rfl, twice _ ⟨⟨1, 7, 14⟩, slots flags⟩⟩

end

end Workload

end FlowProfile
