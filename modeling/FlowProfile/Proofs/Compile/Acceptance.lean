/-
# What is compiled and what is refused

A verified function is refused for one of five reasons.  Each can be told from the
function with its notes, from the settings and from the slots of its profile, without
running a pass, and the first of them in the order of the stages is the one that is
reported.  Where there is none the function is compiled, and what it is compiled to is
verified.  No pass hands on what the last stage would refuse, and none meets a block that
is not there.
-/

import FlowProfile.Proofs.Compile.Transparency
import FlowProfile.Proofs.Flow.Loops
import FlowProfile.Proofs.Func.Notes
import FlowProfile.Proofs.Weave.Validity

namespace FlowProfile

/-! ## The profile of a verified function -/

theorem Store.obtain_eq_ok (store : Store) (function : String) (shape : Shape) :
    ∃ result, store.obtain function (.ok shape) = .ok result := by
  unfold obtain
  cases store.profile? function with
  | none => exact ⟨_, rfl⟩
  | some profile => exact ⟨_, rfl⟩

/-! ## Reasons to refuse a function -/

/-- What a function can be refused for. -/
inductive Objection
  | flags
  | request
  | slots
  | allocator
  | reporter

/-- The order in which reasons to refuse a function are looked for. -/
def Objection.rank : Objection → Nat
  | flags => 0
  | request => 1
  | slots => 2
  | allocator => 3
  | reporter => 4

namespace Pipeline

/-- There is a reason to refuse a function, and an error that tells it. -/
inductive Objects (pipeline : Pipeline) (store : Store) (f : Func) : Objection → Error → Prop
  | flags {note : Note} {fault : NoteFault} (found : f.note? flagsKey = some note)
      (malformed : ¬ note.StatesFlags) :
      Objects pipeline store f .flags (.malformedNote f.name flagsKey fault)
  | request {flags : Flags} {name : String} {id : BlockId}
      (read : pipeline.settings.flagsOf f = .ok flags) (asked : flags.allocations = true)
      (misses : pipeline.settings.alloc.Misses .before f name id) :
      Objects pipeline store f .request
        (.invalid f.name (.allocationWithoutSize name id pipeline.settings.alloc.sizeArg))
  | slots {flags : Flags} (read : pipeline.settings.flagsOf f = .ok flags)
      (asked : flags.branches = true ∨ flags.feedback = true)
      (known : (store.slotsOf f.name).isEmpty = false)
      (apart : (store.slotsOf f.name).size ≠ f.blocks.size) :
      Objects pipeline store f .slots
        (.shapeMismatch f.name (store.slotsOf f.name).size f.blocks.size .before)
  | allocator {flags : Flags} {name : String} {id : BlockId}
      (read : pipeline.settings.flagsOf f = .ok flags) (asked : flags.allocations = true)
      (misses : pipeline.settings.alloc.Misses .after (pipeline.optimizer.run f).func name id) :
      Objects pipeline store f .allocator
        (.invalid f.name (.allocationWithoutSize name id pipeline.settings.alloc.sizeArg))
  | reporter {flags : Flags} {note : Note} {fault : NoteFault}
      (read : pipeline.settings.flagsOf f = .ok flags) (asked : flags.calls = true)
      (found : f.note? reporterKey = some note) (malformed : ¬ note.AsksForReporter) :
      Objects pipeline store f .reporter (.malformedNote f.name reporterKey fault)

/-- A reason to refuse a function does not apply. -/
def Passes (pipeline : Pipeline) (store : Store) (f : Func) (objection : Objection) : Prop :=
  ∀ error, ¬ pipeline.Objects store f objection error

/-- An error tells the first reason that there is to refuse a function. -/
def RefusesWith (pipeline : Pipeline) (store : Store) (f : Func) (error : Error) : Prop :=
  ∃ objection, pipeline.Objects store f objection error ∧
    ∀ earlier, earlier.rank < objection.rank → pipeline.Passes store f earlier

section

variable {pipeline : Pipeline} {store : Store} {f : Func} {flags : Flags}

theorem passes_flags (read : pipeline.settings.flagsOf f = .ok flags) :
    pipeline.Passes store f .flags := by
  rintro error objects
  cases objects with
  | flags found malformed =>
      rw [Settings.flagsOf, found] at read
      rcases Flags.ofNote_cases f.name _ with ⟨states, -⟩ | ⟨-, fault, refused⟩
      · exact malformed states
      · cases refused.symm.trans read

theorem passes_request (read : pipeline.settings.flagsOf f = .ok flags)
    (checked : flags.allocations = true →
      pipeline.settings.alloc.checkCalls .before f = .ok ()) :
    pipeline.Passes store f .request := by
  rintro error objects
  cases objects with
  | request read' asked misses =>
      obtain rfl := Except.ok.inj (read.symm.trans read')
      exact AllocSymbols.checkCalls_eq_ok_iff.mp (checked asked) _ _ misses

theorem passes_slots (read : pipeline.settings.flagsOf f = .ok flags)
    (fits : flags.branches = true ∨ flags.feedback = true →
      (store.slotsOf f.name).fits f.blocks.size = true) :
    pipeline.Passes store f .slots := by
  rintro error objects
  cases objects with
  | slots read' asked known apart =>
      obtain rfl := Except.ok.inj (read.symm.trans read')
      have fits := fits asked
      rw [Slots.fits, known, Bool.false_or, beq_iff_eq] at fits
      exact apart fits

theorem passes_allocator (read : pipeline.settings.flagsOf f = .ok flags)
    (checked : flags.allocations = true →
      pipeline.settings.alloc.checkCalls .after (pipeline.optimizer.run f).func = .ok ()) :
    pipeline.Passes store f .allocator := by
  rintro error objects
  cases objects with
  | allocator read' asked misses =>
      obtain rfl := Except.ok.inj (read.symm.trans read')
      exact AllocSymbols.checkCalls_eq_ok_iff.mp (checked asked) _ _ misses

theorem passes_reporter (read : pipeline.settings.flagsOf f = .ok flags)
    {reporter : Option Reporter}
    (asked : Probe.After.reporterOf flags f = .ok reporter) :
    pipeline.Passes store f .reporter := by
  rintro error objects
  cases objects with
  | reporter read' on found malformed =>
      obtain rfl := Except.ok.inj (read.symm.trans read')
      simp only [Probe.After.reporterOf, on, found] at asked
      rcases Reporter.ofNote_cases f.name _ with ⟨asks, -⟩ | ⟨-, fault, refused⟩
      · exact malformed asks
      · rw [refused] at asked
        cases asked

/-- A reporter that cannot be read is asked for by a note. -/
theorem malformed_of_reporterOf {error : Error}
    (refused : Probe.After.reporterOf flags f = .error error) :
    flags.calls = true ∧ ∃ note, f.note? reporterKey = some note ∧ ¬ note.AsksForReporter ∧
      ∃ fault, error = .malformedNote f.name reporterKey fault := by
  unfold Probe.After.reporterOf at refused
  split at refused
  · next note on found =>
      refine ⟨on, note, found, ?_⟩
      rcases Reporter.ofNote_cases f.name note with
        ⟨-, reporter, read⟩ | ⟨malformed, fault, refused'⟩
      · rw [read] at refused
        cases refused
      · rw [refused'] at refused
        cases refused
        exact ⟨malformed, fault, rfl⟩
  · cases refused
  · cases refused

/-- Flags that cannot be read are the first reason of all. -/
theorem refusesWith_of_flagsOf {error : Error}
    (read : pipeline.settings.flagsOf f = .error error) : pipeline.RefusesWith store f error := by
  unfold Settings.flagsOf at read
  cases found : f.note? flagsKey with
  | none =>
      rw [found] at read
      cases read
  | some note =>
      rw [found] at read
      rcases Flags.ofNote_cases f.name note with ⟨-, flags, known⟩ | ⟨malformed, fault, refused⟩
      · cases known.symm.trans read
      · obtain rfl := Except.error.inj (refused.symm.trans read)
        exact ⟨.flags, .flags found malformed, fun earlier lower => absurd lower (Nat.not_lt_zero _)⟩

/-! ## The pass before the optimizer -/

/-- What a success of the pass says about its function. -/
theorem passes_of_before {counters : Counters} {store' : Store} {g : Func}
    {events : List Event} {preserved : Preserved}
    (ran : Probe.Before.run pipeline.settings counters store f =
      (store', ⟨g, events, .ok preserved⟩)) :
    pipeline.Passes store f .flags ∧ pipeline.Passes store f .request ∧
      pipeline.Passes store f .slots := by
  cases Probe.Before.ends_of_run ran with
  | @idle flags read empty =>
      simp only [Flags.isEmpty, Bool.not_eq_true', Bool.or_eq_false_iff] at empty
      obtain ⟨⟨⟨allocations, branches⟩, -⟩, feedback⟩ := empty
      exact ⟨passes_flags read, passes_request read (by simp [allocations]),
        passes_slots read (by simp [branches, feedback])⟩
  | unconcerned read nonempty obtained apart =>
      simp only [Probe.Before.concerns, Bool.or_eq_false_iff] at apart
      obtain ⟨⟨branches, allocations⟩, feedback⟩ := apart
      exact ⟨passes_flags read, passes_request read (by simp [allocations]),
        passes_slots read (by simp [branches, feedback])⟩
  | changed read nonempty obtained concerned checked =>
      obtain ⟨named, fits⟩ := Probe.Before.check_eq_ok_iff.mp checked
      rw [(Probe.Before.slotsOf_of_obtain obtained).2.2] at fits
      exact ⟨passes_flags read, passes_request read named, passes_slots read fits⟩

/-- A refusal of the pass tells the first reason for it. -/
theorem refusesWith_of_before (sound : f.WellFormed) {counters : Counters} {store' : Store}
    {g : Func} {events : List Event} {error : Error}
    (ran : Probe.Before.run pipeline.settings counters store f =
      (store', ⟨g, events, .error error⟩)) :
    pipeline.RefusesWith store f error := by
  cases Probe.Before.ends_of_run ran with
  | misread read => exact refusesWith_of_flagsOf read
  | shapeless read nonempty obtained =>
      obtain ⟨shape, measured⟩ := sound.targetsExist.shape_eq_ok
      obtain ⟨result, found⟩ := store.obtain_eq_ok f.name shape
      rw [measured, found] at obtained
      cases obtained
  | refused read nonempty obtained checked =>
      rcases Probe.Before.check_eq_error checked with ⟨asked, refused⟩ | ⟨named, asked, refused⟩
      · rcases AllocSymbols.checkCalls_cases _ .before f with
          ⟨accepted, -⟩ | ⟨name, id, misses, refused'⟩
        · cases accepted.symm.trans refused
        · obtain rfl := Except.error.inj (refused'.symm.trans refused)
          refine ⟨.request, .request read asked misses, fun earlier lower => ?_⟩
          cases earlier with
          | flags => exact passes_flags read
          | request | slots | allocator | reporter => exact absurd lower (by decide)
      · obtain ⟨known, apart, rfl⟩ := Profile.checkSlots_eq_error refused
        rw [(Probe.Before.slotsOf_of_obtain obtained).2.2] at known apart ⊢
        refine ⟨.slots, .slots read asked known apart, fun earlier lower => ?_⟩
        cases earlier with
        | flags => exact passes_flags read
        | request => exact passes_request read named
        | slots | allocator | reporter => exact absurd lower (by decide)

/-! ## The pass after the optimizer -/

/-- A function with the same calls of allocators misses the same sizes. -/
theorem misses_iff_of_retouched {code : BlockId → Block → List Instr} {g : Func}
    (retouched : Retouched code f g) {symbols : AllocSymbols} {stage : Stage} {name : String}
    {id : BlockId} :
    symbols.Misses stage g name id ↔ ∃ block instr, f.block? id = some block ∧
      instr ∈ code id block ∧ instr.calledSymbol? = some name ∧
        symbols.recognizes stage name = true ∧ instr.operands.length ≤ symbols.sizeArg := by
  constructor
  · rintro ⟨image, instr, found, mem, rest⟩
    obtain ⟨block, here, -, instrs, -⟩ := retouched.origin found
    exact ⟨block, instr, here, instrs ▸ mem, rest⟩
  · rintro ⟨block, instr, here, mem, rest⟩
    obtain ⟨image, found, -, instrs, -⟩ := retouched.image id block here
    exact ⟨image, instr, found, instrs ▸ mem, rest⟩

/-- The calls by name that the pass before the optimizer leaves are those of the function. -/
theorem mem_beforeCalls_iff {weave : Weave} {fresh : BlockId → ValueId} {id : BlockId}
    {block : Block} {instr : Instr} {name : String} (called : instr.calledSymbol? = some name) :
    instr ∈ weave.beforeCalls fresh id block ↔ instr ∈ block.instrs.map weave.lower := by
  simp only [Weave.beforeCalls, List.mem_map, List.mem_flatMap]
  constructor
  · rintro ⟨probed, ⟨own, mem, mem'⟩, rfl⟩
    rcases List.mem_append.mp mem' with probe | self
    · obtain ⟨entry, -, rfl⟩ := List.mem_map.mp probe
      rw [weave.lower_of_calledSymbol? rfl] at called
      cases called
    · obtain rfl := List.mem_singleton.mp self
      rcases List.mem_append.mp mem with inside | probe
      · exact ⟨probed, inside, rfl⟩
      · have unnamed := weave.calledSymbol?_of_mem_tail probe
        rw [weave.lower_of_calledSymbol? unnamed, unnamed] at called
        cases called
  · rintro ⟨own, mem, rfl⟩
    exact ⟨own, ⟨own, List.mem_append_left _ mem, by simp [Weave.probedAt]⟩, rfl⟩

/-- The pass after the optimizer meets the calls of allocators that the optimizer leaves of
the function itself. -/
theorem Reaches.misses_iff {lowering : Option Lowering} {store' : Store} {middle : Func}
    (shipped : pipeline.optimizer = .ofLowering lowering)
    (reaches : pipeline.Reaches lowering flags store f store' middle) {symbols : AllocSymbols}
    {stage : Stage} {name : String} {id : BlockId} :
    symbols.Misses stage middle name id ↔
      symbols.Misses stage (pipeline.optimizer.run f).func name id := by
  let weave := Weave.ofFlags pipeline.settings flags lowering store.name f.name
  have optimized : Retouched (fun _ block => block.instrs.map weave.lower) f
      (pipeline.optimizer.run f).func := Retouched.optimized shipped f
  rw [misses_iff_of_retouched reaches.retouched, misses_iff_of_retouched optimized]
  refine exists_congr fun block => exists_congr fun instr => and_congr_right fun _ => ?_
  constructor
  · rintro ⟨mem, called, rest⟩
    exact ⟨(mem_beforeCalls_iff called).mp mem, called, rest⟩
  · rintro ⟨mem, called, rest⟩
    exact ⟨(mem_beforeCalls_iff called).mpr mem, called, rest⟩

section

variable {lowering : Option Lowering} {store' : Store} {middle woven : Func}
  {counters : Counters} {events : List Event}
  (shipped : pipeline.optimizer = .ofLowering lowering)
  (reaches : pipeline.Reaches lowering flags store f store' middle)

include shipped reaches

theorem checkCalls_of_reaches {symbols : AllocSymbols} {stage : Stage}
    (checked : symbols.checkCalls stage middle = .ok ()) :
    symbols.checkCalls stage (pipeline.optimizer.run f).func = .ok () := by
  rw [AllocSymbols.checkCalls_eq_ok_iff] at checked ⊢
  intro name id misses
  exact checked name id ((reaches.misses_iff shipped).mpr misses)

/-- What a success of the pass says about the function. -/
theorem passes_of_after {preserved : Preserved}
    (ran : Probe.After.run pipeline.settings counters store' middle =
      ⟨woven, events, .ok preserved⟩) :
    pipeline.Passes store f .allocator ∧ pipeline.Passes store f .reporter := by
  have same {flags' : Flags} (read : pipeline.settings.flagsOf middle = .ok flags') :
      flags = flags' := Except.ok.inj (reaches.flagsOf_eq.symm.trans read)
  cases Probe.After.ends_of_run ran with
  | unconcerned read calls allocations =>
      obtain rfl := same read
      have unasked : Probe.After.reporterOf flags f = .ok none := by
        rw [Probe.After.reporterOf, calls]
      exact ⟨passes_allocator reaches.flags_eq (by simp [allocations]),
        passes_reporter reaches.flags_eq unasked⟩
  | unknown read concerned unknown =>
      obtain rfl := same read
      have nonempty : flags.isEmpty = false := by
        rcases concerned with on | on <;> simp [Flags.isEmpty, on]
      have known := reaches.leaves.profile_isSome nonempty
      rw [← reaches.retouched.name_eq, unknown] at known
      cases known
  | changed read concerned known checked =>
      obtain rfl := same read
      obtain ⟨named, asked, -⟩ := Probe.After.check_eq_ok_iff.mp checked
      rw [reaches.reporterOf_eq] at asked
      exact ⟨passes_allocator reaches.flags_eq fun on =>
        checkCalls_of_reaches shipped reaches (named on), passes_reporter reaches.flags_eq asked⟩

/-- A refusal of the pass tells the first reason for it, where the pass before the optimizer
has found none. -/
theorem refusesWith_of_after (sound : f.WellFormed) {error : Error}
    (request : pipeline.Passes store f .request) (slots : pipeline.Passes store f .slots)
    (ran : Probe.After.run pipeline.settings counters store' middle =
      ⟨woven, events, .error error⟩) : pipeline.RefusesWith store f error := by
  have read := reaches.flags_eq
  have same {flags' : Flags} (read' : pipeline.settings.flagsOf middle = .ok flags') :
      flags = flags' := Except.ok.inj (reaches.flagsOf_eq.symm.trans read')
  cases Probe.After.ends_of_run ran with
  | misread read' => cases reaches.flagsOf_eq.symm.trans read'
  | refused read' concerned known checked =>
      obtain rfl := same read'
      rcases Probe.After.check_eq_error checked with
        ⟨asked, refused⟩ | ⟨named, refused | ⟨-, -, empty⟩⟩
      · rcases AllocSymbols.checkCalls_cases _ .after middle with
          ⟨accepted, -⟩ | ⟨name, id, misses, refused'⟩
        · cases accepted.symm.trans refused
        · obtain rfl := Except.error.inj (refused'.symm.trans refused)
          rw [reaches.retouched.name_eq]
          refine ⟨.allocator, .allocator read asked ((reaches.misses_iff shipped).mp misses),
            fun earlier lower => ?_⟩
          cases earlier with
          | flags => exact passes_flags read
          | request => exact request
          | slots => exact slots
          | allocator | reporter => exact absurd lower (by decide)
      · rw [reaches.reporterOf_eq] at refused
        obtain ⟨on, note, found, malformed, fault, rfl⟩ := malformed_of_reporterOf refused
        refine ⟨.reporter, .reporter read on found malformed, fun earlier lower => ?_⟩
        cases earlier with
        | flags => exact passes_flags read
        | request => exact request
        | slots => exact slots
        | allocator =>
            exact passes_allocator read fun on => checkCalls_of_reaches shipped reaches (named on)
        | reporter => exact absurd lower (by decide)
      · obtain ⟨head, entered, -⟩ := sound.entry_params
        have inside := Func.lt_size_of_block? entered
        rw [← reaches.retouched.size_eq, Array.isEmpty_iff.mp empty] at inside
        cases inside

end

/-! ## Whole compilations -/

/-- A function that reaches the optimizer is well-formed before it and after it. -/
theorem wellFormed_of_before (sound : f.WellFormed) {counters : Counters} {store' : Store}
    {g : Func} {events : List Event} {result : Except Error Preserved}
    (ran : Probe.Before.run pipeline.settings counters store f = (store', ⟨g, events, result⟩)) :
    g.WellFormed := by
  cases Probe.Before.ends_of_run ran with
  | changed => exact Probe.Before.wellFormed_change _ _ _ _ _ sound
  | _ => exact sound

theorem wellFormed_of_after (sound : f.WellFormed) {counters : Counters} {g : Func}
    {events : List Event} {result : Except Error Preserved}
    (ran : Probe.After.run pipeline.settings counters store f = ⟨g, events, result⟩) :
    g.WellFormed := by
  cases Probe.After.ends_of_run ran with
  | changed => exact Probe.After.wellFormed_change _ _ _ _ _ sound
  | _ => exact sound

/-- The library's optimizers refuse nothing and keep functions well-formed. -/
theorem optimized_of_shipped {lowering : Option Lowering}
    (shipped : pipeline.optimizer = .ofLowering lowering) (sound : f.WellFormed) {g : Func}
    {events : List Event} {result : Except Error Preserved}
    (ran : pipeline.optimizer.run f = ⟨g, events, result⟩) :
    g.WellFormed ∧ ∃ preserved, result = .ok preserved := by
  have kept := Optimizer.wellFormed_run lowering sound
  rw [← shipped, ran] at kept
  refine ⟨kept, ?_⟩
  rw [shipped] at ran
  cases lowering with
  | none =>
      cases ran
      exact ⟨_, rfl⟩
  | some lowering =>
      cases ran
      exact ⟨_, rfl⟩

/-- A compilation of a verified function ends in its first objection, or there is none and
the outcome is verified. -/
theorem settles {lowering : Option Lowering} (shipped : pipeline.optimizer = .ofLowering lowering)
    (sound : f.WellFormed) {counters : Counters} {after : Option Store} {woven : Func}
    {events : List Event} {result : Except Error CompileReport}
    (compiled : pipeline.compile counters (some store) f = (after, ⟨woven, events, result⟩)) :
    (∃ error, result = .error error ∧ pipeline.RefusesWith store f error) ∨
      (∃ report, result = .ok report) ∧ (∀ objection, pipeline.Passes store f objection) ∧
        woven.verify = .ok () := by
  generalize made : (⟨woven, events, result⟩ : Compilation) = compilation at compiled
  cases ends_of_compile compiled with
  | before first =>
      cases made
      obtain ⟨store', -, ran⟩ := before_of_some first
      exact .inl ⟨_, rfl, refusesWith_of_before sound ran⟩
  | optimizer first second =>
      obtain ⟨store', -, ran⟩ := before_of_some first
      obtain ⟨-, preserved, same⟩ :=
        optimized_of_shipped shipped (wellFormed_of_before sound ran) second
      cases same
  | after first second third =>
      cases made
      obtain ⟨store', rfl, ran⟩ := before_of_some first
      obtain ⟨flags, reaches⟩ := reaches_of_stages shipped ran second
      obtain ⟨-, request, slots⟩ := passes_of_before ran
      exact .inl ⟨_, rfl, refusesWith_of_after shipped reaches sound request slots third⟩
  | @finish middle last woven' _ _ _ report first second third =>
      obtain ⟨store', rfl, ran⟩ := before_of_some first
      obtain ⟨flags, reaches⟩ := reaches_of_stages shipped ran second
      obtain ⟨flagged, request, slots⟩ := passes_of_before ran
      obtain ⟨allocator, reporter⟩ := passes_of_after shipped reaches third
      have verified : woven'.verify = .ok () := Func.verify_eq_ok_iff.mpr (wellFormed_of_after
        (optimized_of_shipped shipped (wellFormed_of_before sound ran) second).1 third)
      rw [finish, verified] at made
      cases made
      refine .inr ⟨⟨report, rfl⟩, fun objection => ?_, verified⟩
      cases objection with
      | flags => exact flagged
      | request => exact request
      | slots => exact slots
      | allocator => exact allocator
      | reporter => exact reporter

end

/-- A verified function is refused exactly if there is a reason to, with the first reason
that there is, and never because a block is missing.  Where there is none the compiled
function is verified. -/
theorem compile_refuses_exactly {pipeline : Pipeline} {lowering : Option Lowering}
    (shipped : pipeline.optimizer = .ofLowering lowering) (counters : Counters) (store : Store)
    {f : Func} (verified : f.verify = .ok ()) :
    ((∃ error, (pipeline.compile counters (some store) f).2.result = .error error) ↔
        ∃ objection error, pipeline.Objects store f objection error) ∧
      (∀ error, (pipeline.compile counters (some store) f).2.result = .error error →
        pipeline.RefusesWith store f error ∧ error ≠ .outOfBounds) ∧
      ∀ report, (pipeline.compile counters (some store) f).2.result = .ok report →
        (pipeline.compile counters (some store) f).2.func.verify = .ok () := by
  rcases compiled : pipeline.compile counters (some store) f with ⟨after, woven, events, result⟩
  rcases settles shipped (Func.verify_eq_ok_iff.mp verified) compiled with
    ⟨error, rfl, refuses⟩ | ⟨⟨report, rfl⟩, passes, accepted⟩
  · obtain ⟨objection, objects, first⟩ := refuses
    refine ⟨⟨fun _ => ⟨objection, error, objects⟩, fun _ => ⟨error, rfl⟩⟩, ?_, nofun⟩
    rintro error' ⟨⟩
    refine ⟨⟨objection, objects, first⟩, ?_⟩
    rintro rfl
    cases objects
  · refine ⟨⟨nofun, ?_⟩, nofun, fun _ _ => accepted⟩
    rintro ⟨objection, error, objects⟩
    exact absurd objects (passes objection error)

theorem compile_refuses_exactly_choose :
    ∃ report, (Sample.pipeline.compile .zero (some (.empty "profiles"))
        (Sample.choose Sample.counting)).2.result = .ok report ∧
      (Sample.pipeline.compile .zero (some (.empty "profiles"))
        (Sample.choose Sample.counting)).2.func.verify = .ok () := by
  obtain ⟨stored, compiled, events, report, success⟩ := compile_eq_of_isOk Sample.compile_choose
  have verified : (Sample.choose Sample.counting).verify = .ok () := rfl
  obtain ⟨-, -, accepted⟩ :=
    compile_refuses_exactly Sample.shipped_pipeline .zero (.empty "profiles") verified
  have ended : (Sample.pipeline.compile .zero (some (.empty "profiles"))
      (Sample.choose Sample.counting)).2.result = .ok report := by rw [success]
  exact ⟨report, ended, accepted report ended⟩

end Pipeline

end FlowProfile
