/-
# Branch counts are exact

Functions that share a name share a profile.  Whichever of them run, and in whatever
order, the counters of a slot grow by the number of times that the function being run
decides a branch in the block of that slot, and takes its first edge.  The blocks are
those of the function as it was before it was compiled, and its run is the one it would
make itself.

Slots are given counters by the compilations alone, and exactly those of blocks that
branch on a condition known only at run time.
-/

import FlowProfile.Proofs.Compile.Transparency
import FlowProfile.Proofs.Weave.Launching

namespace FlowProfile

/-! ## Slots -/

namespace Slots

theorem has_foldl_populate {slots : Slots} {sites : List Nat}
    (inside : ∀ site ∈ sites, site < slots.size) (slot : Nat) :
    (sites.foldl populate slots).has slot = true ↔ slots.has slot = true ∨ slot ∈ sites := by
  induction sites generalizing slots with
  | nil => simp
  | cons site rest ih =>
      have here : site < slots.size := inside site List.mem_cons_self
      have later : ∀ other ∈ rest, other < (slots.populate site).size := by
        intro other mem
        rw [size_populate]
        exact inside other (List.mem_cons_of_mem _ mem)
      rw [List.foldl_cons, ih later, has_populate, List.mem_cons]
      by_cases same : site = slot
      · subst same
        simp [here]
      · simp [same, Ne.symm same]

end Slots

/-- A block that branches on a condition known only at run time. -/
def Func.BranchesAt (f : Func) (id : BlockId) : Prop :=
  ∃ block, f.block? id = some block ∧ block.terminator.runtimeCondition?.isSome = true

/-- Probing the branches of a function gives counters to their slots and takes none away. -/
theorem Probe.has_branchSlots {slots : Slots} {f : Func} (fits : slots.fits f.blocks.size = true)
    (slot : Nat) :
    (branchSlots slots f).has slot = true ↔ slots.has slot = true ∨ f.BranchesAt slot := by
  have inside : ∀ site ∈ branchSites f, site < (slots.ensure f.blocks.size).size := by
    intro site mem
    obtain ⟨block, found, -⟩ := mem_branchSites.mp mem
    rw [Slots.size_ensure_eq_iff.mpr fits]
    exact Func.lt_size_of_block? found
  rw [branchSlots, Slots.has_foldl_populate inside, Slots.has_ensure, mem_branchSites]
  rfl

/-- A run decides no branch in a block that has none. -/
theorem Frame.branchesAt_of_not {f : Func} {id : BlockId} (absent : ¬ f.BranchesAt id)
    (frame : Frame) : frame.branchesAt f id = false ∧ frame.takesAt f id = false := by
  have unconditional (here : frame.block = id) : frame.branchCondition? f = none := by
    rw [branchCondition?, here]
    split
    · cases found : f.block? id with
      | none => rfl
      | some block =>
          cases condition : block.terminator.runtimeCondition? with
          | none => exact condition
          | some operand => exact absurd ⟨block, found, by rw [condition]; rfl⟩ absent
    · rfl
  rw [branchesAt, takesAt]
  by_cases here : frame.block = id
  · rw [unconditional here]
    exact ⟨Bool.and_false _, Bool.and_false _⟩
  · simp [here]

/-! ## Compilations and runs -/

/-- A compilation: by which pipeline, with which counts at hand, and of what to what. -/
structure Build where
  pipeline : Pipeline
  lowering : Option Lowering
  counters : Counters
  source : Func
  target : Func

namespace Build

/-- The compilation uses an optimizer of the library, and takes a store from one state to
another when it succeeds. -/
def Succeeds (build : Build) (store store' : Store) : Prop :=
  build.pipeline.optimizer = .ofLowering build.lowering ∧
    ∃ events report, build.pipeline.compile build.counters (some store) build.source =
      (some store', ⟨build.target, events, .ok report⟩)

/-- Compilations into one store, one after the other. -/
inductive Chain : Store → List Build → Store → Prop
  | nil (store : Store) : Chain store [] store
  | cons {store middle store' : Store} {build : Build} {rest : List Build}
      (succeeds : build.Succeeds store middle) (later : Chain middle rest store') :
      Chain store (build :: rest) store'

/-- The source is verified, has the given name, adds to no counter of the profile of that
name, and asks for its branches to be counted. -/
structure CountsBranches (build : Build) (store function : String) : Prop where
  verified : build.source.verify = .ok ()
  name_eq : build.source.name = function
  foreign : ∀ counter ∈ build.source.counters, ¬ counter.BelongsTo store function
  branches : ∃ flags, build.pipeline.settings.flagsOf build.source = .ok flags ∧
    flags.branches = true

end Build

/-- A run of what a compilation has made. -/
structure Launch where
  build : Build
  limit : Nat
  args : List Int64

namespace Launch

/-- Runs one after the other, all of which return. -/
inductive Return : World → List Launch → World → Prop
  | nil (world : World) : Return world [] world
  | cons {world middle after : World} {launch : Launch} {rest : List Launch}
      {value : Option Int64}
      (returned : Machine.run launch.build.target launch.limit launch.args world =
        (.ok value, middle))
      (later : Return middle rest after) :
      Return world (launch :: rest) after

/-- How many frames of a kind the runs pass through, seen by the code before or after it
was compiled.  A source makes its run where the compiled form does. -/
def tally (code : Build → Func) (kind : Func → Frame → Bool) : World → List Launch → Nat
  | _, [] => 0
  | world, launch :: rest =>
      (Machine.trailOf (code launch.build) launch.limit launch.args world).countP
          (kind (code launch.build)) +
        tally code kind (Machine.run launch.build.target launch.limit launch.args world).2 rest

theorem tally_eq_zero {code : Build → Func} {kind : Func → Frame → Bool}
    {launches : List Launch}
    (never : ∀ launch ∈ launches, ∀ frame, kind (code launch.build) frame = false)
    (world : World) : tally code kind world launches = 0 := by
  induction launches generalizing world with
  | nil => rfl
  | cons launch rest ih =>
      rw [tally, ih fun later mem => never later (List.mem_cons_of_mem _ mem), Nat.add_zero]
      apply List.countP_eq_zero.mpr
      intro frame mem
      rw [never launch List.mem_cons_self frame]
      exact Bool.false_ne_true

end Launch

theorem Host.Serves.answer?_eq {host : Host} {answers : Callee → Option (List Int64 → Int64)}
    (serves : host.Serves answers) : host.answer? = answers :=
  funext serves.answers_eq

namespace Build

variable {build : Build} {store store' : Store} {function : String}

/-- What a compilation makes of the store and of the function. -/
theorem Succeeds.compiles_of_verified (succeeds : build.Succeeds store store')
    (verified : build.source.verify = .ok ()) :
    ∃ flags reporter, build.pipeline.Compiles build.lowering flags reporter store store'
      build.source build.target := by
  obtain ⟨shipped, events, report, success⟩ := succeeds
  obtain ⟨flags, reporter, stored, same, compiles⟩ := Pipeline.compiles_of_compile shipped
    (Func.verify_eq_ok_iff.mp verified) success
  obtain rfl : store' = stored := Option.some.inj same
  exact ⟨flags, reporter, compiles⟩

/-- A compilation that counts branches has a flag that asks for it. -/
theorem Succeeds.compiles (succeeds : build.Succeeds store store')
    (counts : build.CountsBranches store.name function) :
    ∃ flags reporter, flags.branches = true ∧
      build.pipeline.Compiles build.lowering flags reporter store store' build.source
        build.target := by
  obtain ⟨flags, reporter, compiles⟩ := succeeds.compiles_of_verified counts.verified
  obtain ⟨flags', read, on⟩ := counts.branches
  obtain rfl : flags = flags' := Except.ok.inj (compiles.flags_eq.symm.trans read)
  exact ⟨flags, reporter, on, compiles⟩

/-- After a number of compilations a slot has counters if it had them before, or if one of
the functions branches in its block. -/
theorem Chain.has_slotsOf {builds : List Build} (chain : Chain store builds store')
    (counts : ∀ build ∈ builds, build.CountsBranches store.name function) (slot : Nat) :
    (store'.slotsOf function).has slot = true ↔
      (store.slotsOf function).has slot = true ∨
        ∃ build ∈ builds, build.source.BranchesAt slot := by
  induction chain with
  | nil store => simp
  | @cons store middle store' build rest succeeds later ih =>
      have here := counts build List.mem_cons_self
      obtain ⟨flags, reporter, on, compiles⟩ := succeeds.compiles here
      have leaves := compiles.leaves
      have slots : middle.slotsOf function =
          Probe.branchSlots (store.slotsOf function) build.source := by
        rw [← here.name_eq, leaves.slots_eq, if_pos on]
      have fits : (store.slotsOf function).fits build.source.blocks.size = true := by
        rw [← here.name_eq]
        exact leaves.fits on
      rw [ih fun other mem => leaves.name_eq ▸ counts other (List.mem_cons_of_mem _ mem), slots,
        Probe.has_branchSlots fits, or_assoc]
      simp only [List.mem_cons, exists_eq_or_imp]

/-- Every compilation of a chain succeeds in some state of its store. -/
theorem Chain.succeeds {builds : List Build} (chain : Chain store builds store')
    (counts : ∀ build ∈ builds, build.CountsBranches store.name function)
    {build : Build} (mem : build ∈ builds) :
    ∃ before after, before.name = store.name ∧ build.Succeeds before after := by
  induction chain with
  | nil store => cases mem
  | @cons store middle store' first rest succeeds later ih =>
      obtain ⟨flags, reporter, -, compiles⟩ :=
        succeeds.compiles (counts first List.mem_cons_self)
      have name := compiles.leaves.name_eq
      rcases List.mem_cons.mp mem with rfl | mem
      · exact ⟨store, middle, rfl, succeeds⟩
      · obtain ⟨before, after, name', succeeds'⟩ :=
          ih (fun other mem => name ▸ counts other (List.mem_cons_of_mem _ mem)) mem
        exact ⟨before, after, name'.trans name, succeeds'⟩

/-- One run adds to the counters of every slot what the trail of the source tells. -/
theorem Succeeds.grows_of_run (succeeds : build.Succeeds store store')
    (counts : build.CountsBranches store.name function)
    {limit : Nat} {args : List Int64} {value : Option Int64} {world after : World}
    (functional : world.host.IsFunctional)
    (interchanges : Lowering.Interchanges build.lowering world.host.answer?)
    (returned : Machine.run build.target limit args world = (.ok value, after)) :
    after.host.Serves world.host.answer? ∧ ∀ slot,
      after.counters.read (.owned store.name function (.total slot)) =
          world.counters.read (.owned store.name function (.total slot)) +
            ((Machine.trailOf build.source limit args world).countP
              (Frame.branchesAt build.source slot)).toUInt64 ∧
        after.counters.read (.owned store.name function (.taken slot)) =
          world.counters.read (.owned store.name function (.taken slot)) +
            ((Machine.trailOf build.source limit args world).countP
              (Frame.takesAt build.source slot)).toUInt64 := by
  obtain ⟨flags, reporter, on, compiles⟩ := succeeds.compiles counts
  obtain ⟨next, isWoven⟩ := compiles.isWoven
  have sound := Func.verify_eq_ok_iff.mp counts.verified
  have foreign := counts.foreign
  rw [← counts.name_eq] at foreign ⊢
  obtain ⟨-, -, serves, grows⟩ :=
    isWoven.returned_of_run sound foreign functional interchanges returned
  refine ⟨serves, fun slot => ?_⟩
  obtain ⟨noTotal, noTaken, -⟩ :=
    (Prologue.ofCalls flags.calls reporter next).total_ledger slot
  have total := grows (.total slot)
  have taken := grows (.taken slot)
  rw [Ledger.total_append, noTotal, UInt64.zero_add, (Weave.total_ledgers _ slot).1] at total
  rw [Ledger.total_append, noTaken, UInt64.zero_add, (Weave.total_ledgers _ slot).2.1] at taken
  have branches : (Weave.ofFlags build.pipeline.settings flags build.lowering store.name
    build.source.name).branches = true := on
  rw [branches] at total taken
  exact ⟨total, taken⟩

end Build

/-- A sequence of runs adds to the counters of every slot what the trails of the sources
tell. -/
theorem Launch.Return.grows {world after : World} {launches : List Launch}
    (returns : Return world launches after) {store : String} {function : String}
    {answers : Callee → Option (List Int64 → Int64)} (serves : world.host.Serves answers)
    (each : ∀ launch ∈ launches, (∃ before after', Store.name before = store ∧
        launch.build.Succeeds before after') ∧
      launch.build.CountsBranches store function ∧
      Lowering.Interchanges launch.build.lowering answers) (slot : Nat) :
    after.counters.read (.owned store function (.total slot)) =
        world.counters.read (.owned store function (.total slot)) +
          (tally Build.source (Frame.branchesAt · slot) world launches).toUInt64 ∧
      after.counters.read (.owned store function (.taken slot)) =
        world.counters.read (.owned store function (.taken slot)) +
          (tally Build.source (Frame.takesAt · slot) world launches).toUInt64 := by
  induction returns with
  | nil world => exact ⟨(UInt64.add_zero _).symm, (UInt64.add_zero _).symm⟩
  | @cons world middle after launch rest value returned later ih =>
      obtain ⟨⟨before, after', rfl, succeeds⟩, counts, interchanges⟩ :=
        each launch List.mem_cons_self
      rw [← serves.answer?_eq] at interchanges
      obtain ⟨serves', grows⟩ :=
        succeeds.grows_of_run counts serves.functional interchanges returned
      rw [serves.answer?_eq] at serves'
      obtain ⟨total, taken⟩ := grows slot
      obtain ⟨total', taken'⟩ :=
        ih serves' fun other mem => each other (List.mem_cons_of_mem _ mem)
      have sum (start : UInt64) (count count' : Nat) :
          start + count.toUInt64 + count'.toUInt64 = start + (count + count').toUInt64 := by
        rw [UInt64.add_assoc]
        exact congrArg (start + ·) (UInt64.ofNat_add count count').symm
      rw [total', taken', total, taken, tally, tally, returned, sum, sum]
      exact ⟨rfl, rfl⟩

namespace Sample

/-- A compilation of the function for some flags. -/
def build (flags : Flags) (target : Func) : Build :=
  ⟨pipeline, some .standard, .zero, choose flags, target⟩

theorem compile_choose_again :
    (pipeline.compile .zero
        (pipeline.compile .zero (some (.empty "profiles")) (choose counting)).1
        (choose branching)).2.result.isOk = true := by
  decide +kernel

theorem returns_choose {flags : Flags} {asked : Option Reporter} {store' : Store} {compiled : Func}
    (compiles : pipeline.Compiles (some .standard) flags asked (.empty "profiles") store'
      (choose counting) compiled) :
    ∃ after, Machine.run compiled 16 [1] world = (.ok (some 5), after) := by
  obtain rfl : flags = counting := (Except.ok.inj compiles.flags_eq).symm
  obtain rfl : asked = some reporter := (Except.ok.inj compiles.reporter_eq).symm
  have transparent := compiles.transparent (Func.verify_eq_ok_iff.mp rfl) nofun functional_world
    interchanges_world registered_world [1]
  obtain ⟨after, ran, -⟩ := transparent.returned 3 (some 5) _ rfl 16 steps_choose
  exact ⟨after, ran⟩

theorem countsBranches_build {flags : Flags} (target : Func)
    (read : pipeline.settings.flagsOf (choose flags) = .ok flags) (on : flags.branches = true) :
    (build flags target).CountsBranches "profiles" "choose" where
  verified := rfl
  name_eq := rfl
  foreign := nofun
  branches := ⟨flags, read, on⟩

end Sample

/-- Functions that share a name, each compiled with branches counted
into a store that had no profile of the name: a slot has counters exactly if one of the
functions branches in its block at run time, and over any runs that return they grow by
the number of times the sources decide and take such a branch. -/
theorem branch_counts_exact {store store' : Store} {function : String}
    {builds : List Build} (fresh : store.profile? function = none)
    (chain : Build.Chain store builds store')
    (counts : ∀ build ∈ builds, build.CountsBranches store.name function)
    {world after : World} (functional : world.host.IsFunctional)
    (interchanges : ∀ build ∈ builds, Lowering.Interchanges build.lowering world.host.answer?)
    {launches : List Launch} (members : ∀ launch ∈ launches, launch.build ∈ builds)
    (returns : Launch.Return world launches after) (slot : Nat) :
    ((∃ build ∈ builds, build.source.BranchesAt slot) →
      (store'.slotsOf function).has slot = true ∧
        after.counters.read (.owned store.name function (.total slot)) =
          world.counters.read (.owned store.name function (.total slot)) +
            (Launch.tally Build.source (Frame.branchesAt · slot) world launches).toUInt64 ∧
        after.counters.read (.owned store.name function (.taken slot)) =
          world.counters.read (.owned store.name function (.taken slot)) +
            (Launch.tally Build.source (Frame.takesAt · slot) world launches).toUInt64) ∧
      ((¬ ∃ build ∈ builds, build.source.BranchesAt slot) →
        (store'.slotsOf function).has slot = false ∧
          after.counters.read (.owned store.name function (.total slot)) =
            world.counters.read (.owned store.name function (.total slot)) ∧
          after.counters.read (.owned store.name function (.taken slot)) =
            world.counters.read (.owned store.name function (.taken slot))) := by
  have unpopulated : (store.slotsOf function).has slot = false := by
    rw [Store.slotsOf, fresh]
    rfl
  have slots := chain.has_slotsOf counts slot
  obtain ⟨total, taken⟩ := returns.grows (Host.serves_self functional)
    (fun launch mem => ⟨chain.succeeds counts (members launch mem),
      counts _ (members launch mem), interchanges _ (members launch mem)⟩) slot
  constructor
  · intro branches
    exact ⟨slots.mpr (.inr branches), total, taken⟩
  · intro absent
    have never (launch : Launch) (mem : launch ∈ launches) :
        ¬ launch.build.source.BranchesAt slot := by
      intro branches
      exact absent ⟨launch.build, members launch mem, branches⟩
    rw [Launch.tally_eq_zero fun launch mem frame =>
      (Frame.branchesAt_of_not (never launch mem) frame).1] at total
    rw [Launch.tally_eq_zero fun launch mem frame =>
      (Frame.branchesAt_of_not (never launch mem) frame).2] at taken
    refine ⟨?_, total.trans (UInt64.add_zero _), taken.trans (UInt64.add_zero _)⟩
    rw [Bool.eq_false_iff]
    intro populated
    rcases slots.mp populated with before | branches
    · rw [unpopulated] at before
      cases before
    · exact absent branches

theorem branch_counts_exact_choose :
    ∃ store' first second after,
      Build.Chain (.empty "profiles") [Sample.build Sample.counting first,
        Sample.build Sample.branching second] store' ∧
      Launch.Return Sample.world [⟨Sample.build Sample.counting first, 16, [1]⟩] after ∧
      (store'.slotsOf "choose").has 0 = true ∧ (store'.slotsOf "choose").has 1 = false ∧
      after.counters.read (.owned "profiles" "choose" (.total 0)) = 1 ∧
      after.counters.read (.owned "profiles" "choose" (.taken 0)) = 1 := by
  obtain ⟨stored, first, events, report, success⟩ := Pipeline.compile_eq_of_isOk
    Sample.compile_choose
  have again := Sample.compile_choose_again
  rw [success] at again
  obtain ⟨stored', second, events', report', success'⟩ := Pipeline.compile_eq_of_isOk again
  have sound : (Sample.choose Sample.counting).WellFormed := Func.verify_eq_ok_iff.mp rfl
  have sound' : (Sample.choose Sample.branching).WellFormed := Func.verify_eq_ok_iff.mp rfl
  obtain ⟨flags, reporter, store, rfl, compiles⟩ :=
    Pipeline.compiles_of_compile Sample.shipped_pipeline sound success
  obtain ⟨flags', reporter', store', rfl, compiles'⟩ :=
    Pipeline.compiles_of_compile Sample.shipped_pipeline sound' success'
  have chain : Build.Chain (.empty "profiles") [Sample.build Sample.counting first,
      Sample.build Sample.branching second] store' :=
    .cons ⟨rfl, events, report, success⟩ (.cons ⟨rfl, events', report', success'⟩ (.nil store'))
  have counts : ∀ build ∈ [Sample.build Sample.counting first, Sample.build Sample.branching second],
      build.CountsBranches "profiles" "choose" := by
    intro build mem
    simp only [List.mem_cons, List.not_mem_nil, or_false] at mem
    rcases mem with rfl | rfl
    · exact Sample.countsBranches_build first rfl rfl
    · exact Sample.countsBranches_build second rfl rfl
  have interchanges : ∀ build ∈ [Sample.build Sample.counting first,
      Sample.build Sample.branching second],
      Lowering.Interchanges build.lowering Sample.world.host.answer? := by
    intro build mem
    simp only [List.mem_cons, List.not_mem_nil, or_false] at mem
    rcases mem with rfl | rfl <;> exact Sample.interchanges_world
  obtain ⟨after, ran⟩ := Sample.returns_choose compiles
  have returns : Launch.Return Sample.world [⟨Sample.build Sample.counting first, 16, [1]⟩] after :=
    .cons ran (.nil after)
  have exact' := branch_counts_exact rfl chain counts Sample.functional_world interchanges
    (by simp) returns
  obtain ⟨populated, total, taken⟩ := (exact' 0).1
    ⟨Sample.build Sample.counting first, List.mem_cons_self, _, rfl, rfl⟩
  have absent : ¬ ∃ build ∈ [Sample.build Sample.counting first,
      Sample.build Sample.branching second], build.source.BranchesAt 1 := by
    rintro ⟨build, mem, block, found, isRuntime⟩
    simp only [List.mem_cons, List.not_mem_nil, or_false] at mem
    rcases mem with rfl | rfl <;> cases found <;> cases isRuntime
  have zero (measure : Measure) :
      Sample.world.counters.read (.owned "profiles" "choose" measure) = 0 :=
    Counters.read_zero _
  refine ⟨store', first, second, after, chain, returns, populated, ((exact' 1).2 absent).1, ?_, ?_⟩
  · apply total.trans
    show Sample.world.counters.read (.owned "profiles" "choose" (.total 0)) + 1 = 1
    rw [zero]
    rfl
  · apply taken.trans
    show Sample.world.counters.read (.owned "profiles" "choose" (.taken 0)) + 1 = 1
    rw [zero]
    rfl

end FlowProfile
