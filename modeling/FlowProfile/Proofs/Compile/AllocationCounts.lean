/-
# Allocation counts are exact

Allocations are counted twice: ahead of the requests that the function makes, which are
known by their exact name, and ahead of the calls of allocators that the optimizer has left,
which are known by a fragment of their name.  Over any runs that return, the counters of
each stage grow by the number of calls that the stage recognizes among those executed, and
by the sum of the sizes that these calls were given, as words without sign.

The standard optimizer turns every request into a call of an allocator.  If the function
calls no allocator itself, both stages therefore count the same.

Nothing is asked of the host.  Which calls are executed is read off the runs of the compiled
function.
-/

import FlowProfile.Proofs.Compile.Acceptance
import FlowProfile.Proofs.Compile.BranchCounts
import FlowProfile.Proofs.Weave.Requests

namespace FlowProfile

/-! ## Sizes are known -/

/-- Where no size is missing, every call of an allocator has one. -/
theorem AllocSymbols.sizes_of_not_misses {symbols : AllocSymbols} {stage : Stage} {f : Func}
    (complete : ∀ name id, ¬ symbols.Misses stage f name id) {id : BlockId} {block : Block}
    (found : f.block? id = some block) {instr : Instr} (mem : instr ∈ block.instrs) :
    symbols.Sizes stage instr := by
  intro recognized
  obtain ⟨name, called, isAllocator⟩ := called_of_recognizesCall recognized
  apply Nat.lt_of_not_le
  intro short
  exact complete name id ⟨block, instr, found, mem, called, isAllocator, short⟩

/-- A compilation that counts allocations and objects to nothing knows the sizes at both
stages. -/
theorem Pipeline.sizes_of_passes {pipeline : Pipeline} (weave : Weave) {store : Store} {f : Func}
    (shipped : pipeline.optimizer = .ofLowering weave.lowering) {flags : Flags}
    (read : pipeline.settings.flagsOf f = .ok flags) (asked : flags.allocations = true)
    (passes : ∀ objection, pipeline.Passes store f objection) {id : BlockId} {block : Block}
    (found : f.block? id = some block) {instr : Instr} (mem : instr ∈ block.instrs)
    (stage : Stage) : pipeline.settings.alloc.Sizes stage (weave.seen stage instr) := by
  cases stage with
  | before =>
      refine AllocSymbols.sizes_of_not_misses (fun name id misses => ?_) found mem
      exact passes .request _ (.request read asked misses)
  | after =>
      have optimized : Retouched (fun _ block => block.instrs.map weave.lower) f
          (pipeline.optimizer.run f).func := Retouched.optimized shipped f
      obtain ⟨image, found', -, instrs, -⟩ := optimized.image id block found
      refine AllocSymbols.sizes_of_not_misses (fun name id misses => ?_) found'
        (instrs ▸ List.mem_map_of_mem mem)
      exact passes .allocator _ (.allocator read asked misses)

/-! ## Where both stages recognize the same calls -/

/-- No call of a function goes directly to an allocator. -/
def Func.CallsNoAllocator (f : Func) (symbols : AllocSymbols) : Prop :=
  ∀ id block, f.block? id = some block → ∀ instr ∈ block.instrs,
    symbols.recognizesCall .after instr = false

/-- Lowering by the standard makes allocators out of requests. -/
theorem Lowering.recognizes_target (size : Option Operand) :
    AllocSymbols.standard.recognizes .after (standard.target size) = true := by
  have pool : AllocSymbols.standard.recognizes .after standard.poolSymbol = true := by decide
  have big : AllocSymbols.standard.recognizes .after standard.bigSymbol = true := by decide
  unfold target
  split
  · split
    · exact pool
    · exact big
  · exact big
  · exact big

/-- An instruction that calls no allocator does so after lowering by the standard exactly if
it was a request. -/
theorem Lowering.recognizesCall_lowerInstr {instr : Instr}
    (direct : AllocSymbols.standard.recognizesCall .after instr = false) :
    AllocSymbols.standard.recognizesCall .after (standard.lowerInstr instr) =
      AllocSymbols.standard.recognizesCall .before instr := by
  cases instr with
  | call result callee args =>
      cases callee with
      | address code => rfl
      | symbol name =>
          rw [lowerInstr]
          split
          · next same =>
              rw [same]
              exact recognizes_target _
          · next apart =>
              rw [direct]
              exact (beq_eq_false_iff_ne.mpr apart).symm
  | _ => rfl

/-! ## Sequences of runs -/

namespace Launch

/-- The frames that runs of what was compiled pass through, one run after the other. -/
def trail : World → List Launch → List Frame
  | _, [] => []
  | world, launch :: rest =>
      Machine.trailOf launch.build.target launch.limit launch.args world ++
        trail (Machine.run launch.build.target launch.limit launch.args world).2 rest

/-- The sizes that allocators are asked for in runs of what a compilation has made, by the
calls that a stage recognizes. -/
def requests (build : Build) (reporter : Option Reporter) (stage : Stage) (world : World)
    (launches : List Launch) : List UInt64 :=
  build.pipeline.settings.alloc.requests build.source reporter stage (trail world launches)

/-- What holds of every run of a compiled function that returns, and of any two sequences of
runs in a row, holds of a sequence of such runs. -/
theorem Return.holds_of_runs {motive : List Frame → World → World → Prop} {build : Build}
    {world after : World} {launches : List Launch} (returns : Return world launches after)
    (same : ∀ launch ∈ launches, launch.build = build) (idle : ∀ world, motive [] world world)
    (run : ∀ {limit args value world after},
      Machine.run build.target limit args world = (.ok value, after) →
        motive (Machine.trailOf build.target limit args world) world after)
    (trans : ∀ {path path' world world' world''}, motive path world world' →
      motive path' world' world'' → motive (path ++ path') world world'') :
    motive (trail world launches) world after := by
  induction returns with
  | nil world => exact idle world
  | @cons world middle after launch rest value returned later ih =>
      have others := ih fun other mem => same other (List.mem_cons_of_mem _ mem)
      have returned' := returned
      rw [same launch List.mem_cons_self] at returned'
      rw [trail, returned, same launch List.mem_cons_self]
      exact trans (run returned') others

end Launch

/-- The source is verified, adds to no counter of the profile of its name, and asks for its
allocations to be counted. -/
structure Build.CountsAllocations (build : Build) (flags : Flags) (store : String) : Prop where
  verified : build.source.verify = .ok ()
  foreign : ∀ counter ∈ build.source.counters, ¬ counter.BelongsTo store build.source.name
  read : build.pipeline.settings.flagsOf build.source = .ok flags
  allocations : flags.allocations = true

/-- A call by name in a frame of the target is a call of the source, in the block that stands
there, as the optimizer has left it. -/
def Build.Stems (build : Build) (reporter : Option Reporter) (frame : Frame) (call : Instr) :
    Prop :=
  ∃ id block own, frame.block = build.source.home reporter id ∧
    build.source.block? id = some block ∧ own ∈ block.instrs ∧
    frame.sourceCall? build.source reporter = some own ∧
    call = build.lowering.elim own (·.lowerInstr own)

/-- What the compilation weaves into the source, for a store of some name. -/
def Build.weave (build : Build) (flags : Flags) (store : String) : Weave :=
  .ofFlags build.pipeline.settings flags build.lowering store build.source.name

theorem Build.lower_weave (build : Build) (flags : Flags) (store : String) (own : Instr) :
    (build.weave flags store).lower own = build.lowering.elim own (·.lowerInstr own) :=
  (build.weave flags store).lower_eq_elim own

/-- A compilation that counts allocations makes a woven function, in which every call of an
allocator has a size. -/
theorem Build.Succeeds.woven_of_allocations {build : Build} {store store' : Store}
    {flags : Flags} {reporter : Option Reporter} (succeeds : build.Succeeds store store')
    (counts : build.CountsAllocations flags store.name)
    (asked : Probe.After.reporterOf flags build.source = .ok reporter) :
    ∃ prologue fresh,
      Woven (build.weave flags store.name) prologue fresh build.source build.target ∧
      (∀ id, prologue.home build.source.blocks.size id = build.source.home reporter id) ∧
      ∀ id block, build.source.block? id = some block → ∀ instr ∈ block.instrs, ∀ stage,
        build.pipeline.settings.alloc.Sizes stage
          ((build.weave flags store.name).seen stage instr) := by
  obtain ⟨known, known', compiles⟩ := succeeds.compiles_of_verified counts.verified
  obtain ⟨shipped, events, report, success⟩ := succeeds
  obtain rfl : flags = known := Except.ok.inj (counts.read.symm.trans compiles.flags_eq)
  obtain rfl : reporter = known' := Except.ok.inj (asked.symm.trans compiles.reporter_eq)
  obtain ⟨next, isWoven⟩ := compiles.isWoven
  refine ⟨_, _, isWoven, ?_, ?_⟩
  · exact Prologue.home_ofCalls (Probe.After.reporterOf_off compiles.reporter_eq) next build.source
  · rcases Pipeline.settles shipped (Func.verify_eq_ok_iff.mp counts.verified) success with
      ⟨error, refused, -⟩ | ⟨-, passes, -⟩
    · cases refused
    · intro id block found instr mem stage
      exact Pipeline.sizes_of_passes (build.weave flags store.name) shipped counts.read
        counts.allocations passes found mem stage

namespace Launch

section

variable {world after : World} {launches : List Launch} {build : Build} {flags : Flags}
  {store : String} {prologue : Prologue} {fresh : BlockId → ValueId} {reporter : Option Reporter}
  (returns : Return world launches after) (same : ∀ launch ∈ launches, launch.build = build)
  (counts : build.CountsAllocations flags store)
  (isWoven : Woven (build.weave flags store) prologue fresh build.source build.target)
  (homes : ∀ id, prologue.home build.source.blocks.size id = build.source.home reporter id)

include returns same counts isWoven homes

/-- Runs of what was compiled record what they ask allocators for. -/
theorem Return.records
    (sizes : ∀ id block, build.source.block? id = some block → ∀ instr ∈ block.instrs, ∀ stage,
      build.pipeline.settings.alloc.Sizes stage ((build.weave flags store).seen stage instr)) :
    (build.weave flags store).Records build.pipeline.settings.alloc build.source reporter
      (trail world launches) world after :=
  returns.holds_of_runs same Weave.Records.refl
    (fun returned => isWoven.records_of_run (Func.verify_eq_ok_iff.mp counts.verified)
      counts.foreign homes returned (if_pos counts.allocations) sizes)
    fun first second => first.trans second

/-- The calls by name that they make are those of the source. -/
theorem Return.calls :
    ∀ frame ∈ trail world launches, ∀ call, frame.namedCall? = some call →
      build.Stems reporter frame call := by
  have stems : ∀ frame ∈ trail world launches, ∀ call, frame.namedCall? = some call →
      (build.weave flags store).Stems build.source reporter frame call :=
    returns.holds_of_runs same
      (motive := fun path _ _ => ∀ frame ∈ path, ∀ call, frame.namedCall? = some call →
        (build.weave flags store).Stems build.source reporter frame call)
      (fun _ => nofun)
      (fun returned => isWoven.calls_of_run (Func.verify_eq_ok_iff.mp counts.verified)
        counts.foreign homes returned)
      fun first second => List.forall_mem_append.mpr ⟨first, second⟩
  intro frame mem call makes
  obtain ⟨id, block, own, home, found, listed, known, same⟩ := stems frame mem call makes
  exact ⟨id, block, own, home, found, listed, known, same.trans (build.lower_weave _ _ own)⟩

/-- With the standard optimizer and names, and no direct calls of allocators, both stages see
the same requests. -/
theorem Return.requests_agree (lowered : build.lowering = some .standard)
    (standard : build.pipeline.settings.alloc = .standard)
    (direct : build.source.CallsNoAllocator .standard) :
    requests build reporter .after world launches =
      requests build reporter .before world launches := by
  have agree : ∀ id block, build.source.block? id = some block → ∀ instr ∈ block.instrs,
      build.pipeline.settings.alloc.recognizesCall .after ((build.weave flags store).lower instr) =
        build.pipeline.settings.alloc.recognizesCall .before instr := by
    intro id block found instr mem
    rw [standard, build.lower_weave, lowered]
    exact Lowering.recognizesCall_lowerInstr (direct id block found instr mem)
  refine returns.holds_of_runs same
    (motive := fun path _ _ =>
      build.pipeline.settings.alloc.requests build.source reporter .after path =
        build.pipeline.settings.alloc.requests build.source reporter .before path)
    (fun _ => rfl) ?_ ?_
  · intro limit args value world after returned
    exact isWoven.requests_agree (Func.verify_eq_ok_iff.mp counts.verified) counts.foreign homes
      returned agree
  · intro path path' _ _ _ first second
    rw [AllocSymbols.requests_append, AllocSymbols.requests_append, first, second]

end

end Launch

namespace Sample

/-- Only allocations are counted. -/
def allocating : Flags :=
  ⟨true, false, false, false⟩

/-- What the compilation of the function for some flags makes of it. -/
def compiled (flags : Flags) : Func :=
  (pipeline.compile .zero (some (.empty "profiles")) (choose flags)).2.func

/-- A run of the function when its allocations are counted. -/
def allocatingLaunch : Launch :=
  ⟨build allocating (compiled allocating), 8, [1]⟩

theorem compile_allocating :
    (pipeline.compile .zero (some (.empty "profiles")) (choose allocating)).2.result.isOk =
      true := by
  decide +kernel

theorem succeeds_compiled {flags : Flags}
    (isOk : (pipeline.compile .zero (some (.empty "profiles")) (choose flags)).2.result.isOk =
      true) :
    ∃ store', (build flags (compiled flags)).Succeeds (.empty "profiles") store' := by
  obtain ⟨stored, target, events, report, success⟩ := Pipeline.compile_eq_of_isOk isOk
  obtain ⟨-, -, store', rfl, -⟩ :=
    Pipeline.compiles_of_compile shipped_pipeline (Func.verify_eq_ok_iff.mp rfl) success
  have made : compiled flags = target := by
    rw [compiled, success]
  exact ⟨store', rfl, events, report, made ▸ success⟩

theorem run_allocating : (Machine.run (compiled allocating) 8 [1] world).1.isOk = true := by
  decide +kernel

theorem returns_allocating : ∃ after, Launch.Return world [allocatingLaunch] after := by
  have isOk := run_allocating
  rcases ran : Machine.run (compiled allocating) 8 [1] world with ⟨result, after⟩
  rw [ran] at isOk
  cases result with
  | error error => cases isOk
  | ok value => exact ⟨after, .cons ran (.nil after)⟩

/-- The run requests memory of size eight, and both stages see it. -/
theorem requests_allocating (stage : Stage) :
    Launch.requests (build allocating (compiled allocating)) none stage world
      [allocatingLaunch] = [8] := by
  cases stage <;> decide +kernel

theorem callsNoAllocator_choose (flags : Flags) : (choose flags).CallsNoAllocator .standard := by
  intro id block found instr mem
  have listed : block ∈ (choose flags).blocks.toList :=
    Array.mem_toList_iff.mpr (Array.mem_of_getElem? found)
  simp only [choose, List.mem_cons, List.not_mem_nil, or_false] at listed
  rcases listed with rfl | rfl | rfl
  · obtain rfl := List.mem_singleton.mp mem
    decide
  · cases mem
  · cases mem

end Sample

/-- A function is compiled with its allocations counted and run a number of times, with
every run returning.  The calls by name that are executed are those of the function, as the
optimizer has left them.  The counters of both stages have grown by the number of calls
among them that the stage recognizes, and by the sum of their sizes.  With the standard
optimizer and names, and no call that goes directly to an allocator, both stages have grown
by the same amounts. -/
theorem allocation_counts_exact {build : Build} {store store' : Store} {flags : Flags}
    {reporter : Option Reporter} (succeeds : build.Succeeds store store')
    (counts : build.CountsAllocations flags store.name)
    (asked : Probe.After.reporterOf flags build.source = .ok reporter) {world after : World}
    {launches : List Launch} (same : ∀ launch ∈ launches, launch.build = build)
    (returns : Launch.Return world launches after) :
    (∀ frame ∈ Launch.trail world launches, ∀ call, frame.namedCall? = some call →
      build.Stems reporter frame call) ∧
    (∀ stage,
      after.counters.read (.owned store.name build.source.name (.count stage)) =
          world.counters.read (.owned store.name build.source.name (.count stage)) +
            (Launch.requests build reporter stage world launches).length.toUInt64 ∧
        after.counters.read (.owned store.name build.source.name (.size stage)) =
          world.counters.read (.owned store.name build.source.name (.size stage)) +
            (Launch.requests build reporter stage world launches).sum) ∧
      (build.lowering = some .standard → build.pipeline.settings.alloc = .standard →
        build.source.CallsNoAllocator .standard →
        ∃ count size, ∀ stage,
          after.counters.read (.owned store.name build.source.name (.count stage)) =
              world.counters.read (.owned store.name build.source.name (.count stage)) + count ∧
            after.counters.read (.owned store.name build.source.name (.size stage)) =
              world.counters.read (.owned store.name build.source.name (.size stage)) + size) := by
  obtain ⟨prologue, fresh, isWoven, homes, sizes⟩ := succeeds.woven_of_allocations counts asked
  have records := returns.records same counts isWoven homes sizes
  have grows (stage : Stage) := And.intro (records.count_eq stage) (records.size_eq stage)
  refine ⟨returns.calls same counts isWoven homes, grows, fun lowered standard direct => ?_⟩
  have agree := returns.requests_agree same counts isWoven homes lowered standard direct
  refine ⟨(Launch.requests build reporter .before world launches).length.toUInt64,
    (Launch.requests build reporter .before world launches).sum, fun stage => ?_⟩
  cases stage with
  | before => exact grows .before
  | after => exact agree ▸ grows .after

theorem allocation_counts_exact_choose :
    ∃ store' after,
      (Sample.build Sample.allocating (Sample.compiled Sample.allocating)).Succeeds
        (.empty "profiles") store' ∧
      Launch.Return Sample.world [Sample.allocatingLaunch] after ∧
      (Sample.choose Sample.allocating).CallsNoAllocator .standard ∧
      ∀ stage, after.counters.read (.owned "profiles" "choose" (.count stage)) = 1 ∧
        after.counters.read (.owned "profiles" "choose" (.size stage)) = 8 := by
  obtain ⟨store', succeeds⟩ := Sample.succeeds_compiled Sample.compile_allocating
  obtain ⟨after, returns⟩ := Sample.returns_allocating
  have counts : (Sample.build Sample.allocating
      (Sample.compiled Sample.allocating)).CountsAllocations Sample.allocating "profiles" :=
    ⟨rfl, nofun, rfl, rfl⟩
  obtain ⟨-, counted, -⟩ := allocation_counts_exact succeeds counts rfl
    (by simp [Sample.allocatingLaunch]) returns
  have zero (measure : Measure) :
      Sample.world.counters.read (.owned "profiles" "choose" measure) = 0 :=
    Counters.read_zero _
  refine ⟨store', after, succeeds, returns, Sample.callsNoAllocator_choose _, fun stage => ?_⟩
  obtain ⟨number, sum⟩ := counted stage
  rw [Sample.requests_allocating] at number sum
  constructor
  · exact number.trans (congrArg (· + 1) (zero (.count stage)))
  · exact sum.trans (congrArg (· + 8) (zero (.size stage)))

end FlowProfile
