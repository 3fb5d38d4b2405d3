/-
# Interleaved runs lose nothing

Compiled functions are run at once, step by step in any order, and share the counters.
However they interleave, and whichever of them fail or are cut off, no branch is noted as
taken before it is noted at all.  And if none is cut off, the results and the counters are
those of the same runs made one after another.

The first rests on what the code looks like, since every probe adds to the total first.
The second rests on what a run can notice of the others, which is only whether it is to
report.
-/

import FlowProfile.Proofs.Compile.AllocationCounts
import FlowProfile.Proofs.Compile.CallCounts
import FlowProfile.Proofs.Weave.Crossing
import FlowProfile.Proofs.Weave.Pairing

namespace FlowProfile

/-- A compilation, into whatever store, has made a function from a verified one that adds to
no counters, and the routine of its reporter is there. -/
structure Build.Prepares (build : Build) (host : Host) (g : Func) : Prop where
  target_eq : build.target = g
  succeeds : ∃ store store', build.Succeeds store store'
  verified : build.source.verify = .ok ()
  silent : build.source.counters = []
  registered : ∀ flags reporter, build.pipeline.settings.flagsOf build.source = .ok flags →
    Probe.After.reporterOf flags build.source = .ok (some reporter) →
      (host.routine? (.address reporter.callback)).isSome = true

namespace Build.Prepares

variable {build : Build} {g : Func} {world : World}

/-- What was compiled pairs the counters of every slot. -/
theorem pairs (prepares : build.Prepares world.host g) {total part : Counter}
    (ofSlot : total.OfSlot part) : g.Pairs total part := by
  obtain ⟨store, store', shipped, events, report, success⟩ := prepares.succeeds
  have apart : build.source.CountsOnly (Counter.Neither total part) := by
    intro counter mem
    rw [prepares.silent] at mem
    cases mem
  rw [← prepares.target_eq]
  exact Pipeline.pairs_compile shipped ofSlot apart success

/-- Runs of what was compiled are steady. -/
theorem yields (prepares : build.Prepares world.host g) (functional : world.host.IsFunctional)
    (limit : Nat) (args : List Int64) :
    ∃ result total, (⟨g, limit, args⟩ : Job).Yields world.host.answer? result total := by
  obtain ⟨store, store', succeeds⟩ := prepares.succeeds
  obtain ⟨flags, reporter, compiles⟩ := succeeds.compiles_of_verified prepares.verified
  obtain ⟨next, isWoven⟩ := compiles.isWoven
  have serves := Host.serves_self functional
  rw [← prepares.target_eq]
  refine isWoven.yields (Func.verify_eq_ok_iff.mp prepares.verified) prepares.silent ?_ serves limit
    args
  intro used asked
  rw [Prologue.reporter?_ofCalls (Probe.After.reporterOf_off compiles.reporter_eq)] at asked
  subst asked
  rw [← serves.isSome_routine?]
  exact prepares.registered flags used compiles.flags_eq compiles.reporter_eq

end Build.Prepares

namespace Sample

/-- Two runs of the function when its branches are counted. -/
def jobs : List Job :=
  [⟨compiled branching, 16, [1]⟩, ⟨compiled branching, 16, [0]⟩]

theorem compile_branching :
    (pipeline.compile .zero (some (.empty "profiles")) (choose branching)).2.result.isOk =
      true := by
  decide +kernel

theorem prepared_jobs :
    ∀ job ∈ jobs, ∃ build : Build, build.Prepares world.host job.func := by
  intro job mem
  obtain ⟨store', succeeds⟩ := succeeds_compiled compile_branching
  have silent (flags : Flags) (used : Reporter)
      (read : pipeline.settings.flagsOf (choose branching) = .ok flags)
      (asked : Probe.After.reporterOf flags (choose branching) = .ok (some used)) :
      (world.host.routine? (.address used.callback)).isSome = true := by
    obtain rfl : branching = flags := Except.ok.inj read
    cases asked
  refine ⟨build branching (compiled branching), ?_, ⟨_, store', succeeds⟩, rfl, rfl, silent⟩
  simp only [jobs, List.mem_cons, List.not_mem_nil, or_false] at mem
  rcases mem with rfl | rfl <;> rfl

theorem climbs_jobs : (Job.pool world jobs).Climbs (jobs.map Job.func) alternating := by
  have weight : (Job.pool world jobs).weight (jobs.map Job.func) alternating < UInt64.size := by
    decide +kernel
  refine Pool.climbs_of_weight fun counter => ?_
  have unused : (Job.pool world jobs).world.counters.read counter = 0 := Counters.read_zero _
  rw [unused, UInt64.toNat_zero, Nat.zero_add]
  exact weight

theorem hasEnded_jobs : (Job.interleaved world jobs alternating).HasEnded := by
  apply Job.hasEnded_interleaved
  intro index job given
  match index with
  | 0 =>
      cases given
      decide
  | 1 =>
      cases given
      decide
  | _ + 2 => cases given

/-- Whether a run is over and has returned. -/
def hasReturned : Strand → Bool
  | .ended result => result.isOk
  | .going .. => false

/-- No run is cut off. -/
theorem finishes_jobs :
    (∀ outcome, .ended outcome ∈ (Job.interleaved world jobs alternating).strands →
        Machine.Finishes outcome) ∧
      ∀ outcome ∈ (Job.inTurn world jobs.reverse).1, Machine.Finishes outcome := by
  have together : (Job.interleaved world jobs alternating).strands.all hasReturned = true := by
    decide +kernel
  have inTurn : (Job.inTurn world jobs.reverse).1.all Except.isOk = true := by
    decide +kernel
  exact ⟨fun outcome mem => Machine.finishes_of_isOk (List.all_eq_true.mp together _ mem),
    fun outcome mem => Machine.finishes_of_isOk (List.all_eq_true.mp inTurn outcome mem)⟩

end Sample

/-- Verified functions that add to no counters are compiled, and runs of what comes out
interleave in any order.  Unless a counter wraps around, the count of a branch taken never
passes that of the branch, whatever has become of the runs.  Once all runs are over, and none
of them was cut off by its budget, their results and the counters are the same for every
order of turns, and they are those of the runs made one after another in any order. -/
theorem interleaved_runs_lose_nothing {world : World} (functional : world.host.IsFunctional)
    {jobs : List Job}
    (prepared : ∀ job ∈ jobs, ∃ build : Build, build.Prepares world.host job.func) :
    (∀ schedule, (Job.pool world jobs).Climbs (jobs.map Job.func) schedule →
      ∀ store function slot,
        world.counters.read (.owned store function (.taken slot)) ≤
            world.counters.read (.owned store function (.total slot)) →
          (Job.interleaved world jobs schedule).world.counters.read
              (.owned store function (.taken slot)) ≤
            (Job.interleaved world jobs schedule).world.counters.read
              (.owned store function (.total slot))) ∧
      ∃ (result : Job → Except Error (Option Int64)) (after : Counter → UInt64),
        (∀ schedule, (Job.interleaved world jobs schedule).HasEnded →
          (∀ outcome, .ended outcome ∈ (Job.interleaved world jobs schedule).strands →
            Machine.Finishes outcome) →
          (Job.interleaved world jobs schedule).strands =
              jobs.map (fun job => .ended (result job)) ∧
            (Job.interleaved world jobs schedule).world.counters.read = after) ∧
        ∀ order, order.Perm jobs →
          (∀ outcome ∈ (Job.inTurn world order).1, Machine.Finishes outcome) →
          (Job.inTurn world order).1 = order.map result ∧
            (Job.inTurn world order).2.counters.read = after := by
  constructor
  · intro schedule climbs store function slot bound
    have ofSlot : Counter.OfSlot (.owned store function (.total slot))
        (.owned store function (.taken slot)) := .slot store function slot
    have pairs : ∀ g ∈ jobs.map Job.func, g.Pairs (.owned store function (.total slot))
        (.owned store function (.taken slot)) := by
      intro g mem
      obtain ⟨job, listed, rfl⟩ := List.mem_map.mp mem
      obtain ⟨build, prepares⟩ := prepared job listed
      exact prepares.pairs ofSlot
    refine Pool.part_le_total pairs ofSlot.differ ?_ bound climbs
    intro strand mem
    obtain ⟨job, listed, rfl⟩ := List.mem_map.mp mem
    exact Strand.owes_start (pairs job.func (List.mem_map_of_mem listed)) job.limit job.args
  · refine Job.same_in_any_order (Host.serves_self functional) fun job mem => ?_
    obtain ⟨build, prepares⟩ := prepared job mem
    exact prepares.yields functional job.limit job.args

theorem interleaved_runs_lose_nothing_choose :
    ∃ pool, Job.interleaved Sample.world Sample.jobs Sample.alternating = pool ∧
      pool.world.counters.read (.owned "profiles" "choose" (.taken 0)) ≤
        pool.world.counters.read (.owned "profiles" "choose" (.total 0)) ∧
      pool.strands.reverse = (Job.inTurn Sample.world Sample.jobs.reverse).1.map .ended ∧
      pool.world.counters.read =
        (Job.inTurn Sample.world Sample.jobs.reverse).2.counters.read := by
  obtain ⟨bound, result, after, together, inTurn⟩ :=
    interleaved_runs_lose_nothing Sample.functional_world Sample.prepared_jobs
  obtain ⟨finishes, finishes'⟩ := Sample.finishes_jobs
  obtain ⟨strands_eq, reads⟩ := together Sample.alternating Sample.hasEnded_jobs finishes
  obtain ⟨results_eq, reads'⟩ := inTurn _ (List.reverse_perm _) finishes'
  have begins (measure : Measure) :
      Sample.world.counters.read (.owned "profiles" "choose" measure) = 0 :=
    Counters.read_zero _
  refine ⟨_, rfl, bound Sample.alternating Sample.climbs_jobs "profiles" "choose" 0 ?_, ?_, ?_⟩
  · rw [begins, begins]
    exact UInt64.le_refl _
  · rw [strands_eq, results_eq, List.map_map, List.map_reverse]
    rfl
  · rw [reads, reads']

end FlowProfile
