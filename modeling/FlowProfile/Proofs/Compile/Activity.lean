/-
# What a dump lists and what it leaves out

A dump has one row for each profile, whatever state the store is in.  The rows are in the
order of the bytes of the names, and a row has the populated slots of its profile in order.
Dumping changes nothing.

The rows of functions that were observed to do nothing can be left out.  Whether one was is
read off the counts alone: of calls, of requests at either stage, of decided branches.  The
sums need not be looked at, because in a store that has been filled by nothing but runs of
compiled functions, none of them cut off, no sum is there without its count.
-/

import FlowProfile.Proofs.Compile.Isolation
import FlowProfile.Proofs.Store.Report
import FlowProfile.Proofs.Text.Bytes
import FlowProfile.Proofs.Weave.Summing

namespace FlowProfile

/-- Whether an effect adds to a counter of a store. -/
def Effect.updates (store : String) : Effect → Bool
  | .addition (.owned other _ _) _ => other == store
  | .addition (.cell _) _ | .addition (.placed ..) _ | .call _ => false

namespace Session

/-- The report of a session as it is now. -/
def report (session : Session) : Report :=
  .ofStore session.store session.world.counters

/-- Some counter of the profile is not zero. -/
def Busy (session : Session) (function : String) (profile : Profile) : Prop :=
  ∃ measure, profile.hasCounter measure = true ∧
    session.world.counters.read (session.store.counter function measure) ≠ 0

/-- A session whose store began empty, the functions that were compiled in it so far, and the
number of times that one of its counters was added to.  A function that is compiled adds to
no counter of the store of its own accord, and the compilation may fail.  No run was cut off.
What happens elsewhere leaves the counters of the store alone. -/
inductive Lived (name : String) : Session → List Func → Nat → Prop
  | empty {world : World}
      (zero : ∀ counter : Counter, counter.InStore name → world.counters.read counter = 0) :
      Lived name ⟨.empty name, world⟩ [] 0
  | compile {session session' : Session} {code : List Func} {updates : Nat} {pipeline : Pipeline}
      {lowering : Option Lowering} {f : Func} {compilation : Compilation}
      (lived : Lived name session code updates)
      (shipped : pipeline.optimizer = .ofLowering lowering)
      (foreign : ∀ counter ∈ f.counters, ¬ counter.InStore name)
      (compiled : session.perform (.compile pipeline f) = (session', .compiled compilation)) :
      Lived name session' (compilation.func :: code) updates
  | run {session : Session} {code : List Func} {updates limit : Nat} {g : Func} {args : List Int64}
      (lived : Lived name session code updates) (mem : g ∈ code)
      (ended : (Machine.run g limit args session.world).1 ≠ .error (.stepLimitExceeded limit)) :
      Lived name (session.next (.run g limit args)) code
        (updates + (Machine.effects g limit args session.world).countP (Effect.updates name))
  | elsewhere {session : Session} {code : List Func} {updates : Nat} {world : World}
      (lived : Lived name session code updates)
      (same : ∀ counter : Counter, counter.InStore name →
        world.counters.read counter = session.world.counters.read counter) :
      Lived name { session with world } code updates

end Session

/-- The rows of a report are those of the profiles of a store, one for each and in the order
of the bytes of the names, with the populated slots in order. -/
structure Report.Lists (report : Report) (session : Session) : Prop where
  ordered : report.Pairwise fun row later => Text.bytes row.name < Text.bytes later.name
  one : ∀ function, (session.store.profile? function).isSome = true →
    ∃! row, row ∈ report ∧ row.name = function
  known : ∀ row ∈ report, ∃ profile, session.store.profile? row.name = some profile ∧
    row = .capture session.store session.world.counters row.name profile
  slots : ∀ row ∈ report, ∀ profile, session.store.profile? row.name = some profile →
    ∃ slots : List Nat, slots.Pairwise (· < ·) ∧
      (∀ slot, slot ∈ slots ↔ profile.slots.has slot = true) ∧
      row.branches.map BranchCount.slot = slots.map Nat.toUInt64

/-! ## What a dump lists -/

theorem Report.mem_ofStore {store : Store} {counters : Counters} {row : ReportRow} :
    row ∈ ofStore store counters ↔ ∃ profile, store.profile? row.name = some profile ∧
      row = .capture store counters row.name profile := by
  constructor
  · intro mem
    obtain ⟨⟨function, profile⟩, listed, rfl⟩ := List.mem_map.mp mem
    exact ⟨profile, Table.get?_eq_some_iff.mpr listed, rfl⟩
  · rintro ⟨profile, known, same⟩
    exact List.mem_map.mpr ⟨(row.name, profile), Table.get?_eq_some_iff.mp known, same.symm⟩

theorem Report.pairwise_ofStore (store : Store) (counters : Counters) :
    (ofStore store counters).Pairwise fun row later =>
      Text.bytes row.name < Text.bytes later.name := by
  rw [ofStore, List.pairwise_map]
  exact store.profiles.sorted.imp Text.bytes_lt

theorem Session.lists_report (session : Session) : session.report.Lists session where
  ordered := Report.pairwise_ofStore ..
  one function known := by
    obtain ⟨profile, known⟩ := Option.isSome_iff_exists.mp known
    refine ⟨.capture session.store session.world.counters function profile,
      ⟨Report.mem_ofStore.mpr ⟨profile, known, rfl⟩, rfl⟩, ?_⟩
    rintro row ⟨mem, rfl⟩
    obtain ⟨profile', known', same⟩ := Report.mem_ofStore.mp mem
    obtain rfl : profile = profile' := Option.some.inj (known.symm.trans known')
    exact same
  known row mem := Report.mem_ofStore.mp mem
  slots row mem profile known := by
    obtain ⟨profile', known', same⟩ := Report.mem_ofStore.mp mem
    obtain rfl : profile = profile' := Option.some.inj (known.symm.trans known')
    refine ⟨profile.slots.populatedIndices, profile.slots.populatedIndices_sorted,
      fun slot => Slots.mem_populatedIndices, ?_⟩
    rw [same, ReportRow.capture, List.map_map]
    rfl

/-- Dumps leave a session as it is. -/
theorem Session.serve_dumps (session : Session) {requests : List Request}
    (dumps : ∀ request ∈ requests, ∃ active, request = .dump active) :
    session.serve requests = session := by
  induction requests with
  | nil => rfl
  | cons request rest ih =>
      obtain ⟨active, rfl⟩ := dumps request List.mem_cons_self
      rw [serve_cons]
      exact ih fun other mem => dumps other (List.mem_cons_of_mem _ mem)

/-! ## What a dump leaves out -/

/-- What a row tells of its counters. -/
theorem ReportRow.hasCounts_capture_iff {store : Store} {counters : Counters} {function : String}
    {profile : Profile} :
    (capture store counters function profile).hasCounts = true ↔
      counters.read (store.counter function .calls) ≠ 0 ∨
        (∃ stage, counters.read (store.counter function (.count stage)) ≠ 0) ∨
        ∃ slot, profile.slots.has slot = true ∧
          counters.read (store.counter function (.total slot)) ≠ 0 := by
  have allocs : (capture store counters function profile).allocs.isSome = true ↔
      ∃ stage, counters.read (store.counter function (.count stage)) ≠ 0 := by
    simp only [capture, Option.isSome_ite]
    constructor
    · rintro (counted | counted)
      · exact ⟨.before, counted⟩
      · exact ⟨.after, counted⟩
    · rintro ⟨stage, counted⟩
      cases stage with
      | before => exact .inl counted
      | after => exact .inr counted
  have branches : ((capture store counters function profile).branches.any
      fun branch => branch.total != 0) = true ↔ ∃ slot, profile.slots.has slot = true ∧
        counters.read (store.counter function (.total slot)) ≠ 0 := by
    simp only [capture, List.any_map, List.any_eq_true, Slots.mem_populatedIndices,
      Function.comp_apply, bne_iff_ne]
  rw [hasCounts, Bool.or_eq_true, Bool.or_eq_true, allocs, branches, bne_iff_ne, or_assoc]
  rfl

/-- If no sum is there without its count, the counts tell of all counters. -/
theorem Session.hasCounts_iff_busy {session : Session} {function : String} {profile : Profile}
    (complete : ∀ count sum, Counter.Counts session.store.name count sum →
      session.world.counters.read sum ≠ 0 → session.world.counters.read count ≠ 0) :
    (ReportRow.capture session.store session.world.counters function profile).hasCounts = true ↔
      session.Busy function profile := by
  rw [ReportRow.hasCounts_capture_iff]
  constructor
  · rintro (called | ⟨stage, requested⟩ | ⟨slot, populated, decided⟩)
    · exact ⟨.calls, rfl, called⟩
    · exact ⟨.count stage, rfl, requested⟩
    · exact ⟨.total slot, populated, decided⟩
  · rintro ⟨measure, has, busy⟩
    cases measure with
    | calls => exact .inl busy
    | size stage => exact .inr (.inl ⟨stage, complete _ _ (.volume function stage) busy⟩)
    | count stage => exact .inr (.inl ⟨stage, busy⟩)
    | taken slot => exact .inr (.inr ⟨slot, has, complete _ _ (.slot function slot) busy⟩)
    | total slot => exact .inr (.inr ⟨slot, has, busy⟩)

theorem Effect.updates_of_addsTo {store : String} {counter : Counter} {effect : Effect}
    (within : counter.InStore store) (adds : effect.addsTo counter = true) :
    effect.updates store = true := by
  obtain ⟨function, measure, rfl⟩ := within
  cases effect with
  | call made => cases adds
  | addition other amount =>
      obtain rfl := eq_of_beq adds
      exact beq_self_eq_true store

namespace Session.Lived

variable {name : String} {session : Session} {code : List Func} {updates : Nat}
  {count sum : Counter}

theorem name_eq (lived : session.Lived name code updates) : session.store.name = name := by
  induction lived with
  | empty => rfl
  | compile lived shipped foreign compiled ih =>
      exact (others_of_compile (compile_of_perform compiled).1).1.trans ih
  | run lived mem ended ih => exact ih
  | elsewhere lived same ih => exact ih

/-- What was compiled keeps count of what it sums up. -/
theorem counted (lived : session.Lived name code updates) (counts : Counter.Counts name count sum) :
    ∀ g ∈ code, g.Blockwise (Instr.Counted count sum) := by
  induction lived with
  | empty => exact nofun
  | compile lived shipped foreign compiled ih =>
      rw [List.forall_mem_cons]
      exact ⟨Pipeline.counted_compile shipped counts foreign (compile_of_perform compiled).1, ih⟩
  | run lived mem ended ih => exact ih
  | elsewhere lived same ih => exact ih

/-- The counts tell how often was counted, which is not more often than counters were added
to, and without it nothing was summed up. -/
theorem tells (lived : session.Lived name code updates) (counts : Counter.Counts name count sum) :
    ∃ times ≤ updates, session.world.counters.Tells count sum times := by
  obtain ⟨countWithin, sumWithin⟩ := counts.inStore
  induction lived with
  | empty zero => exact ⟨0, Nat.le_refl 0, zero count countWithin, fun _ => zero sum sumWithin⟩
  | compile lived shipped foreign compiled ih =>
      rw [(compile_of_perform compiled).2]
      exact ih
  | @run session code updates limit g args lived mem ended ih =>
      obtain ⟨times, le, tells⟩ := ih
      refine ⟨_, Nat.add_le_add le ?_, tells.run (lived.counted counts g mem) counts.differ ended⟩
      exact List.countP_mono_left fun effect _ => Effect.updates_of_addsTo countWithin
  | elsewhere lived same ih =>
      obtain ⟨times, le, tells⟩ := ih
      refine ⟨times, le, ?_, fun none => ?_⟩
      · rw [same count countWithin]
        exact tells.count_eq
      · rw [same sum sumWithin]
        exact tells.idle none

/-- No sum is there without its count, if the store was not added to too often. -/
theorem complete (lived : session.Lived name code updates) (few : updates < UInt64.size)
    (counts : Counter.Counts name count sum) (summed : session.world.counters.read sum ≠ 0) :
    session.world.counters.read count ≠ 0 := by
  obtain ⟨times, le, tells⟩ := lived.tells counts
  exact tells.count_ne_zero (Nat.lt_of_le_of_lt le few) summed

end Session.Lived

/-- In every state the text of a dump is read back as the report, which has a row for each
profile and no other.  Dumps leave the session as it is, so they agree however often they are
made.  In a store that has only seen compilations and runs that were not cut off, the text of
the dump of active functions is read back as the rows of exactly those profiles that have a
counter that is not zero, in the same order. -/
theorem Session.dump_drops_only_idle :
    (∀ session : Session, session.report.Lists session ∧
      (∃ text, session.perform (.dump false) = (session, .text text) ∧
        Report.ofText text = .ok session.report) ∧
      ∀ requests : List Request, (∀ request ∈ requests, ∃ active, request = .dump active) →
        session.serve requests = session ∧ ∀ active,
          ((session.serve requests).perform (.dump active)).2 =
            (session.perform (.dump active)).2) ∧
    ∀ name session code updates, Session.Lived name session code updates → updates < UInt64.size →
      ∃ (text : String) (rows : Report), session.perform (.dump true) = (session, .text text) ∧
        Report.ofText text = .ok rows ∧
        rows.Sublist session.report ∧
        ∀ row ∈ session.report, row ∈ rows ↔
          ∃ profile, session.store.profile? row.name = some profile ∧
            session.Busy row.name profile := by
  refine ⟨fun session => ⟨session.lists_report,
    ⟨_, rfl, session.report.ofText_dump⟩, fun requests dumps => ?_⟩, ?_⟩
  · rw [session.serve_dumps dumps]
    exact ⟨rfl, fun active => rfl⟩
  · intro name session code updates lived few
    refine ⟨_, session.report.active, rfl, Report.ofText_dump _, List.filter_sublist,
      fun row mem => ?_⟩
    obtain ⟨profile, known, same⟩ := session.lists_report.known row mem
    have busy : row.hasCounts = true ↔ session.Busy row.name profile := by
      rw [same]
      apply Session.hasCounts_iff_busy
      intro count sum counts
      exact lived.complete few (lived.name_eq ▸ counts)
    rw [Report.active, List.mem_filter, and_iff_right mem, busy]
    constructor
    · exact fun busy => ⟨profile, known, busy⟩
    · rintro ⟨profile', known', busy⟩
      obtain rfl : profile = profile' := Option.some.inj (known.symm.trans known')
      exact busy

namespace Sample

/-- The same function under another name. -/
def idle : Func :=
  { choose branching with name := "idle" }

/-- What the function becomes where branches are counted. -/
def watched : Func :=
  (pipeline.compile .zero (some (.empty "profiles")) (choose branching)).2.func

/-- A session in which both functions were compiled. -/
def stocked : Session :=
  (Session.blank.next (.compile pipeline (choose branching))).next (.compile pipeline idle)

/-- The session after a run of the first one. -/
def used : Session :=
  stocked.next (.run watched 64 [1])

theorem counters_watched : watched.counters =
    [.owned "profiles" "choose" (.total 0), .owned "profiles" "choose" (.taken 0)] := by
  decide +kernel

theorem lived_used : ∃ code updates, used.Lived "profiles" code updates ∧ updates < UInt64.size := by
  have compiled (session : Session) (f : Func) : ∃ compilation,
      session.perform (.compile pipeline f) =
        (session.next (.compile pipeline f), .compiled compilation) := ⟨_, rfl⟩
  have foreign : ∀ counter ∈ (choose branching).counters, ¬ counter.InStore "profiles" := nofun
  have zero : ∀ counter : Counter, counter.InStore "profiles" →
      Sample.world.counters.read counter = 0 := fun counter _ => Counters.read_zero counter
  have first : (Session.blank.next (.compile pipeline (choose branching))).Lived "profiles"
      [watched] 0 :=
    .compile (.empty zero) shipped_pipeline foreign rfl
  obtain ⟨compilation, both⟩ :=
    compiled (Session.blank.next (.compile pipeline (choose branching))) idle
  have second : stocked.Lived "profiles" [compilation.func, watched] 0 :=
    .compile (f := idle) first shipped_pipeline foreign both
  have ends : (Machine.run watched 64 [1] stocked.world).1.isOk = true := by decide +kernel
  have few : (Machine.effects watched 64 [1] stocked.world).countP
      (Effect.updates "profiles") = 2 := by
    decide +kernel
  refine ⟨_, _, .run second (List.mem_cons_of_mem _ List.mem_cons_self) ?_, ?_⟩
  · intro cut
    rw [cut] at ends
    cases ends
  · rw [few]
    decide

/-- The run has added one to the total of a slot. -/
theorem busy_choose (profile : Profile) (known : used.store.profile? "choose" = some profile) :
    used.Busy "choose" profile := by
  have has : (used.store.profile? "choose").map (·.hasCounter (.total 0)) = some true := by
    decide +kernel
  have added : Effect.total (.owned "profiles" "choose" (.total 0))
      (Machine.effects watched 64 [1] stocked.world) = 1 := by
    decide +kernel
  refine ⟨.total 0, ?_, ?_⟩
  · rw [known] at has
    exact Option.some.inj has
  · show (Machine.run watched 64 [1] stocked.world).2.counters.read
      (.owned "profiles" "choose" (.total 0)) ≠ 0
    rw [Machine.world_run, World.read_foldl, added]
    show Counters.zero.read _ + 1 ≠ 0
    rw [Counters.read_zero]
    decide

/-- The code adds to nothing of the other function. -/
theorem idle_idle (profile : Profile) : ¬ used.Busy "idle" profile := by
  rintro ⟨measure, -, busy⟩
  apply busy
  have own : watched.CountsOnly (· ≠ .owned "profiles" "idle" measure) := by
    rw [Func.CountsOnly, counters_watched]
    simp
  show (Machine.run watched 64 [1] stocked.world).2.counters.read
    (.owned "profiles" "idle" measure) = 0
  rw [Machine.read_run own (fun apart => apart rfl)]
  exact Counters.read_zero _

end Sample

/-- Both functions are in the dump, and the one that has run is in the dump of active ones. -/
theorem Session.dump_drops_only_idle_choose :
    Sample.used.report.map ReportRow.name = ["choose", "idle"] ∧
      ∃ (text : String) (rows : Report),
        Sample.used.perform (.dump true) = (Sample.used, .text text) ∧
          Report.ofText text = .ok rows ∧ rows.map ReportRow.name = ["choose"] := by
  have names : Sample.used.report.map ReportRow.name = ["choose", "idle"] := by
    rw [report, Report.ofStore, List.map_map]
    show Sample.used.store.profiles.names = _
    decide +kernel
  obtain ⟨code, updates, lived, few⟩ := Sample.lived_used
  obtain ⟨text, rows, dumped, read, sub, active⟩ :=
    dump_drops_only_idle.2 "profiles" _ code updates lived few
  refine ⟨names, text, rows, dumped, read, ?_⟩
  have kept : (rows.map ReportRow.name).Sublist ["choose", "idle"] := names ▸ sub.map _
  have listed : "choose" ∈ rows.map ReportRow.name := by
    have mem : "choose" ∈ Sample.used.report.map ReportRow.name := by
      rw [names]
      exact List.mem_cons_self
    obtain ⟨row, mem, same⟩ := List.mem_map.mp mem
    obtain ⟨profile, known, -⟩ := Sample.used.lists_report.known row mem
    refine List.mem_map.mpr ⟨row, (active row mem).mpr ⟨profile, known, ?_⟩, same⟩
    rw [same] at known ⊢
    exact Sample.busy_choose profile known
  have omitted : "idle" ∉ rows.map ReportRow.name := by
    intro mem
    obtain ⟨row, mem, same⟩ := List.mem_map.mp mem
    obtain ⟨profile, -, busy⟩ := (active row (sub.subset mem)).mp mem
    exact Sample.idle_idle profile (same ▸ busy)
  rcases List.sublist_cons_iff.mp kept with later | ⟨rest, same, later⟩
  · exact absurd (later.subset listed) (by decide)
  · rw [same] at omitted ⊢
    rcases List.sublist_singleton.mp later with rfl | rfl
    · rfl
    · exact absurd (by decide) omitted

end FlowProfile
