/-
# Counters do not mix

Whatever becomes of a function under compilation, no counter moves, and no profile changes
but that of the function's own name.  The code that comes out may add to counters of that
profile, and among them to those that the flags ask for.  So a run of it, however it is
started and however it ends, moves no other counter, those that the function itself adds to
apart.

Where nothing but calls is counted this can be said in numbers: every run that starts at all
and is allowed a single step is counted once, and nothing else is.  Where nothing is asked
for nothing is done.
-/

import FlowProfile.Proofs.Store.Provenance

namespace FlowProfile

/-- Only calls are counted. -/
def Flags.callsOnly : Flags :=
  ⟨false, false, true, false⟩

/-- A function that counts each of its calls at the very start, and nowhere else. -/
structure Func.CountsEntries (counter : Counter) (g : Func) : Prop where
  first : ∃ image previous rest, g.block? entry = some image ∧
    image.instrs = Probe.countCall counter previous :: rest ∧
    ∀ instr ∈ rest, instr.CountsOnly (· ≠ counter)
  inner : ∀ id block, id ≠ entry → g.block? id = some block →
    ∀ instr ∈ block.instrs, instr.CountsOnly (· ≠ counter)

/-! ## Other profiles -/

theorem Store.profile?_obtain_of_ne {store base : Store} {function other : String}
    {shape : Except Error Shape} {profile : Profile} {created : Bool} (apart : function ≠ other)
    (obtained : store.obtain function shape = .ok (base, profile, created)) :
    base.profile? other = store.profile? other := by
  rcases obtain_cases obtained with ⟨rfl, -, -⟩ | ⟨given, -, -, -, -, rfl⟩
  · rfl
  · exact profile?_put_of_ne apart profile

/-- The pass before the optimizer changes no profile but that of the function's name. -/
theorem Probe.Before.profile?_of_ne {settings : Settings} {counters : Counters}
    {store store' : Store} {f : Func} {outcome : Outcome} {other : String}
    (apart : f.name ≠ other) (ran : run settings counters store f = (store', outcome)) :
    store'.profile? other = store.profile? other := by
  cases ends_of_run ran with
  | misread => rfl
  | idle => rfl
  | shapeless => rfl
  | unconcerned read nonempty obtained => exact Store.profile?_obtain_of_ne apart obtained
  | refused read nonempty obtained => exact Store.profile?_obtain_of_ne apart obtained
  | changed read nonempty obtained =>
      exact (Store.profile?_put_of_ne apart _).trans (Store.profile?_obtain_of_ne apart obtained)

/-! ## Counting calls alone -/

theorem Func.WellFormed.ne_entry_of_leadsTo {g : Func} (sound : g.WellFormed) {id : BlockId}
    (leads : g.LeadsTo id) : id ≠ entry := by
  obtain ⟨source, block, found, edge, way, rfl⟩ := leads
  obtain ⟨target, -, inner, -⟩ := sound.leadsOn source block found edge way
  exact inner

theorem Probe.countsEntries_calls {counters : Counters} {store : Store} {f : Func}
    (nonempty : f.blocks.isEmpty = false)
    (foreign : f.CountsOnly (· ≠ store.counter f.name .calls)) (reporter : Option Reporter) :
    (calls store counters reporter f).func.CountsEntries (store.counter f.name .calls) := by
  have own := Func.countsOnly_iff.mp foreign
  have silent {instr : Instr} (none : instr.counter? = none) :
      instr.CountsOnly (· ≠ store.counter f.name .calls) := Instr.countsOnly_of_counter? none
  obtain ⟨head, entered⟩ := Func.entry_of_nonempty nonempty
  cases reporter with
  | none =>
      have block? := block?_plainCalls store f
      have begun := block? Func.entry
      rw [if_pos rfl, entered, Option.map_some] at begun
      refine ⟨⟨_, f.nextValue, head.instrs, begun, rfl, own _ head entered⟩, ?_⟩
      intro id block inside found
      replace found : (plainCalls store f).func.block? id = some block := found
      rw [block?, if_neg (Ne.symm inside)] at found
      exact own id block found
  | some reporter =>
      have block? := block?_reportedCalls store f counters reporter entered
      have size : 0 < f.blocks.size := Func.lt_size_of_block? entered
      have outer : Func.entry ≠ f.blocks.size + 1 := (Nat.succ_ne_zero _).symm
      have inner : Func.entry ≠ f.blocks.size := Nat.ne_of_lt size
      have begun := block? Func.entry
      rw [if_neg outer, if_neg inner, if_pos rfl] at begun
      refine ⟨⟨_, f.nextValue, _, begun, rfl, ?_⟩, ?_⟩
      · intro instr mem
        simp only [List.mem_cons, List.not_mem_nil, or_false] at mem
        rcases mem with rfl | rfl <;> exact silent rfl
      · intro id block inside found instr mem
        replace found : (reportedCalls store counters reporter f).func.block? id = some block :=
          found
        rw [block?, if_neg inside] at found
        split at found
        · cases found
          rw [List.mem_singleton.mp mem]
          exact silent rfl
        · split at found
          · cases found
            exact own _ head entered instr mem
          · exact own id block found instr mem

/-- A compilation that is asked for nothing but the count of calls makes the function count
each of its calls at the start. -/
theorem Pipeline.countsEntries_of_compile {pipeline : Pipeline}
    (harmless : pipeline.optimizer.Harmless) {counters : Counters} {store : Store}
    {after : Option Store} {f woven : Func} {events : List Event} {report : CompileReport}
    (compiled : pipeline.compile counters (some store) f = (after, ⟨woven, events, .ok report⟩))
    (read : pipeline.settings.flagsOf f = .ok .callsOnly)
    (foreign : f.CountsOnly (· ≠ store.counter f.name .calls)) :
    woven.CountsEntries (store.counter f.name .calls) := by
  obtain ⟨_, _, preserved⟩ := report
  obtain ⟨g, h, _, _, _, first, second, third, -⟩ := stages_of_compile compiled
  obtain ⟨store', rfl, ran⟩ := before_of_some first
  obtain ⟨flags, base, profile, read', -, changed, leaves⟩ := Probe.Before.run_eq_ok ran
  obtain rfl : flags = .callsOnly := Except.ok.inj (read'.symm.trans read)
  obtain rfl : g = f := changed.trans (Probe.Before.change_of_unconcerned rfl)
  have name : h.name = g.name := by
    have kept := harmless.name_eq g
    rw [second] at kept
    exact kept
  have notes : h.notes = g.notes := by
    have kept := harmless.notes_eq g
    rw [second] at kept
    exact kept
  have counter_eq : store'.counter h.name .calls = store.counter g.name .calls := by
    rw [Store.counter, Store.counter, leaves.name_eq, name]
  have foreign' : h.CountsOnly (· ≠ store'.counter h.name .calls) := by
    have optimized := foreign.optimized harmless
    rw [second] at optimized
    rw [counter_eq]
    exact optimized
  have same {flags : Flags} (asked : pipeline.settings.flagsOf h = .ok flags) :
      flags = .callsOnly := by
    rw [Settings.flagsOf, Func.note?, notes, name] at asked
    exact Except.ok.inj (asked.symm.trans read)
  rw [← counter_eq]
  cases Probe.After.ends_of_run third with
  | unconcerned asked off =>
      obtain rfl := same asked
      cases off
  | unknown asked concerned unknown =>
      have known := leaves.profile_isSome rfl
      rw [← name, unknown] at known
      cases known
  | changed asked concerned known checked =>
      obtain rfl := same asked
      exact Probe.countsEntries_calls ((Probe.After.check_eq_ok_iff.mp checked).2.2 rfl) foreign' _

namespace Machine

variable {g : Func} {counter : Counter}

/-- The first step counts the call, whether or not there is room for the old count. -/
theorem read_step_countCall (values : Array (Option Int64)) (block : BlockId) (previous : ValueId)
    (rest : List Instr) (world : World) :
    (step g ⟨values, block, Probe.countCall counter previous :: rest⟩ world).world.counters.read
        counter = world.counters.read counter + 1 := by
  have added : (execute (Probe.countCall counter previous) ⟨values, block, rest⟩ world).2.counters.read
      counter = world.counters.read counter + 1 := Counters.read_add_self ..
  rw [step]
  split
  · next executed =>
      rw [executed] at added
      exact added
  · next executed =>
      rw [executed] at added
      exact added

/-- A run of a function that counts its calls at the start is counted once, however it
ends, if it starts and may take a step. -/
theorem read_run_of_countsEntries (counts : g.CountsEntries counter) (sound : g.WellFormed)
    {limit : Nat} (enough : 1 ≤ limit) {args : List Int64} {frame : Frame}
    (start : Frame.start g args = .ok frame) (world : World) :
    (run g limit args world).2.counters.read counter = world.counters.read counter + 1 := by
  obtain ⟨image, previous, rest, entered, instrs, later⟩ := counts.first
  have onward : g.GoesOnWith (· ≠ counter) := fun id block leads found =>
    counts.inner id block (sound.ne_entry_of_leadsTo leads) found
  obtain ⟨image', entered', begins⟩ := Frame.rest_of_start start
  obtain rfl : image = image' := Option.some.inj (entered.symm.trans entered')
  obtain ⟨values, block, code⟩ := frame
  obtain rfl : code = Probe.countCall counter previous :: rest := begins.trans instrs
  obtain ⟨budget, rfl⟩ := Nat.exists_eq_add_of_le' enough
  have counted : (step g ⟨values, block, Probe.countCall counter previous :: rest⟩
      world).world.counters.read counter = world.counters.read counter + 1 :=
    read_step_countCall values block previous rest world
  rw [run, start]
  show (resume g (budget + 1) (budget + 1) _ world).2.counters.read counter = _
  rw [resume]
  cases stepped : step g ⟨values, block, Probe.countCall counter previous :: rest⟩ world with
  | running next middle =>
      rw [stepped] at counted
      have here : next.CountsOnly (· ≠ counter) := by
        rw [Frame.CountsOnly, rest_of_step stepped]
        exact later
      exact (read_resume onward (fun apart => apart rfl) here (budget + 1) budget middle).trans
        counted
  | returned value middle =>
      rw [stepped] at counted
      exact counted
  | failed error middle =>
      rw [stepped] at counted
      exact counted

end Machine

/-! ## Sessions -/

/-- Nothing is asked for: by a note that sets no flag, or without a note by settings that
force nothing. -/
def Settings.AsksNothing (settings : Settings) (f : Func) : Prop :=
  (∃ note, f.note? flagsKey = some note ∧ Flags.ofNote f.name note = .ok .none) ∨
    f.note? flagsKey = none ∧ settings.forceAllocations = false ∧
      settings.forceBranches = false ∧ settings.forceCalls = false

theorem Settings.AsksNothing.flagsOf_eq {settings : Settings} {f : Func}
    (silent : settings.AsksNothing f) : settings.flagsOf f = .ok .none := by
  rw [flagsOf]
  rcases silent with ⟨note, found, read⟩ | ⟨absent, allocations, branches, calls⟩
  · rw [found]
    exact read
  · rw [absent]
    simp only [forced, allocations, branches, calls]
    rfl

namespace Session

/-- Runs of a function in a row, each with its budget and its arguments. -/
def runs (g : Func) (inputs : List (Nat × List Int64)) : List Request :=
  inputs.map fun input => .run g input.1 input.2

theorem store_serve_runs (session : Session) (g : Func) (inputs : List (Nat × List Int64)) :
    (session.serve (runs g inputs)).store = session.store := by
  induction inputs generalizing session with
  | nil => rfl
  | cons input rest ih => exact ih (session.next (.run g input.1 input.2))

/-- Runs in a row of a function that counts its calls at the start are counted one by one. -/
theorem read_serve_runs (session : Session) {g : Func} {counter : Counter}
    (counts : g.CountsEntries counter) (sound : g.WellFormed) {inputs : List (Nat × List Int64)}
    (starts : ∀ input ∈ inputs, 1 ≤ input.1 ∧ ∃ frame, Frame.start g input.2 = .ok frame) :
    (session.serve (runs g inputs)).world.counters.read counter =
      session.world.counters.read counter + inputs.length.toUInt64 := by
  induction inputs generalizing session with
  | nil => exact (UInt64.add_zero _).symm
  | cons input rest ih =>
      obtain ⟨enough, frame, start⟩ := starts input List.mem_cons_self
      have first : (session.next (.run g input.1 input.2)).world.counters.read counter =
          session.world.counters.read counter + 1 :=
        Machine.read_run_of_countsEntries counts sound enough start session.world
      have sum : (1 : UInt64) + rest.length.toUInt64 = (rest.length + 1).toUInt64 := by
        rw [UInt64.add_comm]
        exact (UInt64.ofNat_add rest.length 1).symm
      have others := ih (session.next (.run g input.1 input.2))
        fun other mem => starts other (List.mem_cons_of_mem _ mem)
      rw [runs, List.map_cons, serve_cons, List.length_cons, ← sum, ← UInt64.add_assoc, ← first]
      exact others

/-- Where nothing is asked for both passes leave the session and the function as they are. -/
theorem perform_of_asksNothing {settings : Settings} {f : Func}
    (silent : settings.AsksNothing f) (session : Session) :
    session.perform (.before settings f) = (session, .passed (.unchanged f [])) ∧
      session.perform (.after settings f) = (session, .passed (.unchanged f [])) := by
  have read := silent.flagsOf_eq
  constructor
  · rw [perform, Probe.Before.run, read]
    rfl
  · rw [perform, Probe.After.run, read]
    rfl

/-- The stages of a compilation in a session. -/
theorem compile_of_perform {session session' : Session} {pipeline : Pipeline} {f : Func}
    {compilation : Compilation}
    (compiled : session.perform (.compile pipeline f) = (session', .compiled compilation)) :
    pipeline.compile session.world.counters (some session.store) f =
        (some session'.store, compilation) ∧ session'.world = session.world := by
  obtain ⟨store', stored⟩ := compile_some pipeline session.world.counters session.store f
  rcases ran : pipeline.compile session.world.counters (some session.store) f with
    ⟨after, compilation'⟩
  rw [ran] at stored
  obtain rfl : after = some store' := stored
  rw [perform, ran] at compiled
  obtain ⟨rfl, same⟩ := Prod.mk.inj compiled
  obtain rfl := Answer.compiled.inj same
  exact ⟨rfl, rfl⟩

/-- A compilation leaves the store under its name, and changes no profile but that of the
function's name. -/
theorem others_of_compile {pipeline : Pipeline} {counters : Counters} {store store' : Store}
    {f : Func} {compilation : Compilation}
    (compiled : pipeline.compile counters (some store) f = (some store', compilation)) :
    store'.name = store.name ∧
      ∀ other, f.name ≠ other → store'.profile? other = store.profile? other := by
  rcases ran : Probe.Before.run pipeline.settings counters store f with ⟨stored, outcome⟩
  have first := congrArg Prod.fst compiled
  rw [Pipeline.store_of_compile, Pipeline.before] at first
  simp only [ran] at first
  obtain rfl := Option.some.inj first
  exact ⟨(Probe.Before.names_run ran).1, fun _ apart => Probe.Before.profile?_of_ne apart ran⟩

end Session

/-- Code compiled from a function may add to a counter: one that the function adds to itself
and that is not of the store, or one of its own profile that the flags ask for. -/
def Pipeline.Entitles (pipeline : Pipeline) (store : String) (f : Func) (counter : Counter) : Prop :=
  counter ∈ f.counters ∧ ¬ counter.InStore store ∨
    ∃ flags measure, pipeline.settings.flagsOf f = .ok flags ∧
      counter = .owned store f.name measure ∧ flags.Permits f measure

section

variable {pipeline : Pipeline} {lowering : Option Lowering} {session session' : Session}
  {f woven : Func} {compilation : Compilation}

theorem Pipeline.entitles_of_compile (harmless : pipeline.optimizer.Harmless)
    (foreign : ∀ counter ∈ f.counters, ¬ counter.InStore session.store.name)
    (compiled : session.perform (.compile pipeline f) = (session', .compiled compilation)) :
    compilation.func.CountsOnly (pipeline.Entitles session.store.name f) := by
  obtain ⟨ran, -⟩ := Session.compile_of_perform compiled
  refine (Pipeline.countsOnly_compile harmless ran ?_ ?_).1
  · exact fun counter mem => .inl ⟨mem, foreign counter mem⟩
  · exact fun flags read measure permits => .inr ⟨flags, measure, read, rfl, permits⟩

/-- Counting calls alone counts each run once, and nothing else. -/
theorem Pipeline.counts_of_callsOnly
    (shipped : pipeline.optimizer = .ofLowering lowering) (sound : f.WellFormed)
    (foreign : ∀ counter ∈ f.counters, ¬ counter.InStore session.store.name)
    {events : List Event} {report : CompileReport}
    (compiled : session.perform (.compile pipeline f) =
      (session', .compiled ⟨woven, events, .ok report⟩))
    (read : pipeline.settings.flagsOf f = .ok .callsOnly)
    (unknown : session.store.profile? f.name = none)
    (fresh : ∀ measure,
      session.world.counters.read (.owned session.store.name f.name measure) = 0)
    {inputs : List (Nat × List Int64)} (few : inputs.length < UInt64.size)
    (accepted : ∀ input ∈ inputs, 1 ≤ input.1 ∧ input.2.length = f.params.length) :
    ∃ profile, (session'.serve (Session.runs woven inputs)).store.profile? f.name =
        some profile ∧ profile.slots.size = 0 ∧
      ((session'.serve (Session.runs woven inputs)).world.counters.read
        (.owned session.store.name f.name .calls)).toNat = inputs.length ∧
      ∀ measure ≠ .calls, (session'.serve (Session.runs woven inputs)).world.counters.read
        (.owned session.store.name f.name measure) = 0 := by
  have harmless : pipeline.optimizer.Harmless := shipped ▸ Optimizer.harmless_ofLowering lowering
  obtain ⟨ran, idle⟩ := Session.compile_of_perform compiled
  obtain ⟨flags, reporter, stored, same, compiles⟩ :=
    Pipeline.compiles_of_compile shipped sound ran
  obtain rfl : session'.store = stored := Option.some.inj same
  obtain rfl : flags = .callsOnly := Except.ok.inj (compiles.flags_eq.symm.trans read)
  obtain ⟨next, isWoven⟩ := compiles.isWoven
  have counts : woven.CountsEntries (.owned session.store.name f.name .calls) := by
    refine Pipeline.countsEntries_of_compile harmless ran read fun counter mem same => ?_
    exact foreign counter mem ⟨f.name, .calls, same⟩
  have starts : ∀ input ∈ inputs,
      1 ≤ input.1 ∧ ∃ frame, Frame.start woven input.2 = .ok frame := by
    intro input mem
    obtain ⟨enough, arity⟩ := accepted input mem
    obtain ⟨_, _, _, _, _, _, _, start, _, _⟩ := isWoven.starts sound arity
    exact ⟨enough, _, start⟩
  obtain ⟨profile, known⟩ := Option.isSome_iff_exists.mp (compiles.leaves.profile_isSome rfl)
  have slots := compiles.leaves.slots_eq
  rw [Store.slotsOf_of_known known, Store.slotsOf_of_unknown unknown] at slots
  refine ⟨profile, ?_, by rw [slots]; rfl, ?_, ?_⟩
  · rw [Session.store_serve_runs]
    exact known
  · rw [session'.read_serve_runs counts compiles.verified starts, idle, fresh, UInt64.zero_add]
    exact UInt64.toNat_ofNat_of_lt few
  · intro measure other
    rw [Session.read_serve, idle, fresh]
    rintro ⟨earlier, request, later, split, touches⟩
    obtain ⟨input, -, rfl⟩ : ∃ input ∈ inputs, .run woven input.1 input.2 = request := by
      rw [← List.mem_map]
      show request ∈ Session.runs woven inputs
      rw [split]
      exact List.mem_append_right _ List.mem_cons_self
    rcases Pipeline.entitles_of_compile harmless foreign compiled _ touches with
      ⟨-, apart⟩ | ⟨flags, measure', read', same, permits⟩
    · exact apart ⟨f.name, measure, rfl⟩
    · obtain rfl := Except.ok.inj (read.symm.trans read')
      obtain rfl : measure = measure' := (Counter.owned.inj same).2.2
      cases measure with
      | calls => exact other rfl
      | size stage => cases permits
      | count stage => cases permits
      | taken slot => cases permits.1
      | total slot => cases permits.1

/-- In a session that has come about from an empty store the counts of a function without a
profile begin at zero, so that those of its calls are the numbers of its runs. -/
theorem Session.Arises.counts_of_callsOnly {code : List Func} (arises : Arises session code)
    (shipped : pipeline.optimizer = .ofLowering lowering) (sound : f.WellFormed)
    (foreign : ∀ counter ∈ f.counters, ¬ counter.InStore session.store.name)
    {events : List Event} {report : CompileReport}
    (compiled : session.perform (.compile pipeline f) =
      (session', .compiled ⟨woven, events, .ok report⟩))
    (read : pipeline.settings.flagsOf f = .ok .callsOnly)
    (unknown : session.store.profile? f.name = none)
    {inputs : List (Nat × List Int64)} (few : inputs.length < UInt64.size)
    (accepted : ∀ input ∈ inputs, 1 ≤ input.1 ∧ input.2.length = f.params.length) :
    ((session'.serve (runs woven inputs)).world.counters.read
      (.owned session.store.name f.name .calls)).toNat = inputs.length := by
  obtain ⟨-, -, -, counted, -⟩ := Pipeline.counts_of_callsOnly shipped sound foreign compiled read
    unknown (arises.unused unknown) few accepted
  exact counted

/-- Compiling a function that adds to no counter of the store moves no counter and changes no
other profile, whether it succeeds or not.  A run of what it leaves moves no counters but
those that the function adds to itself and those of its own profile that the flags ask for.
Where they ask for calls alone the runs are counted one by one and nothing else is, and
where they ask for nothing both passes do nothing. -/
theorem counters_isolated (shipped : pipeline.optimizer = .ofLowering lowering)
    (verified : f.verify = .ok ())
    (foreign : ∀ counter ∈ f.counters, ¬ counter.InStore session.store.name)
    (compiled : session.perform (.compile pipeline f) = (session', .compiled compilation)) :
    (session'.world = session.world ∧
        ∀ other ≠ f.name, session'.store.profile? other = session.store.profile? other) ∧
      (∀ (later : Session) (limit : Nat) (args : List Int64),
        (later.next (.run compilation.func limit args)).store = later.store ∧
          ∀ counter, (later.next (.run compilation.func limit args)).world.counters.read counter ≠
              later.world.counters.read counter →
            pipeline.Entitles session.store.name f counter) ∧
      (compilation.result.isOk = true → pipeline.settings.flagsOf f = .ok .callsOnly →
        session.store.profile? f.name = none →
        (∀ measure,
          session.world.counters.read (.owned session.store.name f.name measure) = 0) →
        ∀ inputs : List (Nat × List Int64), inputs.length < UInt64.size →
          (∀ input ∈ inputs, 1 ≤ input.1 ∧ input.2.length = f.params.length) →
          ∃ later profile, session'.serve (Session.runs compilation.func inputs) = later ∧
            later.store.profile? f.name = some profile ∧ profile.slots.size = 0 ∧
            (later.world.counters.read (.owned session.store.name f.name .calls)).toNat =
              inputs.length ∧
            ∀ measure ≠ .calls,
              later.world.counters.read (.owned session.store.name f.name measure) = 0) ∧
      (pipeline.settings.AsksNothing f → ∀ session : Session,
        session.perform (.before pipeline.settings f) = (session, .passed (.unchanged f [])) ∧
          session.perform (.after pipeline.settings f) =
            (session, .passed (.unchanged f []))) := by
  have harmless : pipeline.optimizer.Harmless := shipped ▸ Optimizer.harmless_ofLowering lowering
  obtain ⟨ran, idle⟩ := Session.compile_of_perform compiled
  refine ⟨⟨idle, fun other apart => (Session.others_of_compile ran).2 other apart.symm⟩, ?_, ?_,
    fun silent session => session.perform_of_asksNothing silent⟩
  · intro later limit args
    refine ⟨rfl, fun counter changed => ?_⟩
    by_contra foreign'
    exact changed (Machine.read_run (Pipeline.entitles_of_compile harmless foreign compiled)
      foreign' limit args later.world)
  · intro isOk read unknown fresh inputs few accepted
    obtain ⟨woven, events, result⟩ := compilation
    cases result with
    | error error => cases isOk
    | ok report =>
        obtain ⟨profile, counted⟩ := Pipeline.counts_of_callsOnly shipped
          (Func.verify_eq_ok_iff.mp verified) foreign compiled read unknown fresh few accepted
        exact ⟨_, profile, rfl, counted⟩

end

/-- A session that knows no functions yet. -/
def Session.blank : Session :=
  ⟨.empty "profiles", Sample.world⟩

theorem counters_isolated_choose :
    ∃ session' compilation later,
      Session.blank.perform (.compile Sample.pipeline (Sample.choose .callsOnly)) =
        (session', .compiled compilation) ∧
      session'.serve (Session.runs compilation.func [(1, [0]), (16, [1])]) = later ∧
      (later.world.counters.read (.owned "profiles" "choose" .calls)).toNat = 2 ∧
      later.world.counters.read (.owned "profiles" "choose" (.total 0)) = 0 := by
  have succeeds : (Sample.pipeline.compile .zero (some (.empty "profiles"))
      (Sample.choose .callsOnly)).2.result.isOk = true := by
    decide +kernel
  rcases compiled : Session.blank.perform (.compile Sample.pipeline (Sample.choose .callsOnly))
    with ⟨session', answer⟩
  obtain ⟨compilation, rfl⟩ : ∃ compilation, answer = .compiled compilation :=
    ⟨_, (congrArg Prod.snd compiled).symm⟩
  have isOk : compilation.result.isOk = true := by
    have same := congrArg Prod.snd (Session.compile_of_perform compiled).1
    exact (congrArg (·.result.isOk) same).symm.trans succeeds
  have zero (measure : Measure) :
      Session.blank.world.counters.read (.owned "profiles" "choose" measure) = 0 :=
    Counters.read_zero _
  have foreign : ∀ counter ∈ (Sample.choose .callsOnly).counters,
      ¬ counter.InStore Session.blank.store.name := nofun
  obtain ⟨-, -, calls, -⟩ := counters_isolated Sample.shipped_pipeline rfl foreign compiled
  obtain ⟨later, profile, served, -, -, counted, others⟩ := calls isOk rfl rfl zero
    [(1, [0]), (16, [1])] (by decide) (by decide)
  exact ⟨session', compilation, later, rfl, served, counted, others (.total 0) nofun⟩

end FlowProfile
