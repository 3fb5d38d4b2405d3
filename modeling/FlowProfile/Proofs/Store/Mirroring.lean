/-
# An office is a session told by names

Everything else that is proved of sessions knows the counters of a store by their names.
An office keeps them in cells that it hands out.  Here the two are the same: an office does
what a session does that is asked for the same things by names, its replies are the answers
of the session, and its reports are the session's, as long as code comes by cells of the
store only by having them handed out.

Code may add to other counters as it likes.  What it may not do is to guess at a place that
was not given out yet, or to add to a name of the store itself, for which an office has no
cell.
-/

import FlowProfile.Proofs.Run.Relocation
import FlowProfile.Proofs.Store.Lasting
import FlowProfile.Proofs.Store.Likeness

namespace FlowProfile

/-- A counter that code may add to: none of the registry's names, and no place of the
registry but one at which there is a cell. -/
def Registry.Allows (registry : Registry) : Counter → Prop
  | .cell _ => True
  | .owned store _ _ => store ≠ registry.name
  | .placed store place part => store = registry.name →
      ∃ function measure, registry.counter? function measure = some (.placed store place part)

namespace Request

/-- Exchange the counters of the function of a request, if it has one. -/
def relocate (move : Counter → Counter) : Request → Request
  | .before settings f => .before settings (f.relocate move)
  | .after settings f => .after settings (f.relocate move)
  | .compile pipeline f => .compile pipeline (f.relocate move)
  | .run f limit args => .run (f.relocate move) limit args
  | other => other

/-- A request whose function adds to counters that it may add to, and that asks for no
optimizer which looks at counters or adds to more of them. -/
def Fits (registry : Registry) : Request → Prop
  | .before _ f | .after _ f | .run f _ _ => f.CountsOnly registry.Allows
  | .compile pipeline f => f.CountsOnly registry.Allows ∧ pipeline.optimizer.Harmless ∧
      pipeline.optimizer.Blind
  | _ => True

end Request

/-- A reply told by names. -/
def Reply.named (registry : Registry) : Reply → Answer
  | .holding found created => .profile found.profile created
  | .cells taken total => .cells (registry.nameOf taken) (registry.nameOf total)
  | .populated slots => .slots (slots.map Prod.fst)
  | .plain (.passed outcome) => .passed (outcome.relocate registry.nameOf)
  | .plain (.compiled compilation) => .compiled (compilation.relocate registry.nameOf)
  | .plain answer => answer

/-- A session holds by names what an office holds in cells.  What has no cell yet, or no
name, is still at zero. -/
structure Office.Mirrors (office : Office) (session : Session) : Prop where
  sound : office.registry.Sound
  store_eq : session.store = office.registry.names
  world : office.world.Mirrors office.registry.Allows office.registry.nameOf session.world
  unissued : ∀ place part, office.registry.issued ≤ place →
    office.world.counters.read (.placed office.registry.name place part) = 0
  nameless : ∀ function measure,
    office.world.counters.read (.owned office.registry.name function measure) = 0
  unheld : ∀ function measure, office.registry.counter? function measure = none →
    session.world.counters.read (.owned office.registry.name function measure) = 0

/-- A session that is asked the same by names comes to where the office comes to, and its
answer is the reply of the office. -/
structure Office.Matches (office : Office) (session : Session) (request : Request) : Prop where
  mirrors : (office.next request).Mirrors
    (session.next (request.relocate office.registry.nameOf))
  answer_eq : (session.perform (request.relocate office.registry.nameOf)).2 =
    (office.perform request).2.named (office.next request).registry

/-! ## Cells and names -/

namespace Registry

variable {registry registry' : Registry} {function : String} {measure : Measure}
  {cell counter : Counter}

theorem allows_of_counter? (here : registry.counter? function measure = some cell) :
    registry.Allows cell := by
  obtain ⟨place, part, rfl⟩ := placed_of_counter? here
  exact fun _ => ⟨function, measure, here⟩

/-- A counter that code may add to is a cell of the registry, or it is no counter of it. -/
theorem allows_iff : registry.Allows counter ↔
    (∃ function measure, registry.counter? function measure = some counter) ∨
      (∀ function measure, counter ≠ .owned registry.name function measure) ∧
        ∀ place part, counter ≠ .placed registry.name place part := by
  constructor
  · intro allowed
    cases counter with
    | cell name => exact .inr ⟨nofun, nofun⟩
    | owned store function measure =>
        refine .inr ⟨?_, nofun⟩
        rintro function' measure' same
        exact allowed (Counter.owned.inj same).1
    | placed store place part =>
        by_cases own : store = registry.name
        · exact .inl (allowed own)
        · refine .inr ⟨nofun, ?_⟩
          rintro place' part' same
          exact own (Counter.placed.inj same).1
  · rintro (⟨function, measure, here⟩ | ⟨noName, noPlace⟩)
    · exact allows_of_counter? here
    · cases counter with
      | cell name => trivial
      | owned store function measure =>
          rintro rfl
          exact noName function measure rfl
      | placed store place part =>
          rintro rfl
          exact absurd rfl (noPlace place part)

/-- What is neither a name nor a place of the registry keeps its name. -/
theorem nameOf_of_not_placed (apart : ∀ place part, counter ≠ .placed registry.name place part) :
    registry.nameOf counter = counter := by
  refine nameOf_of_forall_ne fun function measure here => ?_
  obtain ⟨place, part, same⟩ := placed_of_counter? here
  exact apart place part same

theorem nameOf_owned (registry : Registry) (store function : String) (measure : Measure) :
    registry.nameOf (.owned store function measure) = .owned store function measure :=
  nameOf_of_not_placed nofun

/-- A name of the registry is the name of the cell alone for which it stands. -/
theorem Sound.nameOf_eq_owned (sound : registry.Sound) (allowed : registry.Allows counter)
    (named : registry.nameOf counter = .owned registry.name function measure) :
    registry.counter? function measure = some counter := by
  rcases allows_iff.mp allowed with ⟨function', measure', here⟩ | ⟨noName, noPlace⟩
  · rw [sound.nameOf_of_counter? here] at named
    obtain ⟨-, rfl, rfl⟩ := Counter.owned.inj named
    exact here
  · rw [nameOf_of_not_placed noPlace] at named
    exact absurd named (noName function measure)

/-- Different counters that code may add to have different names. -/
theorem Sound.keptApart (sound : registry.Sound) :
    Counter.KeptApart registry.Allows registry.nameOf := by
  intro counter other allowed allowed' same
  rcases allows_iff.mp allowed with ⟨function, measure, here⟩ | ⟨noName, noPlace⟩
  · rw [sound.nameOf_of_counter? here] at same
    have there := sound.nameOf_eq_owned allowed' same.symm
    rw [here] at there
    exact Option.some.inj there
  · rw [nameOf_of_not_placed noPlace] at same
    rcases allows_iff.mp allowed' with ⟨function, measure, there⟩ | ⟨-, noPlace'⟩
    · rw [sound.nameOf_of_counter? there] at same
      exact absurd same (noName function measure)
    · rw [nameOf_of_not_placed noPlace'] at same
      exact same

/-- Passes leave the names of a store alone, and so does telling cells by names. -/
theorem fixedBy_nameOf (registry : Registry) (store : Store) :
    store.FixedBy registry.nameOf :=
  fun _ _ => nameOf_owned ..

theorem not_allows_owned : ¬ registry.Allows (.owned registry.name function measure) :=
  fun own => own rfl

/-- Code may not add to what was not given out yet. -/
theorem Sound.not_allows (sound : registry.Sound) {place : Nat} {part : Part}
    (later : registry.issued ≤ place) : ¬ registry.Allows (.placed registry.name place part) := by
  intro allowed
  obtain ⟨function, measure, here⟩ := allowed rfl
  obtain ⟨-, placed, -⟩ := counter?_eq_some.mp here
  exact absurd (sound.lt_issued (function, measure.slot?) placed) (Nat.not_lt.mpr later)

/-- A counter that code may add to it may add to when more places were given out, and its
name is the same. -/
theorem Grows.allows (grows : registry.Grows registry') (sound : registry.Sound)
    (allowed : registry.Allows counter) :
    registry'.Allows counter ∧ registry'.nameOf counter = registry.nameOf counter := by
  rcases allows_iff.mp allowed with ⟨function, measure, here⟩ | ⟨noName, noPlace⟩
  · have there := grows.counter? here
    refine ⟨allows_of_counter? there, ?_⟩
    rw [sound.nameOf_of_counter? here, (grows.sound sound).nameOf_of_counter? there, grows.name_eq]
  · rw [← grows.name_eq] at noName noPlace
    exact ⟨allows_iff.mpr (.inr ⟨noName, noPlace⟩), by
      rw [nameOf_of_not_placed noPlace, nameOf_of_not_placed (grows.name_eq ▸ noPlace)]⟩

/-- A counter that code may add to only since more places were given out is at one of those. -/
theorem Grows.new_of_allows (grows : registry.Grows registry') (allowed : registry'.Allows counter)
    (new : ¬ registry.Allows counter) :
    ∃ function measure, registry.counter? function measure = none ∧
      registry'.counter? function measure = some counter ∧
      ∃ place part, registry.issued ≤ place ∧ counter = .placed registry.name place part := by
  rcases allows_iff.mp allowed with ⟨function, measure, here⟩ | apart
  · have unheld : registry.counter? function measure = none := by
      cases there : registry.counter? function measure with
      | none => rfl
      | some cell =>
          have same := Option.some.inj ((grows.counter? there).symm.trans here)
          exact absurd (allows_of_counter? (same ▸ there)) new
    obtain ⟨place, placed, rfl⟩ := Option.map_eq_some_iff.mp here
    refine ⟨function, measure, unheld, here, place, measure.part, ?_, by rw [grows.name_eq]⟩
    rcases grows.extends_places.fresh (function, measure.slot?) placed with old | later
    · rw [Registry.counter?, show registry.place? function measure.slot? = _ from old] at unheld
      cases unheld
    · exact later
  · rw [grows.name_eq] at apart
    exact absurd (allows_iff.mpr (.inr apart)) new

/-- What a pass does in cells is what it does by names, told by names afterwards. -/
theorem Wired.named_eq {f : Func} {named outcome : Outcome} {move : Counter → Counter}
    (wired : registry'.Wired f named outcome move) (grows : registry.Grows registry')
    (sound : registry.Sound) (allowed : f.CountsOnly registry.Allows) :
    outcome.relocate registry'.nameOf = named.relocate registry.nameOf := by
  have func : (named.func.relocate move).relocate registry'.nameOf =
      named.func.relocate registry.nameOf := by
    rw [Func.relocate_relocate]
    refine Func.relocate_congr fun counter mem => ?_
    rw [Function.comp_apply]
    rcases wired.reaches counter mem with mine | ⟨measure, rfl, here⟩
    · have here := allowed counter mine
      have alone : move counter = counter := by
        rcases wired.wires counter with same | ⟨measure, rfl, -⟩
        · exact same
        · exact absurd grows.name_eq here
      rw [alone]
      exact (grows.allows sound here).2
    · rw [(grows.sound sound).nameOf_of_counter? here, nameOf_owned]
  rw [wired.outcome_eq, Outcome.relocate, Outcome.relocate, Outcome.relocate, func]

/-- Code that a pass has left adds to counters that it may add to. -/
theorem Wired.allows {f : Func} {named outcome : Outcome} {move : Counter → Counter}
    (wired : registry'.Wired f named outcome move) (grows : registry.Grows registry')
    (sound : registry.Sound) (allowed : f.CountsOnly registry.Allows) :
    outcome.func.CountsOnly registry'.Allows := by
  intro counter mem
  rcases wired.countsOnly counter mem with mine | ⟨measure, here⟩
  · exact (grows.allows sound (allowed counter mine)).1
  · exact allows_of_counter? here

end Registry

/-! ## One request -/

namespace Office.Mirrors

variable {office : Office} {session : Session} {registry' : Registry}

/-- Under every name of the store there is the same for the session and for the office. -/
theorem read_name (mirrors : office.Mirrors session) (function : String) (measure : Measure) :
    session.world.counters.read (.owned office.registry.name function measure) =
      office.session.world.counters.read (.owned office.registry.name function measure) := by
  rw [Office.session, Registry.read_ledger]
  cases here : office.registry.counter? function measure with
  | none =>
      rw [mirrors.unheld function measure here, Registry.resolve_of_not_mem,
        mirrors.nameless]
      rw [Registry.mem_labels]
      rintro ⟨function', measure', same, present⟩
      obtain ⟨-, rfl, rfl⟩ := Counter.owned.inj same
      rw [here] at present
      cases present
  | some cell =>
      rw [Registry.resolve_of_counter? here, ← mirrors.sound.nameOf_of_counter? here]
      exact mirrors.world.read_eq cell (Registry.allows_of_counter? here)

/-- So passes see the same. -/
theorem alike (mirrors : office.Mirrors session) (function : String) :
    office.registry.names.Alike function (office.registry.ledger office.world.counters)
      office.registry.names session.world.counters :=
  ⟨rfl, rfl, mirrors.read_name function⟩

/-- Places that are given out are still at zero, and so are their names. -/
theorem grows (mirrors : office.Mirrors session) (grows : office.registry.Grows registry')
    {store : Store} (store_eq : store = registry'.names) :
    Office.Mirrors { office with registry := registry' } { session with store } where
  sound := grows.sound mirrors.sound
  store_eq := store_eq
  world :=
    { host_eq := mirrors.world.host_eq
      read_eq := by
        intro counter allowed
        by_cases old : office.registry.Allows counter
        · show session.world.counters.read (registry'.nameOf counter) = _
          rw [(grows.allows mirrors.sound old).2]
          exact mirrors.world.read_eq counter old
        · obtain ⟨function, measure, unheld, held, place, part, later, rfl⟩ :=
            grows.new_of_allows allowed old
          show session.world.counters.read (registry'.nameOf _) = office.world.counters.read _
          rw [(grows.sound mirrors.sound).nameOf_of_counter? held, grows.name_eq,
            mirrors.unheld function measure unheld, mirrors.unissued place part later] }
  unissued place part later := by
    show office.world.counters.read (.placed registry'.name place part) = 0
    rw [grows.name_eq]
    exact mirrors.unissued place part (Nat.le_trans grows.extends_places.issued_le later)
  nameless function measure := by
    show office.world.counters.read (.owned registry'.name function measure) = 0
    rw [grows.name_eq]
    exact mirrors.nameless function measure
  unheld function measure none := by
    show session.world.counters.read (.owned registry'.name function measure) = 0
    rw [grows.name_eq]
    refine mirrors.unheld function measure ?_
    cases here : office.registry.counter? function measure with
    | none => rfl
    | some cell =>
        have there := grows.counter? here
        rw [show registry'.counter? function measure = _ from none] at there
        cases there

theorem matches_of_perform {request : Request} {office' : Office} {session' : Session}
    {reply : Reply} {answer : Answer} (here : office.perform request = (office', reply))
    (there : session.perform (request.relocate office.registry.nameOf) = (session', answer))
    (mirrors : office'.Mirrors session') (same : answer = reply.named office'.registry) :
    office.Matches session request := by
  refine ⟨?_, ?_⟩
  · rw [Office.next, Session.next, here, there]
    exact mirrors
  · rw [Office.next, here, there]
    exact same

/-- The pair of counters at the place of a slot is told by the slot's names. -/
theorem named_pair (mirrors : office.Mirrors session) {function : String} {index place : Nat}
    (placed : office.registry.place? function (some index) = some place) :
    (office.pair place).named office.registry = session.cellsOf function index := by
  obtain ⟨taken, total, same, takenHere, totalHere⟩ := Office.tellsSlot_pair placed
  rw [same, Reply.named, mirrors.sound.nameOf_of_counter? takenHere,
    mirrors.sound.nameOf_of_counter? totalHere, Session.cellsOf, Store.counter, Store.counter,
    mirrors.store_eq]
  rfl

theorem matches_look (mirrors : office.Mirrors session) (function : String) :
    office.Matches session (.look function) := by
  refine matches_of_perform rfl rfl mirrors ?_
  rw [mirrors.store_eq, Registry.profile?_names]
  cases office.registry.holding? function <;> rfl

theorem matches_obtain (mirrors : office.Mirrors session) (function : String)
    (shape : Except Error Shape) : office.Matches session (.obtain function shape) := by
  have names := office.registry.obtain_names function shape
  rw [← mirrors.store_eq] at names
  cases obtained : office.registry.obtain function shape with
  | error error =>
      rw [obtained] at names
      refine matches_of_perform (by rw [Office.perform, obtained]) ?_ mirrors rfl
      show session.perform (.obtain function shape) = _
      rw [Session.perform, names]
      rfl
  | ok answer =>
      obtain ⟨registry', holding, created⟩ := answer
      rw [obtained] at names
      refine matches_of_perform (by rw [Office.perform, obtained]) ?_
        (mirrors.grows (Registry.grows_obtain obtained).1 rfl) rfl
      show session.perform (.obtain function shape) = _
      rw [Session.perform, names]
      rfl

theorem matches_slot (mirrors : office.Mirrors session) (function : String) (index : Nat) :
    office.Matches session (.slot function index) := by
  refine matches_of_perform rfl rfl mirrors ?_
  rw [mirrors.store_eq, Registry.has_names]
  cases placed : office.registry.place? function (some index) with
  | none => rfl
  | some place => exact (mirrors.named_pair placed).symm

theorem matches_populated (mirrors : office.Mirrors session) (function : String) :
    office.Matches session (.populated function) := by
  refine matches_of_perform rfl rfl mirrors ?_
  rw [mirrors.store_eq, Registry.profile?_names]
  cases office.registry.holding? function with
  | none => rfl
  | some holding => exact congrArg Answer.slots holding.populated_slots.symm

theorem matches_ensure (mirrors : office.Mirrors session) (function : String) (blocks : Nat) :
    office.Matches session (.ensure function blocks) := by
  let change (slots : Slots) : Slots × Answer :=
    (slots.ensure blocks, .fits ((slots.ensure blocks).size == blocks))
  have names := office.registry.profile?_names function
  rw [← mirrors.store_eq] at names
  cases known : office.registry.holding? function with
  | none =>
      rw [known] at names
      exact matches_of_perform (by rw [Office.perform, known])
        (Session.withSlots_of_unknown names change) mirrors rfl
  | some holding =>
      rw [known] at names
      have grown := office.grows_next (.ensure function blocks)
      rw [Office.next, Office.perform, known] at grown
      refine matches_of_perform (by rw [Office.perform, known])
        (Session.withSlots_of_known names change) (mirrors.grows grown ?_) ?_
      · rw [Registry.names_put, Holding.profile_ensure, mirrors.store_eq]
      · have size := (holding.ensure blocks).size_profile
        rw [Holding.profile_ensure] at size
        exact congrArg (fun size => Answer.fits (size == blocks)) size

theorem matches_insert (mirrors : office.Mirrors session) (function : String) (index : Nat) :
    office.Matches session (.insert function index) := by
  let change (slots : Slots) : Slots × Answer :=
    if index < slots.size then (slots.populate index, session.cellsOf function index)
    else (slots, .failed .outOfBounds)
  have names := office.registry.profile?_names function
  rw [← mirrors.store_eq] at names
  cases known : office.registry.holding? function with
  | none =>
      rw [known] at names
      exact matches_of_perform (by rw [Office.perform, known])
        (Session.withSlots_of_unknown names change) mirrors rfl
  | some holding =>
      rw [known] at names
      have there := Session.withSlots_of_known names change
      cases claimed : holding.claim office.registry.issued index with
      | error error =>
          obtain ⟨outside, rfl⟩ := Holding.outside_of_claim claimed
          have here : office.perform (.insert function index) =
              (office, .plain (.failed .outOfBounds)) := by
            rw [Office.perform, known]
            dsimp only
            rw [claimed]
          simp only [change, if_neg (Nat.not_lt.mpr outside), Store.put_eq_self names] at there
          exact matches_of_perform here there mirrors rfl
      | ok answer =>
          obtain ⟨holding', issued, place⟩ := answer
          obtain ⟨inside, same⟩ := Holding.profile_claim claimed
          have here : office.perform (.insert function index) =
              ({ office with registry := office.registry.put function holding' issued },
                office.pair place) := by
            rw [Office.perform, known]
            dsimp only
            rw [claimed]
          have grown := office.grows_next (.insert function index)
          rw [Office.next, here] at grown
          simp only [change, if_pos inside] at there
          have stored : session.store.put function holding'.profile =
              (office.registry.put function holding' issued).names := by
            rw [Registry.names_put, mirrors.store_eq]
          rw [same] at stored
          have after := mirrors.grows grown stored
          refine matches_of_perform here there after ?_
          have placed : (office.registry.put function holding' issued).place? function
              (some index) = some place := by
            rw [Registry.place?_of_known (Registry.holding?_put_self ..)]
            exact (Holding.extends_claim claimed).2
          exact (after.named_pair placed).symm

/-- The pass before the optimizer does in cells what it does by names. -/
theorem before_named (mirrors : office.Mirrors session) {settings : Settings} {f : Func}
    {outcome : Outcome} (allowed : f.CountsOnly office.registry.Allows)
    (ran : office.registry.before settings office.world.counters f = (registry', outcome)) :
    office.registry.Grows registry' ∧ outcome.func.CountsOnly registry'.Allows ∧
      Probe.Before.run settings session.world.counters session.store
          (f.relocate office.registry.nameOf) =
        (registry'.names, outcome.relocate registry'.nameOf) := by
  have passes := office.registry.passes_before settings office.world.counters f
  rw [ran] at passes
  obtain ⟨grows, names, move, wired⟩ := passes
  refine ⟨grows, wired.allows grows mirrors.sound allowed, ?_⟩
  rw [Probe.Before.run_relocate settings (office.registry.fixedBy_nameOf _), mirrors.store_eq,
    wired.named_eq grows mirrors.sound allowed, names,
    (Probe.Before.run_eq settings (mirrors.alike f.name)).1,
    Probe.Before.store_run_eq settings (office.registry.ledger office.world.counters)]

/-- The pass after the optimizer does in cells what it does by names. -/
theorem after_named (mirrors : office.Mirrors session) (settings : Settings) {f : Func}
    (allowed : f.CountsOnly office.registry.Allows) :
    Probe.After.run settings session.world.counters office.registry.names
        (f.relocate office.registry.nameOf) =
      (office.registry.after settings office.world.counters f).relocate
        office.registry.nameOf := by
  obtain ⟨move, wired⟩ := office.registry.wired_after settings office.world.counters f
  rw [Probe.After.run_relocate settings (office.registry.fixedBy_nameOf _),
    Probe.After.run_eq settings (mirrors.alike f.name),
    wired.named_eq (.refl _) mirrors.sound allowed]

theorem matches_before (mirrors : office.Mirrors session) (settings : Settings) {f : Func}
    (allowed : f.CountsOnly office.registry.Allows) :
    office.Matches session (.before settings f) := by
  rcases ran : office.registry.before settings office.world.counters f with ⟨registry', outcome⟩
  obtain ⟨grows, -, named⟩ := mirrors.before_named allowed ran
  have here : office.perform (.before settings f) =
      ({ office with registry := registry' }, .plain (.passed outcome)) := by
    rw [Office.perform, ran]
  have there : session.perform (.before settings (f.relocate office.registry.nameOf)) =
      ({ session with store := registry'.names },
        .passed (outcome.relocate registry'.nameOf)) := by
    rw [Session.perform, named]
  exact matches_of_perform here there (mirrors.grows grows rfl) rfl

theorem matches_after (mirrors : office.Mirrors session) (settings : Settings) {f : Func}
    (allowed : f.CountsOnly office.registry.Allows) :
    office.Matches session (.after settings f) := by
  refine matches_of_perform rfl rfl mirrors ?_
  rw [mirrors.store_eq, mirrors.after_named settings allowed]
  rfl

theorem matches_compile (mirrors : office.Mirrors session) {pipeline : Pipeline} {f : Func}
    (allowed : f.CountsOnly office.registry.Allows) (harmless : pipeline.optimizer.Harmless)
    (blind : pipeline.optimizer.Blind) : office.Matches session (.compile pipeline f) := by
  rcases ran : office.registry.before pipeline.settings office.world.counters f with
    ⟨registry', first⟩
  obtain ⟨grows, allowed', named⟩ := mirrors.before_named allowed ran
  have grown := mirrors.grows grows rfl
  have last := Pipeline.goOn_relocate blind first
    (grown.after_named pipeline.settings (allowed'.optimized harmless))
  have here : office.perform (.compile pipeline f) =
      ({ office with registry := registry' },
        .plain (.compiled (pipeline.goOn first
          (registry'.after pipeline.settings office.world.counters)))) := by
    rw [Office.perform, Registry.compile, ran]
  have there : session.perform (.compile pipeline (f.relocate office.registry.nameOf)) =
      ({ session with store := registry'.names },
        .compiled ((pipeline.goOn first
          (registry'.after pipeline.settings office.world.counters)).relocate
            registry'.nameOf)) := by
    rw [Session.perform, Pipeline.compile, Pipeline.before, named]
    dsimp only [Option.getD_some]
    exact congrArg (fun compilation => (_, Answer.compiled compilation)) last
  exact matches_of_perform here there grown rfl

/-- A run by names adds under the names what the run adds to the cells. -/
theorem matches_run (mirrors : office.Mirrors session) {f : Func}
    (allowed : f.CountsOnly office.registry.Allows) (limit : Nat) (args : List Int64) :
    office.Matches session (.run f limit args) := by
  obtain ⟨same, world⟩ := Machine.mirrors_run mirrors.sound.keptApart allowed limit args
    mirrors.world
  refine matches_of_perform rfl rfl ?_ ?_
  · refine ⟨mirrors.sound, mirrors.store_eq, world, fun place part later => ?_,
      fun function measure => ?_, fun function measure unheld => ?_⟩
    · exact (Machine.read_run allowed (mirrors.sound.not_allows later) limit args _).trans
        (mirrors.unissued place part later)
    · exact (Machine.read_run allowed Registry.not_allows_owned limit args _).trans
        (mirrors.nameless function measure)
    · have only : (f.relocate office.registry.nameOf).CountsOnly fun counter =>
          ∃ cell, office.registry.Allows cell ∧ office.registry.nameOf cell = counter := by
        intro counter mem
        rw [Func.counters_relocate] at mem
        obtain ⟨cell, inside, same⟩ := List.mem_map.mp mem
        exact ⟨cell, allowed cell inside, same⟩
      refine (Machine.read_run only ?_ limit args _).trans (mirrors.unheld function measure unheld)
      rintro ⟨cell, here, named⟩
      rw [mirrors.sound.nameOf_eq_owned here named] at unheld
      cases unheld
  · exact congrArg Answer.ended same

/-- What is added to a cell is added under its name. -/
theorem add (mirrors : office.Mirrors session) {function : String} {measure : Measure}
    {cell : Counter} (here : office.registry.counter? function measure = some cell)
    (amount : UInt64) :
    Office.Mirrors { office with world.counters := office.world.counters.add cell amount }
      { session with
        world.counters :=
          session.world.counters.add (.owned office.registry.name function measure) amount } where
  sound := mirrors.sound
  store_eq := mirrors.store_eq
  world :=
    { host_eq := mirrors.world.host_eq
      read_eq := by
        intro counter allowed
        have mine := Registry.allows_of_counter? here
        have same : office.registry.nameOf cell = office.registry.nameOf counter ↔ cell = counter :=
          ⟨mirrors.sound.keptApart cell counter mine allowed, congrArg _⟩
        simp only [Counters.read_add, ← mirrors.sound.nameOf_of_counter? here, same,
          mirrors.world.read_eq cell mine, mirrors.world.read_eq counter allowed] }
  unissued place part later := by
    refine (Counters.read_add_of_ne (fun same => ?_) _ _).trans (mirrors.unissued place part later)
    exact mirrors.sound.not_allows later (Registry.allows_of_counter? (same ▸ here))
  nameless function' measure' := by
    refine (Counters.read_add_of_ne (fun same => ?_) _ _).trans
      (mirrors.nameless function' measure')
    exact Registry.not_allows_owned (Registry.allows_of_counter? (same ▸ here))
  unheld function' measure' none := by
    refine (Counters.read_add_of_ne ?_ _ _).trans (mirrors.unheld function' measure' none)
    intro same
    obtain ⟨-, rfl, rfl⟩ := Counter.owned.inj same
    rw [show office.registry.counter? function measure = _ from none] at here
    cases here

theorem matches_bump (mirrors : office.Mirrors session) (function : String) (measure : Measure)
    (amount : UInt64) : office.Matches session (.bump function measure amount) := by
  have names := office.registry.profile?_names function
  rw [← mirrors.store_eq] at names
  have absent (here : office.registry.counter? function measure = none)
      (there : session.perform (.bump function measure amount) = (session, .absent)) :
      office.Matches session (.bump function measure amount) :=
    matches_of_perform (by rw [Office.perform, here]) there mirrors rfl
  cases known : office.registry.holding? function with
  | none =>
      rw [known] at names
      refine absent ?_ (by rw [Session.perform, names]; rfl)
      rw [Registry.counter?, Registry.place?, known]
      rfl
  | some holding =>
      rw [known] at names
      have present := holding.hasCounter_profile measure
      rw [← Registry.place?_of_known known, ← Option.isSome_map (f := fun place =>
        Counter.placed office.registry.name place measure.part), ← Registry.counter?] at present
      cases here : office.registry.counter? function measure with
      | none =>
          rw [here] at present
          refine absent here ?_
          rw [Session.perform, names]
          simp only [Option.map_some, present, Option.isSome_none, Bool.false_eq_true, if_false]
      | some cell =>
          rw [here] at present
          have name : session.store.counter function measure =
              .owned office.registry.name function measure := by
            rw [mirrors.store_eq]
            rfl
          have there : session.perform (.bump function measure amount) =
              ({ session with
                  world.counters :=
                    session.world.counters.add (.owned office.registry.name function measure)
                      amount },
                .value (session.world.counters.read
                  (.owned office.registry.name function measure))) := by
            rw [Session.perform, names]
            simp only [Option.map_some, present, Option.isSome_some, if_true, name]
          refine matches_of_perform (by rw [Office.perform, here]) there
            (mirrors.add here amount) ?_
          rw [← mirrors.sound.nameOf_of_counter? here]
          exact congrArg Answer.value
            (mirrors.world.read_eq cell (Registry.allows_of_counter? here))

/-- A report by names is the report of the cells. -/
theorem matches_dump (mirrors : office.Mirrors session) (active : Bool) :
    office.Matches session (.dump active) := by
  have reports : Report.ofStore session.store session.world.counters =
      Report.ofStore office.session.store office.session.world.counters := by
    rw [mirrors.store_eq]
    exact Report.ofStore_eq mirrors.alike
  refine matches_of_perform rfl rfl mirrors ?_
  rw [reports]
  rfl

end Office.Mirrors

/-- An office does what a session does that is asked for the same by names. -/
theorem Office.mirrors_next {office : Office} {session : Session} (mirrors : office.Mirrors session)
    {request : Request} (fits : request.Fits office.registry) : office.Matches session request := by
  cases request with
  | look function => exact mirrors.matches_look function
  | obtain function shape => exact mirrors.matches_obtain function shape
  | ensure function blocks => exact mirrors.matches_ensure function blocks
  | slot function index => exact mirrors.matches_slot function index
  | insert function index => exact mirrors.matches_insert function index
  | populated function => exact mirrors.matches_populated function
  | before settings f => exact mirrors.matches_before settings fits
  | after settings f => exact mirrors.matches_after settings fits
  | compile pipeline f => exact mirrors.matches_compile fits.1 fits.2.1 fits.2.2
  | run f limit args => exact mirrors.matches_run fits limit args
  | bump function measure amount => exact mirrors.matches_bump function measure amount
  | dump active => exact mirrors.matches_dump active

/-! ## Requests in a row -/

/-- The answers to requests in a row. -/
def Session.answers (session : Session) : List Request → List Answer
  | [] => []
  | request :: later => (session.perform request).2 :: (session.next request).answers later

namespace Office

/-- Requests in a row told by names, each of them as its turn comes. -/
def told (office : Office) : List Request → List Request
  | [] => []
  | request :: later =>
      request.relocate office.registry.nameOf :: (office.next request).told later

/-- The replies to requests in a row, told by names. -/
def answers (office : Office) : List Request → List Answer
  | [] => []
  | request :: later =>
      (office.perform request).2.named (office.next request).registry ::
        (office.next request).answers later

/-- Each of the requests fits as its turn comes. -/
def AllFit (office : Office) : List Request → Prop
  | [] => True
  | request :: later => request.Fits office.registry ∧ (office.next request).AllFit later

variable {office : Office} {session : Session}

/-- An office that has nothing yet is a session that has nothing. -/
theorem mirrors_empty {name : String} {world : World}
    (zero : ∀ counter, world.counters.read counter = 0) :
    (⟨.empty name, world⟩ : Office).Mirrors ⟨.empty name, world⟩ where
  sound := Registry.sound_empty name
  store_eq := rfl
  world :=
    { host_eq := rfl
      read_eq := fun counter _ => (zero _).trans (zero counter).symm }
  unissued _ _ _ := zero _
  nameless _ _ := zero _
  unheld _ _ _ := zero _

/-- Through requests of any kind an office comes to where a session comes to that is asked for
the same by names, and replies with the session's answers. -/
theorem mirrors_serve (mirrors : office.Mirrors session) {requests : List Request}
    (fit : office.AllFit requests) :
    (office.serve requests).Mirrors (session.serve (office.told requests)) ∧
      session.answers (office.told requests) = office.answers requests := by
  induction requests generalizing office session with
  | nil => exact ⟨mirrors, rfl⟩
  | cons request later ih =>
      obtain ⟨next, answer⟩ := mirrors_next mirrors fit.1
      obtain ⟨served, answers⟩ := ih next fit.2
      refine ⟨served, ?_⟩
      rw [told, Session.answers, answer, answers, Office.answers]

/-- A session that an office comes to holds nothing under names that were never met. -/
theorem Mirrors.clean (mirrors : office.Mirrors session) :
    session.store.Clean session.world.counters := by
  intro function unknown measure
  rw [mirrors.store_eq, Registry.profile?_names] at unknown
  rw [mirrors.store_eq]
  apply mirrors.unheld
  rw [Registry.counter?, Registry.place?, Option.map_eq_none_iff.mp unknown]
  rfl

/-- What a compilation leaves may be run from then on. -/
theorem allows_of_compiled (sound : office.registry.Sound) {pipeline : Pipeline} {f : Func}
    (fits : (Request.compile pipeline f).Fits office.registry) {compilation : Compilation}
    (compiled : (office.perform (.compile pipeline f)).2 = .plain (.compiled compilation))
    (requests : List Request) : compilation.func.CountsOnly
      ((office.next (.compile pipeline f)).serve requests).registry.Allows := by
  obtain ⟨allowed, harmless, -⟩ := fits
  intro counter mem
  rcases reports_of_compiled harmless compiled requests mem with mine | ⟨measure, here, -⟩
  · have grown := (office.grows_next (.compile pipeline f)).trans
      ((office.next (.compile pipeline f)).grows_serve requests)
    exact (grown.allows sound (allowed counter mine)).1
  · exact Registry.allows_of_counter? here

/-- An office without profiles compiles the sample function for every flag, runs what came out
and reports on it as a session does. -/
theorem mirrors_choose :
    ∃ compilation,
      (perform ⟨.empty "profiles", Sample.world⟩
        (.compile Sample.pipeline (Sample.choose Sample.counting))).2 =
          .plain (.compiled compilation) ∧
      ∃ session, (serve ⟨.empty "profiles", Sample.world⟩
        [.compile Sample.pipeline (Sample.choose Sample.counting), .run compilation.func 16 [1],
          .dump false]).Mirrors session := by
  let office : Office := ⟨.empty "profiles", Sample.world⟩
  have fits : (Request.compile Sample.pipeline (Sample.choose Sample.counting)).Fits
      office.registry :=
    ⟨nofun, Optimizer.harmless_ofLowering (some .standard),
      Optimizer.blind_ofLowering (some .standard)⟩
  obtain ⟨compilation, compiled⟩ : ∃ compilation,
      (office.perform (.compile Sample.pipeline (Sample.choose Sample.counting))).2 =
        .plain (.compiled compilation) := ⟨_, rfl⟩
  have runs := allows_of_compiled (Registry.sound_empty "profiles") fits compiled []
  have mirrors : office.Mirrors ⟨.empty "profiles", Sample.world⟩ :=
    mirrors_empty fun counter => Counters.read_zero counter
  have fit : office.AllFit [.compile Sample.pipeline (Sample.choose Sample.counting),
      .run compilation.func 16 [1], .dump false] := ⟨fits, runs, trivial, trivial⟩
  exact ⟨compilation, compiled, _, (mirrors_serve mirrors fit).1⟩

end Office

end FlowProfile
