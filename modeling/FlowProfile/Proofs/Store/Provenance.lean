/-
# New profiles count from zero

The counters of a profile are told by names, and a name is there before its profile is.  That
a new profile starts at zero is therefore a matter of where code comes from: nobody adds to
the counters of a name that was never met, because code gets the counters of a store from a
pass, and a pass gives away those of a profile that is there.

This is an invariant of sessions that come about from an empty store.  `Arises` says how such
a session goes on: functions are written, which may take over counters from functions that
are there already, and what is there is passed, compiled and run.  Wherever a function without
a profile is asked to have no counts, such a session has none for it (`Arises.unused`).
-/

import FlowProfile.Proofs.Store.Movement

namespace FlowProfile

/-- A counter that code may have: of no name of the store, or of a name that was met. -/
def Store.Admits (store : Store) (counter : Counter) : Prop :=
  ∀ function measure, counter = store.counter function measure →
    (store.profile? function).isSome = true

/-- The function that a request is about. -/
def Request.func? : Request → Option Func
  | .before _ f | .after _ f | .compile _ f | .run f _ _ => some f
  | _ => none

/-- The function that an answer leaves. -/
def Answer.func? : Answer → Option Func
  | .passed outcome => some outcome.func
  | .compiled compilation => some compilation.func
  | _ => none

/-- A request that asks for no optimizer which makes code add to more counters. -/
def Request.IsHarmless : Request → Prop
  | .compile pipeline _ => pipeline.optimizer.Harmless
  | _ => True

namespace Session

/-- A session comes about, and functions with it.  A function that is written has counters of
its own, or counters that another function has.  Requests are made for functions that are
there, and what passes and compilations leave is there afterwards. -/
inductive Arises : Session → List Func → Prop
  | start {name : String} {world : World}
      (zero : ∀ function measure, world.counters.read (.owned name function measure) = 0) :
      Arises ⟨.empty name, world⟩ []
  | write {session : Session} {code : List Func} {f : Func} (arises : Arises session code)
      (borrows : ∀ counter ∈ f.counters, ¬ counter.InStore session.store.name ∨
        ∃ g ∈ code, counter ∈ g.counters) :
      Arises session (f :: code)
  | ask {session : Session} {code : List Func} {request : Request}
      (arises : Arises session code) (there : ∀ f, request.func? = some f → f ∈ code)
      (harmless : request.IsHarmless) :
      Arises (session.next request) ((session.perform request).2.func?.toList ++ code)

variable {session : Session} {request : Request} {f : Func}

/-! ## Code -/

/-- A name that was met is met for good. -/
theorem Effects.known {store' : Store} {function : String}
    (effects : session.Effects request store')
    (known : (session.store.profile? function).isSome = true) :
    (store'.profile? function).isSome = true := by
  obtain ⟨profile, here⟩ := Option.isSome_iff_exists.mp known
  have shape : session.store.shape? function = some profile.shape := by
    rw [Store.shape?, here, Option.map_some]
  have later := (effects.shape_iff function profile.shape).mpr (.inl shape)
  rw [← Option.isSome_map (f := Profile.shape), ← Store.shape?, later]
  rfl

theorem Effects.admits {store' : Store} {counter : Counter}
    (effects : session.Effects request store') (admits : session.store.Admits counter) :
    store'.Admits counter := by
  intro function measure same
  rw [Store.counter, effects.name_eq] at same
  exact effects.known (admits function measure same)

/-- A profile admits its own counters. -/
theorem admits_own {store : Store} {function : String}
    (known : (store.profile? function).isSome = true) (measure : Measure) :
    store.Admits (store.counter function measure) := by
  intro other measure' same
  obtain ⟨-, rfl, -⟩ := Counter.owned.inj same
  exact known

theorem admits_before {settings : Settings} {store' : Store} {outcome : Outcome}
    (ran : Probe.Before.run settings session.world.counters session.store f = (store', outcome))
    (own : f.CountsOnly session.store.Admits) : outcome.func.CountsOnly store'.Admits := by
  have effects := session.effects_before settings f
  rw [ran] at effects
  have kept : f.CountsOnly store'.Admits := fun counter mem => effects.admits (own counter mem)
  cases Probe.Before.ends_of_run ran with
  | misread => exact kept
  | idle => exact kept
  | shapeless => exact kept
  | unconcerned => exact kept
  | refused => exact kept
  | changed =>
      refine Probe.Before.countsOnly_change kept (fun measure _ => admits_own ?_ measure) _
      exact Option.isSome_iff_exists.mpr ⟨_, Store.profile?_put_self ..⟩

theorem admits_after {settings : Settings} {counters : Counters} {store : Store}
    (own : f.CountsOnly store.Admits) :
    (Probe.After.run settings counters store f).func.CountsOnly store.Admits :=
  Probe.After.countsOnly_run f rfl own fun _ _ known measure _ =>
    admits_own known measure

theorem admits_compile {pipeline : Pipeline} (harmless : pipeline.optimizer.Harmless)
    (own : f.CountsOnly session.store.Admits) :
    (pipeline.compile session.world.counters (some session.store) f).2.func.CountsOnly
      (session.next (.compile pipeline f)).store.Admits := by
  rw [store_next_compile]
  rcases passed : Probe.Before.run pipeline.settings session.world.counters session.store f with
    ⟨store', first⟩
  rcases compiled : pipeline.compile session.world.counters (some session.store) f with
    ⟨after, compilation⟩
  have stored := congrArg Prod.fst compiled
  rw [Pipeline.store_of_compile, Pipeline.before] at stored
  simp only [passed] at stored
  subst stored
  refine Pipeline.holds_compile _ _ compiled ?_ ?_ ?_ fun g here => here
  · intro outcome ran
    rw [Pipeline.before, passed] at ran
    obtain rfl := (Prod.mk.inj ran).2
    exact admits_before passed own
  · exact fun g here => here.optimized harmless
  · exact fun g here => admits_after here

/-- The slots of a profile are changed without code. -/
theorem func?_withSlots {function : String} {change : Slots → Slots × Answer}
    (silent : ∀ slots, (change slots).2.func? = none) :
    (session.withSlots function change).2.func? = none := by
  cases known : session.store.profile? function with
  | none =>
      rw [withSlots_of_unknown known]
      rfl
  | some profile =>
      rw [withSlots_of_known known]
      exact silent profile.slots

/-- A request that is about no function leaves none. -/
theorem func?_perform (silent : request.func? = none) :
    (session.perform request).2.func? = none := by
  cases request with
  | ensure function blocks => exact func?_withSlots fun _ => rfl
  | insert function index =>
      refine func?_withSlots fun slots => ?_
      split <;> rfl
  | look function | slot function index | populated function | obtain function shape =>
      simp only [perform]
      split <;> rfl
  | bump function measure amount =>
      simp only [perform]
      split
      · rfl
      · split <;> rfl
  | dump active => rfl
  | before settings f => cases silent
  | after settings f => cases silent
  | compile pipeline f => cases silent
  | run f limit args => cases silent

/-- Code that a request leaves is admitted afterwards. -/
theorem admits_left (own : ∀ g, request.func? = some g → g.CountsOnly session.store.Admits)
    (harmless : request.IsHarmless) (left : (session.perform request).2.func? = some f) :
    f.CountsOnly (session.next request).store.Admits := by
  cases request with
  | before settings g =>
      obtain rfl := Option.some.inj left
      exact admits_before rfl (own g rfl)
  | after settings g =>
      obtain rfl := Option.some.inj left
      exact admits_after (own g rfl)
  | compile pipeline g =>
      obtain rfl := Option.some.inj left
      exact admits_compile harmless (own g rfl)
  | run g limit args => cases left
  | _ =>
      rw [func?_perform rfl] at left
      cases left

/-! ## Memory -/

/-- As long as only code is run that is admitted, names that were never met hold nothing. -/
theorem clean_next (clean : session.store.Clean session.world.counters)
    (own : ∀ g, request.func? = some g → g.CountsOnly session.store.Admits) :
    (session.next request).store.Clean (session.next request).world.counters := by
  intro function unknown measure
  have unmet : ¬ (session.store.profile? function).isSome = true := by
    intro known
    have later := (session.effects request).known known
    rw [unknown] at later
    cases later
  rw [Store.counter, (session.effects request).name_eq, ← Store.counter, read_next]
  · exact clean function (Option.not_isSome_iff_eq_none.mp unmet) measure
  · cases request with
    | run f limit args => exact fun mem => unmet (own f rfl _ mem function measure rfl)
    | bump name measure' amount =>
        rintro ⟨-, function', measure', profile, same, known, -⟩
        obtain ⟨-, rfl, -⟩ := Counter.owned.inj same
        exact unmet (Option.isSome_iff_exists.mpr ⟨profile, known⟩)
    | _ => exact id

/-! ## Sessions that come about -/

variable {code : List Func}

theorem Arises.admits (arises : Arises session code) :
    ∀ f ∈ code, f.CountsOnly session.store.Admits := by
  induction arises with
  | start zero => exact nofun
  | write arises borrows ih =>
      refine List.forall_mem_cons.mpr ⟨fun counter mem => ?_, ih⟩
      rcases borrows counter mem with foreign | ⟨g, there, has⟩
      · rintro function measure rfl
        exact absurd ⟨function, measure, rfl⟩ foreign
      · exact ih g there counter has
  | @ask session code request arises there harmless ih =>
      intro f mem
      rcases List.mem_append.mp mem with left | old
      · exact admits_left (fun g asked => ih g (there g asked)) harmless (Option.mem_toList.mp left)
      · exact fun counter has => (session.effects request).admits (ih f old counter has)

/-- The counters of names that were never met hold nothing, whatever was asked for. -/
theorem Arises.clean (arises : Arises session code) :
    session.store.Clean session.world.counters := by
  induction arises with
  | start zero => exact fun function _ measure => zero function measure
  | write arises borrows ih => exact ih
  | ask arises there harmless ih =>
      exact clean_next ih fun g asked => arises.admits g (there g asked)

/-- A function without a profile has no counts. -/
theorem Arises.unused (arises : Arises session code) {function : String}
    (unknown : session.store.profile? function = none) (measure : Measure) :
    session.world.counters.read (.owned session.store.name function measure) = 0 :=
  arises.clean function unknown measure

/-- Whoever creates a profile, it starts with all counters at zero. -/
theorem Arises.zero_of_creates (arises : Arises session code) {function : String} {shape : Shape}
    (creates : Creates function shape session request) (measure : Measure) :
    (session.next request).world.counters.read
      ((session.next request).store.counter function measure) = 0 := by
  have fresh (unknown : session.store.profile? function = none)
      (untouched : ¬ Touches (session.store.counter function measure) session request) :
      (session.next request).world.counters.read
        ((session.next request).store.counter function measure) = 0 := by
    rw [Store.counter, (session.effects request).name_eq, ← Store.counter, read_next untouched]
    exact arises.unused unknown measure
  cases request with
  | obtain name given => exact fresh creates.2.1 id
  | before settings f => exact fresh creates.2.1 id
  | compile pipeline f => exact fresh creates.2.1 id
  | _ => exact creates.elim

end Session

end FlowProfile
