/-
# A pass is done as a whole or not at all

A pass that refuses a function leaves it as it was, with everything that belongs to it,
although some of its parts set about the function before the last of them has looked at
it: what they look for was looked for ahead, and none of them can bring it about.  The
store is left alone as well, with one exception.  The pass before the optimizer registers
a function whose flags it could read, and the registration stays when it refuses the
function later.

No pass adds to a counter.  A profile that is new counts from zero as long as the cells of
names that were never registered hold nothing, which is what `Store.Clean` says.  It holds of
every session that comes about from an empty store (`Session.Arises.clean`).
-/

import FlowProfile.Profile.Report
import FlowProfile.Proofs.Compile.Transparency

namespace FlowProfile

namespace Store

/-- The counters of names that have no profile hold nothing. -/
def Clean (store : Store) (counters : Counters) : Prop :=
  ∀ function, store.profile? function = none →
    ∀ measure, counters.read (store.counter function measure) = 0

/-- `store'` is what becomes of a store when a function gets the first profile of its name,
of its present shape, without slots, and with all counters at zero if those of a new name
are. -/
structure Registers (store : Store) (counters : Counters) (f : Func) (store' : Store) :
    Prop where
  unknown : store.profile? f.name = none
  created : ∃ shape, f.shape = .ok shape ∧ store' = store.put f.name ⟨shape, .unsized⟩
  zero : store.Clean counters →
    ∀ measure, counters.read (store'.counter f.name measure) = 0

/-- Every profile of a store is there in another one, with the same slots, and would be
reported with the same counts. -/
def Keeps (store : Store) (counters : Counters) (store' : Store) : Prop :=
  ∀ function profile, store.profile? function = some profile →
    store'.profile? function = some profile ∧
      ReportRow.capture store' counters function profile =
        ReportRow.capture store counters function profile

variable {store store' : Store} {counters : Counters} {f : Func}

theorem profile?_put_of_ne {function other : String} (apart : function ≠ other)
    (profile : Profile) : (store.put function profile).profile? other = store.profile? other := by
  rw [profile?, put, Table.get?_insert, if_neg apart]
  rfl

theorem Keeps.refl (store : Store) (counters : Counters) : store.Keeps counters store :=
  fun _ _ known => ⟨known, rfl⟩

/-- Registering a function changes nothing about the functions that have a profile. -/
theorem Registers.keeps (registers : store.Registers counters f store') :
    store.Keeps counters store' := by
  intro function profile known
  obtain ⟨shape, -, rfl⟩ := registers.created
  have apart : f.name ≠ function := by
    rintro rfl
    rw [registers.unknown] at known
    cases known
  exact ⟨(profile?_put_of_ne apart _).trans known, rfl⟩

/-- Looking a profile up, where it may be created, registers the function at most. -/
theorem registers_of_obtain {profile : Profile} {created : Bool} (counters : Counters)
    (obtained : store.obtain f.name f.shape = .ok (store', profile, created)) :
    store' = store ∨ store.Registers counters f store' := by
  unfold obtain at obtained
  cases known : store.profile? f.name with
  | some old =>
      rw [known] at obtained
      cases obtained
      exact .inl rfl
  | none =>
      rw [known] at obtained
      cases measured : f.shape with
      | error error =>
          rw [measured] at obtained
          cases obtained
      | ok shape =>
          rw [measured] at obtained
          cases obtained
          exact .inr ⟨known, ⟨shape, measured, rfl⟩, fun clean => clean f.name known⟩

end Store

/-- A refusal of the pass before the optimizer leaves the function as it was, and registers
it at most. -/
theorem Probe.Before.eq_of_refused {settings : Settings} {counters : Counters}
    {store store' : Store} {f g : Func} {events : List Event} {error : Error}
    (ran : run settings counters store f = (store', ⟨g, events, .error error⟩)) :
    g = f ∧ (store' = store ∨
      (∃ flags, settings.flagsOf f = .ok flags) ∧ store.Registers counters f store') := by
  cases ends_of_run ran with
  | misread => exact ⟨rfl, .inl rfl⟩
  | shapeless => exact ⟨rfl, .inl rfl⟩
  | refused read nonempty obtained =>
      exact ⟨rfl, (Store.registers_of_obtain counters obtained).imp_right fun registers =>
        ⟨⟨_, read⟩, registers⟩⟩

/-- A refusal of the pass after the optimizer leaves the function as it was. -/
theorem Probe.After.eq_of_refused {settings : Settings} {counters : Counters} {store : Store}
    {f g : Func} {events : List Event} {error : Error}
    (ran : run settings counters store f = ⟨g, events, .error error⟩) : g = f := by
  cases ends_of_run ran with
  | misread => rfl
  | refused => rfl

/-- The store that a compilation leaves is the one that its first stage has left. -/
theorem Pipeline.store_of_compile {pipeline : Pipeline} {counters : Counters}
    {store : Option Store} {f : Func} :
    (pipeline.compile counters store f).1 = (pipeline.before counters store f).1 := by
  rcases compiled : pipeline.compile counters store f with ⟨after, compilation⟩
  cases ends_of_compile compiled with
  | before first => rw [first]
  | optimizer first => rw [first]
  | after first => rw [first]
  | finish first => rw [first]

namespace Sample

/-- Settings by which requests have to have a fourth operand. -/
def demanding : Settings :=
  { Settings.standard with alloc := { AllocSymbols.standard with sizeArg := 3 } }

end Sample

/-- Each of the passes either succeeds or leaves the function and all that is known about
functions as they were, except that the first of them may have registered the function if
it could read its flags.  The other one never changes the store, so that a compilation
leaves the store as the first one has left it. -/
theorem passes_all_or_nothing (settings : Settings) (counters : Counters) (store : Store)
    (f : Func) :
    (∀ store' g events error,
      Probe.Before.run settings counters store f = (store', ⟨g, events, .error error⟩) →
        g = f ∧ store.Keeps counters store' ∧
          (store' = store ∨
            (∃ flags, settings.flagsOf f = .ok flags) ∧ store.Registers counters f store')) ∧
      (∀ g events error,
        Probe.After.run settings counters store f = ⟨g, events, .error error⟩ → g = f) ∧
      ∀ optimizer, (Pipeline.compile ⟨settings, optimizer⟩ counters (some store) f).1 =
        some (Probe.Before.run settings counters store f).1 := by
  refine ⟨?_, ?_, ?_⟩
  · intro store' g events error ran
    obtain ⟨same, left⟩ := Probe.Before.eq_of_refused ran
    refine ⟨same, ?_, left⟩
    rcases left with rfl | ⟨-, registers⟩
    · exact .refl store' counters
    · exact registers.keeps
  · intro g events error ran
    exact Probe.After.eq_of_refused ran
  · intro optimizer
    exact Pipeline.store_of_compile

theorem passes_all_or_nothing_choose :
    ∃ store' events, Probe.Before.run Sample.demanding .zero (.empty "profiles")
        (Sample.choose Sample.counting) =
      (store', ⟨Sample.choose Sample.counting, events,
        .error (.invalid "choose" (.allocationWithoutSize "jit.gc_alloc_obj" 0 3))⟩) ∧
      (store' = .empty "profiles" ∨
        Store.Registers (.empty "profiles") .zero (Sample.choose Sample.counting) store') := by
  rcases ran : Probe.Before.run Sample.demanding .zero (.empty "profiles")
    (Sample.choose Sample.counting) with ⟨store', g, events, result⟩
  have refused : (Probe.Before.run Sample.demanding .zero (.empty "profiles")
      (Sample.choose Sample.counting)).2.result =
        .error (.invalid "choose" (.allocationWithoutSize "jit.gc_alloc_obj" 0 3)) := by
    decide +kernel
  rw [ran] at refused
  obtain rfl : result = _ := refused
  obtain ⟨same, -, left⟩ := (passes_all_or_nothing Sample.demanding .zero (.empty "profiles")
    (Sample.choose Sample.counting)).1 store' g events _ ran
  rw [same]
  exact ⟨store', events, rfl, left.imp_right And.right⟩

end FlowProfile
