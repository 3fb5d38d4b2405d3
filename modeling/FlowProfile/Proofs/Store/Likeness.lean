/-
# What is looked at for one name

A compilation looks at little of what it is given: the profile of the function's name, and
the counters of that profile.  Two stores of the same name that are alike in this lead to
the same end, and are alike in it afterwards.  What they hold under other names makes no
difference, and neither does the order in which they came to hold it.
-/

import FlowProfile.Profile.Report
import FlowProfile.Proofs.Store.Movement

namespace FlowProfile

/-- Two stores, each with the values of counters, hold the same under one function name. -/
structure Store.Alike (function : String) (store : Store) (counters : Counters)
    (store' : Store) (counters' : Counters) : Prop where
  name_eq : store'.name = store.name
  profile?_eq : store'.profile? function = store.profile? function
  read_eq : ∀ measure, counters'.read (.owned store.name function measure) =
    counters.read (.owned store.name function measure)

variable {store store' : Store} {counters counters' : Counters} {function : String}
  {f : Func}

namespace Store.Alike

theorem refl (function : String) (store : Store) (counters : Counters) :
    store.Alike function counters store counters :=
  ⟨rfl, rfl, fun _ => rfl⟩

theorem symm (alike : store.Alike function counters store' counters') :
    store'.Alike function counters' store counters where
  name_eq := alike.name_eq.symm
  profile?_eq := alike.profile?_eq.symm
  read_eq measure := by rw [alike.name_eq, alike.read_eq]

theorem trans {store'' : Store} {counters'' : Counters}
    (first : store.Alike function counters store' counters')
    (second : store'.Alike function counters' store'' counters'') :
    store.Alike function counters store'' counters'' where
  name_eq := second.name_eq.trans first.name_eq
  profile?_eq := second.profile?_eq.trans first.profile?_eq
  read_eq measure := by rw [← first.read_eq, ← first.name_eq, second.read_eq]

theorem counter_eq (alike : store.Alike function counters store' counters') :
    store'.counter = store.counter := by
  funext name measure
  rw [Store.counter, alike.name_eq, Store.counter]

theorem read_counter (alike : store.Alike function counters store' counters')
    (measure : Measure) : counters'.read (store.counter function measure) =
      counters.read (store.counter function measure) :=
  alike.read_eq measure

theorem put (alike : store.Alike function counters store' counters') (profile : Profile) :
    (store.put function profile).Alike function counters (store'.put function profile)
      counters' where
  name_eq := alike.name_eq
  profile?_eq := by rw [profile?_put_self, profile?_put_self]
  read_eq := alike.read_eq

/-- Both stores fail to hand out a profile, or both hand out the same one. -/
theorem obtain_eq (alike : store.Alike function counters store' counters')
    (shape : Except Error Shape) :
    (∃ error, store.obtain function shape = .error error ∧
        store'.obtain function shape = .error error) ∨
      ∃ base base' profile created, store.obtain function shape = .ok (base, profile, created) ∧
        store'.obtain function shape = .ok (base', profile, created) ∧
        base.Alike function counters base' counters' := by
  rw [Store.obtain, Store.obtain, alike.profile?_eq]
  cases store.profile? function with
  | some profile => exact .inr ⟨store, store', profile, false, rfl, rfl, alike⟩
  | none =>
      cases shape with
      | error error => exact .inl ⟨error, rfl, rfl⟩
      | ok shape => exact .inr ⟨_, _, ⟨shape, .unsized⟩, true, rfl, rfl, alike.put _⟩

end Store.Alike

/-! ## The passes -/

namespace Probe

theorem branches_eq (alike : store.Alike function counters store' counters') :
    branches store' = branches store := by
  funext f
  rw [branches, alike.counter_eq, branches]

theorem allocations_eq (alike : store.Alike function counters store' counters')
    (symbols : AllocSymbols) (stage : Stage) :
    allocations symbols stage store' = allocations symbols stage store := by
  funext f
  rw [allocations, alike.counter_eq, allocations]

theorem calls_eq (alike : store.Alike f.name counters store' counters')
    (reporter : Option Reporter) :
    calls store' counters' reporter f = calls store counters reporter f := by
  cases reporter with
  | none =>
      show plainCalls store' f = plainCalls store f
      simp only [plainCalls, alike.counter_eq]
  | some reporter =>
      show reportedCalls store' counters' reporter f = reportedCalls store counters reporter f
      simp only [reportedCalls, alike.counter_eq, alike.read_counter]

end Probe

theorem Feedback.apply_eq (alike : store.Alike f.name counters store' counters')
    (slots : Slots) : apply counters' store' slots f = apply counters store slots f := by
  have weights : weights? counters' (store.counter f.name) slots =
      weights? counters (store.counter f.name) slots := by
    funext slot
    simp only [weights?, alike.read_counter]
  simp only [apply, alike.counter_eq, alike.read_counter, weights]

namespace Probe

/-- The change before the optimizer looks at what is held under the function's name alone. -/
theorem Before.change_eq (settings : Settings) (flags : Flags)
    (alike : store.Alike f.name counters store' counters') (profile : Profile) :
    (change settings flags counters' store' profile f).2 =
        (change settings flags counters store profile f).2 ∧
      (change settings flags counters store profile f).1.Alike f.name counters
        (change settings flags counters' store' profile f).1 counters' := by
  refine ⟨?_, alike.put _⟩
  have name : (((Step.skip f).andThen flags.branches (branches store)).andThen flags.allocations
      (allocations settings.alloc .before store)).func.name = f.name :=
    Step.holds_andThen (motive := (·.name = f.name))
      (Step.holds_andThen (motive := (·.name = f.name)) rfl fun _ _ => rfl) fun _ kept => kept
  rw [change, change, branches_eq alike, allocations_eq alike]
  generalize ((Step.skip f).andThen flags.branches (branches store)).andThen flags.allocations
    (allocations settings.alloc .before store) = step at name
  rw [← name] at alike
  simp only [Step.andThen, Feedback.apply_eq alike]

/-- The pass before the optimizer has the same outcome for stores that are alike, and keeps
them so. -/
theorem Before.run_eq (settings : Settings)
    (alike : store.Alike f.name counters store' counters') :
    (run settings counters' store' f).2 = (run settings counters store f).2 ∧
      (run settings counters store f).1.Alike f.name counters
        (run settings counters' store' f).1 counters' := by
  rw [run, run]
  cases settings.flagsOf f with
  | error error => exact ⟨rfl, alike⟩
  | ok flags =>
      cases empty : flags.isEmpty with
      | true =>
          simp only [empty, if_true]
          exact ⟨trivial, alike⟩
      | false =>
          simp only [empty, Bool.false_eq_true, if_false]
          rcases alike.obtain_eq f.shape with
            ⟨error, refused, refused'⟩ |
              ⟨base, base', profile, created, obtained, obtained', both⟩
          · rw [refused, refused']
            exact ⟨rfl, alike⟩
          · rw [obtained, obtained']
            simp only [withProfile]
            split
            · split
              · exact ⟨rfl, both⟩
              · next checked =>
                  obtain ⟨same, after⟩ := change_eq settings flags both profile
                  simp only [perform_eq_change checked, same]
                  exact ⟨trivial, after⟩
            · exact ⟨rfl, both⟩

/-- What becomes of the store is no matter of what was counted. -/
theorem Before.store_run_eq (settings : Settings) (counters counters' : Counters) (store : Store)
    (f : Func) : (run settings counters' store f).1 = (run settings counters store f).1 := by
  rw [run, run]
  cases settings.flagsOf f with
  | error error => rfl
  | ok flags =>
      simp only
      split
      · rfl
      · cases store.obtain f.name f.shape with
        | error error => rfl
        | ok answer =>
            simp only [withProfile]
            split
            · split <;> rfl
            · rfl

/-- The pass after the optimizer has the same outcome for stores that are alike. -/
theorem After.run_eq (settings : Settings)
    (alike : store.Alike f.name counters store' counters') :
    run settings counters' store' f = run settings counters store f := by
  rw [run, run]
  cases settings.flagsOf f with
  | error error => rfl
  | ok flags =>
      simp only
      split
      · rw [alike.profile?_eq]
        cases store.profile? f.name with
        | none => rfl
        | some profile =>
            simp only
            cases checked : check settings flags f with
            | error error => rfl
            | ok reporter =>
                simp only [perform, Outcome.andThen, Outcome.unchanged, calls_eq alike,
                  tryAllocations, allocations_eq alike]
      · rfl

end Probe

/-- A compilation comes to the same end in stores that are alike under the function's name,
and keeps them so. -/
theorem Pipeline.compile_eq {pipeline : Pipeline} (harmless : pipeline.optimizer.Harmless)
    (alike : store.Alike f.name counters store' counters') :
    ∃ after after' compilation,
      pipeline.compile counters (some store) f = (some after, compilation) ∧
        pipeline.compile counters' (some store') f = (some after', compilation) ∧
        after.Alike f.name counters after' counters' := by
  obtain ⟨same, both⟩ := Probe.Before.run_eq pipeline.settings alike
  rcases ran : Probe.Before.run pipeline.settings counters store f with ⟨after, first⟩
  rcases ran' : Probe.Before.run pipeline.settings counters' store' f with ⟨after', first'⟩
  rw [ran, ran'] at same both
  obtain rfl : first' = first := same
  have name : (pipeline.optimizer.run first'.func).func.name = f.name :=
    (harmless.name_eq _).trans (Probe.Before.names_run ran).2.1
  have third : Probe.After.run pipeline.settings counters' after'
        (pipeline.optimizer.run first'.func).func =
      Probe.After.run pipeline.settings counters after
        (pipeline.optimizer.run first'.func).func := by
    refine Probe.After.run_eq pipeline.settings ?_
    rw [name]
    exact both
  refine ⟨after, after', (pipeline.compile counters (some store) f).2, ?_, ?_, both⟩
  · refine Prod.ext ?_ rfl
    rw [store_of_compile, before, ran]
  · refine Prod.ext ?_ ?_
    · rw [store_of_compile, before, ran']
    · simp only [compile, goOn, before, ran, ran', Pipeline.after, third]

/-! ## Reports -/

/-- The report of a store is known by what it holds under each name. -/
theorem Report.ofStore_eq
    (alike : ∀ function, store.Alike function counters store' counters') :
    ofStore store' counters' = ofStore store counters := by
  have profiles : store'.profiles = store.profiles :=
    Table.ext_get? fun function => (alike function).profile?_eq
  rw [ofStore, ofStore, profiles]
  refine List.map_congr_left fun entry _ => ?_
  simp only [ReportRow.capture, (alike entry.1).counter_eq, (alike entry.1).read_counter]

end FlowProfile
