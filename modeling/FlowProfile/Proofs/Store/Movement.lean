/-
# Which counters move

Counters move by runs of code that adds to them and by hand, and not otherwise.
-/

import FlowProfile.Proofs.Store.Effects
import FlowProfile.Proofs.Weave.Additions

namespace FlowProfile

/-- A counter of a profile of the store, which a report would read. -/
def Store.Holds (store : Store) (counter : Counter) : Prop :=
  ∃ function measure profile, counter = store.counter function measure ∧
    store.profile? function = some profile ∧ profile.hasCounter measure = true

namespace Session

variable {session : Session}

/-- A request adds to a counter: by running code that does, or by hand. -/
def Touches (counter : Counter) (session : Session) : Request → Prop
  | .run f _ _ => counter ∈ f.counters
  | .bump function measure _ =>
      counter = session.store.counter function measure ∧ session.store.Holds counter
  | _ => False

/-- A counter keeps its value through a request that does not add to it. -/
theorem read_next {counter : Counter} {request : Request}
    (untouched : ¬ Touches counter session request) :
    (session.next request).world.counters.read counter = session.world.counters.read counter := by
  have slots (function : String) (change : Slots → Slots × Answer) :
      (session.withSlots function change).1.world = session.world := by
    rw [withSlots]
    split <;> rfl
  cases request with
  | run f limit args =>
      have only : f.CountsOnly (· ∈ f.counters) := fun _ mem => mem
      exact Machine.read_run only untouched limit args session.world
  | bump function measure amount =>
      rw [next, perform]
      split
      · rfl
      · next profile known =>
          split
          · next present =>
              apply Counters.read_add_of_ne
              rintro rfl
              exact untouched ⟨rfl, function, measure, profile, rfl, known, present⟩
          · rfl
  | obtain function shape =>
      rw [next, perform]
      split <;> rfl
  | ensure function blocks => rw [next, perform, slots]
  | insert function index => rw [next, perform, slots]
  | look function => rfl
  | slot function index => rfl
  | populated function => rfl
  | before settings f => rfl
  | after settings f => rfl
  | compile pipeline f => rfl
  | dump active => rfl

/-- A counter moves only when a request adds to it. -/
theorem read_serve {counter : Counter} {requests : List Request}
    (untouched : ¬ Request.Ever next (Touches counter) session requests) :
    (session.serve requests).world.counters.read counter =
      session.world.counters.read counter := by
  induction requests generalizing session with
  | nil => rfl
  | cons request rest ih =>
      rw [Request.ever_cons, not_or] at untouched
      rw [serve_cons, ih untouched.2, read_next untouched.1]

/-- A compilation leaves the store that it names. -/
theorem compile_some (pipeline : Pipeline) (counters : Counters) (store : Store) (f : Func) :
    ∃ store', (pipeline.compile counters (some store) f).1 = some store' := by
  rw [Pipeline.store_of_compile]
  exact ⟨_, rfl⟩

end Session

end FlowProfile
