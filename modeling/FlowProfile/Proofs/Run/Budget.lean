/-
# A budget only cuts runs off

A run takes one step after another until it ends, whether or not there is a budget.  A
budget is looked at ahead of every step and does nothing else: under a smaller one a run
goes through the first frames of the run under a larger one, with the same effects, and it
ends in the same way unless the steps have run out.

`Course` follows a run without counting.  It is what the steps under a budget are compared
with.
-/

import FlowProfile.Proofs.Run.Causes
import FlowProfile.Proofs.Run.Effects

namespace FlowProfile

namespace Machine

variable {f : Func} {frame : Frame} {world : World}

/-- From a frame and a world, steps in the frames of a path lead to where a run then stands. -/
inductive Course (f : Func) : Frame → World → List Frame → Progress → Prop
  | start (frame : Frame) (world : World) : Course f frame world [] (.running frame world)
  | last {frame : Frame} {world : World} {progress : Progress}
      (stepped : step f frame world = progress) (ended : progress.isRunning = false) :
      Course f frame world [frame] progress
  | onward {frame next : Frame} {world after : World} {path : List Frame} {progress : Progress}
      (stepped : step f frame world = .running next after)
      (later : Course f next after path progress) : Course f frame world (frame :: path) progress

/-- The trail of a run under a budget is its course. -/
theorem course_trail (f : Func) (steps : Nat) (frame : Frame) (world : World) :
    Course f frame world (trail f steps frame world) (advance f steps frame world) := by
  induction steps generalizing frame world with
  | zero => exact .start frame world
  | succ steps ih =>
      rw [trail_succ, advance_succ]
      cases stepped : step f frame world with
      | running next after => exact .onward stepped (ih next after)
      | returned value after => exact .last stepped rfl
      | failed error after => exact .last stepped rfl

/-- A larger budget adds to the trail. -/
theorem trail_prefix_of_le {steps more : Nat} (le : steps ≤ more) :
    trail f steps frame world <+: trail f more frame world := by
  obtain ⟨extra, rfl⟩ := Nat.exists_eq_add_of_le le
  rw [trail_add]
  exact List.prefix_append ..

section

variable {limit limit' : Nat} {args : List Int64}

theorem trailOf_prefix_of_le (le : limit ≤ limit') :
    trailOf f limit args world <+: trailOf f limit' args world := by
  rw [trailOf, trailOf]
  cases Frame.start f args with
  | error error => exact List.prefix_refl []
  | ok frame => exact trail_prefix_of_le le

theorem length_trailOf_le (f : Func) (limit : Nat) (args : List Int64) (world : World) :
    (trailOf f limit args world).length ≤ limit := by
  rw [trailOf]
  cases Frame.start f args with
  | error error => exact Nat.zero_le limit
  | ok frame => exact length_trail_le f limit frame world

/-- A run whose budget has not cut it off has ended, or has not begun. -/
theorem ended_of_run (start : Frame.start f args = .ok frame)
    (finished : (run f limit args world).1 ≠ .error (.stepLimitExceeded limit)) :
    (advance f limit frame world).isRunning = false := by
  rw [run_of_start start] at finished
  cases reached : advance f limit frame world with
  | running stop after =>
      rw [reached] at finished
      exact absurd rfl finished
  | returned value after => rfl
  | failed error after => rfl

/-- A run that ends within its budget does not notice a larger one. -/
theorem run_of_finished (le : limit ≤ limit')
    (finished : (run f limit args world).1 ≠ .error (.stepLimitExceeded limit)) :
    run f limit' args world = run f limit args world ∧
      trailOf f limit' args world = trailOf f limit args world := by
  cases start : Frame.start f args with
  | error error =>
      rw [run, run, trailOf, trailOf, start]
      exact ⟨rfl, rfl⟩
  | ok frame =>
      have ended := ended_of_run start finished
      rw [run_of_start start, run_of_start start, trailOf_of_start start, trailOf_of_start start,
        advance_of_ended ended le]
      refine ⟨?_, trail_of_ended ended le⟩
      cases reached : advance f limit frame world with
      | running stop after =>
          rw [reached] at ended
          cases ended
      | returned value after => rfl
      | failed error after => rfl

/-- A run that was cut off has started, and would go on. -/
theorem running_of_run
    (exhausted : (run f limit args world).1 = .error (.stepLimitExceeded limit)) :
    ∃ frame stop after, Frame.start f args = .ok frame ∧
      advance f limit frame world = .running stop after := by
  rw [run] at exhausted
  cases start : Frame.start f args with
  | error error =>
      rw [start] at exhausted
      cases exhausted
      cases Frame.cause_start start
  | ok frame =>
      rw [start] at exhausted
      have cut : (advance f limit frame world).result limit =
          (.error (.stepLimitExceeded limit), (resume f limit limit frame world).2) := by
        rw [← resume_eq_advance]
        exact Prod.ext exhausted rfl
      obtain ⟨stop, reached⟩ := running_of_exhausted cut
      exact ⟨frame, stop, _, rfl, reached⟩

/-- A run that was cut off has taken every step of its budget. -/
theorem length_of_exhausted
    (exhausted : (run f limit args world).1 = .error (.stepLimitExceeded limit)) :
    (trailOf f limit args world).length = limit := by
  obtain ⟨frame, stop, after, start, reached⟩ := running_of_run exhausted
  rw [trailOf_of_start start]
  exact length_trail_of_running reached

/-- A run that was cut off takes more steps under a budget that is enough for it. -/
theorem lt_length_of_exhausted (le : limit ≤ limit')
    (exhausted : (run f limit args world).1 = .error (.stepLimitExceeded limit))
    (finished : (run f limit' args world).1 ≠ .error (.stepLimitExceeded limit')) :
    limit < (trailOf f limit' args world).length := by
  obtain ⟨frame, stop, after, start, reached⟩ := running_of_run exhausted
  obtain ⟨extra, rfl⟩ := Nat.exists_eq_add_of_le le
  have ended := ended_of_run start finished
  rw [advance_add_of_running reached] at ended
  rw [trailOf_of_start start, trail_add_of_running reached, List.length_append,
    length_trail_of_running reached]
  -- The steps that were missing are not none, since the run goes on where it was cut off.
  cases extra with
  | zero => cases ended
  | succ extra =>
      rw [trail_succ, List.length_cons]
      omega

end

end Machine

namespace Sample

/-- Counts down from its argument: a loop whose turns are counted. -/
def countdown : Func where
  name := "countdown"
  params := [0]
  blocks := #[
    ⟨some "entry", [], [.const 1 (.word 1)], .jump ⟨1, [.value 0]⟩⟩,
    ⟨some "header", [2], [.binop 3 .sgt (.value 2) (.const (.word 0))],
      .branch (.value 3) ⟨2, []⟩ ⟨3, []⟩ none⟩,
    ⟨some "body", [], [.tally (.cell "turns") (.value 1), .binop 4 .sub (.value 2) (.value 1)],
      .jump ⟨1, [.value 4]⟩⟩,
    ⟨some "done", [], [], .ret (some (.value 1))⟩]
  notes := .empty
  entryCount := none
  nextValue := 5

/-- Counters at zero and no routines. -/
def still : World :=
  ⟨.zero, .ofRoutines []⟩

end Sample

namespace Machine

/-- A run takes no more steps than its budget allows, in frames each of which the step before
leads to, and leaves the world with its effects.  A larger budget makes no difference to a
run that was not cut off.  One that was cut off has taken all its steps and has had the first
of the effects that it has under a larger budget, and if it is not cut off then, it takes
more steps than the smaller budget allows. -/
theorem budget_only_truncates (f : Func) (args : List Int64) (world : World)
    {limit limit' : Nat} (le : limit ≤ limit') :
    ((trailOf f limit args world).length ≤ limit ∧
      (∀ frame, Frame.start f args = .ok frame → ∃ progress,
        Course f frame world (trailOf f limit args world) progress ∧
          run f limit args world = progress.result limit) ∧
      (run f limit args world).2 = (effects f limit args world).foldl World.perform world) ∧
    ((run f limit args world).1 ≠ .error (.stepLimitExceeded limit) →
      run f limit' args world = run f limit args world ∧
        effects f limit' args world = effects f limit args world) ∧
    ((run f limit args world).1 = .error (.stepLimitExceeded limit) →
      (trailOf f limit args world).length = limit ∧
        effects f limit args world <+: effects f limit' args world ∧
        ((run f limit' args world).1 ≠ .error (.stepLimitExceeded limit') →
          limit < (trailOf f limit' args world).length)) := by
  refine ⟨⟨length_trailOf_le f limit args world, ?_, world_run f limit args world⟩, ?_, ?_⟩
  · intro frame start
    refine ⟨advance f limit frame world, ?_, run_of_start start limit world⟩
    rw [trailOf_of_start start]
    exact course_trail f limit frame world
  · intro finished
    obtain ⟨same, trail_eq⟩ := run_of_finished le finished
    refine ⟨same, ?_⟩
    rw [effects, effects, trail_eq]
  · intro exhausted
    exact ⟨length_of_exhausted exhausted, (trailOf_prefix_of_le le).filterMap _,
      lt_length_of_exhausted le exhausted⟩

theorem budget_only_truncates_countdown :
    (run Sample.countdown 6 [2] Sample.still).1 = .error (.stepLimitExceeded 6) ∧
      (run Sample.countdown 20 [2] Sample.still).1 = .ok (some 1) ∧
      effects Sample.countdown 6 [2] Sample.still <+:
        effects Sample.countdown 20 [2] Sample.still ∧
      6 < (trailOf Sample.countdown 20 [2] Sample.still).length := by
  have exhausted : (run Sample.countdown 6 [2] Sample.still).1 =
      .error (.stepLimitExceeded 6) := rfl
  have ended : (run Sample.countdown 20 [2] Sample.still).1 = .ok (some 1) := rfl
  obtain ⟨-, -, cut⟩ := budget_only_truncates Sample.countdown [2] Sample.still
    (show 6 ≤ 20 by decide)
  obtain ⟨-, first, more⟩ := cut exhausted
  exact ⟨exhausted, ended, first, more (by rw [ended]; exact nofun)⟩

end Machine

end FlowProfile
