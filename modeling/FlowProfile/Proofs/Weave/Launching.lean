/-
# Runs from their arguments to their value

A run of a woven function that returns has gone through the prologue and then kept pace
with the function.  Here both parts are put together, once for hosts whose routines are
functions of their arguments, where the run of the function itself tells what was counted,
and once for any host, where the run of the woven function tells it.
-/

import FlowProfile.Proofs.Weave.Calls
import FlowProfile.Proofs.Weave.Running

namespace FlowProfile

namespace Prologue

/-- Whether the prologue counts the call. -/
def counts : Prologue → Bool
  | bare => false
  | counted _ | reported .. => true

theorem counts_ofCalls (calls : Bool) (reporter : Option Reporter) (next : ValueId) :
    (ofCalls calls reporter next).counts = calls := by
  cases calls with
  | false => rfl
  | true => cases reporter <;> rfl

/-- A prologue adds to the counter of calls alone. -/
theorem total_ledger_of_ne (prologue : Prologue) {measure : Measure} (apart : measure ≠ .calls) :
    prologue.ledger.total measure = 0 := by
  cases prologue with
  | bare => rfl
  | counted previous => exact if_neg apart.symm
  | reported reporter previous current hit => exact if_neg apart.symm

theorem total_ledger (prologue : Prologue) (id : BlockId) :
    prologue.ledger.total (.total id) = 0 ∧ prologue.ledger.total (.taken id) = 0 ∧
      prologue.ledger.total .calls = if prologue.counts then 1 else 0 := by
  refine ⟨prologue.total_ledger_of_ne nofun, prologue.total_ledger_of_ne nofun, ?_⟩
  cases prologue <;> rfl

end Prologue

section

variable {weave : Weave} {prologue : Prologue} {fresh : BlockId → ValueId} {f woven : Func}
  {world after' : World} {limit : Nat} {args : List Int64} {value : Option Int64}

/-- A run of the woven function that returns, from where it is at the function's own code. -/
theorem Woven.enters_of_returned (isWoven : Woven weave prologue fresh f woven)
    (sound : f.WellFormed)
    (returned : Machine.run woven limit args world = (.ok value, after')) :
    ∃ frame frame' next middle more, Frame.start f args = .ok frame ∧
      Frame.start woven args = .ok frame' ∧
      weave.Enters prologue fresh f woven frame frame' world next middle ∧
      limit = prologue.cost (prologue.fires? weave world.counters) + more ∧
      Machine.advance woven more next middle = .returned value after' := by
  obtain ⟨start', starts, reached⟩ := Machine.advance_of_run_ok returned
  have registered := isWoven.registered_of_returned sound returned
  rcases isWoven.enters_run sound registered args with
    ⟨-, refused⟩ | ⟨frame, frame', next, middle, begins, begins', enters⟩
  · rw [refused] at starts
    cases starts
  · obtain rfl : start' = frame' := Except.ok.inj (starts.symm.trans begins')
    obtain ⟨path, passes, -⟩ := enters.passes
    obtain ⟨more, rfl⟩ := Nat.exists_eq_add_of_le
      (Machine.le_of_ended passes.advance_eq reached rfl)
    rw [Machine.advance_add_of_running passes.advance_eq] at reached
    exact ⟨frame, start', next, middle, more, begins, starts, enters, rfl, reached⟩

/-- Its trail, cut where it is at the function's own code.  Up to there no routine is
called by name and no branch of the function is decided. -/
theorem Woven.trail_of_run (isWoven : Woven weave prologue fresh f woven) (sound : f.WellFormed)
    (returned : Machine.run woven limit args world = (.ok value, after')) :
    ∃ frame next early middle more,
      weave.Follows prologue fresh f woven frame next ∧
      Machine.advance woven more next middle = .returned value after' ∧
      Machine.trailOf woven limit args world = early ++ Machine.trail woven more next middle ∧
      weave.Grows prologue.ledger world middle ∧
      ∀ place ∈ early, place.namedCall? = none ∧ ∀ id < f.blocks.size,
        place.branchesAt woven (prologue.home f.blocks.size id) = false ∧
          place.takesAt woven (prologue.home f.blocks.size id) = false := by
  obtain ⟨frame, frame', next, middle, more, -, starts', enters, rfl, reached⟩ :=
    isWoven.enters_of_returned sound returned
  obtain ⟨early, passes, apart⟩ := enters.passes
  refine ⟨frame, next, early, middle, more, enters.follows, reached, ?_, enters.grows, ?_⟩
  · rw [Machine.trailOf_of_start starts', Machine.trail_add_of_running passes.advance_eq,
      passes.trail_eq]
  · intro place mem
    obtain ⟨unnamed, busy | elsewhere⟩ := apart place mem
    · exact ⟨unnamed, fun id _ =>
        ⟨Frame.branchesAt_of_busy busy _, Frame.takesAt_of_busy busy _⟩⟩
    · refine ⟨unnamed, fun id inside => ?_⟩
      simp [Frame.branchesAt, Frame.takesAt, elsewhere id inside]

section

variable (isWoven : Woven weave prologue fresh f woven) (sound : f.WellFormed)
  (spares : ∀ counter ∈ f.counters, ¬ weave.Owns counter)

include isWoven sound spares

/-- Where a run of the woven function returns, that of the function returns the same, and
its trail tells what was counted. -/
theorem Woven.returned_of_run (functional : world.host.IsFunctional)
    (interchanges : Lowering.Interchanges weave.lowering world.host.answer?)
    (returned : Machine.run woven limit args world = (.ok value, after')) :
    ∃ after, Machine.run f limit args world = (.ok value, after) ∧
      after'.host.Serves world.host.answer? ∧
      weave.Grows (prologue.ledger ++ weave.ledgers f (Machine.trailOf f limit args world)) world
        after' := by
  obtain ⟨frame, frame', next, middle, more, starts, -, enters, rfl, reached⟩ :=
    isWoven.enters_of_returned sound returned
  obtain ⟨after, ended, kin, grows⟩ := isWoven.returned_of_returned sound spares interchanges
    enters.follows (enters.kin functional) reached
  have stops : (Machine.advance f more frame world).isRunning = false := by
    rw [ended]
    rfl
  have le := Nat.le_add_left more (prologue.cost (prologue.fires? weave world.counters))
  refine ⟨after, ?_, kin.concur.serves', ?_⟩
  · rw [Machine.run_of_start starts, Machine.advance_of_ended stops le, ended]
    rfl
  · rw [Machine.trailOf_of_start starts, Machine.trail_of_ended stops le]
    exact enters.grows.trans grows

/-- Where a run of the woven function returns, its own trail tells what was counted. -/
theorem Woven.tallies_of_run
    (returned : Machine.run woven limit args world = (.ok value, after')) :
    (∀ id < f.blocks.size,
        after'.counters.read (weave.counter (.total id)) =
            world.counters.read (weave.counter (.total id)) +
              (if weave.branches then (Machine.trailOf woven limit args world).countP
                (Frame.branchesAt woven (prologue.home f.blocks.size id)) else 0).toUInt64 ∧
          after'.counters.read (weave.counter (.taken id)) =
            world.counters.read (weave.counter (.taken id)) +
              (if weave.branches then (Machine.trailOf woven limit args world).countP
                (Frame.takesAt woven (prologue.home f.blocks.size id)) else 0).toUInt64) ∧
      after'.counters.read (weave.counter .calls) =
        world.counters.read (weave.counter .calls) + if prologue.counts then 1 else 0 := by
  obtain ⟨frame, next, early, middle, more, follows, reached, trail, grows, apart⟩ :=
    isWoven.trail_of_run sound returned
  have tallies := isWoven.tallies_of_returned sound spares follows reached
  have silent (id : BlockId) (inside : id < f.blocks.size) :
      early.countP (Frame.branchesAt woven (prologue.home f.blocks.size id)) = 0 ∧
        early.countP (Frame.takesAt woven (prologue.home f.blocks.size id)) = 0 := by
    constructor
    · apply List.countP_eq_zero.mpr
      intro place mem
      rw [((apart place mem).2 id inside).1]
      exact Bool.false_ne_true
    · apply List.countP_eq_zero.mpr
      intro place mem
      rw [((apart place mem).2 id inside).2]
      exact Bool.false_ne_true
  refine ⟨fun id inside => ⟨?_, ?_⟩, ?_⟩
  · rw [tallies.total id inside, grows, (prologue.total_ledger id).1, UInt64.add_zero,
      trail, List.countP_append, (silent id inside).1, Nat.zero_add]
  · rw [tallies.taken id inside, grows, (prologue.total_ledger id).2.1, UInt64.add_zero,
      trail, List.countP_append, (silent id inside).2, Nat.zero_add]
  · rw [tallies.calls, grows, (prologue.total_ledger Func.entry).2.2]

end

end

end FlowProfile
