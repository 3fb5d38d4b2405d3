/-
# Runs that interleave

Several runs of one function take their steps in turn, in whatever order a schedule says.
They share the world and nothing else.  Every step that is taken is recorded, with the
frame it was taken from and with the world before and after it, so that it can be told
afterwards which run did what, and when.

A run whose turn it is when its budget is used up ends, so that all runs are over when each
of them has got more turns than its budget.
-/

import FlowProfile.Proofs.Run.Trail

namespace FlowProfile

/-- A run among others: it goes on from a frame, with some of its budget left, or it has
ended. -/
inductive Strand
  | going (limit left : Nat) (frame : Frame)
  | ended (result : Except Error (Option Int64))

/-- A step that a run has taken. -/
structure Move where
  strand : Nat
  frame : Frame
  before : World
  after : World

/-- The calls that a step has made, the latest first. -/
def Move.calls (move : Move) : List Call :=
  move.after.host.calls.take (move.after.host.calls.length - move.before.host.calls.length)

theorem Move.calls_eq {move : Move} {made : List Call}
    (recorded : move.after.host.calls = made ++ move.before.host.calls) : move.calls = made := by
  rw [calls, recorded, List.length_append, Nat.add_sub_cancel, List.take_left]

namespace Strand

/-- A run at its start. -/
def start (g : Func) (limit : Nat) (args : List Int64) : Strand :=
  match Frame.start g args with
  | .ok frame => going limit limit frame
  | .error error => ended (.error error)

/-- Whether the run is over. -/
def hasEnded : Strand → Bool
  | going .. => false
  | ended _ => true

/-- What becomes of a run, and of the world, when it is the run's turn. -/
def step (g : Func) : Strand → World → Strand × World
  | going limit 0 _, world => (ended (.error (.stepLimitExceeded limit)), world)
  | going limit (left + 1) frame, world =>
      match Machine.step g frame world with
      | .running next world => (going limit left next, world)
      | .returned value world => (ended (.ok value), world)
      | .failed error world => (ended (.error error), world)
  | ended result, world => (ended result, world)

/-- What is recorded of a turn of a run, when it has changed the world. -/
def moves (index : Nat) (strand : Strand) (before after : World) : List Move :=
  match strand with
  | going _ (_ + 1) frame => [⟨index, frame, before, after⟩]
  | going _ 0 _ | ended _ => []

theorem strand_of_mem_moves {index : Nat} {strand : Strand} {before after : World} {move : Move}
    (mem : move ∈ strand.moves index before after) : move.strand = index := by
  unfold moves at mem
  split at mem
  · rw [List.mem_singleton.mp mem]
  · cases mem
  · cases mem

variable {g : Func} {limit left : Nat} {frame : Frame} {world : World}

theorem world_of_step :
    ((going limit (left + 1) frame).step g world).2 = (Machine.step g frame world).world := by
  rw [step]
  cases Machine.step g frame world <;> rfl

/-- A run that goes on after its turn has taken a step of its budget. -/
theorem running_of_step {limit' left' : Nat} {next : Frame}
    (goes : ((going limit (left + 1) frame).step g world).1 = going limit' left' next) :
    left' = left ∧ ∃ world', Machine.step g frame world = .running next world' := by
  rw [step] at goes
  cases stepped : Machine.step g frame world with
  | running place world' =>
      rw [stepped] at goes
      cases goes
      exact ⟨rfl, world', rfl⟩
  | returned value world' => rw [stepped] at goes; cases goes
  | failed error world' => rw [stepped] at goes; cases goes

theorem budget_of_start {budget : Nat} {args : List Int64}
    (goes : start g budget args = going limit left frame) : left = budget := by
  rw [start] at goes
  cases entered : Frame.start g args with
  | ok place =>
      rw [entered] at goes
      cases goes
      rfl
  | error error =>
      rw [entered] at goes
      cases goes

end Strand

/-- A number of items changes with the one that is replaced. -/
theorem countP_set_add {α : Type} (property : α → Bool) {list : List α} {index : Nat} {old : α}
    (found : list[index]? = some old) (new : α) :
    (list.set index new).countP property + (property old).toNat =
      list.countP property + (property new).toNat := by
  induction list generalizing index with
  | nil => cases found
  | cons head rest ih =>
      cases index with
      | zero =>
          cases found
          rw [List.set_cons_zero, List.countP_cons, List.countP_cons]
          cases property old <;> cases property new <;> rfl
      | succ index =>
          have later := ih found
          rw [List.set_cons_succ, List.countP_cons, List.countP_cons]
          omega

/-- Runs of one function, the world they share, and the steps taken so far, the earliest
first. -/
structure Pool where
  strands : List Strand
  world : World
  moves : List Move

namespace Pool

/-- Runs at their start, each with its budget and its arguments. -/
def start (g : Func) (world : World) (inputs : List (Nat × List Int64)) : Pool :=
  ⟨inputs.map fun input => Strand.start g input.1 input.2, world, []⟩

/-- The turn of one run. -/
def turn (g : Func) (pool : Pool) (index : Nat) : Pool :=
  match pool.strands[index]? with
  | none => pool
  | some strand =>
      ⟨pool.strands.set index (strand.step g pool.world).1, (strand.step g pool.world).2,
        pool.moves ++ strand.moves index pool.world (strand.step g pool.world).2⟩

/-- Turn after turn, as a schedule says. -/
def play (g : Func) (pool : Pool) (schedule : List Nat) : Pool :=
  schedule.foldl (turn g) pool

/-- The steps that one run has taken. -/
def movesOf (pool : Pool) (index : Nat) : List Move :=
  pool.moves.filter (·.strand == index)

/-- Whether every run is over. -/
def HasEnded (pool : Pool) : Prop :=
  ∀ strand ∈ pool.strands, strand.hasEnded = true

variable {g : Func} {pool : Pool} {index : Nat} {strand : Strand}

theorem turn_of_some (found : pool.strands[index]? = some strand) :
    pool.turn g index =
      ⟨pool.strands.set index (strand.step g pool.world).1, (strand.step g pool.world).2,
        pool.moves ++ strand.moves index pool.world (strand.step g pool.world).2⟩ := by
  rw [turn, found]

theorem turn_of_none (absent : pool.strands[index]? = none) : pool.turn g index = pool := by
  rw [turn, absent]

/-- What holds at the start and is kept by every turn holds throughout. -/
theorem play_invariant {invariant : Pool → Prop}
    (kept : ∀ pool index strand, invariant pool → pool.strands[index]? = some strand →
      invariant (pool.turn g index))
    (schedule : List Nat) (begins : invariant pool) : invariant (pool.play g schedule) := by
  induction schedule generalizing pool with
  | nil => exact begins
  | cons index rest ih =>
      apply ih
      cases found : pool.strands[index]? with
      | none =>
          rw [turn_of_none found]
          exact begins
      | some strand => exact kept pool index strand begins found

/-- A turn adds to the steps of the run whose turn it is. -/
theorem movesOf_turn_self (found : pool.strands[index]? = some strand) :
    (pool.turn g index).movesOf index =
      pool.movesOf index ++ strand.moves index pool.world (strand.step g pool.world).2 := by
  have own : (strand.moves index pool.world (strand.step g pool.world).2).filter
      (·.strand == index) = strand.moves index pool.world (strand.step g pool.world).2 := by
    apply List.filter_eq_self.mpr
    intro move mem
    rw [Strand.strand_of_mem_moves mem, beq_self_eq_true]
  rw [turn_of_some found, movesOf, List.filter_append, own, movesOf]

/-- A turn moves no other run. -/
theorem strands_turn_of_ne {other : Nat} (apart : other ≠ index) :
    (pool.turn g index).strands[other]? = pool.strands[other]? := by
  cases found : pool.strands[index]? with
  | none => rw [turn_of_none found]
  | some strand => rw [turn_of_some found, List.getElem?_set_ne (Ne.symm apart)]

/-- A turn adds to the steps of no other run. -/
theorem movesOf_turn_of_ne {other : Nat} (apart : other ≠ index) :
    (pool.turn g index).movesOf other = pool.movesOf other := by
  cases found : pool.strands[index]? with
  | none => rw [turn_of_none found]
  | some strand =>
      have foreign : (strand.moves index pool.world (strand.step g pool.world).2).filter
          (·.strand == other) = [] := by
        apply List.filter_eq_nil_iff.mpr
        intro move mem
        rw [Strand.strand_of_mem_moves mem, beq_iff_eq]
        exact apart.symm
      rw [turn_of_some found, movesOf, List.filter_append, foreign, List.append_nil, movesOf]

/-! ## The end of all runs -/

/-- A run whose turn it is uses up some of its budget, or else it ends. -/
theorem turn_spends {limit left : Nat} {frame : Frame} {schedule : List Nat}
    (enough : ∀ limit left frame, pool.strands[index]? = some (.going limit left frame) →
      left < schedule.count index + 1)
    (goes : (pool.turn g index).strands[index]? = some (.going limit left frame)) :
    left < schedule.count index := by
  cases found : pool.strands[index]? with
  | none =>
      rw [turn_of_none found, found] at goes
      cases goes
  | some strand =>
      have inside := (List.getElem?_eq_some_iff.mp found).1
      rw [turn_of_some found, List.getElem?_set_self inside] at goes
      cases strand with
      | ended result => cases goes
      | going limit' left' frame' =>
          cases left' with
          | zero => cases goes
          | succ left' =>
              obtain ⟨rfl, -⟩ := Strand.running_of_step (Option.some.inj goes)
              exact Nat.lt_of_succ_lt_succ (enough limit' (left + 1) frame' found)

/-- When every run has got one more turn than it has steps left, all runs are over. -/
theorem hasEnded_play (schedule : List Nat)
    (enough : ∀ index limit left frame,
      pool.strands[index]? = some (.going limit left frame) → left < schedule.count index) :
    (pool.play g schedule).HasEnded := by
  induction schedule generalizing pool with
  | nil =>
      intro strand mem
      obtain ⟨index, found⟩ := List.getElem?_of_mem mem
      cases strand with
      | ended result => rfl
      | going limit left frame => cases enough index limit left frame found
  | cons first rest ih =>
      apply ih
      intro index limit left frame goes
      by_cases same : index = first
      · subst same
        apply turn_spends _ goes
        intro limit left frame found
        rw [← List.count_cons_self]
        exact enough index limit left frame found
      · rw [strands_turn_of_ne same] at goes
        rw [← List.count_cons_of_ne (Ne.symm same)]
        exact enough index limit left frame goes

/-- Runs from their start are over when each has got more turns than its budget. -/
theorem hasEnded_start (world : World) {inputs : List (Nat × List Int64)} {schedule : List Nat}
    (enough : ∀ index input, inputs[index]? = some input → input.1 < schedule.count index) :
    ((start g world inputs).play g schedule).HasEnded := by
  apply hasEnded_play
  intro index limit left frame goes
  rw [start, List.getElem?_map] at goes
  obtain ⟨input, found, starts⟩ := Option.map_eq_some_iff.mp goes
  rw [Strand.budget_of_start starts]
  exact enough index input found

end Pool

end FlowProfile
