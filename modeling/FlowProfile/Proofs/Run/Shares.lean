/-
# A total and a part of it

Some code keeps a total and counts a part of it.  It adds one to the total, reads a truth
value, and adds that to the part.  Other runs may come between the two additions, and the
run may fail there or use up its budget, but never is the part added to before the total.

A run between the two additions owes the part one more at most.  So the part and all that
is owed together do not exceed the total, whatever the order in which runs take their
turns, unless the total wraps around.
-/

import FlowProfile.Probe.Branch
import FlowProfile.Proofs.Run.Crowd
import FlowProfile.Proofs.Run.Footprint
import FlowProfile.Proofs.Weave.Probing
import Mathlib.Data.List.Induction

namespace FlowProfile

/-- The counter is neither of two. -/
def Counter.Neither (total part counter : Counter) : Prop :=
  counter ≠ total ∧ counter ≠ part

/-- Code that adds to a total and to a part of it by probes only. -/
inductive Instr.Paired (total part : Counter) : List Instr → Prop
  | nil : Paired total part []
  | other {instr : Instr} {rest : List Instr}
      (apart : instr.CountsOnly (Counter.Neither total part)) (later : Paired total part rest) :
      Paired total part (instr :: rest)
  | probe (fresh : ValueId) (condition : Operand) {rest : List Instr}
      (later : Paired total part rest) :
      Paired total part (Probe.branchProbe total part fresh condition ++ rest)

/-- A function whose blocks add to a total and to a part of it by probes only. -/
def Func.Pairs (total part : Counter) (g : Func) : Prop :=
  ∀ id block, g.block? id = some block → Instr.Paired total part block.instrs

/-- Whether a run has added to the total without having added to the part so far. -/
inductive Frame.Owes (total part : Counter) : Bool → Frame → Prop
  | even {values : Array (Option Int64)} {block : BlockId} {rest : List Instr}
      (code : Instr.Paired total part rest) : Owes total part false ⟨values, block, rest⟩
  | counted {values : Array (Option Int64)} {block : BlockId} {rest : List Instr}
      (fresh : ValueId) (condition : Operand) (code : Instr.Paired total part rest) :
      Owes total part true
        ⟨values, block, .widen fresh condition :: .tally part (.value fresh) :: rest⟩
  | widened {values : Array (Option Int64)} {block : BlockId} {rest : List Instr}
      {fresh : ValueId} (truth : Bool) (code : Instr.Paired total part rest)
      (held : values.getD fresh none = some (BinOp.ofTruth truth)) :
      Owes total part true ⟨values, block, .tally part (.value fresh) :: rest⟩

/-- Whether a run owes the part. A run that is over owes nothing any more. -/
inductive Strand.Owes (total part : Counter) : Bool → Strand → Prop
  | going {limit left : Nat} {frame : Frame} {debt : Bool}
      (owes : frame.Owes total part debt) : Owes total part debt (.going limit left frame)
  | ended (result : Except Error (Option Int64)) : Owes total part false (.ended result)

/-- What becomes of the total and the part when a run that may owe takes its turn. -/
inductive Counters.Pays (total part : Counter) : Bool → Bool → Counters → Counters → Prop
  | quiet {debt debt' : Bool} {counters counters' : Counters}
      (less : debt' = true → debt = true)
      (total_eq : counters'.read total = counters.read total)
      (part_eq : counters'.read part = counters.read part) :
      Pays total part debt debt' counters counters'
  | total {counters counters' : Counters}
      (total_eq : counters'.read total = counters.read total + 1)
      (part_eq : counters'.read part = counters.read part) :
      Pays total part false true counters counters'
  | part (truth : Bool) {counters counters' : Counters}
      (total_eq : counters'.read total = counters.read total)
      (part_eq : counters'.read part = counters.read part + truth.toUInt64) :
      Pays total part true false counters counters'

variable {total part : Counter}

namespace Instr.Paired

theorem append {first second : List Instr} (early : Paired total part first)
    (late : Paired total part second) : Paired total part (first ++ second) := by
  induction early with
  | nil => exact late
  | other apart later ih => exact .other apart ih
  | probe fresh condition later ih =>
      rw [List.append_assoc]
      exact .probe fresh condition ih

theorem of_countsOnly {code : List Instr}
    (apart : ∀ instr ∈ code, instr.CountsOnly (Counter.Neither total part)) :
    Paired total part code := by
  induction code with
  | nil => exact .nil
  | cons first rest ih =>
      exact .other (apart first List.mem_cons_self)
        (ih fun instr mem => apart instr (List.mem_cons_of_mem _ mem))

end Instr.Paired

/-! ## Turns -/

theorem Counters.Pays.refl (total part : Counter) {debt debt' : Bool}
    (less : debt' = true → debt = true) (counters : Counters) :
    counters.Pays total part debt debt' counters :=
  .quiet less rfl rfl

section

variable {g : Func} {frame : Frame} {limit left : Nat} {debt : Bool} {strand : Strand}

/-- A run that has reached the end of a block owes nothing in the next one. -/
theorem Frame.owes_of_end (pairs : g.Pairs total part) {values : Array (Option Int64)}
    {position : BlockId} {world world' : World} {next : Frame}
    (stepped : Machine.step g ⟨values, position, []⟩ world = .running next world') :
    next.Owes total part false := by
  rw [Machine.step] at stepped
  split at stepped
  · cases stepped
  · split at stepped
    · next finished =>
        cases stepped
        obtain ⟨edge, -, followed⟩ := Frame.follow_of_finishBlock finished
        obtain ⟨block, found, -, rest_eq⟩ := Frame.place_of_follow followed
        obtain ⟨values', position', rest⟩ := next
        obtain rfl : rest = block.instrs := rest_eq
        exact .even (pairs edge.target block found)
    · cases stepped
    · cases stepped

/-- A widened condition is a truth value. -/
theorem Frame.owes_of_widen {values : Array (Option Int64)} {position : BlockId}
    {fresh : ValueId} {condition : Operand} {rest : List Instr}
    (code : Instr.Paired total part rest) {world world' : World} {next : Frame}
    (stepped : Machine.step g
      ⟨values, position, .widen fresh condition :: .tally part (.value fresh) :: rest⟩ world =
        .running next world') : next.Owes total part true := by
  rw [Machine.step, Machine.execute] at stepped
  cases read : (⟨values, position, .tally part (.value fresh) :: rest⟩ : Frame).read condition with
  | error error =>
      simp only [read] at stepped
      cases stepped
  | ok value =>
      simp only [read, Frame.write] at stepped
      split at stepped
      · next written =>
          split at written
          · next inside =>
              cases stepped
              cases written
              refine .widened (value ≠ 0) code ?_
              rw [getD_setIfInBounds, if_pos ⟨rfl, inside⟩]
          · cases written
      · cases stepped

/-- A turn that leaves both counters alone. -/
theorem Strand.pays_of_still {debt' : Bool} {world : World} (less : debt' = true → debt = true)
    (onward : ∀ next world', Machine.step g frame world = .running next world' →
      next.Owes total part debt')
    (total_eq : (Machine.step g frame world).world.counters.read total =
      world.counters.read total)
    (part_eq : (Machine.step g frame world).world.counters.read part =
      world.counters.read part) :
    ∃ settled, ((going limit (left + 1) frame).step g world).1.Owes total part settled ∧
      world.counters.Pays total part debt settled
        ((going limit (left + 1) frame).step g world).2.counters := by
  have none : false = true → debt = true := Bool.false_ne_true.elim
  rw [Strand.step]
  cases stepped : Machine.step g frame world with
  | running next world' =>
      rw [stepped] at total_eq part_eq
      exact ⟨debt', .going (onward next world' stepped), .quiet less total_eq part_eq⟩
  | returned value world' =>
      rw [stepped] at total_eq part_eq
      exact ⟨false, .ended _, .quiet none total_eq part_eq⟩
  | failed error world' =>
      rw [stepped] at total_eq part_eq
      exact ⟨false, .ended _, .quiet none total_eq part_eq⟩

/-- A turn that adds to one of the counters. -/
theorem Strand.pays_of_running {debt' : Bool} {world world' : World} {next : Frame}
    (stepped : Machine.step g frame world = .running next world')
    (owes : next.Owes total part debt')
    (pays : world.counters.Pays total part debt debt' world'.counters) :
    ∃ settled, ((going limit (left + 1) frame).step g world).1.Owes total part settled ∧
      world.counters.Pays total part debt settled
        ((going limit (left + 1) frame).step g world).2.counters := by
  rw [Strand.step, stepped]
  exact ⟨debt', .going owes, pays⟩

/-- The turn of a run that owes nothing so far. -/
theorem Strand.pays_even (pairs : g.Pairs total part) (differ : total ≠ part)
    {values : Array (Option Int64)} {position : BlockId} {code : List Instr}
    (paired : Instr.Paired total part code) (world : World) :
    ∃ settled,
      ((going limit (left + 1) ⟨values, position, code⟩).step g world).1.Owes total part settled ∧
        world.counters.Pays total part false settled
          ((going limit (left + 1) ⟨values, position, code⟩).step g world).2.counters := by
  cases paired with
  | nil =>
      refine pays_of_still id (fun next world' => Frame.owes_of_end pairs) ?_ ?_
      · rw [Machine.world_step_nil]
      · rw [Machine.world_step_nil]
  | @other instr rest apart later =>
      refine pays_of_still id ?_ ?_ ?_
      · intro next world' stepped
        obtain ⟨values', position', code⟩ := next
        obtain rfl : code = rest := Machine.rest_of_step stepped
        exact .even later
      · rw [Machine.world_step_cons]
        exact Machine.read_execute apart (fun both => both.1 rfl) _ world
      · rw [Machine.world_step_cons]
        exact Machine.read_execute apart (fun both => both.2 rfl) _ world
  | @probe fresh condition rest later =>
      obtain ⟨counters, host⟩ := world
      have stepped : Machine.step g ⟨values, position,
          Probe.branchProbe total part fresh condition ++ rest⟩ ⟨counters, host⟩ =
          .running ⟨values, position,
            .widen fresh condition :: .tally part (.value fresh) :: rest⟩
            ⟨counters.add total 1, host⟩ := rfl
      refine pays_of_running stepped (.counted fresh condition later) (.total ?_ ?_)
      · exact Counters.read_add_self ..
      · exact Counters.read_add_of_ne differ ..

/-- Every turn leads from one debt to another, and does to the counters what this takes. -/
theorem Strand.pays (pairs : g.Pairs total part) (differ : total ≠ part)
    (owes : strand.Owes total part debt) (world : World) :
    ∃ settled, (strand.step g world).1.Owes total part settled ∧
      world.counters.Pays total part debt settled (strand.step g world).2.counters := by
  cases owes with
  | ended result => exact ⟨false, .ended result, .refl total part id world.counters⟩
  | @going limit left frame debt owes =>
      cases left with
      | zero => exact ⟨false, .ended _, .quiet nofun rfl rfl⟩
      | succ left =>
          cases owes with
          | even paired => exact pays_even pairs differ paired world
          | counted fresh condition code =>
              have silent : (Instr.widen fresh condition).CountsOnly fun _ => False := nofun
              refine pays_of_still id (fun next world' => Frame.owes_of_widen code) ?_ ?_
              · rw [Machine.world_step_cons]
                exact Machine.read_execute silent id _ world
              · rw [Machine.world_step_cons]
                exact Machine.read_execute silent id _ world
          | @widened values position rest fresh truth code held =>
              have read : (⟨values, position, rest⟩ : Frame).read (.value fresh) =
                  .ok (BinOp.ofTruth truth) := by
                rw [Frame.read_value, held]
              refine pays_of_running (Machine.step_tally read) (.even code) (.part truth ?_ ?_)
              · exact Counters.read_add_of_ne differ.symm ..
              · rw [Counters.read_add_self]
                cases truth <;> rfl

end

/-- A run at its start owes nothing. -/
theorem Strand.owes_start {g : Func} (pairs : g.Pairs total part) (limit : Nat)
    (args : List Int64) : (start g limit args).Owes total part false := by
  rw [start]
  cases entered : Frame.start g args with
  | error error => exact .ended _
  | ok frame =>
      obtain ⟨block, found, rest_eq⟩ := Frame.rest_of_start entered
      obtain ⟨values, position, rest⟩ := frame
      obtain rfl : rest = block.instrs := rest_eq
      exact .going (.even (pairs Func.entry block found))

/-! ## All runs together -/

/-- A turn keeps the part and all debts below the total, unless the total wraps around. -/
theorem Counters.Pays.le {counters counters' : Counters} {debt debt' : Bool} {debts debts' : Nat}
    (pays : counters.Pays total part debt debt' counters')
    (sum : debts' + debt.toNat = debts + debt'.toNat)
    (climbs : counters.read total ≤ counters'.read total)
    (bound : (counters.read part).toNat + debts ≤ (counters.read total).toNat) :
    (counters'.read part).toNat + debts' ≤ (counters'.read total).toNat := by
  have small := (counters.read total).toNat_lt
  rw [UInt64.le_iff_toNat_le] at climbs
  cases pays with
  | quiet less total_eq part_eq =>
      have fewer : debt'.toNat ≤ debt.toNat := by
        cases debt <;> cases debt' <;> simp_all
      rw [total_eq, part_eq]
      omega
  | total total_eq part_eq =>
      obtain rfl : debts' = debts + 1 := sum
      rw [total_eq, UInt64.toNat_add] at climbs ⊢
      rw [part_eq]
      have one : (1 : UInt64).toNat = 1 := rfl
      omega
  | part truth total_eq part_eq =>
      obtain rfl : debts = debts' + 1 := sum.symm
      rw [total_eq, part_eq, UInt64.toNat_add]
      have few : truth.toUInt64.toNat ≤ 1 := by cases truth <;> decide
      omega

namespace Pool

variable {code : List Func} {pool : Pool}

/-- Runs that owe nothing at their start keep the part below the total. -/
theorem part_le_total (pairs : ∀ g ∈ code, g.Pairs total part) (differ : total ≠ part)
    (even : ∀ strand ∈ pool.strands, strand.Owes total part false)
    (bound : pool.world.counters.read part ≤ pool.world.counters.read total)
    {schedule : List Nat} (climbs : pool.Climbs code schedule) :
    (pool.playAmong code schedule).world.counters.read part ≤
      (pool.playAmong code schedule).world.counters.read total := by
  have noted : ∃ debts, Noted (fun _ debt strand => strand.Owes total part debt)
      (fun debts world => (world.counters.read part).toNat + debts.countP id ≤
        (world.counters.read total).toNat) debts (pool.playAmong code schedule) := by
    induction schedule using List.reverseRecOn with
    | nil =>
        refine ⟨.replicate pool.strands.length false, List.length_replicate, ?_, ?_⟩
        · intro index strand debt found here
          obtain rfl : debt = false := List.eq_of_mem_replicate (List.mem_of_getElem? here)
          exact even strand (List.mem_of_getElem? found)
        · rw [List.countP_replicate]
          exact UInt64.le_iff_toNat_le.mp bound
    | append_singleton earlier index ih =>
        obtain ⟨debts, noted⟩ := ih fun first index sooner =>
          climbs first index (sooner.trans (List.prefix_append earlier [_]))
        have rises := climbs earlier index (List.prefix_refl _) total
        rw [playAmong_concat] at rises ⊢
        refine noted.turn fun g strand debt coded found here owes => ?_
        obtain ⟨settled, owes', pays⟩ := Strand.pays (pairs g (List.mem_of_getElem? coded)) differ
          owes (pool.playAmong code earlier).world
        refine ⟨settled, owes', pays.le (countP_set_add id here settled) ?_ noted.tells⟩
        rw [turnAmong, coded] at rises
        simp only [turn_of_some found] at rises
        exact rises
  obtain ⟨debts, noted⟩ := noted
  exact UInt64.le_iff_toNat_le.mpr (Nat.le_trans (Nat.le_add_right _ _) noted.tells)

end Pool

end FlowProfile
