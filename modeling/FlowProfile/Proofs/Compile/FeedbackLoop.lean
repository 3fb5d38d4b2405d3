/-
# Feedback closes the loop

A function is compiled with its branches counted, is run, and is looked at again.  The
weights that feedback gives to its branches are what has happened in the runs: how often
each branch was decided one way, and how often the other.  A branch that was not decided
keeps the weights it has.

Nothing is asked of the host.  What has happened is read off the runs of the compiled
function, in which the branch of the entry block may stand elsewhere.
-/

import FlowProfile.Proofs.Compile.BranchCounts

namespace FlowProfile

/-- How often something happens in runs, at the place where a block of a source stands in
the compiled function. -/
def Launch.seen (kind : Func → BlockId → Frame → Bool) (build : Build)
    (reporter : Option Reporter) (world : World) (launches : List Launch) (id : BlockId) : Nat :=
  tally Build.target (kind · (build.source.home reporter id)) world launches

/-! ## What a sequence of runs has counted -/

namespace Launch

variable {world after : World} {launches : List Launch}

/-- In runs that return every branch that is decided follows one of its edges. -/
theorem Return.decided (returns : Return world launches after) (id : BlockId) :
    tally Build.target (Frame.branchesAt · id) world launches =
      tally Build.target (Frame.takesAt · id) world launches +
        tally Build.target (Frame.passesAt · id) world launches := by
  induction returns with
  | nil world => rfl
  | @cons world middle after launch rest value returned later ih =>
      obtain ⟨frame, starts, reached⟩ := Machine.advance_of_run_ok returned
      have here := Machine.countP_branchesAt_of_returned reached id
      rw [tally, tally, tally, returned, Machine.trailOf_of_start starts, here, ih]
      exact Nat.add_add_add_comm _ _ _ _

/-- Runs of one woven function add to its counters what their own trails tell, and their
number if calls are counted. -/
theorem Return.tallies (returns : Return world launches after) {build : Build}
    (same : ∀ launch ∈ launches, launch.build = build) {weave : Weave} {prologue : Prologue}
    {fresh : BlockId → ValueId}
    (isWoven : Woven weave prologue fresh build.source build.target)
    (sound : build.source.WellFormed)
    (spares : ∀ counter ∈ build.source.counters, ¬ weave.Owns counter)
    (on : weave.branches = true) :
    (∀ id < build.source.blocks.size,
        after.counters.read (weave.counter (.total id)) =
            world.counters.read (weave.counter (.total id)) +
              (tally Build.target (Frame.branchesAt · (prologue.home build.source.blocks.size id))
                world launches).toUInt64 ∧
          after.counters.read (weave.counter (.taken id)) =
            world.counters.read (weave.counter (.taken id)) +
              (tally Build.target (Frame.takesAt · (prologue.home build.source.blocks.size id))
                world launches).toUInt64) ∧
      after.counters.read (weave.counter .calls) =
        world.counters.read (weave.counter .calls) +
          (if prologue.counts then launches.length else 0).toUInt64 := by
  have sum (start : UInt64) (count count' : Nat) :
      start + count.toUInt64 + count'.toUInt64 = start + (count + count').toUInt64 := by
    rw [UInt64.add_assoc]
    exact congrArg (start + ·) (UInt64.ofNat_add count count').symm
  induction returns with
  | nil world =>
      refine ⟨fun id inside => ⟨(UInt64.add_zero _).symm, (UInt64.add_zero _).symm⟩, ?_⟩
      cases prologue.counts <;> exact (UInt64.add_zero _).symm
  | @cons world middle after launch rest value returned later ih =>
      obtain ⟨branches, calls⟩ := ih fun other mem => same other (List.mem_cons_of_mem _ mem)
      have returned' := returned
      rw [same launch List.mem_cons_self] at returned'
      obtain ⟨branches', calls'⟩ := isWoven.tallies_of_run sound spares returned'
      constructor
      · intro id inside
        obtain ⟨total, taken⟩ := branches id inside
        obtain ⟨total', taken'⟩ := branches' id inside
        rw [if_pos on] at total' taken'
        rw [total, taken, total', taken', tally, tally, returned,
          same launch List.mem_cons_self, sum, sum]
        exact ⟨rfl, rfl⟩
      · rw [calls, calls', UInt64.add_assoc, List.length_cons]
        cases prologue.counts with
        | false => rfl
        | true =>
            have one : (1 : UInt64) + rest.length.toUInt64 = (rest.length + 1).toUInt64 := by
              rw [UInt64.add_comm]
              exact (UInt64.ofNat_add rest.length 1).symm
            exact congrArg (_ + ·) one

end Launch

/-! ## What feedback makes of the counts -/

namespace Feedback

variable {counters : Counters} {counter : Measure → Counter} {slots : Slots} {slot : Nat}

/-- Counters without overflow are weights of what they have counted. -/
theorem weights?_of_counts {taken passed : Nat} (few : taken + passed < UInt64.size)
    (populated : slots.has slot = true)
    (total_eq : counters.read (counter (.total slot)) = (taken + passed).toUInt64)
    (taken_eq : counters.read (counter (.taken slot)) = taken.toUInt64) :
    weights? counters counter slots slot =
      if taken + passed = 0 then none else some ⟨taken.toUInt64, passed.toUInt64⟩ := by
  have total_toNat : (taken + passed).toUInt64.toNat = taken + passed :=
    UInt64.toNat_ofNat_of_lt' few
  have taken_toNat : taken.toUInt64.toNat = taken :=
    UInt64.toNat_ofNat_of_lt' (Nat.lt_of_le_of_lt (Nat.le_add_right _ _) few)
  have le : taken.toUInt64 ≤ (taken + passed).toUInt64 := by
    rw [UInt64.le_iff_toNat_le, total_toNat, taken_toNat]
    exact Nat.le_add_right _ _
  have rest : (taken + passed).toUInt64 - taken.toUInt64 = passed.toUInt64 := by
    apply UInt64.toNat_inj.mp
    rw [UInt64.toNat_sub_of_le _ _ le, total_toNat, taken_toNat, Nat.add_sub_cancel_left]
    exact (UInt64.toNat_ofNat_of_lt' (Nat.lt_of_le_of_lt (Nat.le_add_left _ _) few)).symm
  have reached : ((taken + passed).toUInt64 != 0) = decide (taken + passed ≠ 0) := by
    rw [Bool.eq_iff_iff, bne_iff_ne, decide_eq_true_eq]
    apply not_congr
    rw [← UInt64.toNat_inj, total_toNat]
    rfl
  simp only [weights?, total_eq, taken_eq, populated, Bool.true_and, reached, if_pos le, rest]
  by_cases none : taken + passed = 0
  · rw [if_pos none, decide_eq_false (not_not_intro none)]
    rfl
  · rw [if_neg none, decide_eq_true none]
    rfl

/-- A slot without counters gives no weights. -/
theorem weights?_of_not_has (unpopulated : slots.has slot = false) :
    weights? counters counter slots slot = none := by
  rw [weights?, unpopulated]
  rfl

/-- With slots at hand, feedback weighs block after block. -/
theorem block?_apply (counters : Counters) (store : Store) {slots : Slots}
    (known : slots.isEmpty = false) (f : Func) (id : BlockId) :
    (apply counters store slots f).func.block? id =
      (f.block? id).map (weighBlock (weights? counters (store.counter f.name) slots id)) := by
  simp only [apply, known, Bool.false_eq_true, if_false, Func.block?, Array.getElem?_mapIdx]

theorem entryCount_apply (counters : Counters) (store : Store) (slots : Slots) (f : Func) :
    (apply counters store slots f).func.entryCount =
      some (counters.read (store.counter f.name .calls)) := by
  unfold apply
  split <;> rfl

end Feedback

namespace Probe.Before

variable {settings : Settings} {flags : Flags} {counters : Counters} {store : Store}
  {profile : Profile} {f : Func}

end Probe.Before

/-! ## Around the loop -/

/-- A function as feedback meets it: the ends of its blocks are those of `f`, and the slots
with counters are those of its branches. -/
structure Feedback.Meets (f : Func) (slots : Slots) (g : Func) : Prop where
  name_eq : g.name = f.name
  size_eq : g.blocks.size = f.blocks.size
  images : ∀ id block, f.block? id = some block →
    ∃ image, g.block? id = some image ∧ image.terminator = block.terminator
  sized : slots.size = f.blocks.size
  has_iff : ∀ id, slots.has id = true ↔ f.BranchesAt id

/-- Probing the branches once more changes nothing about that. -/
theorem Feedback.Meets.branches {f g : Func} {slots : Slots} (meets : Meets f slots g)
    (store : Store) : Meets f (Probe.branchSlots slots g) (Probe.branches store g).func := by
  have fits : slots.fits g.blocks.size = true := by
    rw [Slots.fits, meets.sized, meets.size_eq, beq_self_eq_true, Bool.or_true]
  have known {id : BlockId} (branches : g.BranchesAt id) : f.BranchesAt id := by
    obtain ⟨image, found, isRuntime⟩ := branches
    have inside := Func.lt_size_of_block? found
    rw [meets.size_eq] at inside
    have found' : f.block? id = some f.blocks[id] := Array.getElem?_eq_getElem inside
    obtain ⟨image', found'', flow⟩ := meets.images id _ found'
    obtain rfl : image = image' := Option.some.inj (found.symm.trans found'')
    exact ⟨_, found', flow ▸ isRuntime⟩
  constructor
  · exact meets.name_eq
  · exact (Probe.sameGraph_branches store g).size_eq.trans meets.size_eq
  · intro id block found
    obtain ⟨image, found', flow⟩ := meets.images id block found
    obtain ⟨last, found'', -, flow'⟩ := (Probe.sameGraph_branches store g).image id image found'
    exact ⟨last, found'', flow'.trans flow⟩
  · rw [Probe.size_branchSlots fits, meets.size_eq]
  · intro id
    rw [Probe.has_branchSlots fits, meets.has_iff]
    exact ⟨fun either => either.elim (fun here => here) known, .inl⟩

theorem Feedback.Meets.known {f g : Func} {slots : Slots} (meets : Meets f slots g)
    (pos : 0 < f.blocks.size) : slots.isEmpty = false := by
  have size : slots.populated.length = f.blocks.size := meets.sized
  rw [Slots.isEmpty, List.isEmpty_eq_false_iff]
  intro none
  rw [none] at size
  exact Nat.lt_irrefl _ (size ▸ pos)

/-- What became of a function that was fed back how often it was entered, and for each of
its branches how often it was decided and how often each edge was followed. -/
structure Fed (f fed : Func) (entered : Nat) (decided taken passed : BlockId → Nat) : Prop where
  entryCount_eq : fed.entryCount = some entered.toUInt64
  sum_eq : ∀ id, decided id = taken id + passed id
  size_eq : fed.blocks.size = f.blocks.size
  weighted : ∀ id block, f.block? id = some block →
    block.terminator.runtimeCondition?.isSome = true → decided id ≠ 0 →
      ∃ image weights, fed.block? id = some image ∧
        image.terminator = block.terminator.withWeights weights ∧
        weights.taken.toNat = taken id ∧ weights.notTaken.toNat = passed id
  kept : ∀ id block, f.block? id = some block →
    block.terminator.runtimeCondition? = none ∨ decided id = 0 →
      ∃ image, fed.block? id = some image ∧ image.terminator = block.terminator

namespace Sample

end Sample

end FlowProfile
