/-
# A sum and the count of what it sums up

Some code adds amounts to one counter and keeps count of them in another.  The probe of a
branch counts before it adds, that of an allocation adds before it counts, and nothing can
fail between an addition and the counting that follows it.  Only the end of the budget
comes there, so a run that is not cut off and has added anything has counted as well.

What has been counted is the number of additions to the count, as long as it fits into a
counter.
-/

import FlowProfile.Proofs.Run.Effects
import FlowProfile.Proofs.Run.Shares
import FlowProfile.Proofs.Run.Stepping

namespace FlowProfile

/-- Code that adds to a sum only with its count next to it. -/
inductive Instr.Counted (count sum : Counter) : List Instr → Prop
  | nil : Counted count sum []
  | other {instr : Instr} {rest : List Instr}
      (apart : instr.CountsOnly (Counter.Neither count sum)) (later : Counted count sum rest) :
      Counted count sum (instr :: rest)
  | before (fresh : ValueId) (condition : Operand) {rest : List Instr}
      (later : Counted count sum rest) :
      Counted count sum (Probe.branchProbe count sum fresh condition ++ rest)
  | after (amount : Operand) {rest : List Instr} (later : Counted count sum rest) :
      Counted count sum (.tally sum amount :: .tally count Probe.one :: rest)

/-- The instruction counts one at a time. -/
def Instr.CountsUp (count : Counter) (instr : Instr) : Prop :=
  instr.counter? = some count → instr = .tally count Probe.one

/-- Whether an effect adds to a counter. -/
def Effect.addsTo (counter : Counter) : Effect → Bool
  | .addition other _ => other == counter
  | .call _ => false

/-- What an effect adds to a counter. -/
def Effect.amountTo (counter : Counter) : Effect → UInt64
  | .addition other amount => if other = counter then amount else 0
  | .call _ => 0

/-- All that effects add to a counter. -/
def Effect.total (counter : Counter) : List Effect → UInt64
  | [] => 0
  | effect :: rest => effect.amountTo counter + total counter rest

/-- Something was counted a number of times, and if that is zero nothing was summed up. -/
structure Counters.Tells (count sum : Counter) (counters : Counters) (times : Nat) : Prop where
  count_eq : counters.read count = times.toUInt64
  idle : times = 0 → counters.read sum = 0

variable {count sum : Counter} {f : Func} {frame next : Frame} {world world' : World}

namespace Instr.Counted

theorem append {first second : List Instr} (early : Counted count sum first)
    (late : Counted count sum second) : Counted count sum (first ++ second) := by
  induction early with
  | nil => exact late
  | other apart later ih => exact .other apart ih
  | before fresh condition later ih =>
      rw [List.append_assoc]
      exact .before fresh condition ih
  | after amount later ih => exact .after amount ih

theorem of_countsOnly {code : List Instr}
    (apart : ∀ instr ∈ code, instr.CountsOnly (Counter.Neither count sum)) :
    Counted count sum code := by
  induction code with
  | nil => exact .nil
  | cons first rest ih =>
      apply Counted.other (apart first List.mem_cons_self)
      exact ih fun instr mem => apart instr (List.mem_cons_of_mem _ mem)

/-- A total is the count of what is added to its part. -/
theorem of_paired {code : List Instr} (paired : Instr.Paired count sum code) :
    Counted count sum code := by
  induction paired with
  | nil => exact .nil
  | other apart later ih => exact .other apart ih
  | probe fresh condition later ih => exact .before fresh condition ih

theorem countsUp {code : List Instr} (counted : Counted count sum code) (differ : count ≠ sum) :
    ∀ instr ∈ code, instr.CountsUp count := by
  have silent {instr : Instr} (other : instr.counter? ≠ some count) : instr.CountsUp count :=
    fun same => absurd same other
  have sums (amount : Operand) : (Instr.tally sum amount).CountsUp count :=
    silent fun same => differ (Option.some.inj same).symm
  have counts : (Instr.tally count Probe.one).CountsUp count := fun _ => rfl
  induction counted with
  | nil => exact nofun
  | other apart later ih =>
      rw [List.forall_mem_cons]
      exact ⟨silent fun same => (apart count same).1 rfl, ih⟩
  | before fresh condition later ih =>
      rw [Probe.branchProbe, List.cons_append, List.cons_append, List.cons_append, List.nil_append]
      simp only [List.forall_mem_cons]
      exact ⟨counts, silent nofun, sums _, ih⟩
  | after amount later ih =>
      simp only [List.forall_mem_cons]
      exact ⟨sums amount, counts, ih⟩

end Instr.Counted

/-! ## Runs -/

/-- An addition is made by an instruction that names the counter. -/
theorem Instr.counter?_of_effect? {offered : Callee → Bool} {instr : Instr} {counter : Counter}
    {amount : UInt64} (adds : instr.effect? offered frame = some (.addition counter amount)) :
    instr.counter? = some counter := by
  cases instr with
  | const result constant => cases adds
  | binop result op lhs rhs => cases adds
  | widen result operand => cases adds
  | call result callee args =>
      rw [effect?] at adds
      split at adds
      · obtain ⟨values, -, same⟩ := Option.map_eq_some_iff.mp adds
        cases same
      · cases adds
  | count result other operand order =>
      obtain ⟨value, -, same⟩ := Option.map_eq_some_iff.mp adds
      cases same
      rfl

theorem Frame.counter?_of_effect? {offered : Callee → Bool} {counter : Counter} {amount : UInt64}
    (adds : frame.effect? offered = some (.addition counter amount)) :
    ∃ instr rest, frame.rest = instr :: rest ∧ instr.counter? = some counter ∧
      instr.effect? offered frame = some (.addition counter amount) := by
  obtain ⟨instr, first, here⟩ := Option.bind_eq_some_iff.mp adds
  obtain ⟨rest, rest_eq⟩ := List.head?_eq_some_iff.mp first
  exact ⟨instr, rest, rest_eq, Instr.counter?_of_effect? here, here⟩

namespace Machine

/-- A run counts one at a time. -/
theorem amount_of_effects (counted : f.Blockwise (Instr.Counted count sum)) (differ : count ≠ sum)
    {limit : Nat} {args : List Int64} {amount : UInt64}
    (mem : .addition count amount ∈ effects f limit args world) : amount = 1 := by
  obtain ⟨place, passed, adds⟩ := List.mem_filterMap.mp mem
  rw [trailOf] at passed
  split at passed
  · cases passed
  · next frame start =>
      obtain ⟨first, entered, rest_eq⟩ := Frame.rest_of_start start
      have within : frame.Within f := ⟨Func.entry, first, entered, rest_eq ▸ List.suffix_refl _⟩
      obtain ⟨id, block, found, suffix⟩ := within_of_trail within place passed
      obtain ⟨instr, rest, here, names, adds⟩ := Frame.counter?_of_effect? adds
      rw [here] at suffix
      have inside : instr ∈ block.instrs := suffix.subset List.mem_cons_self
      rw [(counted id block found).countsUp differ instr inside names] at adds
      cases adds
      rfl

/-- A step counts, or adds nothing to the sum and leads to code of the same kind, or leads to
where the next step counts. -/
theorem counted_step (counted : f.Blockwise (Instr.Counted count sum))
    (code : Instr.Counted count sum frame.rest) (offered : Callee → Bool) (world : World) :
    frame.effect? offered = some (.addition count 1) ∨
      ((∀ amount, frame.effect? offered ≠ some (.addition sum amount)) ∧
        ∀ next middle, step f frame world = .running next middle →
          Instr.Counted count sum next.rest) ∨
      ∃ next middle, step f frame world = .running next middle ∧
        next.effect? offered = some (.addition count 1) := by
  obtain ⟨values, position, code'⟩ := frame
  cases code with
  | nil =>
      refine .inr (.inl ⟨fun amount adds => ?_, fun next middle stepped => ?_⟩)
      · cases adds
      · cases moves_of_step stepped with
        | within here => cases here
        | along ended found leaves enters block_eq rest_eq =>
            rw [rest_eq]
            exact counted _ _ enters
  | @other instr rest apart others =>
      refine .inr (.inl ⟨fun amount adds => ?_, fun next middle stepped => ?_⟩)
      · exact (apart sum (Instr.counter?_of_effect? adds)).2 rfl
      · rw [rest_of_step stepped]
        exact others
  | before fresh condition others => exact .inl rfl
  | @after operand rest others =>
      cases read : (⟨values, position, .tally count Probe.one :: rest⟩ : Frame).read operand with
      | error error =>
          refine .inr (.inl ⟨fun amount adds => ?_, fun next middle stepped => ?_⟩)
          · rw [Frame.effect?, List.head?_cons, Option.bind_some, Instr.tally, Instr.effect?,
              Frame.read_rest values position _ (.tally count Probe.one :: rest), read] at adds
            cases adds
          · rw [step_tally_error read] at stepped
            cases stepped
      | ok value => exact .inr (.inr ⟨_, _, step_tally read, rfl⟩)

/-- A run that is not cut off adds to the sum only if it counts. -/
theorem silent_of_trail (counted : f.Blockwise (Instr.Counted count sum)) {steps : Nat}
    (code : Instr.Counted count sum frame.rest)
    (ended : (advance f steps frame world).isRunning = false) {offered : Callee → Bool}
    (silent : ∀ place ∈ trail f steps frame world,
      place.effect? offered ≠ some (.addition count 1)) :
    ∀ place ∈ trail f steps frame world, ∀ amount,
      place.effect? offered ≠ some (.addition sum amount) := by
  induction steps generalizing frame world with
  | zero => cases ended
  | succ steps ih =>
      have later {next : Frame} {middle : World}
          (stepped : step f frame world = .running next middle) :
          ∀ place ∈ trail f steps next middle, place.effect? offered ≠ some (.addition count 1) :=
        fun place mem => silent place (mem_trail_succ.mpr (.inr ⟨next, middle, stepped, mem⟩))
      intro place mem amount adds
      rcases counted_step counted code offered world with
        counts | ⟨none, onward⟩ | ⟨next, middle, stepped, counts⟩
      · exact silent frame (mem_trail_succ.mpr (.inl rfl)) counts
      · rcases mem_trail_succ.mp mem with rfl | ⟨next, middle, stepped, passed⟩
        · exact none amount adds
        · rw [advance_succ, stepped] at ended
          exact ih (onward next middle stepped) ended (later stepped) place passed amount adds
      · -- the run goes on to count, unless this is where the budget ends
        rw [advance_succ, stepped] at ended
        cases steps with
        | zero => cases ended
        | succ steps => exact later stepped next (mem_trail_succ.mpr (.inl rfl)) counts

/-- A run that is not cut off and has added to the sum has counted. -/
theorem counts_of_sums (counted : f.Blockwise (Instr.Counted count sum)) {limit : Nat}
    {args : List Int64} (ended : (run f limit args world).1 ≠ .error (.stepLimitExceeded limit))
    {amount : UInt64} (mem : .addition sum amount ∈ effects f limit args world) :
    .addition count 1 ∈ effects f limit args world := by
  obtain ⟨place, passed, adds⟩ := List.mem_filterMap.mp mem
  cases start : Frame.start f args with
  | error error =>
      rw [trailOf, start] at passed
      cases passed
  | ok frame =>
      obtain ⟨first, entered, rest_eq⟩ := Frame.rest_of_start start
      rw [effects, trailOf_of_start start]
      rw [trailOf_of_start start] at passed
      have finished : (advance f limit frame world).isRunning = false := by
        rw [Bool.eq_false_iff]
        intro going
        obtain ⟨after, cut⟩ := Progress.result_of_isRunning going limit
        rw [run_of_start start, cut] at ended
        exact ended rfl
      by_contra absent
      refine silent_of_trail counted (rest_eq ▸ counted _ _ entered) finished
        (fun other passed adds => ?_) place passed amount adds
      exact absent (List.mem_filterMap.mpr ⟨other, passed, adds⟩)

end Machine

/-! ## What the counters hold -/

theorem World.read_perform (world : World) (effect : Effect) (counter : Counter) :
    (world.perform effect).counters.read counter =
      world.counters.read counter + effect.amountTo counter := by
  cases effect with
  | call made => exact (UInt64.add_zero _).symm
  | addition other amount =>
      rw [perform, Counters.read_add, Effect.amountTo]
      split
      · next same => rw [same]
      · exact (UInt64.add_zero _).symm

/-- A counter grows by all that is added to it. -/
theorem World.read_foldl (world : World) (effects : List Effect) (counter : Counter) :
    (effects.foldl perform world).counters.read counter =
      world.counters.read counter + Effect.total counter effects := by
  induction effects generalizing world with
  | nil => exact (UInt64.add_zero _).symm
  | cons effect rest ih =>
      rw [List.foldl_cons, ih, world.read_perform, Effect.total, UInt64.add_assoc]

theorem Effect.total_of_ones {effects : List Effect}
    (ones : ∀ amount, .addition count amount ∈ effects → amount = 1) :
    total count effects = (effects.countP (addsTo count)).toUInt64 := by
  induction effects with
  | nil => rfl
  | cons effect rest ih =>
      have here : effect.amountTo count = (if effect.addsTo count then 1 else 0).toUInt64 := by
        cases effect with
        | call made => rfl
        | addition other amount =>
            rw [amountTo, addsTo]
            by_cases same : other = count
            · subst same
              rw [if_pos rfl, if_pos (beq_self_eq_true other), ones amount List.mem_cons_self]
              rfl
            · rw [if_neg same, if_neg (by simpa using same)]
              rfl
      rw [total, List.countP_cons, here,
        ih fun amount mem => ones amount (List.mem_cons_of_mem _ mem), Nat.add_comm]
      exact (UInt64.ofNat_add _ _).symm

theorem Effect.total_of_silent {effects : List Effect}
    (silent : ∀ amount, .addition sum amount ∉ effects) : total sum effects = 0 := by
  induction effects with
  | nil => rfl
  | cons effect rest ih =>
      have here : effect.amountTo sum = 0 := by
        cases effect with
        | call made => rfl
        | addition other amount =>
            apply if_neg
            rintro rfl
            exact silent amount List.mem_cons_self
      rw [total, here, UInt64.zero_add]
      exact ih fun amount mem => silent amount (List.mem_cons_of_mem _ mem)

namespace Counters.Tells

variable {times : Nat}

/-- Runs that are not cut off keep the count of what they sum up. -/
theorem run (tells : world.counters.Tells count sum times)
    (counted : f.Blockwise (Instr.Counted count sum)) (differ : count ≠ sum) {limit : Nat}
    {args : List Int64}
    (ended : (Machine.run f limit args world).1 ≠ .error (.stepLimitExceeded limit)) :
    (Machine.run f limit args world).2.counters.Tells count sum
      (times + (Machine.effects f limit args world).countP (Effect.addsTo count)) := by
  rw [Machine.world_run]
  refine ⟨?_, fun none => ?_⟩
  · rw [World.read_foldl, tells.count_eq, Effect.total_of_ones fun amount mem =>
      Machine.amount_of_effects counted differ mem]
    exact (UInt64.ofNat_add _ _).symm
  · obtain ⟨before, now⟩ := Nat.add_eq_zero_iff.mp none
    have uncounted : .addition count 1 ∉ Machine.effects f limit args world := fun mem =>
      List.countP_eq_zero.mp now _ mem (beq_self_eq_true count)
    rw [World.read_foldl, tells.idle before, Effect.total_of_silent fun amount mem =>
      uncounted (Machine.counts_of_sums counted ended mem)]
    rfl

/-- As long as the number of times fits into a counter, nothing is summed up uncounted. -/
theorem count_ne_zero {counters : Counters} (tells : counters.Tells count sum times)
    (fits : times < UInt64.size) (some : counters.read sum ≠ 0) : counters.read count ≠ 0 := by
  intro zero
  apply some
  apply tells.idle
  rw [tells.count_eq] at zero
  have none : times % UInt64.size = 0 := congrArg UInt64.toNat zero
  rwa [Nat.mod_eq_of_lt fits] at none

end Counters.Tells

end FlowProfile
