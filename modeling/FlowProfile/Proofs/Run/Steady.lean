/-
# Runs that others do not disturb

Between its turns a run finds the counters as others have left them.  A run is steady if
this makes no difference in the end: however the counters have changed between its turns,
it ends in one and the same way and has then added the same to every counter, unless its
budget cuts it off.

Steady runs may take their turns in any order, or be made one after another.  Since
additions to a counter can be made in any order too, the results and the counters are
always the same.
-/

import FlowProfile.Proofs.Run.Crowd
import FlowProfile.Proofs.Run.Likeness
import Mathlib.Algebra.BigOperators.Group.List.Basic
import Mathlib.Data.List.Induction
import Mathlib.Data.UInt

namespace FlowProfile

/-- The run did not end for want of steps. -/
def Machine.Finishes (result : Except Error (Option Int64)) : Prop :=
  ∀ limit, result ≠ .error (.stepLimitExceeded limit)

theorem Machine.finishes_of_isOk {result : Except Error (Option Int64)}
    (isOk : result.isOk = true) : Finishes result := by
  rintro limit rfl
  cases isOk

/-- What the next turn of a run adds to a counter. -/
def Strand.adds (strand : Strand) (counter : Counter) : UInt64 :=
  match strand with
  | going _ (_ + 1) frame => frame.adds counter
  | going _ 0 _ | ended _ => 0

/-- Where a run may get to, and what it adds to the counters on the way, if others may
change the world between its turns.  Only the answers of the host stay as they are. -/
inductive Strand.Wanders (g : Func) (answers : Callee → Option (List Int64 → Int64))
    (first : Strand) : (Counter → UInt64) → Strand → Prop
  | start : Wanders g answers first (fun _ => 0) first
  | turn {spent : Counter → UInt64} {strand : Strand} {world : World}
      (earlier : Wanders g answers first spent strand) (serves : world.host.Serves answers) :
      Wanders g answers first (fun counter => spent counter + strand.adds counter)
        (strand.step g world).1

/-- A run to be made: of which function, with which budget, and on which arguments. -/
structure Job where
  func : Func
  limit : Nat
  args : List Int64

namespace Job

/-- The run at its start. -/
def strand (job : Job) : Strand :=
  .start job.func job.limit job.args

/-- The run by itself. -/
def run (job : Job) (world : World) : Machine.Result :=
  Machine.run job.func job.limit job.args world

/-- Runs one after another, with their results. -/
def inTurn : World → List Job → List (Except Error (Option Int64)) × World
  | world, [] => ([], world)
  | world, job :: rest =>
      ((job.run world).1 :: (inTurn (job.run world).2 rest).1, (inTurn (job.run world).2 rest).2)

/-- Runs at their start, in a world that they share. -/
def pool (world : World) (jobs : List Job) : Pool :=
  ⟨jobs.map strand, world, []⟩

/-- Runs that take their turns as a schedule says. -/
def interleaved (world : World) (jobs : List Job) (schedule : List Nat) : Pool :=
  (pool world jobs).playAmong (jobs.map func) schedule

/-- Unless it is cut off, the run has this result and adds this to the counters. -/
def Yields (answers : Callee → Option (List Int64 → Int64)) (job : Job)
    (result : Except Error (Option Int64)) (total : Counter → UInt64) : Prop :=
  ∀ spent outcome, Strand.Wanders job.func answers job.strand spent (.ended outcome) →
    Machine.Finishes outcome → outcome = result ∧ spent = total

end Job

/-- A sum grows by what is added to one of its terms. -/
theorem sum_set_add {α : Type} (amount : α → UInt64) {list : List α} {index : Nat} {old new : α}
    {extra : UInt64} (found : list[index]? = some old) (more : amount new = amount old + extra) :
    ((list.set index new).map amount).sum = (list.map amount).sum + extra := by
  induction list generalizing index with
  | nil => cases found
  | cons head rest ih =>
      cases index with
      | zero =>
          cases found
          rw [List.set_cons_zero, List.map_cons, List.map_cons, List.sum_cons, List.sum_cons,
            more, UInt64.add_assoc, UInt64.add_assoc, UInt64.add_comm extra]
      | succ index =>
          rw [List.set_cons_succ, List.map_cons, List.map_cons, List.sum_cons, List.sum_cons,
            ih found, UInt64.add_assoc]

/-- A list with one entry for each of another list, in the same order. -/
theorem eq_map_of_entries {α β : Type} {list : List α} {entries : List β} {entry : α → β}
    (length : entries.length = list.length)
    (each : ∀ (index : Nat) (item : α), list[index]? = some item →
      entries[index]? = some (entry item)) :
    entries = list.map entry := by
  refine List.ext_getElem? fun index => ?_
  rw [List.getElem?_map]
  cases given : list[index]? with
  | none =>
      have outside := List.getElem?_eq_none_iff.mp given
      exact List.getElem?_eq_none (length ▸ outside)
  | some item => exact each index item given

/-! ## Turns -/

namespace Strand

variable {g : Func} {answers : Callee → Option (List Int64 → Int64)} {first : Strand}
  {spent : Counter → UInt64} {world : World} {limit left : Nat} {frame : Frame}

/-- A turn adds to the counters what it says. -/
theorem read_step (g : Func) (strand : Strand) (world : World) (counter : Counter) :
    (strand.step g world).2.counters.read counter =
      world.counters.read counter + strand.adds counter := by
  cases strand with
  | ended result => exact (UInt64.add_zero _).symm
  | going limit left frame =>
      cases left with
      | zero => exact (UInt64.add_zero _).symm
      | succ left =>
          rw [world_of_step]
          exact Machine.read_step_eq g frame world counter

/-- A turn leaves the host with its answers. -/
theorem serves_step (g : Func) (strand : Strand) (serves : world.host.Serves answers) :
    (strand.step g world).2.host.Serves answers := by
  cases strand with
  | ended result => exact serves
  | going limit left frame =>
      cases left with
      | zero => exact serves
      | succ left =>
          rw [world_of_step]
          exact Machine.serves_step g frame serves

/-- A run that is left to itself wanders no further than to its end. -/
theorem wanders_resume (wanders : Wanders g answers first spent (.going limit left frame))
    (serves : world.host.Serves answers) :
    ∃ more : Counter → UInt64,
      Wanders g answers first (fun counter => spent counter + more counter)
        (.ended (Machine.resume g limit left frame world).1) ∧
      ∀ counter, (Machine.resume g limit left frame world).2.counters.read counter =
        world.counters.read counter + more counter := by
  induction left generalizing spent frame world with
  | zero => exact ⟨_, .turn wanders serves, fun _ => (UInt64.add_zero _).symm⟩
  | succ left ih =>
      have later := wanders.turn serves
      have serves' := serves_step g (.going limit (left + 1) frame) serves
      have reads := read_step g (.going limit (left + 1) frame) world
      rw [Machine.resume]
      rw [step] at later serves' reads
      cases stepped : Machine.step g frame world with
      | running next middle =>
          rw [stepped] at later serves' reads
          obtain ⟨more, wanders', sum⟩ := ih later serves'
          refine ⟨fun counter => frame.adds counter + more counter, ?_, fun counter => ?_⟩
          · simp only [UInt64.add_assoc] at wanders'
            exact wanders'
          · rw [sum, reads, UInt64.add_assoc]
            rfl
      | returned value after =>
          rw [stepped] at later reads
          exact ⟨_, later, reads⟩
      | failed error after =>
          rw [stepped] at later reads
          exact ⟨_, later, reads⟩

/-- A run by itself wanders to its end. -/
theorem wanders_run (g : Func) (limit : Nat) (args : List Int64)
    (serves : world.host.Serves answers) :
    ∃ total : Counter → UInt64, Wanders g answers (start g limit args) total
        (.ended (Machine.run g limit args world).1) ∧
      ∀ counter, (Machine.run g limit args world).2.counters.read counter =
        world.counters.read counter + total counter := by
  have begins : Wanders g answers (start g limit args) (fun _ => 0) (start g limit args) := .start
  rw [Machine.run]
  rw [start] at begins ⊢
  cases entered : Frame.start g args with
  | ok frame =>
      rw [entered] at begins
      obtain ⟨more, wanders, sum⟩ := wanders_resume begins serves
      simp only [UInt64.zero_add] at wanders
      exact ⟨more, wanders, sum⟩
  | error error =>
      rw [entered] at begins
      exact ⟨_, begins, fun _ => (UInt64.add_zero _).symm⟩

end Strand

/-- A run yields one result if its stages are kept by its turns and have one end, but for
that at its budget. -/
theorem Job.yields_of_stages {answers : Callee → Option (List Int64 → Int64)} {job : Job}
    (stage : (Counter → UInt64) → Strand → Prop) (begins : stage (fun _ => 0) job.strand)
    (kept : ∀ {spent strand} {world : World}, world.host.Serves answers → stage spent strand →
      stage (fun counter => spent counter + strand.adds counter) (strand.step job.func world).1)
    (once : ∀ {spent spent' outcome outcome'}, stage spent (.ended outcome) →
      stage spent' (.ended outcome') → Machine.Finishes outcome → Machine.Finishes outcome' →
      outcome' = outcome ∧ spent' = spent) :
    ∃ result total, job.Yields answers result total := by
  have everywhere {spent : Counter → UInt64} {strand : Strand}
      (wanders : Strand.Wanders job.func answers job.strand spent strand) : stage spent strand := by
    induction wanders with
    | start => exact begins
    | turn earlier serves ih => exact kept serves ih
  by_cases finished : ∃ total result, stage total (.ended result) ∧ Machine.Finishes result
  · obtain ⟨total, result, stands, finishes⟩ := finished
    exact ⟨result, total, fun spent outcome wanders finishes' =>
      once stands (everywhere wanders) finishes finishes'⟩
  · exact ⟨.ok none, fun _ => 0, fun spent outcome wanders finishes =>
      (finished ⟨spent, outcome, everywhere wanders, finishes⟩).elim⟩

/-! ## All runs together -/

namespace Job

variable {answers : Callee → Option (List Int64 → Int64)} {world : World} {jobs order : List Job}
  {result : Job → Except Error (Option Int64)} {total : Job → Counter → UInt64}

theorem length_interleaved (world : World) (jobs : List Job) (schedule : List Nat) :
    (interleaved world jobs schedule).strands.length = jobs.length :=
  (Pool.length_playAmong _ _ schedule).trans (List.length_map _)

/-- A run that still goes on has paid for each of its turns. -/
theorem left_of_interleaved {schedule : List Nat} {index : Nat} {job : Job}
    (given : jobs[index]? = some job) {limit left : Nat} {frame : Frame}
    (goes : (interleaved world jobs schedule).strands[index]? = some (.going limit left frame)) :
    left + schedule.count index = job.limit := by
  induction schedule using List.reverseRecOn generalizing left frame with
  | nil =>
      replace goes : (jobs.map strand)[index]? = some (.going limit left frame) := goes
      rw [List.getElem?_map, given] at goes
      exact Strand.budget_of_start (Option.some.inj goes)
  | append_singleton earlier last ih =>
      rw [interleaved, Pool.playAmong_concat] at goes
      rw [List.count_append, List.count_singleton]
      by_cases own : last = index
      · subst own
        have coded : (jobs.map func)[last]? = some job.func := by
          rw [List.getElem?_map, given, Option.map_some]
        obtain ⟨place, before⟩ := Pool.left_of_turnAmong coded goes
        rw [beq_self_eq_true, if_pos rfl, ← ih before]
        omega
      · rw [Pool.strands_turnAmong_of_ne (Ne.symm own)] at goes
        rw [if_neg (by simpa using own), Nat.add_zero]
        exact ih goes

/-- When every run has got more turns than its budget, all runs are over. -/
theorem hasEnded_interleaved {schedule : List Nat}
    (enough : ∀ index job, jobs[index]? = some job → job.limit < schedule.count index) :
    (interleaved world jobs schedule).HasEnded := by
  intro place mem
  obtain ⟨index, found⟩ := List.getElem?_of_mem mem
  cases place with
  | ended result => rfl
  | going limit left frame =>
      have inside : index < jobs.length := by
        rw [← length_interleaved world jobs schedule]
        exact (List.getElem?_eq_some_iff.mp found).1
      obtain ⟨job, given⟩ : ∃ job, jobs[index]? = some job := ⟨_, List.getElem?_eq_getElem inside⟩
      have paid := left_of_interleaved given found
      have more := enough index job given
      omega

/-- What runs have added so far is noted for each of them. -/
theorem noted_interleaved (serves : world.host.Serves answers) (jobs : List Job)
    (schedule : List Nat) :
    ∃ notes : List (Counter → UInt64),
      Pool.Noted
        (fun index spent strand => ∀ job, jobs[index]? = some job →
          Strand.Wanders job.func answers job.strand spent strand)
        (fun notes world' => world'.host.Serves answers ∧
          ∀ counter, world'.counters.read counter =
            world.counters.read counter + (notes.map (· counter)).sum)
        notes (interleaved world jobs schedule) := by
  -- The last turn finds the world as all earlier ones have left it, so that the induction is
  -- on the end of the schedule.
  induction schedule using List.reverseRecOn with
  | nil =>
      refine ⟨.replicate jobs.length fun _ => 0, ?_, ?_, serves, ?_⟩
      · rw [List.length_replicate, length_interleaved]
      · intro index place spent found here job given
        obtain rfl : spent = fun _ => 0 := List.eq_of_mem_replicate (List.mem_of_getElem? here)
        replace found : (jobs.map strand)[index]? = some place := found
        rw [List.getElem?_map, given] at found
        cases found
        exact .start
      · intro counter
        rw [List.map_replicate, List.sum_replicate, nsmul_zero, UInt64.add_zero]
        rfl
  | append_singleton earlier index ih =>
      obtain ⟨notes, noted⟩ := ih
      rw [interleaved, Pool.playAmong_concat]
      refine noted.turn fun g place spent coded found here wanders => ?_
      obtain ⟨serves', reads⟩ := noted.tells
      refine ⟨fun counter => spent counter + place.adds counter, ?_, ?_, ?_⟩
      · intro job given
        rw [List.getElem?_map, given] at coded
        cases coded
        exact (wanders job given).turn serves'
      · exact Strand.serves_step g place serves'
      · intro counter
        rw [Strand.read_step, reads, UInt64.add_assoc]
        exact congrArg _ (sum_set_add (fun spent : Counter → UInt64 => spent counter) here rfl).symm

/-- When all runs are over, each with its own result, the counters have grown by what each of
them adds. -/
theorem interleaved_of_yields (serves : world.host.Serves answers)
    (yields : ∀ job ∈ jobs, job.Yields answers (result job) (total job)) {schedule : List Nat}
    (ended : (interleaved world jobs schedule).HasEnded)
    (finishes : ∀ outcome, .ended outcome ∈ (interleaved world jobs schedule).strands →
      Machine.Finishes outcome) :
    (interleaved world jobs schedule).strands = jobs.map (fun job => .ended (result job)) ∧
      ∀ counter, (interleaved world jobs schedule).world.counters.read counter =
        world.counters.read counter + (jobs.map (total · counter)).sum := by
  obtain ⟨notes, noted⟩ := noted_interleaved serves jobs schedule
  obtain ⟨-, reads⟩ := noted.tells
  have length' := length_interleaved world jobs schedule
  have length : notes.length = jobs.length := noted.length_eq.trans length'
  have each (index : Nat) (job : Job) (given : jobs[index]? = some job) :
      (interleaved world jobs schedule).strands[index]? = some (.ended (result job)) ∧
        notes[index]? = some (total job) := by
    have inside : index < jobs.length := (List.getElem?_eq_some_iff.mp given).1
    obtain ⟨place, found⟩ : ∃ place,
        (interleaved world jobs schedule).strands[index]? = some place :=
      ⟨_, List.getElem?_eq_getElem (length' ▸ inside)⟩
    obtain ⟨spent, here⟩ : ∃ spent, notes[index]? = some spent :=
      ⟨_, List.getElem?_eq_getElem (length ▸ inside)⟩
    have mem := List.mem_of_getElem? found
    rw [found, here]
    cases place with
    | going limit left frame => cases ended _ mem
    | ended outcome =>
        obtain ⟨rfl, rfl⟩ := yields job (List.mem_of_getElem? given) spent outcome
          (noted.stands found here job given) (finishes outcome mem)
        exact ⟨rfl, rfl⟩
  have strands_eq := eq_map_of_entries length' fun index job given => (each index job given).1
  have notes_eq := eq_map_of_entries length fun index job given => (each index job given).2
  refine ⟨strands_eq, fun counter => ?_⟩
  rw [reads, notes_eq, List.map_map]
  rfl

/-- So they have when the runs are made one after another. -/
theorem inTurn_of_yields (serves : world.host.Serves answers)
    (yields : ∀ job ∈ order, job.Yields answers (result job) (total job))
    (finishes : ∀ outcome ∈ (inTurn world order).1, Machine.Finishes outcome) :
    (inTurn world order).1 = order.map result ∧
      ∀ counter, (inTurn world order).2.counters.read counter =
        world.counters.read counter + (order.map (total · counter)).sum := by
  induction order generalizing world with
  | nil => exact ⟨rfl, fun _ => (UInt64.add_zero _).symm⟩
  | cons job rest ih =>
      obtain ⟨spent, wanders, reads⟩ :=
        Strand.wanders_run job.func job.limit job.args serves
      have serves' := Machine.serves_run job.func job.limit job.args serves
      obtain ⟨first, rfl⟩ := yields job List.mem_cons_self spent _ wanders
        (finishes _ List.mem_cons_self)
      obtain ⟨later, reads'⟩ := ih serves'
        (fun other mem => yields other (List.mem_cons_of_mem _ mem))
        fun outcome mem => finishes outcome (List.mem_cons_of_mem _ mem)
      refine ⟨?_, fun counter => ?_⟩
      · rw [inTurn, List.map_cons, ← first]
        exact congrArg (_ :: ·) later
      · rw [inTurn, List.map_cons, List.sum_cons, ← UInt64.add_assoc, ← reads counter]
        exact reads' counter

/-- Steady runs end in the same ways and leave the same counters, however they interleave and
in whatever order they are made one after another. -/
theorem same_in_any_order (serves : world.host.Serves answers)
    (steady : ∀ job ∈ jobs, ∃ result total, job.Yields answers result total) :
    ∃ (result : Job → Except Error (Option Int64)) (after : Counter → UInt64),
      (∀ schedule, (interleaved world jobs schedule).HasEnded →
        (∀ outcome, .ended outcome ∈ (interleaved world jobs schedule).strands →
          Machine.Finishes outcome) →
        (interleaved world jobs schedule).strands = jobs.map (fun job => .ended (result job)) ∧
          (interleaved world jobs schedule).world.counters.read = after) ∧
      ∀ order, order.Perm jobs →
        (∀ outcome ∈ (inTurn world order).1, Machine.Finishes outcome) →
        (inTurn world order).1 = order.map result ∧
          (inTurn world order).2.counters.read = after := by
  have each (job : Job) : ∃ outcome : Except Error (Option Int64) × (Counter → UInt64),
      job ∈ jobs → job.Yields answers outcome.1 outcome.2 := by
    by_cases mem : job ∈ jobs
    · obtain ⟨result, total, yields⟩ := steady job mem
      exact ⟨⟨result, total⟩, fun _ => yields⟩
    · exact ⟨⟨.ok none, fun _ => 0⟩, fun absurd => (mem absurd).elim⟩
  choose outcome yields using each
  refine ⟨fun job => (outcome job).1, fun counter => world.counters.read counter +
    (jobs.map fun job => (outcome job).2 counter).sum, ?_, ?_⟩
  · intro schedule ended finishes
    obtain ⟨strands_eq, reads⟩ := interleaved_of_yields serves yields ended finishes
    exact ⟨strands_eq, funext reads⟩
  · intro order perm finishes
    obtain ⟨results_eq, reads⟩ := inTurn_of_yields serves
      (fun job mem => yields job (perm.mem_iff.mp mem)) finishes
    refine ⟨results_eq, funext fun counter => ?_⟩
    rw [reads, (perm.map _).sum_eq]

end Job

/-! ## Additions that fit -/

/-- The most that the next step of a run adds to any counter. -/
def Frame.weight (frame : Frame) : Nat :=
  match frame.rest with
  | .count _ _ amount _ :: _ =>
      match frame.read amount with
      | .ok value => value.toUInt64.toNat
      | .error _ => 0
  | _ => 0

/-- The most that the next turn of a run adds to any counter. -/
def Strand.weight : Strand → Nat
  | going _ (_ + 1) frame => frame.weight
  | going _ 0 _ | ended _ => 0

theorem Frame.adds_le_weight (frame : Frame) (counter : Counter) :
    (frame.adds counter).toNat ≤ frame.weight := by
  rcases isCount : frame.rest with _ | ⟨first, rest⟩
  · simp only [adds, isCount]
    exact Nat.zero_le _
  · cases first with
    | count result changed amount order =>
        simp only [adds, weight, isCount]
        cases frame.read amount with
        | error error => exact Nat.zero_le _
        | ok value =>
            simp only
            split
            · exact Nat.le_refl _
            · exact Nat.zero_le _
    | _ =>
        simp only [adds, isCount]
        exact Nat.zero_le _

theorem Strand.adds_le_weight (strand : Strand) (counter : Counter) :
    (strand.adds counter).toNat ≤ strand.weight := by
  unfold adds weight
  split
  · exact Frame.adds_le_weight ..
  · exact Nat.zero_le _
  · exact Nat.zero_le _

namespace Pool

/-- The most that the turn of one run adds to any counter. -/
def weightAt (pool : Pool) (index : Nat) : Nat :=
  match pool.strands[index]? with
  | none => 0
  | some strand => strand.weight

/-- The most that turns in a row add to any counter. -/
def weight (code : List Func) : Pool → List Nat → Nat
  | _, [] => 0
  | pool, index :: rest => pool.weightAt index + weight code (pool.turnAmong code index) rest

variable {code : List Func} {pool : Pool}

/-- A turn adds what fits. -/
theorem read_turnAmong_of_weight (code : List Func) {index : Nat} {counter : Counter}
    (fits : (pool.world.counters.read counter).toNat + pool.weightAt index < UInt64.size) :
    pool.world.counters.read counter ≤
        (pool.turnAmong code index).world.counters.read counter ∧
      ((pool.turnAmong code index).world.counters.read counter).toNat ≤
        (pool.world.counters.read counter).toNat + pool.weightAt index := by
  rcases turnAmong_cases code pool index with same | ⟨g, strand, -, found, same⟩
  · rw [same]
    exact ⟨UInt64.le_refl _, Nat.le_add_right _ _⟩
  · have adds := strand.adds_le_weight counter
    simp only [weightAt, found] at fits ⊢
    rw [same, turn_of_some found, UInt64.le_iff_toNat_le]
    simp only [Strand.read_step]
    rw [UInt64.toNat_add, Nat.mod_eq_of_lt (Nat.lt_of_le_of_lt (Nat.add_le_add_left adds _) fits)]
    omega

/-- If all that turns add to a counter fits into it, none wraps around. -/
theorem climbs_of_weight {schedule : List Nat}
    (fits : ∀ counter, (pool.world.counters.read counter).toNat + pool.weight code schedule <
      UInt64.size) : pool.Climbs code schedule := by
  induction schedule generalizing pool with
  | nil =>
      intro earlier index sooner
      cases List.append_ne_nil_of_right_ne_nil earlier (List.cons_ne_nil index [])
        (List.prefix_nil.mp sooner)
  | cons first rest ih =>
      simp only [weight, ← Nat.add_assoc] at fits
      have turned (counter : Counter) := read_turnAmong_of_weight code
        (Nat.lt_of_le_of_lt (Nat.le_add_right _ _) (fits counter))
      intro earlier index sooner counter
      cases earlier with
      | nil =>
          obtain ⟨rfl, -⟩ := List.cons_prefix_cons.mp sooner
          exact (turned counter).1
      | cons head earlier =>
          obtain ⟨rfl, later⟩ := List.cons_prefix_cons.mp sooner
          exact ih (fun counter => Nat.lt_of_le_of_lt
            (Nat.add_le_add_right (turned counter).2 _) (fits counter)) earlier index later counter

end Pool

end FlowProfile
