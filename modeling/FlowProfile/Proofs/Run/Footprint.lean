/-
# What a run touches

A run adds to the counters that its code names and to no others, however it ends and
whatever it was started with.  So the counters of a function bound what any of its runs
can change.

They also bound what a run can tell apart.  Two worlds whose hosts serve the same answers
and whose counters agree on those that the code names lead to the same result, and agree
on them again afterwards.
-/

import FlowProfile.Proofs.Run.Service
import FlowProfile.Proofs.Run.Trail
import FlowProfile.Proofs.Weave.Inside

namespace FlowProfile

/-- The instruction adds to no counter but allowed ones. -/
def Instr.CountsOnly (allowed : Counter → Prop) (instr : Instr) : Prop :=
  ∀ counter, instr.counter? = some counter → allowed counter

/-- The code of the function adds to no counters but allowed ones. -/
def Func.CountsOnly (allowed : Counter → Prop) (f : Func) : Prop :=
  ∀ counter ∈ f.counters, allowed counter

/-- The code of all blocks has a property. -/
def Func.Blockwise (holds : List Instr → Prop) (f : Func) : Prop :=
  ∀ id block, f.block? id = some block → holds block.instrs

/-- Some edge leads to the block at a position. -/
def Func.LeadsTo (f : Func) (id : BlockId) : Prop :=
  ∃ source block, f.block? source = some block ∧ ∃ edge ∈ block.terminator.edges, edge.target = id

/-- The code that edges lead to adds to no counters but allowed ones. -/
def Func.GoesOnWith (allowed : Counter → Prop) (f : Func) : Prop :=
  ∀ id block, f.LeadsTo id → f.block? id = some block → ∀ instr ∈ block.instrs,
    instr.CountsOnly allowed

/-- What is left of the block adds to no counters but allowed ones. -/
def Frame.CountsOnly (allowed : Counter → Prop) (frame : Frame) : Prop :=
  ∀ instr ∈ frame.rest, instr.CountsOnly allowed

variable {allowed : Counter → Prop} {f : Func} {frame next : Frame} {world world' : World}

/-- The counters of a function are those of its instructions, block by block. -/
theorem Func.countsOnly_iff :
    f.CountsOnly allowed ↔
      ∀ id block, f.block? id = some block → ∀ instr ∈ block.instrs, instr.CountsOnly allowed := by
  constructor
  · intro only id block found instr mem counter adds
    exact only counter (f.mem_counters found mem adds)
  · intro only counter mem
    obtain ⟨block, listed, here⟩ := List.mem_flatMap.mp mem
    obtain ⟨instr, within, adds⟩ := List.mem_filterMap.mp here
    obtain ⟨id, found⟩ := List.getElem?_of_mem listed
    exact only id block (Array.getElem?_toList.symm.trans found) instr within counter adds

theorem Func.CountsOnly.goesOnWith (only : f.CountsOnly allowed) : f.GoesOnWith allowed :=
  fun id block _ => Func.countsOnly_iff.mp only id block

/-- A run begins with the code of the entry block. -/
theorem Frame.rest_of_start {args : List Int64} (start : Frame.start f args = .ok frame) :
    ∃ block, f.block? Func.entry = some block ∧ frame.rest = block.instrs := by
  unfold Frame.start at start
  split at start
  · cases start
  · split at start
    · cases start
    · split at start
      · cases start
      · next block found =>
          cases start
          exact ⟨block, found, rfl⟩

/-- An instruction leaves the rest of the block to be executed. -/
theorem Machine.rest_of_step {values : Array (Option Int64)} {position : BlockId} {instr : Instr}
    {rest : List Instr} (stepped : step f ⟨values, position, instr :: rest⟩ world =
      .running next world') : next.rest = rest := by
  rw [step] at stepped
  split at stepped
  · next executed =>
      cases stepped
      exact (place_of_execute executed).2
  · cases stepped

theorem Frame.countsOnly_start {args : List Int64} (only : f.CountsOnly allowed)
    (start : Frame.start f args = .ok frame) : frame.CountsOnly allowed := by
  obtain ⟨block, found, rest_eq⟩ := Frame.rest_of_start start
  rw [Frame.CountsOnly, rest_eq]
  exact Func.countsOnly_iff.mp only Func.entry block found

/-- A step leads to code that adds to allowed counters only. -/
theorem Frame.CountsOnly.step (here : frame.CountsOnly allowed) (onward : f.GoesOnWith allowed)
    (stepped : Machine.step f frame world = .running next world') : next.CountsOnly allowed := by
  obtain ⟨values, position, rest⟩ := frame
  cases rest with
  | nil =>
      rw [Machine.step] at stepped
      split at stepped
      · cases stepped
      · next current source =>
          split at stepped
          · next finished =>
              cases stepped
              obtain ⟨edge, leaves, followed⟩ := Frame.follow_of_finishBlock finished
              obtain ⟨block, found, -, rest_eq⟩ := Frame.place_of_follow followed
              rw [Frame.CountsOnly, rest_eq]
              exact onward edge.target block ⟨position, current, source, edge, leaves, rfl⟩ found
          · cases stepped
          · cases stepped
  | cons first rest =>
      rw [Frame.CountsOnly, Machine.rest_of_step stepped]
      exact fun instr mem => here instr (List.mem_cons_of_mem _ mem)

/-! ## What a run changes -/

namespace Machine

variable {counter : Counter}

theorem read_execute {instr : Instr} (only : instr.CountsOnly allowed)
    (foreign : ¬ allowed counter) (frame : Frame) (world : World) :
    (execute instr frame world).2.counters.read counter = world.counters.read counter := by
  cases instr with
  | const result constant => rfl
  | binop result op lhs rhs =>
      rw [execute]
      split
      · rfl
      · split
        · rfl
        · split <;> rfl
  | widen result operand =>
      rw [execute]
      split <;> rfl
  | call result callee args =>
      rw [execute]
      split
      · rfl
      · split <;> rfl
  | count result changed amount order =>
      rw [execute]
      split
      · rfl
      · apply Counters.read_add_of_ne
        rintro rfl
        exact foreign (only changed rfl)

/-- The end of a block leaves the world alone. -/
theorem world_step_nil (f : Func) (values : Array (Option Int64)) (position : BlockId)
    (world : World) : (step f ⟨values, position, []⟩ world).world = world := by
  rw [step]
  split
  · rfl
  · split <;> rfl

theorem world_step_cons (f : Func) (values : Array (Option Int64)) (position : BlockId)
    (first : Instr) (rest : List Instr) (world : World) :
    (step f ⟨values, position, first :: rest⟩ world).world =
      (execute first ⟨values, position, rest⟩ world).2 := by
  rw [step]
  split
  · next executed => rw [executed, Progress.world]
  · next executed => rw [executed, Progress.world]

theorem read_step (here : frame.CountsOnly allowed) (foreign : ¬ allowed counter) (f : Func)
    (world : World) :
    (step f frame world).world.counters.read counter = world.counters.read counter := by
  obtain ⟨values, position, rest⟩ := frame
  cases rest with
  | nil => rw [world_step_nil]
  | cons first rest =>
      rw [world_step_cons]
      exact read_execute (here first List.mem_cons_self) foreign ⟨values, position, rest⟩ world

theorem read_resume (onward : f.GoesOnWith allowed) (foreign : ¬ allowed counter)
    (here : frame.CountsOnly allowed) (limit budget : Nat) (world : World) :
    (resume f limit budget frame world).2.counters.read counter =
      world.counters.read counter := by
  induction budget generalizing frame world with
  | zero => rfl
  | succ budget ih =>
      have kept := read_step here foreign f world
      rw [resume]
      cases stepped : step f frame world with
      | running next middle =>
          rw [stepped] at kept
          exact (ih (here.step onward stepped) middle).trans kept
      | returned value middle =>
          rw [stepped] at kept
          exact kept
      | failed error middle =>
          rw [stepped] at kept
          exact kept

/-- A run leaves every counter alone that its code does not name. -/
theorem read_run (only : f.CountsOnly allowed) (foreign : ¬ allowed counter) (limit : Nat)
    (args : List Int64) (world : World) :
    (run f limit args world).2.counters.read counter = world.counters.read counter := by
  rw [run]
  cases start : Frame.start f args with
  | error error => rfl
  | ok frame =>
      exact read_resume only.goesOnWith foreign (Frame.countsOnly_start only start) limit limit
        world

end Machine

/-! ## What a run can tell apart -/

/-- The hosts of two worlds serve the same answers, and their counters agree where it is
allowed to look. -/
structure World.Agrees (allowed : Counter → Prop)
    (answers : Callee → Option (List Int64 → Int64)) (world world' : World) : Prop where
  serves : world.host.Serves answers
  serves' : world'.host.Serves answers
  read_eq : ∀ counter, allowed counter →
    world'.counters.read counter = world.counters.read counter

/-- Two runs stand at the same place, in worlds that agree. -/
inductive Progress.Agrees (allowed : Counter → Prop)
    (answers : Callee → Option (List Int64 → Int64)) : Progress → Progress → Prop
  | running (frame : Frame) {world world' : World} (agrees : world.Agrees allowed answers world') :
      Agrees allowed answers (.running frame world) (.running frame world')
  | returned (value : Option Int64) {world world' : World}
      (agrees : world.Agrees allowed answers world') :
      Agrees allowed answers (.returned value world) (.returned value world')
  | failed (error : Error) {world world' : World} (agrees : world.Agrees allowed answers world') :
      Agrees allowed answers (.failed error world) (.failed error world')

section

variable {answers : Callee → Option (List Int64 → Int64)}

theorem World.Agrees.refl {world : World} (serves : world.host.Serves answers) :
    world.Agrees allowed answers world :=
  ⟨serves, serves, fun _ _ => rfl⟩

namespace Machine

theorem agrees_execute {instr : Instr} (agrees : world.Agrees allowed answers world')
    (only : instr.CountsOnly allowed) (frame : Frame) :
    (execute instr frame world').1 = (execute instr frame world).1 ∧
      (execute instr frame world).2.Agrees allowed answers (execute instr frame world').2 := by
  cases instr with
  | const result constant => exact ⟨rfl, agrees⟩
  | binop result op lhs rhs =>
      rw [execute, execute]
      cases frame.read lhs with
      | error error => exact ⟨rfl, agrees⟩
      | ok left =>
          simp only
          cases frame.read rhs with
          | error error => exact ⟨rfl, agrees⟩
          | ok right =>
              simp only
              cases op.eval? left right with
              | none => exact ⟨rfl, agrees⟩
              | some value => exact ⟨rfl, agrees⟩
  | widen result operand =>
      simp only [execute]
      cases frame.read operand with
      | error error => exact ⟨rfl, agrees⟩
      | ok value => exact ⟨rfl, agrees⟩
  | call result callee args =>
      obtain ⟨serves, serves', read_eq⟩ := agrees
      simp only [execute]
      rcases serves.resolve_eq callee with ⟨routine, answer, resolved, known, same⟩ | ⟨absent, unknown⟩
      · rcases serves'.resolve_eq callee with
          ⟨routine', answer', resolved', known', same'⟩ | ⟨-, unknown⟩
        · obtain rfl : answer = answer' := Option.some.inj (known.symm.trans known')
          rw [resolved, resolved']
          cases frame.readAll args with
          | error error => exact ⟨rfl, serves, serves', read_eq⟩
          | ok values =>
              refine ⟨?_, serves.invoke callee routine values,
                serves'.invoke callee routine' values, read_eq⟩
              simp only [Host.invoke, same, same']
        · rw [known] at unknown
          cases unknown
      · rcases serves'.resolve_eq callee with ⟨routine, answer, -, known, -⟩ | ⟨absent', -⟩
        · rw [unknown] at known
          cases known
        · rw [absent, absent']
          exact ⟨rfl, serves, serves', read_eq⟩
  | count result counter amount order =>
      obtain ⟨serves, serves', read_eq⟩ := agrees
      have here := read_eq counter (only counter rfl)
      simp only [execute]
      cases frame.read amount with
      | error error => exact ⟨rfl, serves, serves', read_eq⟩
      | ok value =>
          simp only [Counters.fetchAdd_fst, Counters.fetchAdd_snd, here]
          refine ⟨trivial, serves, serves', fun other among => ?_⟩
          rw [Counters.read_add, Counters.read_add, here, read_eq other among]

theorem agrees_step (agrees : world.Agrees allowed answers world')
    (here : frame.CountsOnly allowed) (f : Func) :
    (step f frame world).Agrees allowed answers (step f frame world') := by
  obtain ⟨values, position, rest⟩ := frame
  cases rest with
  | nil =>
      rw [step, step]
      cases f.block? position with
      | none => exact .failed _ agrees
      | some current =>
          simp only
          cases Frame.finishBlock f ⟨values, position, []⟩ current.terminator with
          | error error => exact .failed error agrees
          | ok outcome =>
              cases outcome with
              | inl next => exact .running next agrees
              | inr value => exact .returned value agrees
  | cons first rest =>
      obtain ⟨same, after⟩ := agrees_execute agrees (here first List.mem_cons_self)
        ⟨values, position, rest⟩
      rw [step, step]
      rcases executed : execute first ⟨values, position, rest⟩ world with ⟨result, middle⟩
      rcases executed' : execute first ⟨values, position, rest⟩ world' with ⟨result', middle'⟩
      rw [executed, executed'] at same after
      obtain rfl : result' = result := same
      cases result' with
      | ok next => exact .running next after
      | error error => exact .failed error after

theorem agrees_resume (onward : f.GoesOnWith allowed) (limit budget : Nat)
    (agrees : world.Agrees allowed answers world') (here : frame.CountsOnly allowed) :
    (resume f limit budget frame world').1 = (resume f limit budget frame world).1 ∧
      (resume f limit budget frame world).2.Agrees allowed answers
        (resume f limit budget frame world').2 := by
  induction budget generalizing frame world world' with
  | zero => exact ⟨rfl, agrees⟩
  | succ budget ih =>
      have both := agrees_step agrees here f
      rw [resume, resume]
      generalize stepped : step f frame world = progress at both
      generalize step f frame world' = progress' at both
      cases both with
      | running next after => exact ih after (here.step onward stepped)
      | returned value after => exact ⟨rfl, after⟩
      | failed error after => exact ⟨rfl, after⟩

/-- Runs in worlds that agree on the counters that the code names come to the same result,
and leave worlds that agree on them. -/
theorem agrees_run (only : f.CountsOnly allowed) (limit : Nat) (args : List Int64)
    (agrees : world.Agrees allowed answers world') :
    (run f limit args world').1 = (run f limit args world).1 ∧
      (run f limit args world).2.Agrees allowed answers (run f limit args world').2 := by
  rw [run, run]
  cases start : Frame.start f args with
  | error error => exact ⟨rfl, agrees⟩
  | ok frame =>
      exact agrees_resume only.goesOnWith limit limit agrees (Frame.countsOnly_start only start)

/-- A run leaves a host that serves the same answers. -/
theorem serves_run (f : Func) (limit : Nat) (args : List Int64)
    (serves : world.host.Serves answers) : (run f limit args world).2.host.Serves answers := by
  have only : f.CountsOnly fun _ => True := fun _ _ => trivial
  exact (agrees_run only limit args (.refl serves)).2.serves

end Machine

end

end FlowProfile
