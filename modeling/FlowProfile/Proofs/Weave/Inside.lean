/-
# The function's own code

Once a run of a woven function is at the function's own code it stays there: no edge leads
back into the entry block.  What was woven into that code adds to counters of branches and
allocations, never to that of calls, and what the function does itself is its own affair.
So the counter of calls and the routine of the reporter are left alone from there on,
whatever other runs do to the world in the meantime.
-/

import FlowProfile.Proofs.Weave.Counting
import FlowProfile.Proofs.Weave.Entering

namespace FlowProfile

/-- The function calls a routine, somewhere. -/
def Func.Calls (f : Func) (callee : Callee) : Prop :=
  ∃ id block result args, f.block? id = some block ∧ .call result callee args ∈ block.instrs

/-- The routine is that of the reporter. -/
def Reporter.IsRoutine (reporter : Option Reporter) (callee : Callee) : Prop :=
  ∃ used, reporter = some used ∧ callee = .address used.callback

/-- No call was counted, the reporter's routine was not called, and every routine that was
there is still there. -/
structure Weave.Quiet (weave : Weave) (reporter : Option Reporter) (world world' : World) :
    Prop where
  counted : world'.counters.read (weave.counter .calls) =
    world.counters.read (weave.counter .calls)
  made : ∃ made, world'.host.calls = made ++ world.host.calls ∧
    ∀ call ∈ made, ¬ Reporter.IsRoutine reporter call.1
  kept : ∀ callee, (world'.host.routine? callee).isSome = (world.host.routine? callee).isSome

/-- An instruction that neither counts a call nor calls the reporter's routine. -/
structure Instr.Discreet (weave : Weave) (reporter : Option Reporter) (instr : Instr) : Prop where
  counter : instr.counter? ≠ some (weave.counter .calls)
  callee : ∀ callee, Reporter.IsRoutine reporter callee →
    ∀ result args, instr ≠ .call result callee args

/-- The frame is at a place of the woven function that belongs to the function itself. -/
def Weave.Inside (weave : Weave) (prologue : Prologue) (fresh : BlockId → ValueId) (f : Func)
    (frame : Frame) : Prop :=
  ∃ id block, f.block? id = some block ∧ frame.block = prologue.home f.blocks.size id ∧
    frame.rest <:+ weave.code (fresh id) id block.terminator block.instrs

/-! ## Where execution leads -/

namespace Frame

variable {g : Func} {frame next : Frame}

theorem place_of_write {id : ValueId} {value : Int64}
    (written : frame.write id value = .ok next) :
    next.block = frame.block ∧ next.rest = frame.rest := by
  obtain ⟨values, block, rest⟩ := frame
  rw [write] at written
  split at written
  · cases written
    exact ⟨rfl, rfl⟩
  · cases written

theorem place_of_writeResult {result : Option ValueId} {value : Int64}
    (written : frame.writeResult result value = .ok next) :
    next.block = frame.block ∧ next.rest = frame.rest := by
  cases result with
  | none =>
      cases written
      exact ⟨rfl, rfl⟩
  | some id => exact place_of_write written

/-- An edge leads to the start of its target. -/
theorem place_of_follow {edge : Edge} (followed : frame.follow g edge = .ok next) :
    ∃ block, g.block? edge.target = some block ∧ next.block = edge.target ∧
      next.rest = block.instrs := by
  unfold follow at followed
  split at followed
  · cases followed
  · next block found =>
      split at followed
      · cases followed
      · split at followed
        · cases followed
        · split at followed
          · cases followed
          · cases followed
            exact ⟨block, found, rfl, rfl⟩

/-- Where a run goes on after a block, it has followed one of the block's edges. -/
theorem follow_of_finishBlock {terminator : Terminator}
    (finished : frame.finishBlock g terminator = .ok (.inl next)) :
    ∃ edge ∈ terminator.edges, frame.follow g edge = .ok next := by
  have along {edge : Edge}
      (followed : (frame.follow g edge).map (Sum.inl : Frame → Frame ⊕ Option Int64) =
        .ok (.inl next)) : frame.follow g edge = .ok next := by
    cases reached : frame.follow g edge with
    | error error => rw [reached] at followed; cases followed
    | ok place =>
        rw [reached] at followed
        cases followed
        rfl
  cases terminator with
  | ret operand =>
      cases operand with
      | none => cases finished
      | some operand =>
          rw [finishBlock] at finished
          cases read : frame.read operand with
          | error error => rw [read] at finished; cases finished
          | ok value => rw [read] at finished; cases finished
  | jump edge => exact ⟨edge, List.mem_singleton_self edge, along finished⟩
  | branch condition whenTrue whenFalse weights =>
      rw [finishBlock, chooses] at finished
      cases read : frame.read condition with
      | error error => rw [read] at finished; cases finished
      | ok value =>
          rw [read] at finished
          refine ⟨if value ≠ 0 then whenTrue else whenFalse, ?_, along finished⟩
          rw [Terminator.edges]
          split <;> simp
  | unreachable => cases finished

end Frame

namespace Machine

variable {instr : Instr} {frame next : Frame} {world world' : World}

theorem place_of_execute (executed : execute instr frame world = (.ok next, world')) :
    next.block = frame.block ∧ next.rest = frame.rest := by
  have written := congrArg Prod.fst executed
  cases instr with
  | const result constant => exact Frame.place_of_write written
  | binop result op lhs rhs =>
      rw [execute] at written
      split at written
      · cases written
      · split at written
        · cases written
        · split at written
          · cases written
          · exact Frame.place_of_write written
  | widen result operand =>
      rw [execute] at written
      split at written
      · cases written
      · exact Frame.place_of_write written
  | call result callee args =>
      rw [execute] at written
      split at written
      · cases written
      · split at written
        · cases written
        · exact Frame.place_of_writeResult written
  | count result counter amount order =>
      rw [execute] at written
      split at written
      · cases written
      · exact Frame.place_of_writeResult written

end Machine

/-! ## What execution leaves alone -/

section

variable {weave : Weave} {reporter : Option Reporter} {world world' : World}

theorem Weave.Quiet.refl (weave : Weave) (reporter : Option Reporter) (world : World) :
    weave.Quiet reporter world world where
  counted := rfl
  made := ⟨[], rfl, nofun⟩
  kept := fun _ => rfl

/-- Executing a discreet instruction leaves alone what it should. -/
theorem Machine.quiet_execute {instr : Instr} (discreet : instr.Discreet weave reporter)
    (frame : Frame) (world : World) :
    weave.Quiet reporter world (execute instr frame world).2 := by
  have still := Weave.Quiet.refl weave reporter world
  cases instr with
  | const result constant => exact still
  | binop result op lhs rhs =>
      rw [execute]
      split
      · exact still
      · split
        · exact still
        · split
          · exact still
          · exact still
  | widen result operand =>
      rw [execute]
      split
      · exact still
      · exact still
  | call result callee args =>
      rw [execute]
      split
      · exact still
      · next routine resolved =>
          split
          · exact still
          · next values read =>
              refine ⟨rfl, ⟨[(callee, values)], rfl, ?_⟩, ?_⟩
              · intro call mem isRoutine
                rw [List.mem_singleton.mp mem] at isRoutine
                exact discreet.callee callee isRoutine result args rfl
              · intro other
                exact Host.isSome_routine?_invoke _ callee other routine values
  | count result counter amount order =>
      rw [execute]
      split
      · exact still
      · next value read =>
          refine ⟨?_, ⟨[], rfl, List.forall_mem_nil _⟩, fun _ => rfl⟩
          apply Counters.read_add_of_ne
          rintro rfl
          exact discreet.counter rfl

/-- What is woven into code that is discreet is discreet. -/
theorem Weave.discreet_of_mem_code {instrs : List Instr}
    (own : ∀ instr ∈ instrs, instr.Discreet weave reporter) {fresh : ValueId} {id : BlockId}
    {terminator : Terminator} {instr : Instr}
    (mem : instr ∈ weave.code fresh id terminator instrs) : instr.Discreet weave reporter := by
  have counts {measure : Measure} (other : measure ≠ .calls) (operand : Operand) :
      (Instr.tally (weave.counter measure) operand).Discreet weave reporter := by
    constructor
    · intro same
      exact other (weave.counter_injective (Option.some.inj same))
    · intro callee isRoutine result args same
      cases same
  rcases List.mem_append.mp mem with early | late
  · obtain ⟨origin, listed, here⟩ := List.mem_flatMap.mp early
    rcases List.mem_append.mp here with tallied | lowered
    · obtain ⟨entry, known, rfl⟩ := List.mem_map.mp tallied
      obtain ⟨stage, same | same⟩ := Weave.measure_of_mem_tallies known
      · exact counts (by rw [same]; exact nofun) entry.2
      · exact counts (by rw [same]; exact nofun) entry.2
    · rw [List.mem_singleton.mp lowered]
      have discreet := own origin listed
      constructor
      · rw [weave.counter?_lower]
        exact discreet.counter
      · intro callee isRoutine result args same
        rcases weave.lower_eq_or origin with kept | ⟨lowering, result', args', -, -, renamed⟩
        · exact discreet.callee callee isRoutine result args (kept ▸ same)
        · obtain ⟨used, -, rfl⟩ := isRoutine
          rw [renamed] at same
          cases same
  · unfold Weave.tail at late
    split at late
    · next condition =>
        simp only [Probe.branchProbe, List.mem_cons, List.not_mem_nil, or_false] at late
        rcases late with rfl | rfl | rfl
        · have other : Measure.total id ≠ .calls := nofun
          exact counts other _
        · exact ⟨nofun, fun _ _ _ _ => nofun⟩
        · have other : Measure.taken id ≠ .calls := nofun
          exact counts other _
    · cases late
    · cases late

end

/-! ## Steps inside -/

section

variable {weave : Weave} {prologue : Prologue} {fresh : BlockId → ValueId} {f woven : Func}
  {frame : Frame} {reporter : Option Reporter}

theorem Func.discreet (spares : ∀ counter ∈ f.counters, ¬ weave.Owns counter)
    (uncalled : ∀ callee, Reporter.IsRoutine reporter callee → ¬ f.Calls callee) {id : BlockId}
    {block : Block} (found : f.block? id = some block) {instr : Instr}
    (mem : instr ∈ block.instrs) : instr.Discreet weave reporter where
  counter := by
    intro same
    exact spares _ (f.mem_counters found mem same) (weave.owns_counter .calls)
  callee := by
    rintro callee isRoutine result args rfl
    exact uncalled callee isRoutine ⟨id, block, result, args, found, mem⟩

/-- A step of the function's own code leaves alone what it should. -/
theorem Weave.Inside.quiet_step (inside : weave.Inside prologue fresh f frame)
    (spares : ∀ counter ∈ f.counters, ¬ weave.Owns counter)
    (uncalled : ∀ callee, Reporter.IsRoutine reporter callee → ¬ f.Calls callee)
    (world : World) : weave.Quiet reporter world (Machine.step woven frame world).world := by
  obtain ⟨values, position, rest⟩ := frame
  obtain ⟨id, block, found, -, suffix⟩ := inside
  cases rest with
  | nil =>
      rw [Machine.step]
      split
      · exact .refl weave reporter world
      · split <;> exact .refl weave reporter world
  | cons first rest =>
      have discreet : first.Discreet weave reporter :=
        Weave.discreet_of_mem_code (fun instr mem => Func.discreet spares uncalled found mem)
          (suffix.subset List.mem_cons_self)
      have quiet := Machine.quiet_execute discreet ⟨values, position, rest⟩ world
      rw [Machine.step]
      split
      · next next world' executed =>
          rw [executed] at quiet
          exact quiet
      · next error world' executed =>
          rw [executed] at quiet
          exact quiet

/-- A step of the function's own code leads to the function's own code. -/
theorem Weave.Inside.next (inside : weave.Inside prologue fresh f frame)
    (isWoven : Woven weave prologue fresh f woven) (sound : f.WellFormed) {next : Frame}
    {world world' : World} (stepped : Machine.step woven frame world = .running next world') :
    weave.Inside prologue fresh f next := by
  obtain ⟨values, position, rest⟩ := frame
  obtain ⟨id, block, found, here, suffix⟩ := inside
  cases rest with
  | nil =>
      obtain ⟨lead, image, foundImage, -, -, flow⟩ := isWoven.hosts found
      have here : position = prologue.home f.blocks.size id := here
      rw [Machine.step_of_block (here ▸ foundImage)] at stepped
      split at stepped
      · next place finished =>
          cases stepped
          obtain ⟨edge, mem, followed⟩ := Frame.follow_of_finishBlock finished
          rw [← image.terminator.edges_unweighted, flow, block.terminator.edges_unweighted] at mem
          obtain ⟨target, found', inner, -⟩ := sound.leadsOn id block found edge mem
          obtain ⟨image', foundImage', -, instrs, -⟩ := isWoven.inner _ target inner found'
          obtain ⟨reached, foundReached, block_eq, rest_eq⟩ := Frame.place_of_follow followed
          obtain rfl : image' = reached := Option.some.inj (foundImage'.symm.trans foundReached)
          refine ⟨edge.target, target, found', ?_, ?_⟩
          · rw [block_eq, prologue.home_of_ne _ inner]
          · rw [rest_eq, instrs]
            exact List.suffix_refl _
      · cases stepped
      · cases stepped
  | cons first rest =>
      rw [Machine.step] at stepped
      split at stepped
      · next place world'' executed =>
          cases stepped
          obtain ⟨block_eq, rest_eq⟩ := Machine.place_of_execute executed
          refine ⟨id, block, found, block_eq.trans here, ?_⟩
          rw [rest_eq]
          exact (List.suffix_cons first rest).trans suffix
      · cases stepped

end

end FlowProfile
