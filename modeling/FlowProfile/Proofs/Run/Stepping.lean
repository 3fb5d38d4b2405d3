/-
# What one step does

A step that goes on stays in its block or follows an edge out of it.  Either way it defines
values and leaves those that were there: the result of an instruction, or the parameters of
the block that is entered.  A step that fails does so for one of a few reasons.  Both are
said here once, for any function, so that no argument about runs has to look at the machine
again.

What holds at the start and is kept by every step holds wherever a run gets to.
-/

import FlowProfile.Proofs.Run.Footprint

namespace FlowProfile

/-- An edge can be followed as far as its target is concerned: the block is there and takes
as many arguments as the edge brings. -/
def Func.Fits (f : Func) (edge : Edge) : Prop :=
  ∃ target, f.block? edge.target = some target ∧ target.params.length = edge.args.length

/-- A terminator reads what its edges bring. -/
theorem Terminator.mem_operands_of_mem_edges {terminator : Terminator} {edge : Edge}
    (leaves : edge ∈ terminator.edges) {operand : Operand} (mem : operand ∈ edge.args) :
    operand ∈ terminator.operands := by
  cases terminator with
  | ret value => cases leaves
  | jump other =>
      rw [List.mem_singleton.mp leaves] at mem
      exact mem
  | branch condition whenTrue whenFalse weights =>
      rw [edges, List.mem_cons, List.mem_singleton] at leaves
      rw [operands, List.mem_cons, List.mem_append]
      rcases leaves with rfl | rfl
      · exact .inr (.inl mem)
      · exact .inr (.inr mem)
  | unreachable => cases leaves

namespace Frame

/-- The value was defined on the way to the frame. -/
def Holds (frame : Frame) (id : ValueId) : Prop :=
  ∃ value, frame.values.getD id none = some value

/-- Some values were defined, and nothing else has changed about the values. -/
structure Extends (frame : Frame) (ids : List ValueId) (next : Frame) : Prop where
  size_eq : next.values.size = frame.values.size
  holds_iff : ∀ id, next.Holds id ↔ frame.Holds id ∨ id ∈ ids

/-- What the next step may read. -/
def operands (f : Func) (frame : Frame) : List Operand :=
  match frame.rest with
  | instr :: _ => instr.operands
  | [] => ((f.block? frame.block).map (·.terminator.operands)).getD []

/-- The next step may define the value. -/
inductive Defines (f : Func) (frame : Frame) (id : ValueId) : Prop
  | result {instr : Instr} {rest : List Instr} (here : frame.rest = instr :: rest)
      (result : instr.result? = some id)
  | param {source target : Block} {edge : Edge} (ended : frame.rest = [])
      (found : f.block? frame.block = some source) (leaves : edge ∈ source.terminator.edges)
      (enters : f.block? edge.target = some target) (mem : id ∈ target.params)

/-- Where a step may lead that goes on. -/
inductive Moves (f : Func) (frame next : Frame) : Prop
  | within {instr : Instr} (here : frame.rest = instr :: next.rest)
      (stays : next.block = frame.block) (defines : frame.Extends instr.result?.toList next)
  | along {source target : Block} {edge : Edge} (ended : frame.rest = [])
      (found : f.block? frame.block = some source) (leaves : edge ∈ source.terminator.edges)
      (enters : f.block? edge.target = some target) (block_eq : next.block = edge.target)
      (rest_eq : next.rest = target.instrs) (defines : frame.Extends target.params next)

/-- What is left of the block is the end of some block's code. -/
def Within (f : Func) (frame : Frame) : Prop :=
  ∃ id block, f.block? id = some block ∧ frame.rest <:+ block.instrs

/-- The next step has no room for what it defines, or leads from or to where it cannot. -/
inductive Broken (f : Func) (frame : Frame) : Prop
  | outside {id : ValueId} (defines : frame.Defines f id) (beyond : frame.values.size ≤ id)
  | nowhere (absent : f.block? frame.block = none)
  | misled {source : Block} {edge : Edge} (ended : frame.rest = [])
      (found : f.block? frame.block = some source) (leaves : edge ∈ source.terminator.edges)
      (unfit : ¬ f.Fits edge)

/-- Why a step may fail. -/
inductive Fails (f : Func) (host : Host) (frame : Frame) : Error → Prop
  | unread {id : ValueId} (reads : .value id ∈ frame.operands f) (absent : ¬ frame.Holds id) :
      Fails f host frame (.undefinedValue id frame.block)
  | division {result : ValueId} {lhs rhs : Operand} {rest : List Instr}
      (here : frame.rest = .binop result .srem lhs rhs :: rest)
      (zero : frame.read rhs = .ok 0) : Fails f host frame .divisionByZero
  | unknown {result : Option ValueId} {callee : Callee} {args : List Operand}
      {rest : List Instr} (here : frame.rest = .call result callee args :: rest)
      (absent : host.routine? callee = none) : Fails f host frame (Host.unresolved callee)
  | unreachable {block : Block} (ended : frame.rest = [])
      (found : f.block? frame.block = some block) (flow : block.terminator = .unreachable) :
      Fails f host frame (.invalid f.name (.reachedUnreachable frame.block))
  | broken {error : Error} (broken : frame.Broken f) : Fails f host frame error

variable {f : Func} {frame next : Frame} {error : Error}

/-! ## Values that are defined -/

namespace Extends

variable {frame next last : Frame} {ids later : List ValueId}

theorem refl (frame : Frame) : frame.Extends [] frame :=
  ⟨rfl, fun _ => by simp⟩

theorem trans (first : frame.Extends ids next) (second : next.Extends later last) :
    frame.Extends (ids ++ later) last where
  size_eq := second.size_eq.trans first.size_eq
  holds_iff id := by rw [second.holds_iff, first.holds_iff, List.mem_append, or_assoc]

end Extends

theorem extends_write {id : ValueId} {value : Int64} (written : frame.write id value = .ok next) :
    frame.Extends [id] next := by
  obtain ⟨values, block, rest⟩ := frame
  rw [write] at written
  split at written
  · next inside =>
      cases written
      refine ⟨Array.size_setIfInBounds, fun other => ?_⟩
      rw [Holds, Holds, getD_setIfInBounds, List.mem_singleton]
      by_cases same : id = other
      · simp [same, same ▸ inside]
      · simp [same, Ne.symm same]
  · cases written

theorem extends_writeAll {pairs : List (ValueId × Int64)}
    (written : frame.writeAll pairs = .ok next) : frame.Extends (pairs.map Prod.fst) next := by
  induction pairs generalizing frame with
  | nil =>
      cases written
      exact .refl _
  | cons pair rest ih =>
      obtain ⟨id, value⟩ := pair
      rw [writeAll] at written
      cases first : frame.write id value with
      | error error => rw [first] at written; cases written
      | ok middle =>
          rw [first] at written
          exact (extends_write first).trans (ih written)

theorem place_of_writeAll {pairs : List (ValueId × Int64)}
    (written : frame.writeAll pairs = .ok next) :
    next.block = frame.block ∧ next.rest = frame.rest := by
  induction pairs generalizing frame with
  | nil =>
      cases written
      exact ⟨rfl, rfl⟩
  | cons pair rest ih =>
      obtain ⟨id, value⟩ := pair
      rw [writeAll] at written
      cases first : frame.write id value with
      | error error => rw [first] at written; cases written
      | ok middle =>
          rw [first] at written
          obtain ⟨block_eq, rest_eq⟩ := place_of_write first
          exact ⟨(ih written).1.trans block_eq, (ih written).2.trans rest_eq⟩

theorem extends_writeResult {result : Option ValueId} {value : Int64}
    (written : frame.writeResult result value = .ok next) :
    frame.Extends result.toList next := by
  cases result with
  | none =>
      cases written
      exact .refl _
  | some id => exact extends_write written

theorem length_readAll {operands : List Operand} {values : List Int64}
    (read : frame.readAll operands = .ok values) : values.length = operands.length := by
  induction operands generalizing values with
  | nil =>
      cases read
      rfl
  | cons operand rest ih =>
      rw [readAll] at read
      cases first : frame.read operand with
      | error error => rw [first] at read; cases read
      | ok value =>
          rw [first] at read
          cases others : frame.readAll rest with
          | error error => rw [others] at read; cases read
          | ok later =>
              rw [others] at read
              cases read
              exact congrArg (· + 1) (ih others)

/-- Following an edge defines the parameters of its target. -/
theorem extends_follow {edge : Edge} (followed : frame.follow f edge = .ok next) :
    ∃ target, f.block? edge.target = some target ∧ next.block = edge.target ∧
      next.rest = target.instrs ∧ frame.Extends target.params next := by
  obtain ⟨target, found, block_eq, rest_eq⟩ := place_of_follow followed
  refine ⟨target, found, block_eq, rest_eq, ?_⟩
  rw [follow, found] at followed
  simp only at followed
  split at followed
  · cases followed
  · next arity =>
      cases incoming : frame.readAll edge.args with
      | error error => rw [incoming] at followed; cases followed
      | ok values =>
          simp only [incoming] at followed
          cases written : frame.writeAll (target.params.zip values) with
          | error error => rw [written] at followed; cases followed
          | ok last =>
              rw [written] at followed
              cases followed
              have bound := extends_writeAll written
              rw [List.map_fst_zip (by rw [length_readAll incoming]; omega)] at bound
              exact ⟨bound.size_eq, bound.holds_iff⟩

/-! ## Failures to read and to write -/

theorem unread_of_read {operand : Operand} (failed : frame.read operand = .error error) :
    ∃ id, operand = .value id ∧ ¬ frame.Holds id ∧ error = .undefinedValue id frame.block := by
  cases operand with
  | const constant => cases failed
  | value id =>
      rw [read_value] at failed
      cases held : frame.values.getD id none with
      | some value => rw [held] at failed; cases failed
      | none =>
          rw [held] at failed
          cases failed
          refine ⟨id, rfl, ?_, rfl⟩
          rintro ⟨value, has⟩
          rw [held] at has
          cases has

theorem unread_of_readAll {operands : List Operand}
    (failed : frame.readAll operands = .error error) :
    ∃ id, .value id ∈ operands ∧ ¬ frame.Holds id ∧ error = .undefinedValue id frame.block := by
  induction operands with
  | nil => cases failed
  | cons operand rest ih =>
      rw [readAll] at failed
      cases first : frame.read operand with
      | error cause =>
          rw [first] at failed
          cases failed
          obtain ⟨id, rfl, absent, rfl⟩ := unread_of_read first
          exact ⟨id, List.mem_cons_self, absent, rfl⟩
      | ok value =>
          rw [first] at failed
          cases others : frame.readAll rest with
          | error cause =>
              rw [others] at failed
              cases failed
              obtain ⟨id, mem, absent, rfl⟩ := ih others
              exact ⟨id, List.mem_cons_of_mem _ mem, absent, rfl⟩
          | ok values => rw [others] at failed; cases failed

theorem unwritten_of_write {id : ValueId} {value : Int64}
    (failed : frame.write id value = .error error) : frame.values.size ≤ id := by
  obtain ⟨values, block, rest⟩ := frame
  rw [write] at failed
  split at failed
  · cases failed
  · next outside => exact Nat.le_of_not_lt outside

theorem unwritten_of_writeAll {pairs : List (ValueId × Int64)}
    (failed : frame.writeAll pairs = .error error) :
    ∃ id ∈ pairs.map Prod.fst, frame.values.size ≤ id := by
  induction pairs generalizing frame with
  | nil => cases failed
  | cons pair rest ih =>
      obtain ⟨id, value⟩ := pair
      rw [writeAll] at failed
      cases first : frame.write id value with
      | error cause =>
          rw [first] at failed
          cases failed
          exact ⟨id, List.mem_cons_self, unwritten_of_write first⟩
      | ok middle =>
          rw [first] at failed
          obtain ⟨other, mem, beyond⟩ := ih failed
          rw [(extends_write first).size_eq] at beyond
          exact ⟨other, List.mem_cons_of_mem _ mem, beyond⟩

theorem unwritten_of_writeResult {result : Option ValueId} {value : Int64}
    (failed : frame.writeResult result value = .error error) :
    ∃ id, result = some id ∧ frame.values.size ≤ id := by
  cases result with
  | none => cases failed
  | some id => exact ⟨id, rfl, unwritten_of_write failed⟩

/-! ## The end of a block -/

section

variable {host : Host} {values : Array (Option Int64)} {position : BlockId} {source : Block}

/-- Along one of the edges of a block nothing can fail but reading what it brings, as long
as the edge fits and the values it defines are given out. -/
theorem fails_of_follow {edge : Edge} (found : f.block? position = some source)
    (leaves : edge ∈ source.terminator.edges)
    (failed : (⟨values, position, []⟩ : Frame).follow f edge = .error error) :
    Fails f host ⟨values, position, []⟩ error := by
  by_cases fits : f.Fits edge
  · obtain ⟨target, enters, arity⟩ := fits
    rw [follow, enters] at failed
    simp only [arity, ne_eq, not_true_eq_false, if_false] at failed
    cases incoming : (⟨values, position, []⟩ : Frame).readAll edge.args with
    | error cause =>
        rw [incoming] at failed
        cases failed
        obtain ⟨id, mem, absent, rfl⟩ := unread_of_readAll incoming
        refine .unread ?_ absent
        rw [operands, found]
        exact Terminator.mem_operands_of_mem_edges leaves mem
    | ok given =>
        simp only [incoming] at failed
        cases written : (⟨values, position, []⟩ : Frame).writeAll (target.params.zip given) with
        | ok last => rw [written] at failed; cases failed
        | error cause =>
            rw [written] at failed
            cases failed
            obtain ⟨id, mem, beyond⟩ := unwritten_of_writeAll written
            rw [List.map_fst_zip (by rw [length_readAll incoming]; omega)] at mem
            exact .broken (.outside (.param rfl found leaves enters mem) beyond)
  · exact .broken (.misled rfl found leaves fits)

theorem fails_of_finishBlock (found : f.block? position = some source)
    (failed : (⟨values, position, []⟩ : Frame).finishBlock f source.terminator = .error error) :
    Fails f host ⟨values, position, []⟩ error := by
  have unread {operand : Operand} (mem : operand ∈ source.terminator.operands) {cause : Error}
      (read : (⟨values, position, []⟩ : Frame).read operand = .error cause) :
      Fails f host ⟨values, position, []⟩ cause := by
    obtain ⟨id, rfl, absent, rfl⟩ := unread_of_read read
    refine .unread ?_ absent
    rw [operands, found]
    exact mem
  have following {edge : Edge} (leaves : edge ∈ source.terminator.edges)
      (failed : ((⟨values, position, []⟩ : Frame).follow f edge).map
        (Sum.inl : Frame → Frame ⊕ Option Int64) = .error error) :
      Fails f host ⟨values, position, []⟩ error := by
    cases followed : (⟨values, position, []⟩ : Frame).follow f edge with
    | error cause =>
        rw [followed] at failed
        cases failed
        exact fails_of_follow found leaves followed
    | ok last => rw [followed] at failed; cases failed
  cases flow : source.terminator with
  | ret operand =>
      rw [flow] at failed unread
      cases operand with
      | none => cases failed
      | some operand =>
          rw [finishBlock] at failed
          cases read : (⟨values, position, []⟩ : Frame).read operand with
          | error cause =>
              rw [read] at failed
              cases failed
              exact unread (by simp [Terminator.operands]) read
          | ok value => rw [read] at failed; cases failed
  | jump edge =>
      rw [flow] at failed following
      exact following (List.mem_singleton_self edge) failed
  | branch condition whenTrue whenFalse weights =>
      rw [flow] at failed unread following
      rw [finishBlock, chooses] at failed
      cases read : (⟨values, position, []⟩ : Frame).read condition with
      | error cause =>
          rw [read] at failed
          cases failed
          exact unread (by simp [Terminator.operands]) read
      | ok value =>
          rw [read] at failed
          have chosen : (if value ≠ 0 then whenTrue else whenFalse) ∈
              (Terminator.branch condition whenTrue whenFalse weights).edges := by
            rw [Terminator.edges]
            split <;> simp
          exact following chosen failed
  | unreachable =>
      rw [flow] at failed
      cases failed
      exact .unreachable rfl found flow

end

end Frame

namespace Machine

variable {f : Func} {frame next : Frame} {error : Error} {world after : World}

/-! ## Instructions -/

theorem extends_execute {instr : Instr} (executed : execute instr frame world = (.ok next, after)) :
    frame.Extends instr.result?.toList next := by
  have written := congrArg Prod.fst executed
  cases instr with
  | const result constant => exact Frame.extends_write written
  | binop result op lhs rhs =>
      rw [execute] at written
      split at written
      · cases written
      · split at written
        · cases written
        · split at written
          · cases written
          · exact Frame.extends_write written
  | widen result operand =>
      rw [execute] at written
      split at written
      · cases written
      · exact Frame.extends_write written
  | call result callee args =>
      rw [execute] at written
      split at written
      · cases written
      · split at written
        · cases written
        · exact Frame.extends_writeResult written
  | count result counter amount order =>
      rw [execute] at written
      split at written
      · cases written
      · exact Frame.extends_writeResult written

/-- Only a remainder by zero has no result. -/
theorem eq_srem_of_eval? {op : BinOp} {left right : Int64} (none : op.eval? left right = none) :
    op = .srem ∧ right = 0 := by
  cases op with
  | srem =>
      rw [BinOp.eval?] at none
      split at none
      · next zero => exact ⟨rfl, zero⟩
      · cases none
  | _ => cases none

theorem fails_of_execute {values : Array (Option Int64)} {position : BlockId} {instr : Instr}
    {rest : List Instr}
    (failed : execute instr ⟨values, position, rest⟩ world = (.error error, after)) :
    Frame.Fails f world.host ⟨values, position, instr :: rest⟩ error := by
  have failed := congrArg Prod.fst failed
  have unread {operand : Operand} (mem : operand ∈ instr.operands) {cause : Error}
      (read : (⟨values, position, rest⟩ : Frame).read operand = .error cause) :
      Frame.Fails f world.host ⟨values, position, instr :: rest⟩ cause := by
    obtain ⟨id, rfl, absent, rfl⟩ := Frame.unread_of_read read
    exact .unread mem absent
  have unwritten {id : ValueId} (result : instr.result? = some id) {value : Int64}
      (written : (⟨values, position, rest⟩ : Frame).write id value = .error error) :
      Frame.Fails f world.host ⟨values, position, instr :: rest⟩ error := by
    have beyond : values.size ≤ id := Frame.unwritten_of_write written
    exact .broken (.outside (.result rfl result) beyond)
  have unkept {value : Int64}
      (written : (⟨values, position, rest⟩ : Frame).writeResult instr.result? value =
        .error error) : Frame.Fails f world.host ⟨values, position, instr :: rest⟩ error := by
    obtain ⟨id, result, beyond⟩ := Frame.unwritten_of_writeResult written
    exact .broken (.outside (.result rfl result) beyond)
  cases instr with
  | const result constant => exact unwritten rfl failed
  | binop result op lhs rhs =>
      rw [execute] at failed
      cases left : (⟨values, position, rest⟩ : Frame).read lhs with
      | error cause =>
          rw [left] at failed
          cases failed
          exact unread (by simp [Instr.operands]) left
      | ok value =>
          cases right : (⟨values, position, rest⟩ : Frame).read rhs with
          | error cause =>
              rw [left, right] at failed
              cases failed
              exact unread (by simp [Instr.operands]) right
          | ok value' =>
              simp only [left, right] at failed
              split at failed
              · next none =>
                  cases failed
                  obtain ⟨rfl, rfl⟩ := eq_srem_of_eval? none
                  exact .division rfl right
              · exact unwritten rfl failed
  | widen result operand =>
      rw [execute] at failed
      cases read : (⟨values, position, rest⟩ : Frame).read operand with
      | error cause =>
          rw [read] at failed
          cases failed
          exact unread (by simp [Instr.operands]) read
      | ok value =>
          rw [read] at failed
          exact unwritten rfl failed
  | call result callee args =>
      rw [execute, Host.resolve] at failed
      cases routine : world.host.routine? callee with
      | none =>
          simp only [routine] at failed
          cases failed
          exact .unknown rfl routine
      | some found =>
          simp only [routine] at failed
          cases read : (⟨values, position, rest⟩ : Frame).readAll args with
          | error cause =>
              rw [read] at failed
              cases failed
              obtain ⟨id, mem, absent, rfl⟩ := Frame.unread_of_readAll read
              exact .unread mem absent
          | ok given =>
              rw [read] at failed
              exact unkept failed
  | count result counter amount order =>
      rw [execute] at failed
      cases read : (⟨values, position, rest⟩ : Frame).read amount with
      | error cause =>
          rw [read] at failed
          cases failed
          exact unread (by simp [Instr.operands]) read
      | ok value =>
          rw [read] at failed
          exact unkept failed

/-! ## Steps -/

/-- A step that goes on stays in its block or follows an edge. -/
theorem moves_of_step (stepped : step f frame world = .running next after) :
    frame.Moves f next := by
  obtain ⟨values, position, rest⟩ := frame
  cases rest with
  | nil =>
      rw [step] at stepped
      split at stepped
      · cases stepped
      · next source found =>
          split at stepped
          · next finished =>
              cases stepped
              obtain ⟨edge, leaves, followed⟩ := Frame.follow_of_finishBlock finished
              obtain ⟨target, enters, block_eq, rest_eq, defines⟩ := Frame.extends_follow followed
              exact .along rfl found leaves enters block_eq rest_eq defines
          · cases stepped
          · cases stepped
  | cons instr rest =>
      rw [step] at stepped
      split at stepped
      · next executed =>
          cases stepped
          obtain ⟨block_eq, rest_eq⟩ := place_of_execute executed
          have defines := extends_execute executed
          exact .within (congrArg (instr :: ·) rest_eq.symm) block_eq
            ⟨defines.size_eq, defines.holds_iff⟩
      · cases stepped

/-- A step that fails does so for a reason. -/
theorem fails_of_step (failed : step f frame world = .failed error after) :
    frame.Fails f world.host error := by
  obtain ⟨values, position, rest⟩ := frame
  cases rest with
  | nil =>
      rw [step] at failed
      split at failed
      · next absent => exact .broken (.nowhere absent)
      · next source found =>
          split at failed
          · cases failed
          · cases failed
          · next finished =>
              cases failed
              exact Frame.fails_of_finishBlock found finished
  | cons instr rest =>
      rw [step] at failed
      split at failed
      · cases failed
      · next executed =>
          cases failed
          exact fails_of_execute executed

/-! ## Runs -/

/-- A step goes on in the code of the block, or at the beginning of another one. -/
theorem within_of_moves (within : frame.Within f) (moves : frame.Moves f next) :
    next.Within f := by
  cases moves with
  | within here stays defines =>
      obtain ⟨id, block, found, suffix⟩ := within
      rw [here] at suffix
      exact ⟨id, block, found, (List.suffix_cons _ _).trans suffix⟩
  | along ended found leaves enters block_eq rest_eq defines =>
      exact ⟨_, _, enters, rest_eq ▸ List.suffix_refl _⟩

section

variable {steps : Nat} {progress : Progress}

/-- What holds at the start of a run and is kept by every step holds wherever the run gets
to.  It may depend on the frames that the run has gone through. -/
theorem holds_of_advance {motive : List Frame → Frame → World → Prop}
    (begins : motive [] frame world)
    (each : ∀ path place middle next after, motive path place middle →
      step f place middle = .running next after → motive (path ++ [place]) next after)
    (reached : advance f steps frame world = .running next after) :
    motive (trail f steps frame world) next after := by
  induction steps generalizing next after with
  | zero =>
      cases reached
      exact begins
  | succ steps ih =>
      rw [advance_add] at reached
      cases earlier : advance f steps frame world with
      | returned value middle => rw [earlier] at reached; cases reached
      | failed error middle => rw [earlier] at reached; cases reached
      | running place middle =>
          rw [earlier] at reached
          have stepped : step f place middle = .running next after :=
            (advance_one f place middle).symm.trans reached
          rw [(Passes.trans ⟨earlier, rfl⟩ (Passes.single stepped)).trail_eq]
          exact each _ place middle next after (ih earlier) stepped

/-- A frame of a trail is one that the run gets to. -/
theorem reached_of_mem_trail {start : Frame} (mem : frame ∈ trail f steps start world) :
    ∃ earlier after, advance f earlier start world = .running frame after := by
  induction steps generalizing start world with
  | zero => cases mem
  | succ steps ih =>
      rcases mem_trail_succ.mp mem with rfl | ⟨next, middle, stepped, later⟩
      · exact ⟨0, world, rfl⟩
      · obtain ⟨earlier, after, reached⟩ := ih later
        refine ⟨earlier + 1, after, ?_⟩
        rw [advance_succ, stepped]
        exact reached

/-- All along a run what is left of the block is the end of some block's code. -/
theorem within_of_trail {start : Frame} (within : start.Within f) :
    ∀ place ∈ trail f steps start world, place.Within f := by
  intro place mem
  obtain ⟨earlier, after, reached⟩ := reached_of_mem_trail mem
  refine holds_of_advance (motive := fun _ place _ => place.Within f) within ?_ reached
  exact fun path place middle next after within stepped =>
    within_of_moves within (moves_of_step stepped)

/-- A run that has ended did so by a step, from a frame that the steps before led to. -/
theorem last_step (reached : advance f steps frame world = progress)
    (ended : progress.isRunning = false) :
    ∃ earlier place middle, advance f earlier frame world = .running place middle ∧
      step f place middle = progress ∧
      trail f steps frame world = trail f earlier frame world ++ [place] := by
  induction steps with
  | zero =>
      subst reached
      cases ended
  | succ steps ih =>
      cases before : advance f steps frame world with
      | running place middle =>
          have stepped : step f place middle = progress := by
            rw [advance_add_of_running before, advance_one] at reached
            exact reached
          exact ⟨steps, place, middle, before, stepped,
            (Passes.trans ⟨before, rfl⟩ (Passes.single stepped)).trail_eq⟩
      | returned value middle =>
          have stops : (advance f steps frame world).isRunning = false := by rw [before]; rfl
          rw [advance_of_ended stops (Nat.le_succ steps)] at reached
          rw [trail_of_ended stops (Nat.le_succ steps)]
          exact ih reached
      | failed error middle =>
          have stops : (advance f steps frame world).isRunning = false := by rw [before]; rfl
          rw [advance_of_ended stops (Nat.le_succ steps)] at reached
          rw [trail_of_ended stops (Nat.le_succ steps)]
          exact ih reached

end

end Machine

end FlowProfile
