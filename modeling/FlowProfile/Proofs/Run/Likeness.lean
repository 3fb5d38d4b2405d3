/-
# Runs that do alike

Two runs of one function may hold different values and still do alike: follow the same
blocks, add the same amounts to the same counters, make the same calls and end in the same
way.  It is enough that they agree on the values below a bound, if their code reads no
others.  The one exception is a value that is read right after it was written.  Such code
must not keep what it finds in a counter, since that is the one thing that may differ.

What a step adds to a counter can be read off the frame in which it is taken.  So the
counters know of a run only the sum over its trail.
-/

import FlowProfile.Proofs.Run.Footprint
import Mathlib.Data.UInt

namespace FlowProfile

/-- What the next step of a run adds to a counter. -/
def Frame.adds (frame : Frame) (counter : Counter) : UInt64 :=
  match frame.rest with
  | .count _ changed amount _ :: _ =>
      match frame.read amount with
      | .ok value => if changed = counter then value.toUInt64 else 0
      | .error _ => 0
  | _ => 0

/-- What a run adds to a counter in its next steps. -/
def Machine.spends (g : Func) (steps : Nat) (frame : Frame) (world : World) (counter : Counter) :
    UInt64 :=
  ((trail g steps frame world).map (·.adds counter)).sum

/-- Two arrays of one size hold the same values below a bound. -/
structure SameBelow (bound : Nat) (values values' : Array (Option Int64)) : Prop where
  size_eq : values'.size = values.size
  same : ∀ id < bound, values'.getD id none = values.getD id none

/-- Code that reads values below a bound only, except for those it has just written, and
that keeps nothing it finds in a counter. -/
inductive Instr.Plain (bound : Nat) : List Instr → Prop
  | nil : Plain bound []
  | cons {instr : Instr} {rest : List Instr}
      (below : ∀ operand ∈ instr.operands, operand.Below bound)
      (blind : instr.counter? = none ∨ instr.result? = none) (later : Plain bound rest) :
      Plain bound (instr :: rest)
  | relay (fresh : ValueId) (counter : Counter) {condition : Operand} {rest : List Instr}
      (below : condition.Below bound) (later : Plain bound rest) :
      Plain bound (.widen fresh condition :: .tally counter (.value fresh) :: rest)

/-- Two runs stand at the same place and will go on alike. -/
inductive Frame.Alike (bound : Nat) : Frame → Frame → Prop
  | plain {values values' : Array (Option Int64)} {block : BlockId} {rest : List Instr}
      (code : Instr.Plain bound rest) (same : SameBelow bound values values') :
      Alike bound ⟨values, block, rest⟩ ⟨values', block, rest⟩
  | relayed {values values' : Array (Option Int64)} {block : BlockId} {rest : List Instr}
      {fresh : ValueId} {counter : Counter} {value : Int64} (code : Instr.Plain bound rest)
      (same : SameBelow bound values values') (held : values.getD fresh none = some value)
      (held' : values'.getD fresh none = some value) :
      Alike bound ⟨values, block, .tally counter (.value fresh) :: rest⟩
        ⟨values', block, .tally counter (.value fresh) :: rest⟩

/-- Blocks whose edges lead to blocks of plain code among them. -/
structure Func.Closed (g : Func) (bound : Nat) (own : BlockId → Prop) : Prop where
  below : ∀ id block, own id → g.block? id = some block →
    ∀ operand ∈ block.terminator.operands, operand.Below bound
  onward : ∀ id block, own id → g.block? id = some block → ∀ edge ∈ block.terminator.edges,
    own edge.target ∧
      ∀ target, g.block? edge.target = some target → Instr.Plain bound target.instrs

/-- Two steps lead to the same place, or end two runs in the same way. -/
inductive Progress.Alike (bound : Nat) (own : BlockId → Prop) : Progress → Progress → Prop
  | running {next next' : Frame} (world world' : World) (alike : next.Alike bound next')
      (here : own next.block) : Alike bound own (.running next world) (.running next' world')
  | returned (value : Option Int64) (world world' : World) :
      Alike bound own (.returned value world) (.returned value world')
  | failed (error : Error) (world world' : World) :
      Alike bound own (.failed error world) (.failed error world')

/-- Two frames at the same place with values that agree, or the same failure. -/
inductive Frame.Both (bound : Nat) (block : BlockId) (rest : List Instr) :
    Except Error Frame → Except Error Frame → Prop
  | error (error : Error) : Both bound block rest (.error error) (.error error)
  | ok {values values' : Array (Option Int64)} (same : SameBelow bound values values') :
      Both bound block rest (.ok ⟨values, block, rest⟩) (.ok ⟨values', block, rest⟩)

/-- Two ends of a block lead to the same place, or end two runs in the same way. -/
inductive Frame.Leads (bound : Nat) (own : BlockId → Prop) :
    Except Error (Frame ⊕ Option Int64) → Except Error (Frame ⊕ Option Int64) → Prop
  | error (error : Error) : Leads bound own (.error error) (.error error)
  | ended (value : Option Int64) : Leads bound own (.ok (.inr value)) (.ok (.inr value))
  | onward {next next' : Frame} (alike : next.Alike bound next') (there : own next.block) :
      Leads bound own (.ok (.inl next)) (.ok (.inl next'))

variable {bound : Nat} {values values' : Array (Option Int64)} {block : BlockId}
  {rest : List Instr}

/-! ## Reading and writing -/

namespace SameBelow

theorem refl (bound : Nat) (values : Array (Option Int64)) : SameBelow bound values values :=
  ⟨rfl, fun _ _ => rfl⟩

theorem trans {values'' : Array (Option Int64)} (first : SameBelow bound values values')
    (second : SameBelow bound values' values'') : SameBelow bound values values'' where
  size_eq := second.size_eq.trans first.size_eq
  same id below := (second.same id below).trans (first.same id below)

theorem set (agree : SameBelow bound values values') (id : ValueId) (value : Option Int64) :
    SameBelow bound (values.setIfInBounds id value) (values'.setIfInBounds id value) where
  size_eq := by rw [Array.size_setIfInBounds, Array.size_setIfInBounds, agree.size_eq]
  same other below := by
    rw [getD_setIfInBounds, getD_setIfInBounds, agree.same other below, agree.size_eq]

/-- What is written from the bound on makes no difference. -/
theorem setBeyond (agree : SameBelow bound values values') {id : ValueId} (beyond : bound ≤ id)
    (value : Option Int64) : SameBelow bound values (values'.setIfInBounds id value) where
  size_eq := by rw [Array.size_setIfInBounds, agree.size_eq]
  same other below := by
    have apart : ¬ (id = other ∧ id < values'.size) := fun both =>
      Nat.not_lt_of_le beyond (both.1 ▸ below)
    rw [getD_setIfInBounds, if_neg apart, agree.same other below]

end SameBelow

namespace Frame

theorem read_agree (agree : SameBelow bound values values') {operand : Operand}
    (below : operand.Below bound) :
    (⟨values', block, rest⟩ : Frame).read operand =
      (⟨values, block, rest⟩ : Frame).read operand := by
  cases operand with
  | const constant => rfl
  | value id => rw [read_value, read_value, agree.same id (below id rfl)]

theorem readAll_agree (agree : SameBelow bound values values') {operands : List Operand}
    (below : ∀ operand ∈ operands, operand.Below bound) :
    (⟨values', block, rest⟩ : Frame).readAll operands =
      (⟨values, block, rest⟩ : Frame).readAll operands := by
  induction operands with
  | nil => rfl
  | cons operand others ih =>
      rw [readAll, readAll, read_agree agree (below operand List.mem_cons_self),
        ih fun other mem => below other (List.mem_cons_of_mem _ mem)]

theorem both_write (agree : SameBelow bound values values') (id : ValueId) (value : Int64) :
    Both bound block rest ((⟨values, block, rest⟩ : Frame).write id value)
      ((⟨values', block, rest⟩ : Frame).write id value) := by
  rw [write, write, agree.size_eq]
  split
  · exact .ok (agree.set id _)
  · exact .error _

theorem both_writeResult (agree : SameBelow bound values values') (result : Option ValueId)
    (value : Int64) :
    Both bound block rest ((⟨values, block, rest⟩ : Frame).writeResult result value)
      ((⟨values', block, rest⟩ : Frame).writeResult result value) := by
  cases result with
  | none => exact .ok agree
  | some id => exact both_write agree id value

theorem both_writeAll (agree : SameBelow bound values values')
    (pairs : List (ValueId × Int64)) :
    Both bound block rest ((⟨values, block, rest⟩ : Frame).writeAll pairs)
      ((⟨values', block, rest⟩ : Frame).writeAll pairs) := by
  induction pairs generalizing values values' with
  | nil => exact .ok agree
  | cons pair others ih =>
      have first : Both bound block rest ((⟨values, block, rest⟩ : Frame).write pair.1 pair.2)
          ((⟨values', block, rest⟩ : Frame).write pair.1 pair.2) := both_write agree ..
      rw [writeAll, writeAll]
      generalize (⟨values, block, rest⟩ : Frame).write pair.1 pair.2 = written at first
      generalize (⟨values', block, rest⟩ : Frame).write pair.1 pair.2 = written' at first
      cases first with
      | error error => exact .error error
      | ok agree => exact ih agree

end Frame

namespace Instr.Plain

theorem append {first second : List Instr} (early : Plain bound first)
    (late : Plain bound second) : Plain bound (first ++ second) := by
  induction early with
  | nil => exact late
  | cons below blind later ih => exact .cons below blind ih
  | relay fresh counter below later ih => exact .relay fresh counter below ih

/-- Code that keeps nothing it finds in a counter, and reads values below the bound. -/
theorem of_forall {code : List Instr}
    (each : ∀ instr ∈ code, (∀ operand ∈ instr.operands, operand.Below bound) ∧
      (instr.counter? = none ∨ instr.result? = none)) : Plain bound code := by
  induction code with
  | nil => exact .nil
  | cons first rest ih =>
      obtain ⟨below, blind⟩ := each first List.mem_cons_self
      exact .cons below blind (ih fun instr mem => each instr (List.mem_cons_of_mem _ mem))

end Instr.Plain

/-! ## Steps -/

namespace Machine

variable {answers : Callee → Option (List Int64 → Int64)} {world world' : World}

theorem both_execute (agree : SameBelow bound values values')
    (serves : world.host.Serves answers) (serves' : world'.host.Serves answers) {instr : Instr}
    (below : ∀ operand ∈ instr.operands, operand.Below bound)
    (blind : instr.counter? = none ∨ instr.result? = none) :
    Frame.Both bound block rest (execute instr ⟨values, block, rest⟩ world).1
      (execute instr ⟨values', block, rest⟩ world').1 := by
  cases instr with
  | const result constant => exact Frame.both_write agree ..
  | binop result op lhs rhs =>
      have lower : rhs.Below bound := below rhs (List.mem_cons_of_mem _ List.mem_cons_self)
      rw [execute, execute, Frame.read_agree agree (below lhs List.mem_cons_self),
        Frame.read_agree agree lower]
      cases (⟨values, block, rest⟩ : Frame).read lhs with
      | error error => exact .error error
      | ok first =>
          simp only
          cases (⟨values, block, rest⟩ : Frame).read rhs with
          | error error => exact .error error
          | ok second =>
              simp only
              cases op.eval? first second with
              | none => exact .error _
              | some value => exact Frame.both_write agree ..
  | widen result operand =>
      rw [execute, execute, Frame.read_agree agree (below operand List.mem_cons_self)]
      cases (⟨values, block, rest⟩ : Frame).read operand with
      | error error => exact .error error
      | ok value => exact Frame.both_write agree ..
  | call result callee args =>
      obtain ⟨counters, host⟩ := world
      obtain ⟨counters', host'⟩ := world'
      simp only [execute]
      rcases serves.resolve_eq callee with
        ⟨routine, answer, resolved, known, same⟩ | ⟨absent, unknown⟩
      · rcases serves'.resolve_eq callee with
          ⟨routine', answer', resolved', known', same'⟩ | ⟨-, unknown⟩
        · obtain rfl : answer = answer' := Option.some.inj (known.symm.trans known')
          have lower : ∀ operand ∈ args, operand.Below bound := below
          rw [resolved, resolved']
          simp only [Frame.readAll_agree agree lower]
          cases (⟨values, block, rest⟩ : Frame).readAll args with
          | error error => exact .error error
          | ok inputs =>
              simp only [Host.invoke, same, same']
              exact Frame.both_writeResult agree ..
        · rw [known] at unknown
          cases unknown
      · rcases serves'.resolve_eq callee with ⟨routine, answer, -, known, -⟩ | ⟨absent', -⟩
        · rw [unknown] at known
          cases known
        · rw [absent, absent']
          exact .error _
  | count result counter amount order =>
      obtain ⟨counters, host⟩ := world
      obtain ⟨counters', host'⟩ := world'
      rcases blind with silent | unkept
      · cases silent
      · obtain rfl : result = none := unkept
        simp only [execute]
        rw [Frame.read_agree agree (below amount List.mem_cons_self)]
        cases (⟨values, block, rest⟩ : Frame).read amount with
        | error error => exact .error error
        | ok value => exact .ok agree

/-- A step adds to the counters what its frame says. -/
theorem read_step_eq (g : Func) (frame : Frame) (world : World) (counter : Counter) :
    (step g frame world).world.counters.read counter =
      world.counters.read counter + frame.adds counter := by
  obtain ⟨values, block, rest⟩ := frame
  have idle : world.counters.read counter = world.counters.read counter + 0 :=
    (UInt64.add_zero _).symm
  have untouched {instr : Instr} (silent : instr.counter? = none) :
      (execute instr ⟨values, block, rest.tail⟩ world).2.counters.read counter =
        world.counters.read counter := by
    have never : instr.CountsOnly fun _ => False := by
      intro counter same
      rw [silent] at same
      cases same
    exact read_execute never id _ world
  cases rest with
  | nil =>
      rw [world_step_nil]
      exact idle
  | cons first others =>
      rw [world_step_cons]
      cases first with
      | const result constant => exact (untouched rfl).trans idle
      | binop result op lhs rhs => exact (untouched rfl).trans idle
      | widen result operand => exact (untouched rfl).trans idle
      | call result callee args => exact (untouched rfl).trans idle
      | count result changed amount order =>
          obtain ⟨counters, host⟩ := world
          have same : (⟨values, block, .count result changed amount order :: others⟩ : Frame).read
              amount = (⟨values, block, others⟩ : Frame).read amount := by
            cases amount <;> rfl
          simp only [execute, Frame.adds, same]
          cases (⟨values, block, others⟩ : Frame).read amount with
          | error error => exact idle
          | ok value =>
              simp only [Counters.fetchAdd_snd, Counters.read_add]
              split
              · next here => rw [here]
              · exact idle

/-- A step leaves a host that serves the same answers. -/
theorem serves_step (g : Func) (frame : Frame) (serves : world.host.Serves answers) :
    (step g frame world).world.host.Serves answers := by
  have only : frame.CountsOnly fun _ => True := fun _ _ _ _ => trivial
  have both := agrees_step (World.Agrees.refl serves) only g
  generalize step g frame world = progress at both
  cases both with
  | running next agrees => exact agrees.serves
  | returned value agrees => exact agrees.serves
  | failed error agrees => exact agrees.serves

/-- Runs that do alike add the same. -/
theorem adds_eq {frame frame' : Frame} (alike : frame.Alike bound frame') :
    frame'.adds = frame.adds := by
  funext counter
  cases alike with
  | @plain values values' block rest code same =>
      cases code with
      | nil => rfl
      | @cons instr rest below blind later =>
          cases instr with
          | count result changed amount order =>
              simp only [Frame.adds]
              rw [Frame.read_agree same (below amount List.mem_cons_self)]
          | _ => rfl
      | relay => rfl
  | relayed code same held held' =>
      simp only [Frame.adds, Instr.tally, Frame.read_value, held, held']

/-- An edge leads both runs to the same place, or neither. -/
theorem alike_follow {g : Func} {own : BlockId → Prop} {edge : Edge}
    (agree : SameBelow bound values values')
    (below : ∀ operand ∈ edge.args, operand.Below bound)
    (onward : own edge.target ∧
      ∀ target, g.block? edge.target = some target → Instr.Plain bound target.instrs) :
    Frame.Leads bound own ((Frame.follow g ⟨values, block, []⟩ edge).map .inl)
      ((Frame.follow g ⟨values', block, []⟩ edge).map .inl) := by
  rw [Frame.follow, Frame.follow]
  cases found : g.block? edge.target with
  | none => exact .error _
  | some target =>
      simp only
      split
      · exact .error _
      · rw [Frame.readAll_agree agree below]
        cases (⟨values, block, []⟩ : Frame).readAll edge.args with
        | error error => exact .error error
        | ok incoming =>
            have both : Frame.Both bound block [] _ _ :=
              Frame.both_writeAll agree (target.params.zip incoming)
            simp only
            generalize (⟨values, block, []⟩ : Frame).writeAll _ = written at both
            generalize (⟨values', block, []⟩ : Frame).writeAll _ = written' at both
            cases both with
            | error error => exact .error error
            | ok agree => exact .onward (.plain (onward.2 target found) agree) onward.1

/-- A block ends both runs alike, or leads them to the same place. -/
theorem alike_finishBlock {g : Func} {own : BlockId → Prop} {terminator : Terminator}
    (agree : SameBelow bound values values')
    (below : ∀ operand ∈ terminator.operands, operand.Below bound)
    (onward : ∀ edge ∈ terminator.edges, own edge.target ∧
      ∀ target, g.block? edge.target = some target → Instr.Plain bound target.instrs) :
    Frame.Leads bound own ((⟨values, block, []⟩ : Frame).finishBlock g terminator)
      ((⟨values', block, []⟩ : Frame).finishBlock g terminator) := by
  cases terminator with
  | ret operand =>
      cases operand with
      | none => exact .ended none
      | some operand =>
          rw [Frame.finishBlock, Frame.finishBlock,
            Frame.read_agree agree (below operand List.mem_cons_self)]
          cases (⟨values, block, []⟩ : Frame).read operand with
          | error error => exact .error error
          | ok value => exact .ended (some value)
  | jump edge => exact alike_follow agree below (onward edge List.mem_cons_self)
  | branch condition whenTrue whenFalse weights =>
      rw [Frame.finishBlock, Frame.finishBlock, Frame.chooses, Frame.chooses,
        Frame.read_agree agree (below condition List.mem_cons_self)]
      cases (⟨values, block, []⟩ : Frame).read condition with
      | error error => exact .error error
      | ok value =>
          show Frame.Leads bound own
            ((Frame.follow g _ (if value ≠ 0 then whenTrue else whenFalse)).map .inl)
            ((Frame.follow g _ (if value ≠ 0 then whenTrue else whenFalse)).map .inl)
          split
          · refine alike_follow agree (fun operand mem => below operand ?_)
              (onward whenTrue List.mem_cons_self)
            exact List.mem_cons_of_mem _ (List.mem_append_left _ mem)
          · refine alike_follow agree (fun operand mem => below operand ?_)
              (onward whenFalse (List.mem_cons_of_mem _ List.mem_cons_self))
            exact List.mem_cons_of_mem _ (List.mem_append_right _ mem)
  | unreachable => exact .error _

variable {g : Func} {own : BlockId → Prop}

/-- At the end of a block both runs go on alike. -/
theorem alike_end (closed : g.Closed bound own) (agree : SameBelow bound values values')
    (here : own block) (world world' : World) :
    Progress.Alike bound own (step g ⟨values, block, []⟩ world)
      (step g ⟨values', block, []⟩ world') := by
  cases found : g.block? block with
  | none =>
      rw [step, step, found]
      exact .failed _ world world'
  | some current =>
      have leads : Frame.Leads bound own
          ((⟨values, block, []⟩ : Frame).finishBlock g current.terminator)
          ((⟨values', block, []⟩ : Frame).finishBlock g current.terminator) :=
        alike_finishBlock agree (closed.below block current here found)
          (closed.onward block current here found)
      rw [step_of_block found, step_of_block found]
      generalize (⟨values, block, []⟩ : Frame).finishBlock g current.terminator = left at leads
      generalize (⟨values', block, []⟩ : Frame).finishBlock g current.terminator = right at leads
      cases leads with
      | error error => exact .failed error world world'
      | ended value => exact .returned value world world'
      | onward alike there => exact .running world world' alike there

/-- A step of one run is like that of the other. -/
theorem alike_step (closed : g.Closed bound own) {frame frame' : Frame}
    (alike : frame.Alike bound frame') (here : own frame.block)
    (serves : world.host.Serves answers) (serves' : world'.host.Serves answers) :
    Progress.Alike bound own (step g frame world) (step g frame' world') := by
  cases alike with
  | @plain values values' block rest code agree =>
      cases code with
      | nil => exact alike_end closed agree here world world'
      | @cons instr rest below blind later =>
          have both : Frame.Both bound block rest _ _ :=
            both_execute agree serves serves' below blind
          rw [step, step]
          rcases executed : execute instr ⟨values, block, rest⟩ world with ⟨left, middle⟩
          rcases executed' : execute instr ⟨values', block, rest⟩ world' with ⟨right, middle'⟩
          rw [executed, executed'] at both
          cases both with
          | error error => exact .failed error middle middle'
          | ok agree => exact .running middle middle' (.plain later agree) here
      | @relay fresh counter condition rest below later =>
          have first : (⟨values', block, .tally counter (.value fresh) :: rest⟩ : Frame).read
              condition = (⟨values, block, .tally counter (.value fresh) :: rest⟩ : Frame).read
                condition := Frame.read_agree agree below
          rw [step, step]
          simp only [execute, first]
          cases (⟨values, block, .tally counter (.value fresh) :: rest⟩ : Frame).read condition with
          | error error => exact .failed error world world'
          | ok value =>
              simp only [Frame.write, agree.size_eq]
              by_cases inside : fresh < values.size
              · have inside' : fresh < values'.size := agree.size_eq ▸ inside
                simp only [inside, if_true]
                have held (array : Array (Option Int64)) (inside : fresh < array.size) :
                    (array.setIfInBounds fresh (some (BinOp.ofTruth (value ≠ 0)))).getD fresh none =
                      some (BinOp.ofTruth (value ≠ 0)) := by
                  rw [getD_setIfInBounds, if_pos ⟨rfl, inside⟩]
                exact .running world world' (.relayed later (agree.set fresh _)
                  (held values inside) (held values' inside')) here
              · simp only [inside, if_false]
                exact .failed _ world world'
  | @relayed values values' block rest fresh counter value code agree held held' =>
      obtain ⟨counters, host⟩ := world
      obtain ⟨counters', host'⟩ := world'
      have left : (⟨values, block, rest⟩ : Frame).read (.value fresh) = .ok value := by
        rw [Frame.read_value, held]
      have right : (⟨values', block, rest⟩ : Frame).read (.value fresh) = .ok value := by
        rw [Frame.read_value, held']
      simp only [Instr.tally, step, execute, left, right]
      exact .running _ _ (.plain code agree) here

/-- After one step more a run has spent what it had and what that step adds. -/
theorem spends_succ {frame next : Frame} {steps : Nat}
    (reached : advance g steps frame world = .running next world') (counter : Counter) :
    spends g (steps + 1) frame world counter =
      spends g steps frame world counter + next.adds counter := by
  have last : trail g 1 next world' = [next] := by
    rw [trail_succ]
    split <;> rfl
  rw [spends, trail_add_of_running reached, last, List.map_append, List.sum_append, spends,
    List.map_singleton, List.sum_singleton]

end Machine

end FlowProfile
