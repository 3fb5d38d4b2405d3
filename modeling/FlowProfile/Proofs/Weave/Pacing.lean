/-
# Answers in pieces

A woven function answers a step of the function by a few steps of its own.  Where other
runs take turns between those, the answer comes in pieces, each in another world.  In the
meantime a frame of the woven function nears the next step of the function: some additions
come first, and what is left of them is a ledger.

`Woven.paces` is one such piece.  It makes the ledger shorter, or widens a condition, or it
finds nothing left to add and is the step of the function itself.  Nothing is asked of the
world but that the function does not fail in it.
-/

import FlowProfile.Proofs.Weave.Following

namespace FlowProfile

/-- A frame of the woven function on the way to its answer to the next step of the function,
and what it has to add to the counters before. -/
inductive Weave.Nears (weave : Weave) (prologue : Prologue) (fresh : BlockId → ValueId)
    (f woven : Func) : Frame → Ledger → Frame → Prop
  | instr {values values' : Array (Option Int64)} {id : BlockId} {block : Block} {first : Instr}
      {rest : List Instr} {entries : List (Measure × Operand)}
      (found : f.block? id = some block) (suffix : first :: rest <:+ block.instrs)
      (due : entries <:+ weave.tallies first) (covers : Covers f.nextValue values values')
      (size : values'.size = woven.nextValue) :
      Nears weave prologue fresh f woven ⟨values, id, first :: rest⟩
        (entries.map fun entry => (entry.1, (⟨values, id, first :: rest⟩ : Frame).amount entry.2))
        ⟨values', prologue.home f.blocks.size id,
          entries.map weave.tally ++
            weave.lower first :: weave.code (fresh id) id block.terminator rest⟩
  | probing {values values' : Array (Option Int64)} {id : BlockId} {block : Block}
      {condition : Operand} {value : Int64} (found : f.block? id = some block)
      (on : weave.branches = true)
      (isRuntime : block.terminator.runtimeCondition? = some condition)
      (read : (⟨values, id, []⟩ : Frame).read condition = .ok value)
      (covers : Covers f.nextValue values values') (size : values'.size = woven.nextValue) :
      Nears weave prologue fresh f woven ⟨values, id, []⟩ (branchLedger id value)
        ⟨values', prologue.home f.blocks.size id,
          weave.tail (fresh id) id block.terminator⟩
  | counted {values values' : Array (Option Int64)} {id : BlockId} {block : Block}
      {condition : Operand} {value : Int64} (found : f.block? id = some block)
      (on : weave.branches = true)
      (isRuntime : block.terminator.runtimeCondition? = some condition)
      (read : (⟨values, id, []⟩ : Frame).read condition = .ok value)
      (covers : Covers f.nextValue values values') (size : values'.size = woven.nextValue) :
      Nears weave prologue fresh f woven ⟨values, id, []⟩
        [(.taken id, if value ≠ 0 then 1 else 0)]
        ⟨values', prologue.home f.blocks.size id,
          [.widen (fresh id) condition, weave.tally (.taken id, .value (fresh id))]⟩
  | widened {values values' : Array (Option Int64)} {id : BlockId} {block : Block}
      {value : Int64} (found : f.block? id = some block)
      (held : values'.getD (fresh id) none = some (BinOp.ofTruth (value ≠ 0)))
      (covers : Covers f.nextValue values values') (size : values'.size = woven.nextValue) :
      Nears weave prologue fresh f woven ⟨values, id, []⟩
        [(.taken id, if value ≠ 0 then 1 else 0)]
        ⟨values', prologue.home f.blocks.size id, [weave.tally (.taken id, .value (fresh id))]⟩
  | ending {values values' : Array (Option Int64)} {id : BlockId} {block : Block}
      (found : f.block? id = some block) (covers : Covers f.nextValue values values')
      (size : values'.size = woven.nextValue) :
      Nears weave prologue fresh f woven ⟨values, id, []⟩ []
        ⟨values', prologue.home f.blocks.size id, []⟩

/-- What a step of the woven function is to the next step of the function. -/
inductive Weave.Paces (weave : Weave) (prologue : Prologue) (fresh : BlockId → ValueId)
    (f woven : Func) (frame : Frame) (due : Ledger) (world : World) : Progress → Prop
  | adds {paid left : Ledger} {next : Frame} {after : World}
      (nears : weave.Nears prologue fresh f woven frame left next) (split : due = paid ++ left)
      (agrees : weave.Agrees world after) (grows : weave.Grows paid world after) :
      Paces weave prologue fresh f woven frame due world (.running next after)
  | running {next next' : Frame} {after after' : World} (settled : due = [])
      (stepped : Machine.step f (weave.poised frame) world = .running next after)
      (follows : weave.Follows prologue fresh f woven next next')
      (agrees : weave.Agrees after after') (grows : weave.Grows [] world after') :
      Paces weave prologue fresh f woven frame due world (.running next' after')
  | returned {value : Option Int64} {after after' : World} (settled : due = [])
      (stepped : Machine.step f (weave.poised frame) world = .returned value after)
      (agrees : weave.Agrees after after') (grows : weave.Grows [] world after') :
      Paces weave prologue fresh f woven frame due world (.returned value after')

/-- The function does not fail with its next step. -/
def Weave.GoesOn (weave : Weave) (f : Func) (frame : Frame) (world : World) : Prop :=
  ∀ error after, Machine.step f (weave.poised frame) world ≠ .failed error after

namespace Weave

variable {weave : Weave} {prologue : Prologue} {fresh : BlockId → ValueId} {f woven : Func}
  {frame frame' next : Frame} {world after : World} {due : Ledger}
  {values values' : Array (Option Int64)} {id : BlockId} {block : Block} {first : Instr}
  {rest : List Instr}

/-- A step that only does what a weave put in is what the run does next. -/
theorem Pays.stepped (pays : weave.Pays woven 1 frame' world due next after) :
    Machine.step woven frame' world = .running next after := by
  obtain ⟨path, passes, -⟩ := pays.passes
  rw [← Machine.advance_one]
  exact passes.advance_eq

theorem Paces.of_pays {paid left : Ledger} (pays : weave.Pays woven 1 frame' world paid next after)
    (nears : weave.Nears prologue fresh f woven frame left next) (split : due = paid ++ left) :
    weave.Paces prologue fresh f woven frame due world (Machine.step woven frame' world) := by
  rw [pays.stepped]
  exact .adds nears split pays.agrees pays.grows

/-- A function that does not fail at an instruction has a value for all that is tallied
ahead of it. -/
theorem GoesOn.readable_tally (goesOn : weave.GoesOn f ⟨values, id, first :: rest⟩ world)
    {entry : Measure × Operand} (mem : entry ∈ weave.tallies first) :
    ∃ value, (⟨values, id, first :: rest⟩ : Frame).read entry.2 = .ok value := by
  cases read : (⟨values, id, first :: rest⟩ : Frame).read entry.2 with
  | ok value => exact ⟨value, rfl⟩
  | error error =>
      obtain ⟨-, isCall, used⟩ := weave.mem_tallies mem
      have isArgument : entry.2 ∈ (weave.lower first).operands := by
        rcases used with used | literal
        · rw [weave.operands_lower]
          exact used
        · rw [literal] at read
          cases read
      obtain ⟨failure, fails, -⟩ := Machine.execute_of_unreadable
        ((weave.isCall_lower first).trans isCall) isArgument
        ((Frame.read_rest values id rest (first :: rest) entry.2).trans read) world
      exact absurd (Machine.step_of_execute_error fails) (goesOn failure world)

/-- A frame that follows one of the function has all of the ledger ahead of it. -/
theorem Follows.nears (follows : weave.Follows prologue fresh f woven frame frame')
    (goesOn : weave.GoesOn f frame world) :
    weave.Nears prologue fresh f woven frame (weave.ledger f frame) frame' := by
  obtain ⟨values, id, rest⟩ := frame
  obtain ⟨values', home, rest'⟩ := frame'
  obtain ⟨⟨block, found, suffix, code⟩, rfl, covers, size⟩ := follows
  simp only at found suffix code covers size
  subst code
  cases rest with
  | cons first rest =>
      rw [weave.code_cons]
      exact .instr found suffix (List.suffix_refl _) covers size
  | nil =>
      rw [weave.code_nil]
      have condition : (⟨values, id, []⟩ : Frame).branchCondition? f =
          block.terminator.runtimeCondition? := by
        simp only [Frame.branchCondition?, List.isEmpty_nil, if_true, found, Option.bind_some]
      cases isRuntime : block.terminator.runtimeCondition? with
      | none =>
          have nothing : weave.ledger f ⟨values, id, []⟩ = [] := by
            simp only [ledger, condition, isRuntime]
            cases weave.branches <;> rfl
          rw [nothing, weave.tail_of_none isRuntime]
          exact .ending found covers size
      | some operand =>
          cases on : weave.branches with
          | false =>
              have nothing : weave.ledger f ⟨values, id, []⟩ = [] := by simp only [ledger, on]
              rw [nothing, tail_of_off on]
              exact .ending found covers size
          | true =>
              obtain ⟨value, read⟩ := Machine.read_of_step (condition.trans isRuntime) goesOn
              have all : weave.ledger f ⟨values, id, []⟩ = branchLedger id value := by
                simp only [ledger, on, condition, isRuntime, read]
              rw [all]
              exact .probing found on isRuntime read covers size

/-- With nothing left to add ahead of it, an instruction is executed by both functions. -/
theorem paces_instr (sound : f.WellFormed)
    (spares : ∀ counter ∈ f.counters, ¬ weave.Owns counter) (found : f.block? id = some block)
    (suffix : first :: rest <:+ block.instrs) (covers : Covers f.nextValue values values')
    (size : values'.size = woven.nextValue)
    (goesOn : weave.GoesOn f ⟨values, id, first :: rest⟩ world) :
    weave.Paces prologue fresh f woven ⟨values, id, first :: rest⟩ [] world
      (Machine.step woven ⟨values', prologue.home f.blocks.size id,
        weave.lower first :: weave.code (fresh id) id block.terminator rest⟩ world) := by
  have mem : first ∈ block.instrs := suffix.subset List.mem_cons_self
  have below : first.Below f.nextValue :=
    ⟨fun operand used => sound.instr_below found mem used,
      fun value result => sound.result_lt found mem result⟩
  have spared : weave.Spares first := fun counter adds =>
    spares counter (Func.mem_counters found mem adds)
  have echoes : weave.Echoes f.nextValue ⟨values, id, rest⟩
      ⟨values', prologue.home f.blocks.size id, weave.code (fresh id) id block.terminator rest⟩
      world _ _ :=
    echoes_execute covers (.refl world) (weave.below_lower below) (weave.spares_lower spared)
  generalize here : Machine.execute (weave.lower first) ⟨values, id, rest⟩ world = outcome at echoes
  generalize there : Machine.execute (weave.lower first) ⟨values', prologue.home f.blocks.size id,
    weave.code (fresh id) id block.terminator rest⟩ world = outcome' at echoes
  cases echoes with
  | @ok next next' after after' sameBlock sameRest shadows agrees grows =>
      rw [Machine.step_of_execute there]
      refine .running rfl (Machine.step_of_execute here) ?_ agrees grows
      obtain ⟨inner, place, left⟩ := next
      obtain ⟨outer, place', left'⟩ := next'
      obtain ⟨covers', size', rfl, rfl⟩ := shadows
      obtain rfl : place = id := sameBlock
      obtain rfl : left = rest := sameRest
      exact ⟨⟨block, found, (List.suffix_cons _ _).trans suffix, rfl⟩, rfl, covers',
        size'.trans size⟩
  | error within agrees => exact absurd (Machine.step_of_execute_error here) (goesOn _ _)

/-- With nothing left to add at the end of a block, both functions finish it. -/
theorem paces_end (isWoven : Woven weave prologue fresh f woven) (sound : f.WellFormed)
    (found : f.block? id = some block) (covers : Covers f.nextValue values values')
    (size : values'.size = woven.nextValue) (goesOn : weave.GoesOn f ⟨values, id, []⟩ world) :
    weave.Paces prologue fresh f woven ⟨values, id, []⟩ [] world
      (Machine.step woven ⟨values', prologue.home f.blocks.size id, []⟩ world) := by
  obtain ⟨lead, image, foundImage, -, -, flow⟩ := isWoven.hosts found
  have finished := Frame.finishBlock_unweighted woven
    (⟨values', prologue.home f.blocks.size id, []⟩ : Frame) flow
  have stepped := Machine.step_of_block found values world
  rw [Machine.step_of_block foundImage values' world, finished]
  have leadsOn := sound.leadsOn id block found
  have below : ∀ operand ∈ block.terminator.operands, operand.Below f.nextValue :=
    fun operand used => sound.terminator_below found used
  have covers' : Covers f.nextValue (⟨values, id, []⟩ : Frame).values
      (⟨values', prologue.home f.blocks.size id, []⟩ : Frame).values := covers
  rcases isWoven.finishBlock sound covers' size leadsOn below with
    ⟨next, next', here, there, follows⟩ | ⟨value, here, there⟩ | ⟨error, here, there⟩
  · rw [here] at stepped
    rw [there]
    exact .running rfl stepped follows (.refl world) (.refl world)
  · rw [here] at stepped
    rw [there]
    exact .returned rfl stepped (.refl world) (.refl world)
  · rw [here] at stepped
    exact absurd stepped (goesOn error world)

/-- The next addition ahead of an instruction. -/
theorem paces_tally (sound : f.WellFormed) (found : f.block? id = some block)
    (suffix : first :: rest <:+ block.instrs) (covers : Covers f.nextValue values values')
    (size : values'.size = woven.nextValue) {entry : Measure × Operand}
    {later : List (Measure × Operand)} (listed : entry :: later <:+ weave.tallies first)
    (goesOn : weave.GoesOn f ⟨values, id, first :: rest⟩ world) :
    weave.Paces prologue fresh f woven ⟨values, id, first :: rest⟩
      ((entry :: later).map fun entry =>
        (entry.1, (⟨values, id, first :: rest⟩ : Frame).amount entry.2)) world
      (Machine.step woven ⟨values', prologue.home f.blocks.size id,
        (entry :: later).map weave.tally ++
          weave.lower first :: weave.code (fresh id) id block.terminator rest⟩ world) := by
  have mem : first ∈ block.instrs := suffix.subset List.mem_cons_self
  have below : first.Below f.nextValue :=
    ⟨fun operand used => sound.instr_below found mem used,
      fun value result => sound.result_lt found mem result⟩
  have tallied : entry ∈ weave.tallies first := listed.subset List.mem_cons_self
  obtain ⟨value, here⟩ := goesOn.readable_tally tallied
  have there := weave.read_tally covers below tallied id (prologue.home f.blocks.size id)
    (first :: rest) []
  rw [here] at there
  have amount : (⟨values, id, first :: rest⟩ : Frame).amount entry.2 = value.toUInt64 :=
    Frame.amount_of_read here
  rw [List.map_cons, List.map_cons, amount, List.cons_append]
  exact .of_pays (pays_tally there)
    (.instr found suffix ((List.suffix_cons _ _).trans listed) covers size) rfl

end Weave

/-- One step of a woven function that nears the next step of the function. -/
theorem Woven.paces {weave : Weave} {prologue : Prologue} {fresh : BlockId → ValueId}
    {f woven : Func} {frame frame' : Frame} {world : World} {due : Ledger}
    (isWoven : Woven weave prologue fresh f woven) (sound : f.WellFormed)
    (spares : ∀ counter ∈ f.counters, ¬ weave.Owns counter)
    (nears : weave.Nears prologue fresh f woven frame due frame')
    (goesOn : weave.GoesOn f frame world) :
    weave.Paces prologue fresh f woven frame due world (Machine.step woven frame' world) := by
  cases nears with
  | @instr values values' id block first rest entries found suffix listed covers size =>
      cases entries with
      | nil => exact Weave.paces_instr sound spares found suffix covers size goesOn
      | cons entry later => exact Weave.paces_tally sound found suffix covers size listed goesOn
  | probing found on isRuntime read covers size =>
      exact .of_pays (Weave.pays_total on isRuntime _ _ world)
        (.counted found on isRuntime read covers size) rfl
  | @counted values values' id block condition value found on isRuntime read covers size =>
      have between := isWoven.fresh_between id block found on (by rw [isRuntime]; rfl)
      have read' : (⟨values', prologue.home f.blocks.size id, []⟩ : Frame).read condition =
          ((⟨values, id, []⟩ : Frame).read condition).mapError
            (Error.within (prologue.home f.blocks.size id)) :=
        Frame.read_covered covers
          (sound.terminator_below found (Terminator.mem_operands_of_runtimeCondition? isRuntime))
      rw [read] at read'
      have inside : fresh id < values'.size := size ▸ between.2
      refine .of_pays (Weave.pays_widen read' inside world)
        (.widened found ?_ (covers.setBeyond between.1 _) ?_) rfl
      · rw [getD_setIfInBounds, if_pos ⟨rfl, inside⟩]
      · exact Array.size_setIfInBounds.trans size
  | @widened values values' id block value found held covers size =>
      have read : (⟨values', prologue.home f.blocks.size id, []⟩ : Frame).read (.value (fresh id)) =
          .ok (BinOp.ofTruth (value ≠ 0)) := by
        rw [Frame.read_value, held]
      have pays : weave.Pays woven 1
          ⟨values', prologue.home f.blocks.size id, [weave.tally (.taken id, .value (fresh id))]⟩
          world [(.taken id, (BinOp.ofTruth (value ≠ 0)).toUInt64)]
          ⟨values', prologue.home f.blocks.size id, []⟩ _ := Weave.pays_tally read
      rw [Weave.toUInt64_ofTruth] at pays
      simp only [decide_eq_true_eq] at pays
      exact .of_pays pays (.ending found covers size) rfl
  | ending found covers size => exact Weave.paces_end isWoven sound found covers size goesOn

end FlowProfile
