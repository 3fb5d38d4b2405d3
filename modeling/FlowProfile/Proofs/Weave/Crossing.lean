/-
# Woven functions run steadily

All that a run of a woven function takes from the counters is the number with which it
counts itself, and all that it does with it is to decide whether to report.  Either way
it comes to the function's own code, which reads no value of the prologue.

So a run that others may disturb is compared with one that begins there and is alone.  Up
to that place it stands somewhere ahead of it, and it has added to the counter of calls or
has not yet.  From there on both do alike, and what the prologue added comes on top of what
the other one adds.
-/

import FlowProfile.Proofs.Run.Steady
import FlowProfile.Proofs.Weave.Racing

namespace FlowProfile

/-! ## Woven code is plain -/

section

variable {weave : Weave} {prologue : Prologue} {fresh : BlockId → ValueId} {f woven : Func}

/-- What a block of a function is woven into is plain, if the function adds to no counters. -/
theorem Weave.plain_code (weave : Weave) (sound : f.WellFormed) (silent : f.counters = [])
    {id : BlockId} {block : Block} (found : f.block? id = some block) (fresh : ValueId) :
    Instr.Plain f.nextValue (weave.code fresh id block.terminator block.instrs) := by
  refine .append (.of_forall fun instr mem => ?_) ?_
  · obtain ⟨origin, listed, woven⟩ := List.mem_flatMap.mp mem
    have below : ∀ operand ∈ origin.operands, operand.Below f.nextValue :=
      fun operand read => sound.instr_below found listed read
    rcases List.mem_append.mp woven with ahead | last
    · obtain ⟨entry, known, rfl⟩ := List.mem_map.mp ahead
      refine ⟨fun operand read => ?_, .inr rfl⟩
      obtain rfl : operand = entry.2 := List.mem_singleton.mp read
      rcases (weave.mem_tallies known).2.2 with own | one
      · exact below _ own
      · rw [one]
        exact Operand.below_const _ _
    · rw [List.mem_singleton.mp last, weave.operands_lower, weave.counter?_lower]
      refine ⟨below, .inl ?_⟩
      cases adds : origin.counter? with
      | none => rfl
      | some counter =>
          have mem := f.mem_counters found listed adds
          rw [silent] at mem
          cases mem
  · unfold Weave.tail
    split
    · next condition _ isRuntime =>
        refine .cons ?_ (.inr rfl) (.relay _ _ ?_ .nil)
        · intro operand read
          rw [List.mem_singleton.mp read]
          exact Operand.below_const _ _
        · exact sound.terminator_below found
            (Terminator.mem_operands_of_runtimeCondition? isRuntime)
    · exact .nil
    · exact .nil

/-- A place of the woven function that belongs to the function itself. -/
def Prologue.Hosts (prologue : Prologue) (f : Func) (position : BlockId) : Prop :=
  ∃ id block, f.block? id = some block ∧ position = prologue.home f.blocks.size id

variable (isWoven : Woven weave prologue fresh f woven) (sound : f.WellFormed)

include isWoven sound

/-- Edges of the function's own blocks lead to plain code of its own. -/
theorem Woven.closed (silent : f.counters = []) :
    woven.Closed f.nextValue (prologue.Hosts f) where
  below := by
    rintro _ image ⟨id, block, found, rfl⟩ here operand mem
    obtain ⟨lead, image', here', -, -, flow⟩ := isWoven.hosts found
    obtain rfl : image = image' := Option.some.inj (here.symm.trans here')
    rw [← Terminator.operands_unweighted, flow, Terminator.operands_unweighted] at mem
    exact sound.terminator_below found mem
  onward := by
    rintro _ image ⟨id, block, found, rfl⟩ here edge mem
    obtain ⟨lead, image', here', -, -, flow⟩ := isWoven.hosts found
    obtain rfl : image = image' := Option.some.inj (here.symm.trans here')
    rw [← Terminator.edges_unweighted, flow, Terminator.edges_unweighted] at mem
    obtain ⟨target, found', inner, -⟩ := sound.leadsOn id block found edge mem
    refine ⟨⟨edge.target, target, found', (prologue.home_of_ne _ inner).symm⟩, ?_⟩
    intro image' there
    obtain ⟨image'', there', -, instrs, -⟩ := isWoven.inner edge.target target inner found'
    obtain rfl : image' = image'' := Option.some.inj (there.symm.trans there')
    rw [instrs]
    exact weave.plain_code sound silent found' _

end

/-! ## The way to the function's own code -/

namespace Prologue

/-- What the prologue adds to a counter. -/
def toll (prologue : Prologue) (weave : Weave) (counter : Counter) : UInt64 :=
  if prologue.counts = true ∧ weave.counter .calls = counter then 1 else 0

/-- A run is on its way to the function's own code, and it has counted itself or not.  The
function's values are those with which it began. -/
inductive Ahead (prologue : Prologue) (f woven : Func) (values : Array (Option Int64)) :
    Bool → Frame → Prop
  | waiting {image : Block} (counts : prologue.counts = true)
      (found : woven.block? Func.entry = some image) :
      Ahead prologue f woven values false ⟨values, Func.entry, image.instrs⟩
  | deciding {reporter : Reporter} {previous current hit : ValueId}
      (isReported : prologue = .reported reporter previous current hit) {before : Int64}
      {steps : Nat} {frame : Frame}
      (stands : Stands reporter previous current hit woven f.blocks.size before steps frame)
      (same : SameBelow f.nextValue values frame.values) :
      Ahead prologue f woven values true frame
  | reported {reporter : Reporter} {previous current hit : ValueId}
      (isReported : prologue = .reported reporter previous current hit)
      {values' : Array (Option Int64)} (same : SameBelow f.nextValue values values') :
      Ahead prologue f woven values true ⟨values', f.blocks.size + 1, []⟩

/-- On the way to its decision a run adds nothing. -/
theorem Stands.adds_eq_zero {reporter : Reporter} {previous current hit : ValueId} {woven : Func}
    {blocks : Nat} {before : Int64} {steps : Nat} {frame : Frame}
    (stands : Stands reporter previous current hit woven blocks before steps frame)
    (counter : Counter) : frame.adds counter = 0 := by
  cases stands <;> rfl

end Prologue

/-- The place where the function's own code begins. -/
def Weave.gate (weave : Weave) (prologue : Prologue) (fresh : BlockId → ValueId) (f : Func)
    (head : Block) (values : Array (Option Int64)) : Frame :=
  ⟨values, prologue.home f.blocks.size Func.entry,
    weave.code (fresh Func.entry) Func.entry head.terminator head.instrs⟩

section

variable {weave : Weave} {prologue : Prologue} {fresh : BlockId → ValueId} {f woven : Func}
  {head : Block} {values : Array (Option Int64)} {counted : Bool} {frame : Frame} {world : World}

theorem Prologue.toll_of_counts (counts : prologue.counts = true) (weave : Weave)
    (previous : ValueId) (values : Array (Option Int64)) (position : BlockId) (rest : List Instr)
    (counter : Counter) :
    (⟨values, position, Probe.countCall (weave.counter .calls) previous :: rest⟩ : Frame).adds
      counter = prologue.toll weave counter := by
  rw [toll, counts]
  simp only [true_and]
  rfl

variable (isWoven : Woven weave prologue fresh f woven) (sound : f.WellFormed)
  (silent : f.counters = []) (entered : f.block? Func.entry = some head)

include sound silent entered in
/-- A run is at the function's own code with the function's own values. -/
theorem Weave.alike_gate {values' : Array (Option Int64)}
    (same : SameBelow f.nextValue values values') :
    (weave.gate prologue fresh f head values).Alike f.nextValue
      (weave.gate prologue fresh f head values') :=
  .plain (weave.plain_code sound silent entered _) same

include isWoven sound silent entered

/-- A run that waits counts itself. -/
theorem Woven.cross_waiting (counts : prologue.counts = true) {image : Block}
    (found : woven.block? Func.entry = some image) (size : values.size = woven.nextValue)
    (world : World) :
    ∃ next world', Machine.step woven ⟨values, Func.entry, image.instrs⟩ world =
        .running next world' ∧
      (∀ counter, (⟨values, Func.entry, image.instrs⟩ : Frame).adds counter =
        prologue.toll weave counter) ∧
      (prologue.Ahead f woven values true next ∨
        (weave.gate prologue fresh f head values).Alike f.nextValue next) := by
  have begins := isWoven.begins head entered
  cases prologue with
  | bare => cases counts
  | counted previous =>
      obtain ⟨image', found', -, instrs, -⟩ := begins
      obtain rfl : image = image' := Option.some.inj (found.symm.trans found')
      obtain ⟨low, inside⟩ := isWoven.prologue_fresh
      rw [instrs]
      have stepped := Machine.step_countCall woven weave world Func.entry
        (weave.code (fresh Func.entry) Func.entry head.terminator head.instrs) (size ▸ inside)
      refine ⟨_, _, stepped, Prologue.toll_of_counts rfl weave previous values Func.entry _,
        .inr ?_⟩
      exact Weave.alike_gate sound silent entered ((SameBelow.refl ..).setBeyond low _)
  | reported reporter previous current hit =>
      obtain ⟨⟨image', weights, found', instrs, -⟩, -⟩ := begins
      obtain rfl : image = image' := Option.some.inj (found.symm.trans found')
      obtain ⟨⟨low, inside⟩, -⟩ := isWoven.prologue_fresh
      rw [instrs]
      have stepped := Machine.step_countCall woven weave world Func.entry
        [.binop current .add (.value previous) Probe.one,
          .binop hit .eq (.value current) (.const (.word reporter.threshold))] (size ▸ inside)
      have held (value : Int64) :
          (values.setIfInBounds previous (some value)).getD previous none = some value := by
        rw [getD_setIfInBounds, if_pos ⟨rfl, size ▸ inside⟩]
      refine ⟨_, _, stepped, Prologue.toll_of_counts rfl weave previous values Func.entry _,
        .inl ?_⟩
      exact .deciding rfl (.counted (Array.size_setIfInBounds.trans size) (held _))
        ((SameBelow.refl ..).setBeyond low _)

/-- A step on the way leads on to the function's own code, whatever the counters hold.  The
run counts itself with its first step and adds nothing else. -/
theorem Woven.cross (size : values.size = woven.nextValue)
    (registered : ∀ used, prologue.reporter? = some used →
      (world.host.routine? (.address used.callback)).isSome = true)
    (ahead : prologue.Ahead f woven values counted frame) :
    ∃ next world', Machine.step woven frame world = .running next world' ∧
      (∀ counter, (if counted then prologue.toll weave counter else 0) + frame.adds counter =
        prologue.toll weave counter) ∧
      (prologue.Ahead f woven values true next ∨
        (weave.gate prologue fresh f head values).Alike f.nextValue next) := by
  cases ahead with
  | waiting counts found =>
      obtain ⟨next, world', stepped, adds, onward⟩ :=
        isWoven.cross_waiting sound silent entered counts found size world
      exact ⟨next, world', stepped, fun counter => (UInt64.zero_add _).trans (adds counter), onward⟩
  | @deciding reporter previous current hit isReported before steps frame stands same =>
      subst isReported
      obtain ⟨next, world', stepped, kept, advances⟩ :=
        isWoven.step_deciding sound rfl entered stands (registered reporter rfl)
      refine ⟨next, world', stepped, fun counter => ?_, ?_⟩
      · rw [stands.adds_eq_zero]
        exact UInt64.add_zero _
      · cases advances with
        | deciding world here stands' => exact .inl (.deciding rfl stands' (same.trans kept))
        | passes values' world undue => exact .inr (Weave.alike_gate sound silent entered same)
        | reports values' world due => exact .inl (.reported rfl same)
  | @reported reporter previous current hit isReported values' same =>
      subst isReported
      obtain ⟨⟨rest, foundRest, paramsRest, code⟩, report, foundReport, -, -, flow⟩ :=
        isWoven.after_decision sound entered
      have stepped := Machine.step_leave values' world foundReport flow foundRest paramsRest
      rw [code] at stepped
      exact ⟨_, world, stepped, fun _ => UInt64.add_zero _,
        .inr (Weave.alike_gate sound silent entered same)⟩

end

/-! ## Whole runs -/

/-- Where a run stands and what it has added so far, compared with a run that begins at the
function's own code in some world and is alone. -/
inductive Weave.Standing (weave : Weave) (prologue : Prologue) (f woven : Func)
    (values : Array (Option Int64)) (gate : Frame) (origin : World)
    (answers : Callee → Option (List Int64 → Int64)) : (Counter → UInt64) → Strand → Prop
  | ahead {spent : Counter → UInt64} {limit left : Nat} {frame : Frame} {counted : Bool}
      (ahead : prologue.Ahead f woven values counted frame)
      (spent_eq : ∀ counter, spent counter = if counted then prologue.toll weave counter else 0) :
      Standing weave prologue f woven values gate origin answers spent (.going limit left frame)
  | own {spent : Counter → UInt64} {limit left steps : Nat} {frame place : Frame} {world : World}
      (reached : Machine.advance woven steps gate origin = .running place world)
      (serves : world.host.Serves answers) (alike : place.Alike f.nextValue frame)
      (here : prologue.Hosts f place.block)
      (spent_eq : ∀ counter, spent counter =
        prologue.toll weave counter + Machine.spends woven steps gate origin counter) :
      Standing weave prologue f woven values gate origin answers spent (.going limit left frame)
  | ended {spent : Counter → UInt64} {steps : Nat} {progress : Progress}
      (reached : Machine.advance woven steps gate origin = progress)
      (stops : progress.isRunning = false)
      (spent_eq : ∀ counter, spent counter =
        prologue.toll weave counter + Machine.spends woven steps gate origin counter) :
      Standing weave prologue f woven values gate origin answers spent (.ended (progress.result 0).1)
  | exhausted (spent : Counter → UInt64) (limit : Nat) :
      Standing weave prologue f woven values gate origin answers spent
        (.ended (.error (.stepLimitExceeded limit)))

section

variable {weave : Weave} {prologue : Prologue} {fresh : BlockId → ValueId} {f woven : Func}
  {head : Block} {values : Array (Option Int64)} {origin world : World}
  {answers : Callee → Option (List Int64 → Int64)} {spent spent' : Counter → UInt64}
  {strand : Strand} {gate : Frame} {outcome outcome' : Except Error (Option Int64)}

/-- Two runs that end, and are not cut off, end in the same way and have added the same. -/
theorem Weave.Standing.once
    (stage : weave.Standing prologue f woven values gate origin answers spent (.ended outcome))
    (stage' : weave.Standing prologue f woven values gate origin answers spent' (.ended outcome'))
    (finishes : Machine.Finishes outcome) (finishes' : Machine.Finishes outcome') :
    outcome' = outcome ∧ spent' = spent := by
  cases stage with
  | exhausted limit => exact absurd rfl (finishes limit)
  | ended reached stops spent_eq =>
      cases stage' with
      | exhausted limit => exact absurd rfl (finishes' limit)
      | ended reached' stops' spent_eq' =>
          have same := Machine.ends_once reached' reached stops' stops
          refine ⟨by rw [same], funext fun counter => ?_⟩
          subst reached reached'
          rw [spent_eq, spent_eq', Machine.spends, Machine.spends,
            Machine.trail_ends_once stops' stops]

variable (isWoven : Woven weave prologue fresh f woven) (sound : f.WellFormed)
  (silent : f.counters = [])

include isWoven sound silent

/-- In the function's own code a run does what the other one does. -/
theorem Woven.standing_own {steps limit left : Nat} {frame place : Frame} {world' : World}
    (reached : Machine.advance woven steps gate origin = .running place world)
    (alike : place.Alike f.nextValue frame) (here : prologue.Hosts f place.block)
    (spent_eq : ∀ counter, spent counter =
      prologue.toll weave counter + Machine.spends woven steps gate origin counter)
    (serves : world.host.Serves answers) (serves' : world'.host.Serves answers) :
    weave.Standing prologue f woven values gate origin answers
      (fun counter => spent counter + frame.adds counter)
      ((Strand.going limit (left + 1) frame).step woven world').1 := by
  have onward := Machine.advance_add_of_running reached 1
  rw [Machine.advance_one] at onward
  have spends (counter : Counter) : spent counter + frame.adds counter =
      prologue.toll weave counter + Machine.spends woven (steps + 1) gate origin counter := by
    rw [spent_eq, Machine.adds_eq alike, Machine.spends_succ reached, UInt64.add_assoc]
  -- The two runs step in different worlds.  All that `alike_step` needs of these is that
  -- their hosts answer alike.
  have both := Machine.alike_step (isWoven.closed sound silent) alike here serves serves'
  have still := Machine.serves_step woven place serves
  rw [Strand.step]
  generalize Machine.step woven place world = progress at onward both still
  generalize Machine.step woven frame world' = progress' at both
  cases both with
  | running middle middle' alike here => exact .own onward still alike here spends
  | returned value middle middle' => exact .ended onward rfl spends
  | failed error middle middle' => exact .ended onward rfl spends

/-- A turn leads from stage to stage, whatever the counters hold. -/
theorem Woven.standing_turn (entered : f.block? Func.entry = some head)
    (size : values.size = woven.nextValue)
    (gated : weave.gate prologue fresh f head values = gate)
    (registered : ∀ used, prologue.reporter? = some used →
      (answers (.address used.callback)).isSome = true)
    (serves : origin.host.Serves answers) (serves' : world.host.Serves answers)
    (stage : weave.Standing prologue f woven values gate origin answers spent strand) :
    weave.Standing prologue f woven values gate origin answers
      (fun counter => spent counter + strand.adds counter) (strand.step woven world).1 := by
  cases stage with
  | exhausted limit => exact .exhausted _ limit
  | ended reached stops spent_eq =>
      exact .ended reached stops fun counter => (UInt64.add_zero _).trans (spent_eq counter)
  | @ahead limit left frame counted ahead spent_eq =>
      cases left with
      | zero => exact .exhausted _ limit
      | succ left =>
          have there (used : Reporter) (asked : prologue.reporter? = some used) :
              (world.host.routine? (.address used.callback)).isSome = true :=
            (serves'.isSome_routine? _).trans (registered used asked)
          obtain ⟨next, world', stepped, adds, onward⟩ :=
            isWoven.cross sound silent entered size there ahead
          have spent_eq' (counter : Counter) :
              spent counter + frame.adds counter = prologue.toll weave counter := by
            rw [spent_eq, adds]
          rw [Strand.step, stepped]
          rcases onward with ahead | alike
          · exact .ahead ahead spent_eq'
          · subst gated
            have reached : Machine.advance woven 0 (weave.gate prologue fresh f head values)
                origin = .running (weave.gate prologue fresh f head values) origin := rfl
            exact .own reached serves alike ⟨Func.entry, head, entered, rfl⟩ fun counter =>
              (spent_eq' counter).trans (UInt64.add_zero _).symm
  | @own limit left steps frame place middle reached serves alike here spent_eq =>
      cases left with
      | zero => exact .exhausted _ limit
      | succ left => exact isWoven.standing_own sound silent reached alike here spent_eq serves serves'

/-- A run begins on the way to the function's own code, or there. -/
theorem Woven.standing_start (entered : f.block? Func.entry = some head) {image : Block}
    (found : woven.block? Func.entry = some image)
    (gated : weave.gate prologue fresh f head values = gate) (serves : origin.host.Serves answers)
    (limit : Nat) :
    weave.Standing prologue f woven values gate origin answers (fun _ => 0)
      (.going limit limit ⟨values, Func.entry, image.instrs⟩) := by
  cases counts : prologue.counts with
  | true => exact .ahead (.waiting counts found) fun _ => rfl
  | false =>
      cases prologue with
      | counted previous => cases counts
      | reported reporter previous current hit => cases counts
      | bare =>
          obtain ⟨image', found', -, instrs, -⟩ := isWoven.begins head entered
          obtain rfl : image = image' := Option.some.inj (found.symm.trans found')
          subst gated
          have reached : Machine.advance woven 0 (weave.gate .bare fresh f head values) origin =
              .running (weave.gate .bare fresh f head values) origin := rfl
          rw [instrs]
          exact .own reached serves (Weave.alike_gate sound silent entered (.refl ..))
            ⟨Func.entry, head, entered, rfl⟩ fun _ => rfl

/-- Runs of a woven function are steady, if the function adds to no counters itself and the
routine of its reporter is there. -/
theorem Woven.yields
    (registered : ∀ used, prologue.reporter? = some used →
      (answers (.address used.callback)).isSome = true)
    (serves : origin.host.Serves answers) (limit : Nat) (args : List Int64) :
    ∃ result total, (⟨woven, limit, args⟩ : Job).Yields answers result total := by
  rcases isWoven.start sound args with
    ⟨-, refused⟩ | ⟨head, image, _, values, entered, found, -, starts, -, size⟩
  · generalize Error.functionArity f.name f.params.length args.length = error at refused
    have begins : (⟨woven, limit, args⟩ : Job).strand = .ended (.error error) := by
      rw [Job.strand, Strand.start, refused]
    refine Job.yields_of_stages (fun spent strand =>
      spent = (fun _ => 0) ∧ strand = .ended (.error error)) ⟨rfl, begins⟩ ?_ ?_
    · rintro spent strand world - ⟨rfl, rfl⟩
      exact ⟨funext fun _ => UInt64.add_zero 0, rfl⟩
    · rintro spent spent' outcome outcome' ⟨rfl, same⟩ ⟨rfl, same'⟩ - -
      exact ⟨(Strand.ended.inj same').trans (Strand.ended.inj same).symm, rfl⟩
  · have begins : (⟨woven, limit, args⟩ : Job).strand =
        .going limit limit ⟨values, Func.entry, image.instrs⟩ := by
      rw [Job.strand, Strand.start, starts]
    refine Job.yields_of_stages
      (weave.Standing prologue f woven values (weave.gate prologue fresh f head values) origin answers)
      ?_ ?_ fun stage stage' => stage.once stage'
    · rw [begins]
      exact isWoven.standing_start sound silent entered found rfl serves limit
    · exact fun serves' stage =>
        isWoven.standing_turn sound silent entered size rfl registered serves serves' stage

end

end FlowProfile
