/-
# What allocators are asked for

A woven function makes the calls by name of the function, lowered, and no others.  So the
call that a run of it makes is known in the function as well: in the same block, with as
many calls by name left behind it.  At each of the two stages of a compilation a call may
be one of an allocator, and then it is a request for a size.

The counters of a stage grow by the number of the requests that a run makes and by the
sum of their sizes.  Both are read off the run of the woven function alone, so nothing is
asked of the host.
-/

import Mathlib.Data.UInt
import FlowProfile.Proofs.Weave.Launching

namespace FlowProfile

/-! ## Calls as the stages see them -/

namespace Func

/-- The block of a function whose code stands at a position of the compiled function. -/
def origin (f : Func) (reporter : Option Reporter) (position : BlockId) : BlockId :=
  if reporter.isSome && position == f.blocks.size then entry else position

theorem origin_home {f : Func} {id : BlockId} (inside : id < f.blocks.size)
    (reporter : Option Reporter) : f.origin reporter (f.home reporter id) = id := by
  cases reporter with
  | none => rfl
  | some reporter =>
      by_cases first : id = entry
      · simp [origin, home, first]
      · simp [origin, home, first, Nat.ne_of_lt inside]

/-- The calls by name in a block, in program order. -/
def namedCalls (f : Func) (id : BlockId) : List Instr :=
  match f.block? id with
  | some block => block.instrs.filter Instr.isNamedCall
  | none => []

/-- The call by name behind which so many others are left in its block. -/
def namedCall? (f : Func) (id : BlockId) (left : Nat) : Option Instr :=
  (f.namedCalls id).reverse[left]?

theorem namedCall?_of_suffix {f : Func} {id : BlockId} {block : Block}
    (found : f.block? id = some block) {first : Instr} {rest : List Instr}
    (suffix : first :: rest <:+ block.instrs) (named : first.isNamedCall = true) :
    f.namedCall? id (rest.countP Instr.isNamedCall) = some first := by
  obtain ⟨earlier, split⟩ := suffix
  have calls : f.namedCalls id =
      earlier.filter Instr.isNamedCall ++ first :: rest.filter Instr.isNamedCall := by
    simp only [namedCalls, found, ← split, List.filter_append, List.filter_cons, named, if_true]
  rw [namedCall?, calls, List.countP_eq_length_filter]
  simp

end Func

namespace Frame

/-- The call by name that the next step of a compiled function makes, as the function had
it before it was compiled.  `Woven.calls_of_run` shows that there is one. -/
def sourceCall? (f : Func) (reporter : Option Reporter) (frame : Frame) : Option Instr :=
  if frame.namedCall?.isSome then
    f.namedCall? (f.origin reporter frame.block) (frame.rest.tail.countP Instr.isNamedCall)
  else none

/-- The call by name that the next step of a compiled function makes, as a stage of the
compilation sees it. -/
def callAt? (f : Func) (reporter : Option Reporter) (frame : Frame) : Stage → Option Instr
  | .before => frame.sourceCall? f reporter
  | .after => frame.namedCall?

/-- The size that a call asks for: its argument at the position of sizes. -/
def sizeAsked (symbols : AllocSymbols) (frame : Frame) (call : Instr) : UInt64 :=
  match call.operands[symbols.sizeArg]? with
  | some size => frame.amount size
  | none => 0

/-- The size that the next step of a compiled function asks an allocator for, if it calls
one in the eyes of a stage. -/
def request? (symbols : AllocSymbols) (f : Func) (reporter : Option Reporter) (stage : Stage)
    (frame : Frame) : Option UInt64 :=
  ((frame.callAt? f reporter stage).filter (symbols.recognizesCall stage)).map
    (frame.sizeAsked symbols)

theorem request?_of_unnamed {frame : Frame} (unnamed : frame.namedCall? = none)
    (symbols : AllocSymbols) (f : Func) (reporter : Option Reporter) (stage : Stage) :
    frame.request? symbols f reporter stage = none := by
  cases stage with
  | before => rw [request?, callAt?, sourceCall?, unnamed]; rfl
  | after => rw [request?, callAt?, unnamed]; rfl

end Frame

/-- The sizes that allocators are asked for along a trail of a compiled function. -/
def AllocSymbols.requests (symbols : AllocSymbols) (f : Func) (reporter : Option Reporter)
    (stage : Stage) (path : List Frame) : List UInt64 :=
  path.filterMap (Frame.request? symbols f reporter stage)

theorem AllocSymbols.requests_of_unnamed {path : List Frame}
    (unnamed : ∀ frame ∈ path, frame.namedCall? = none) (symbols : AllocSymbols) (f : Func)
    (reporter : Option Reporter) (stage : Stage) :
    symbols.requests f reporter stage path = [] := by
  apply List.filterMap_eq_nil_iff.mpr
  intro frame mem
  exact Frame.request?_of_unnamed (unnamed frame mem) symbols f reporter stage

theorem AllocSymbols.requests_append (symbols : AllocSymbols) (f : Func)
    (reporter : Option Reporter) (stage : Stage) (path path' : List Frame) :
    symbols.requests f reporter stage (path ++ path') =
      symbols.requests f reporter stage path ++ symbols.requests f reporter stage path' :=
  List.filterMap_append

/-- An instruction has an argument for the size if a stage recognizes it as a call of an
allocator. -/
def AllocSymbols.Sizes (symbols : AllocSymbols) (stage : Stage) (instr : Instr) : Prop :=
  symbols.recognizesCall stage instr = true → symbols.sizeArg < instr.operands.length

theorem AllocSymbols.called_of_recognizesCall {symbols : AllocSymbols} {stage : Stage}
    {instr : Instr} (recognized : symbols.recognizesCall stage instr = true) :
    ∃ name, instr.calledSymbol? = some name ∧ symbols.recognizes stage name = true := by
  rw [recognizesCall] at recognized
  cases called : instr.calledSymbol? with
  | some name =>
      rw [called] at recognized
      exact ⟨name, rfl, recognized⟩
  | none =>
      rw [called] at recognized
      cases recognized

/-! ## The calls of a woven function -/

namespace Weave

variable (weave : Weave)

/-- An instruction of the function itself, as a stage of the compilation sees it. -/
def seen : Stage → Instr → Instr
  | .before, instr => instr
  | .after, instr => weave.lower instr

theorem lower_eq_elim (instr : Instr) :
    weave.lower instr = weave.lowering.elim instr (·.lowerInstr instr) := by
  rw [lower]
  cases weave.lowering <;> rfl

theorem operands_seen (stage : Stage) (instr : Instr) :
    (weave.seen stage instr).operands = instr.operands := by
  cases stage with
  | before => rfl
  | after => exact weave.operands_lower instr

/-- Every stage sees a call with the same size. -/
theorem sizeAsked_seen (symbols : AllocSymbols) (frame : Frame) (stage : Stage) (instr : Instr) :
    frame.sizeAsked symbols (weave.seen stage instr) = frame.sizeAsked symbols instr := by
  rw [Frame.sizeAsked, Frame.sizeAsked, weave.operands_seen]

theorem isNamedCall_lower (instr : Instr) :
    (weave.lower instr).isNamedCall = instr.isNamedCall := by
  rcases weave.lower_eq_or instr with same | ⟨lowering, result, args, -, rfl, renamed⟩
  · rw [same]
  · rw [renamed]
    rfl

theorem isNamedCall_seen (stage : Stage) (instr : Instr) :
    (weave.seen stage instr).isNamedCall = instr.isNamedCall := by
  cases stage with
  | before => rfl
  | after => exact weave.isNamedCall_lower instr

/-- The woven code of a block has as many calls by name as the block itself. -/
theorem countP_code (fresh : ValueId) (id : BlockId) (terminator : Terminator)
    (rest : List Instr) :
    (weave.code fresh id terminator rest).countP Instr.isNamedCall =
      rest.countP Instr.isNamedCall := by
  induction rest with
  | nil =>
      apply List.countP_eq_zero.mpr
      intro instr mem
      rw [Instr.isNamedCall, weave.calledSymbol?_of_mem_tail mem]
      exact Bool.false_ne_true
  | cons first rest ih =>
      have tallied : ((weave.tallies first).map weave.tally).countP Instr.isNamedCall = 0 := by
        apply List.countP_eq_zero.mpr
        intro instr mem
        obtain ⟨entry, -, rfl⟩ := List.mem_map.mp mem
        exact Bool.false_ne_true
      rw [weave.code_cons, List.countP_append, tallied, Nat.zero_add, List.countP_cons,
        List.countP_cons, ih, weave.isNamedCall_lower]

end Weave

section

variable {weave : Weave} {prologue : Prologue} {fresh : BlockId → ValueId} {f woven : Func}
  {reporter : Option Reporter} {frame place : Frame}

/-- In a frame that stands where the function takes a step, each stage sees the call by
name that the step makes. -/
theorem Weave.Stands.callAt?_eq (stands : weave.Stands prologue fresh f frame place)
    (homes : ∀ id, prologue.home f.blocks.size id = f.home reporter id) (stage : Stage) :
    place.callAt? f reporter stage = frame.namedCall?.map (weave.seen stage) := by
  obtain ⟨⟨block, found, suffix, code⟩, home, -⟩ := stands
  obtain ⟨values, id, rest⟩ := frame
  obtain ⟨values', position, rest'⟩ := place
  obtain rfl : position = prologue.home f.blocks.size id := home
  cases rest with
  | nil =>
      obtain rfl : rest' = [] := code
      cases stage <;> rfl
  | cons first rest =>
      obtain rfl : rest' =
        weave.lower first :: weave.code (fresh id) id block.terminator rest := code
      have makes : (⟨values', prologue.home f.blocks.size id, weave.lower first ::
          weave.code (fresh id) id block.terminator rest⟩ : Frame).namedCall? =
            (if first.isNamedCall then some first else none).map weave.lower := by
        rw [Frame.namedCall?_cons, weave.isNamedCall_lower]
        split <;> rfl
      rw [Frame.namedCall?_cons]
      cases stage with
      | after => exact makes
      | before =>
          rw [Frame.callAt?, Frame.sourceCall?, makes, List.tail_cons, weave.countP_code, homes,
            Func.origin_home (Func.lt_size_of_block? found)]
          split
          · next named => exact Func.namedCall?_of_suffix found suffix named
          · rfl

/-- A call by name in a frame of the compiled function is one of the function itself, in the
block that stands there, as lowering has left it. -/
def Weave.Stems (weave : Weave) (f : Func) (reporter : Option Reporter) (place : Frame)
    (call : Instr) : Prop :=
  ∃ id block own, place.block = f.home reporter id ∧ f.block? id = some block ∧
    own ∈ block.instrs ∧ place.sourceCall? f reporter = some own ∧ call = weave.lower own

theorem Weave.Stands.mem_instrs (stands : weave.Stands prologue fresh f frame place)
    {first : Instr} {rest : List Instr} (here : frame.rest = first :: rest) :
    ∃ block, f.block? frame.block = some block ∧ first ∈ block.instrs := by
  obtain ⟨⟨block, found, suffix, -⟩, -⟩ := stands
  rw [here] at suffix
  exact ⟨block, found, suffix.subset List.mem_cons_self⟩

theorem Weave.Stands.stems (stands : weave.Stands prologue fresh f frame place)
    (homes : ∀ id, prologue.home f.blocks.size id = f.home reporter id) {call : Instr}
    (makes : place.namedCall? = some call) : weave.Stems f reporter place call := by
  have after : place.namedCall? = frame.namedCall?.map weave.lower := stands.callAt?_eq homes .after
  have before : place.sourceCall? f reporter = frame.namedCall?.map id :=
    stands.callAt?_eq homes .before
  rw [after] at makes
  obtain ⟨own, executes, rfl⟩ := Option.map_eq_some_iff.mp makes
  rw [executes] at before
  obtain ⟨rest, here⟩ := Frame.rest_of_namedCall? executes
  obtain ⟨block, found, mem⟩ := stands.mem_instrs here
  exact ⟨frame.block, block, own, stands.block_eq.trans (homes _), found, mem, before, rfl⟩

/-- A call in such a frame asks for the size that the function would ask for. -/
theorem Weave.Stands.sizeAsked_eq (stands : weave.Stands prologue fresh f frame place)
    (sound : f.WellFormed) {call : Instr} (makes : frame.namedCall? = some call)
    (symbols : AllocSymbols) (stage : Stage) :
    place.sizeAsked symbols (weave.seen stage call) = frame.sizeAsked symbols call := by
  obtain ⟨rest, here⟩ := Frame.rest_of_namedCall? makes
  obtain ⟨block, found, mem⟩ := stands.mem_instrs here
  have covers := stands.covers
  obtain ⟨values, id, rest⟩ := frame
  obtain ⟨values', position, rest'⟩ := place
  rw [weave.sizeAsked_seen, Frame.sizeAsked, Frame.sizeAsked]
  cases asked : call.operands[symbols.sizeArg]? with
  | none => rfl
  | some size =>
      have below := sound.instr_below found mem (List.mem_of_getElem? asked)
      have read : (⟨values', position, rest'⟩ : Frame).read size =
          ((⟨values, id, rest⟩ : Frame).read size).mapError (Error.within position) :=
        Frame.read_covered covers below
      simp only [Frame.amount, read]
      cases (⟨values, id, rest⟩ : Frame).read size <;> rfl

end

/-! ## What the answer to one step records -/

namespace Weave

variable (weave : Weave)

/-- The size that the next step of the function asks an allocator for, if it calls one in the
eyes of a stage. -/
def asks? (symbols : AllocSymbols) (stage : Stage) (frame : Frame) : Option UInt64 :=
  (frame.namedCall?.filter fun call => symbols.recognizesCall stage (weave.seen stage call)).map
    (frame.sizeAsked symbols)

variable {weave} {prologue : Prologue} {fresh : BlockId → ValueId} {f woven : Func}
  {reporter : Option Reporter} {symbols : AllocSymbols} {frame place : Frame}

theorem Stands.request?_eq (stands : weave.Stands prologue fresh f frame place)
    (sound : f.WellFormed)
    (homes : ∀ id, prologue.home f.blocks.size id = f.home reporter id) (stage : Stage) :
    place.request? symbols f reporter stage = weave.asks? symbols stage frame := by
  rw [Frame.request?, stands.callAt?_eq homes, asks?]
  cases makes : frame.namedCall? with
  | none => rfl
  | some call =>
      rw [Option.map_some, Option.filter_some, Option.filter_some]
      split
      · rw [Option.map_some, Option.map_some, stands.sizeAsked_eq sound makes]
      · rfl

/-- Along a path that answers one step, what the step asks for is all that is asked for. -/
theorem Retells.requests_eq {path : List Frame}
    (retells : weave.Retells prologue fresh f woven frame path) (sound : f.WellFormed)
    (homes : ∀ id, prologue.home f.blocks.size id = f.home reporter id) (stage : Stage) :
    symbols.requests f reporter stage path = (weave.asks? symbols stage frame).toList := by
  obtain ⟨early, place, rfl, unnamed, stands⟩ := retells.stands
  rw [AllocSymbols.requests_append, AllocSymbols.requests_of_unnamed unnamed, List.nil_append,
    AllocSymbols.requests, List.filterMap_cons, List.filterMap_nil,
    stands.request?_eq sound homes]
  cases weave.asks? symbols stage frame <;> rfl

/-- What the tallies for one stage add to the counters of another: nothing, unless it is the
same and the call is one of an allocator. -/
theorem total_talliesAt (asked : weave.allocations = some symbols) {stage : Stage}
    {instr : Instr} (sizes : symbols.Sizes stage instr) (frame : Frame) (other : Stage) :
    Ledger.total (.count other)
        ((weave.talliesAt stage instr).map fun entry => (entry.1, frame.amount entry.2)) =
          (if stage = other ∧ symbols.recognizesCall stage instr then 1 else 0) ∧
      Ledger.total (.size other)
        ((weave.talliesAt stage instr).map fun entry => (entry.1, frame.amount entry.2)) =
          (if stage = other ∧ symbols.recognizesCall stage instr then
            frame.sizeAsked symbols instr else 0) := by
  simp only [talliesAt, asked]
  cases recognized : symbols.recognizesCall stage instr with
  | false => simp [Ledger.total]
  | true =>
      have sized : instr.operands[symbols.sizeArg]? = some _ :=
        List.getElem?_eq_getElem (sizes recognized)
      by_cases same : stage = other
      · simp [sized, Frame.sizeAsked, Ledger.total, same, Frame.amount, Frame.read, Probe.one]
        rfl
      · simp [sized, Ledger.total, same]

/-- An instruction asks for a size exactly if the stage recognizes it. -/
theorem asks?_cons (symbols : AllocSymbols) (stage : Stage) (values : Array (Option Int64))
    (id : BlockId) (first : Instr) (rest : List Instr) :
    weave.asks? symbols stage ⟨values, id, first :: rest⟩ =
      if symbols.recognizesCall stage (weave.seen stage first) then
        some ((⟨values, id, first :: rest⟩ : Frame).sizeAsked symbols first)
      else none := by
  rw [asks?, Frame.namedCall?_cons]
  cases recognized : symbols.recognizesCall stage (weave.seen stage first) with
  | true =>
      obtain ⟨name, called, -⟩ := AllocSymbols.called_of_recognizesCall recognized
      have named : first.isNamedCall = true := by
        rw [← weave.isNamedCall_seen stage, Instr.isNamedCall, called]
        rfl
      rw [if_pos named, Option.filter_some, if_pos recognized, if_pos rfl, Option.map_some]
  | false =>
      cases first.isNamedCall with
      | true => simp [Option.filter_some, recognized]
      | false => rfl

/-- The end of a block adds nothing to the counters of allocations. -/
theorem total_ledger_end (values : Array (Option Int64)) (id : BlockId) (stage : Stage) :
    (weave.ledger f ⟨values, id, []⟩).total (.count stage) = 0 ∧
      (weave.ledger f ⟨values, id, []⟩).total (.size stage) = 0 := by
  simp only [ledger]
  split
  · split <;> exact ⟨rfl, rfl⟩
  · exact ⟨rfl, rfl⟩
  · exact ⟨rfl, rfl⟩

/-- The answer to one step records what the step asks for. -/
theorem total_ledger_asks (asked : weave.allocations = some symbols)
    (sizes : ∀ first rest, frame.rest = first :: rest →
      ∀ stage, symbols.Sizes stage (weave.seen stage first)) (stage : Stage) :
    (weave.ledger f frame).total (.count stage) =
        (weave.asks? symbols stage frame).toList.length.toUInt64 ∧
      (weave.ledger f frame).total (.size stage) =
        (weave.asks? symbols stage frame).toList.sum := by
  obtain ⟨values, id, rest⟩ := frame
  cases rest with
  | nil => exact total_ledger_end values id stage
  | cons first rest =>
      have sizes := sizes first rest rfl
      have before := total_talliesAt asked (sizes .before) ⟨values, id, first :: rest⟩ stage
      have after := total_talliesAt asked (sizes .after) ⟨values, id, first :: rest⟩ stage
      rw [weave.sizeAsked_seen] at before after
      have paid : weave.ledger f ⟨values, id, first :: rest⟩ =
          ((weave.talliesAt .before (weave.seen .before first)).map fun entry =>
            (entry.1, (⟨values, id, first :: rest⟩ : Frame).amount entry.2)) ++
          ((weave.talliesAt .after (weave.seen .after first)).map fun entry =>
            (entry.1, (⟨values, id, first :: rest⟩ : Frame).amount entry.2)) := List.map_append
      rw [asks?_cons, paid, Ledger.total_append, Ledger.total_append, before.1, before.2, after.1,
        after.2]
      cases stage with
      | before => cases symbols.recognizesCall .before (weave.seen .before first) <;> simp
      | after => cases symbols.recognizesCall .after (weave.seen .after first) <;> simp

end Weave

/-! ## What a run records -/

/-- The counters of allocations have grown by what allocators were asked for along a path:
at each stage by the number of requests and by the sum of their sizes. -/
structure Weave.Records (weave : Weave) (symbols : AllocSymbols) (f : Func)
    (reporter : Option Reporter) (path : List Frame) (world world' : World) : Prop where
  count_eq : ∀ stage, world'.counters.read (weave.counter (.count stage)) =
    world.counters.read (weave.counter (.count stage)) +
      (symbols.requests f reporter stage path).length.toUInt64
  size_eq : ∀ stage, world'.counters.read (weave.counter (.size stage)) =
    world.counters.read (weave.counter (.size stage)) +
      (symbols.requests f reporter stage path).sum

section

variable {weave : Weave} {prologue : Prologue} {fresh : BlockId → ValueId} {f woven : Func}
  {reporter : Option Reporter} {symbols : AllocSymbols} {world world' world'' : World}
  {path path' : List Frame}

/-- Where no routine is called by name, nothing is recorded by a ledger without allocations. -/
theorem Weave.records_of_unnamed (unnamed : ∀ place ∈ path, place.namedCall? = none)
    {ledger : Ledger} (grows : weave.Grows ledger world world')
    (silent : ∀ stage, ledger.total (.count stage) = 0 ∧ ledger.total (.size stage) = 0) :
    weave.Records symbols f reporter path world world' where
  count_eq stage := by
    rw [AllocSymbols.requests_of_unnamed unnamed, grows, (silent stage).1]
    rfl
  size_eq stage := by
    rw [AllocSymbols.requests_of_unnamed unnamed, grows, (silent stage).2]
    rfl

theorem Weave.Records.refl (world : World) : weave.Records symbols f reporter [] world world :=
  records_of_unnamed nofun (.refl world) fun _ => ⟨rfl, rfl⟩

theorem Weave.Records.trans (first : weave.Records symbols f reporter path world world')
    (second : weave.Records symbols f reporter path' world' world'') :
    weave.Records symbols f reporter (path ++ path') world world'' where
  count_eq stage := by
    rw [second.count_eq, first.count_eq, AllocSymbols.requests_append, List.length_append,
      UInt64.add_assoc]
    exact congrArg (_ + ·) (UInt64.ofNat_add _ _).symm
  size_eq stage := by
    rw [second.size_eq, first.size_eq, AllocSymbols.requests_append, List.sum_append,
      UInt64.add_assoc]

/-- The answer to one step records what it asks allocators for. -/
theorem Weave.records_of_answer (sound : f.WellFormed)
    (homes : ∀ id, prologue.home f.blocks.size id = f.home reporter id)
    (asked : weave.allocations = some symbols)
    (sizes : ∀ id block, f.block? id = some block → ∀ instr ∈ block.instrs,
      ∀ stage, symbols.Sizes stage (weave.seen stage instr)) {frame : Frame}
    (retells : weave.Retells prologue fresh f woven frame path)
    (grows : weave.Grows (weave.ledger f frame) world world') :
    weave.Records symbols f reporter path world world' := by
  have sized (first : Instr) (rest : List Instr) (here : frame.rest = first :: rest) :
      ∀ stage, symbols.Sizes stage (weave.seen stage first) := by
    obtain ⟨-, place, -, -, stands⟩ := retells.stands
    obtain ⟨block, found, mem⟩ := stands.mem_instrs here
    exact sizes frame.block block found first mem
  constructor
  · intro stage
    rw [grows, (total_ledger_asks asked sized stage).1, retells.requests_eq sound homes]
  · intro stage
    rw [grows, (total_ledger_asks asked sized stage).2, retells.requests_eq sound homes]

variable (isWoven : Woven weave prologue fresh f woven) (sound : f.WellFormed)
  (spares : ∀ counter ∈ f.counters, ¬ weave.Owns counter)
  (homes : ∀ id, prologue.home f.blocks.size id = f.home reporter id)
  {limit : Nat} {args : List Int64} {value : Option Int64} {after : World}
  (returned : Machine.run woven limit args world = (.ok value, after))

include isWoven sound spares homes returned

/-- A run of the woven function that returns records what it asks allocators for. -/
theorem Woven.records_of_run (asked : weave.allocations = some symbols)
    (sizes : ∀ id block, f.block? id = some block → ∀ instr ∈ block.instrs,
      ∀ stage, symbols.Sizes stage (weave.seen stage instr)) :
    weave.Records symbols f reporter (Machine.trailOf woven limit args world) world after := by
  obtain ⟨frame, next, early, middle, more, follows, reached, trail, grows, apart⟩ :=
    isWoven.trail_of_run sound returned
  have ahead : weave.Records symbols f reporter early world middle :=
    Weave.records_of_unnamed (fun place mem => (apart place mem).1) grows fun _ =>
      ⟨prologue.total_ledger_of_ne nofun, prologue.total_ledger_of_ne nofun⟩
  have onward : weave.Records symbols f reporter (Machine.trail woven more next middle) middle
      after := isWoven.holds_of_returned sound spares follows reached
    (Weave.records_of_answer sound homes asked sizes) Weave.Records.trans
  rw [trail]
  exact ahead.trans onward

/-- Every call by name that a run of the woven function makes is one of the function itself,
in the block that stands there, as lowering has left it. -/
theorem Woven.calls_of_run :
    ∀ place ∈ Machine.trailOf woven limit args world, ∀ call, place.namedCall? = some call →
      weave.Stems f reporter place call := by
  obtain ⟨frame, next, early, middle, more, follows, reached, trail, -, apart⟩ :=
    isWoven.trail_of_run sound returned
  have onward := isWoven.holds_of_returned sound spares follows reached
    (motive := fun path _ _ => ∀ place ∈ path, ∀ call, place.namedCall? = some call →
      weave.Stems f reporter place call) ?_ ?_
  · rw [trail]
    intro place mem call makes
    rcases List.mem_append.mp mem with before | own
    · rw [(apart place before).1] at makes
      cases makes
    · exact onward place own call makes
  · rintro frame path _ _ ⟨-, quiet, last, rfl, unnamed, stands⟩ - place mem call makes
    rcases List.mem_append.mp mem with before | own
    · rw [unnamed place before] at makes
      cases makes
    · obtain rfl := List.mem_singleton.mp own
      exact stands.stems homes makes
  · intro path path' _ _ _ first second
    exact List.forall_mem_append.mpr ⟨first, second⟩

/-- If both stages recognize the same calls of the function, a run makes the same requests in
the eyes of both. -/
theorem Woven.requests_agree
    (agree : ∀ id block, f.block? id = some block → ∀ instr ∈ block.instrs,
      symbols.recognizesCall .after (weave.lower instr) = symbols.recognizesCall .before instr) :
    symbols.requests f reporter .after (Machine.trailOf woven limit args world) =
      symbols.requests f reporter .before (Machine.trailOf woven limit args world) := by
  apply List.filterMap_congr
  intro place mem
  cases makes : place.namedCall? with
  | none => rw [Frame.request?_of_unnamed makes, Frame.request?_of_unnamed makes]
  | some call =>
      obtain ⟨id, block, own, -, found, listed, known, rfl⟩ :=
        isWoven.calls_of_run sound spares homes returned place mem call makes
      have asked : place.sizeAsked symbols (weave.lower own) = place.sizeAsked symbols own :=
        weave.sizeAsked_seen symbols place .after own
      simp only [Frame.request?, Frame.callAt?, makes, known, Option.filter_some,
        agree id block found own listed]
      split
      · exact congrArg some asked
      · rfl

end

end FlowProfile
