/-
# Steps account for what they add

A step of a pass puts additions to counters into a function.  The events of the step say how
many: two for each place that is announced, and one where calls are counted.  The calls by
name are left alone by all steps but the splitting of the entry block and lowering, block by
block, and they alone decide which places there are to announce.
-/

import FlowProfile.Proofs.Run.Trail
import FlowProfile.Proofs.Weave.Compiled
import FlowProfile.Proofs.Weave.Validity
import Mathlib.Algebra.Ring.Nat
import Mathlib.Data.List.Basic

namespace FlowProfile

/-! ## What events tell -/

namespace Event

/-- The place that an event announces. -/
def site? : Event → Option BlockId
  | branchSite _ block | allocationSite _ block _ => some block
  | _ => none

/-- The number of places that an event announces. -/
def sites? : Event → Option Nat
  | branchesInstalled _ sites | allocationsInstalled _ _ sites => some sites
  | _ => none

/-- The event announces that calls are counted. -/
def entersCounted : Event → Bool
  | callsInstalled _ | reporterInstalled .. => true
  | _ => false

/-- The event announces no probe. -/
def isSilent (event : Event) : Bool :=
  event.site?.isNone && event.sites?.isNone && !event.entersCounted

/-- How many additions to counters an event accounts for. -/
def additions (event : Event) : Nat :=
  2 * event.sites?.getD 0 + event.entersCounted.toNat

theorem additions_of_isSilent {event : Event} (silent : event.isSilent = true) :
    event.additions = 0 := by
  cases event <;> first | rfl | cases silent

/-- The places are announced in order, and then how many they are. -/
def announcement (site : BlockId → Event) (installed : Nat → Event) (sites : List BlockId) :
    List Event :=
  sites.map site ++ [installed sites.length]

/-- What events account for altogether. -/
def total (events : List Event) : Nat :=
  (events.map additions).sum

theorem total_append (events events' : List Event) :
    total (events ++ events') = total events + total events' := by
  rw [total, List.map_append, List.sum_append]
  rfl

theorem total_of_isSilent {events : List Event} (silent : ∀ event ∈ events, event.isSilent = true) :
    total events = 0 := by
  rw [total, List.sum_eq_zero_iff_forall_eq_nat]
  rintro amount mem
  obtain ⟨event, listed, rfl⟩ := List.mem_map.mp mem
  exact additions_of_isSilent (silent event listed)

theorem total_announcement {site : BlockId → Event} {installed : Nat → Event}
    (here : ∀ id, (site id).additions = 0) (all : ∀ count, (installed count).additions = 2 * count)
    (sites : List BlockId) : total (announcement site installed sites) = 2 * sites.length := by
  have none : ((sites.map site).map additions).sum = 0 := by
    rw [List.sum_eq_zero_iff_forall_eq_nat]
    rintro amount mem
    obtain ⟨event, listed, rfl⟩ := List.mem_map.mp mem
    obtain ⟨id, -, rfl⟩ := List.mem_map.mp listed
    exact here id
  rw [announcement, total, List.map_append, List.sum_append, none]
  simp [all]

theorem countP_of_isSilent {events : List Event}
    (silent : ∀ event ∈ events, event.isSilent = true) : events.countP entersCounted = 0 := by
  refine List.countP_eq_zero.mpr fun event mem counted => ?_
  have quiet := silent event mem
  rw [isSilent, counted, Bool.not_true, Bool.and_false] at quiet
  cases quiet

theorem countP_announcement {site : BlockId → Event} {installed : Nat → Event}
    (here : ∀ id, (site id).entersCounted = false)
    (all : ∀ count, (installed count).entersCounted = false) (sites : List BlockId) :
    (announcement site installed sites).countP entersCounted = 0 := by
  refine List.countP_eq_zero.mpr fun event mem counted => ?_
  rcases List.mem_append.mp mem with place | last
  · obtain ⟨id, -, rfl⟩ := List.mem_map.mp place
    cases (here id).symm.trans counted
  · obtain rfl := List.mem_singleton.mp last
    cases (all _).symm.trans counted

/-- Two additions for each announced place, and one for each time calls are counted. -/
theorem total_eq (events : List Event) :
    total events = 2 * (events.filterMap sites?).sum + events.countP entersCounted := by
  induction events with
  | nil => rfl
  | cons event rest ih =>
      have step : total (event :: rest) = event.additions + total rest := by
        rw [total, List.map_cons, List.sum_cons]
        rfl
      rw [step, ih, additions, List.filterMap_cons, List.countP_cons]
      cases event.sites? with
      | none => cases event.entersCounted <;> simp; omega
      | some sites => cases event.entersCounted <;> simp <;> omega

end Event

/-! ## Calls by name and additions, block by block -/

namespace Func

/-- The calls by name of each block. -/
def callsByBlock (f : Func) : List (List Instr) :=
  f.blocks.toList.map fun block => block.instrs.filter Instr.isNamedCall

/-- The number of additions in code. -/
def additions (instrs : List Instr) : Nat :=
  instrs.countP (·.counter?.isSome)

theorem additions_append (instrs instrs' : List Instr) :
    additions (instrs ++ instrs') = additions instrs + additions instrs' :=
  List.countP_append

theorem length_counters (f : Func) :
    f.counters.length = (f.blocks.toList.map fun block => additions block.instrs).sum := by
  simp only [counters, List.length_flatMap, additions, List.length_filterMap_eq_countP]

/-- The calls of allocators are among the calls by name. -/
theorem filter_recognizesCall (symbols : AllocSymbols) (stage : Stage) (instrs : List Instr) :
    (instrs.filter Instr.isNamedCall).filter (symbols.recognizesCall stage) =
      instrs.filter (symbols.recognizesCall stage) := by
  rw [List.filter_filter]
  refine List.filter_congr fun instr _ => ?_
  unfold AllocSymbols.recognizesCall Instr.isNamedCall
  cases instr.calledSymbol? <;> simp

/-- The blocks that end in a branch on a condition known only at run time, in order. -/
def runtimeBranches (f : Func) : List BlockId :=
  (List.range f.blocks.size).filter fun id =>
    (f.block? id).any (·.terminator.runtimeCondition?.isSome)

/-- The blocks of all calls that a stage recognizes as calls of allocators, in program
order. -/
def allocatorCalls (f : Func) (symbols : AllocSymbols) (stage : Stage) : List BlockId :=
  (f.calls.filter fun call => symbols.recognizesCall stage call.2.2).map (·.1)

/-- The calls with their blocks, block by block. -/
theorem map_calls (f : Func) :
    f.calls.map (fun call => (call.1, call.2.2)) =
      f.blocks.toList.zipIdx.flatMap fun entry =>
        (entry.1.instrs.filter Instr.isCall).map ((entry.2, ·)) := by
  have inside (id start : Nat) (instrs : List Instr) :
      ((instrs.zipIdx start).filterMap fun entry =>
          if entry.1.isCall then some (id, entry.2, entry.1) else none).map
            (fun call : BlockId × Nat × Instr => (call.1, call.2.2)) =
        (instrs.filter Instr.isCall).map ((id, ·)) := by
    induction instrs generalizing start with
    | nil => rfl
    | cons instr rest ih =>
        cases instr with
        | call => exact congrArg _ (ih (start + 1))
        | const | binop | widen | count => exact ih (start + 1)
  rw [calls, List.map_flatMap]
  exact List.flatMap_congr fun entry _ => inside entry.2 0 entry.1.instrs

/-- The calls, whatever their blocks. -/
theorem map_calls_instrs (f : Func) :
    f.calls.map (·.2.2) = (f.blocks.toList.flatMap Block.instrs).filter Instr.isCall := by
  have placed : f.calls.map (·.2.2) = (f.calls.map fun call => (call.1, call.2.2)).map (·.2) := by
    rw [List.map_map]
    rfl
  have unplaced (id : BlockId) (instrs : List Instr) :
      (instrs.map ((id, ·))).map (·.2) = instrs := by
    rw [List.map_map]
    exact List.map_id instrs
  calc f.calls.map (·.2.2)
    _ = f.blocks.toList.zipIdx.flatMap fun entry => entry.1.instrs.filter Instr.isCall := by
        rw [placed, map_calls, List.map_flatMap]
        exact List.flatMap_congr fun entry _ => unplaced entry.2 _
    _ = (f.blocks.toList.zipIdx.map (·.1)).flatMap fun block =>
          block.instrs.filter Instr.isCall := by
        rw [List.flatMap_map]
    _ = (f.blocks.toList.flatMap Block.instrs).filter Instr.isCall := by
        rw [List.zipIdx_map_fst, List.filter_flatMap]

end Func

namespace Probe

/-- Branches get probes in order. -/
theorem branchSites_eq (f : Func) : branchSites f = f.runtimeBranches := by
  have positions : List.range f.blocks.size = f.blocks.toList.zipIdx.map (·.2) := by
    rw [List.zipIdx_map_snd, Array.length_toList, List.range_eq_range']
  rw [branchSites, Func.runtimeBranches, positions, ← List.filterMap_eq_filter,
    List.filterMap_map]
  refine List.filterMap_congr fun entry mem => ?_
  obtain ⟨block, id⟩ := entry
  have found : f.block? id = some block :=
    Array.getElem?_toList.symm.trans (List.mk_mem_zipIdx_iff_getElem?.mp mem)
  simp only [Function.comp, Option.guard, found, Option.any_some]
  cases block.terminator.runtimeCondition? <;> rfl

/-- Calls of allocators get probes in program order. -/
theorem allocationSites_eq_allocatorCalls (symbols : AllocSymbols) (stage : Stage) (f : Func) :
    allocationSites symbols stage f = f.allocatorCalls symbols stage := by
  have placed : f.allocatorCalls symbols stage =
      ((f.calls.map fun call => (call.1, call.2.2)).filter
        fun call => symbols.recognizesCall stage call.2).map (·.1) := by
    rw [Func.allocatorCalls, List.filter_map, List.map_map]
    rfl
  have among (instrs : List Instr) :
      (instrs.filter Instr.isCall).filter (symbols.recognizesCall stage) =
        instrs.filter (symbols.recognizesCall stage) := by
    rw [List.filter_filter]
    refine List.filter_congr fun instr _ => ?_
    cases instr with
    | call => exact Bool.and_true _
    | const | binop | widen | count => rfl
  rw [placed, Func.map_calls, List.filter_flatMap, List.map_flatMap, allocationSites]
  refine List.flatMap_congr fun entry _ => ?_
  simp only [← among entry.1.instrs, List.filter_map, List.map_map]
  rfl

/-- The announced places depend on the calls by name alone. -/
theorem allocationSites_eq (symbols : AllocSymbols) (stage : Stage) (f : Func) :
    allocationSites symbols stage f =
      f.callsByBlock.zipIdx.flatMap fun entry =>
        (entry.1.filter (symbols.recognizesCall stage)).map fun _ => entry.2 := by
  rw [Func.callsByBlock, List.zipIdx_map, List.flatMap_map, allocationSites]
  refine List.flatMap_congr fun entry _ => ?_
  exact congrArg (List.map _) (Func.filter_recognizesCall symbols stage entry.1.instrs).symm

theorem length_allocationSites (symbols : AllocSymbols) (stage : Stage) (f : Func) :
    (allocationSites symbols stage f).length =
      (f.blocks.toList.map fun block =>
        block.instrs.countP (symbols.recognizesCall stage)).sum := by
  have inside (blocks : List Block) (start : Nat) :
      ((blocks.zipIdx start).flatMap fun entry =>
          (entry.1.instrs.filter (symbols.recognizesCall stage)).map fun _ => entry.2).length =
        (blocks.map fun block => block.instrs.countP (symbols.recognizesCall stage)).sum := by
    induction blocks generalizing start with
    | nil => rfl
    | cons block rest ih =>
        rw [List.zipIdx_cons, List.flatMap_cons, List.length_append, ih, List.length_map,
          List.map_cons, List.sum_cons, List.countP_eq_length_filter]
  exact inside _ 0

end Probe

/-- Each request is counted. -/
theorem Lowering.requests_eq_calls (lowering : Lowering) (f : Func) :
    lowering.requests f =
      f.calls.countP fun call => call.2.2.calledSymbol? == some lowering.symbols.request := by
  have named (instr : Instr) :
      (lowering.concerns instr && instr.isCall) = lowering.concerns instr := by
    cases instr with
    | call => exact Bool.and_true _
    | const | binop | widen | count => rfl
  calc lowering.requests f
    _ = ((f.blocks.toList.flatMap Block.instrs).filter Instr.isCall).countP lowering.concerns := by
        simp only [requests, List.countP_filter, named]
    _ = f.calls.countP (fun call => lowering.concerns call.2.2) := by
        rw [← Func.map_calls_instrs, List.countP_map]
        rfl

/-- The number of requests depends on the calls by name alone. -/
theorem Lowering.requests_eq (lowering : Lowering) (f : Func) :
    lowering.requests f = (f.callsByBlock.map (·.countP lowering.concerns)).sum := by
  rw [requests, List.countP_flatMap, Func.callsByBlock, List.map_map]
  refine congrArg List.sum (List.map_congr_left fun block _ => ?_)
  rw [Function.comp, Function.comp, List.countP_filter]
  refine List.countP_congr fun instr _ => ?_
  simp only [concerns, Instr.isNamedCall]
  cases instr.calledSymbol? <;> simp

/-! ## What one step adds -/

/-- What a step adds to a function is what its events account for. -/
def Step.Accounts (f : Func) (step : Step) : Prop :=
  step.func.counters.length = f.counters.length + Event.total step.events

namespace Step

variable {f : Func} {step : Step} {change : Func → Step}

theorem events_andThen (step : Step) (condition : Bool) (change : Func → Step) :
    (step.andThen condition change).events =
      step.events ++ if condition then (change step.func).events else [] := by
  cases condition with
  | false => exact (List.append_nil _).symm
  | true => rfl

theorem Accounts.andThen (first : step.Accounts f) (condition : Bool)
    (next : condition = true → (change step.func).Accounts step.func) :
    (step.andThen condition change).Accounts f := by
  cases condition with
  | false => exact first
  | true =>
      show (change step.func).func.counters.length =
        f.counters.length + Event.total (step.events ++ (change step.func).events)
      rw [next rfl, first, Event.total_append, Nat.add_assoc]

end Step

/-- Passes that keep the code keep the calls by name, and as many additions. -/
theorem Retouched.instrs_eq {f g : Func}
    (retouched : Retouched (fun _ block => block.instrs) f g) :
    g.blocks.toList.map Block.instrs = f.blocks.toList.map Block.instrs := by
  refine List.ext_getElem? fun id => ?_
  rw [List.getElem?_map, List.getElem?_map, Array.getElem?_toList, Array.getElem?_toList]
  cases found : f.blocks[id]? with
  | none =>
      have absent : g.blocks[id]? = none := by
        rw [Array.getElem?_eq_none_iff, retouched.size_eq, ← Array.getElem?_eq_none_iff]
        exact found
      rw [absent]
  | some block =>
      obtain ⟨image, found', -, instrs, -⟩ := retouched.image id block found
      have found' : g.blocks[id]? = some image := found'
      rw [found', Option.map_some, Option.map_some, instrs]

namespace Probe

/-! ### Branch probes -/

/-- A probe at the end of a block calls nothing. -/
theorem calls_branchBlocks (counter : Measure → Counter) (slot fresh : Nat)
    (blocks : List Block) :
    (branchBlocks counter slot fresh blocks).map
        (fun block => block.instrs.filter Instr.isNamedCall) =
      blocks.map fun block => block.instrs.filter Instr.isNamedCall := by
  induction blocks generalizing slot fresh with
  | nil => rfl
  | cons block rest ih =>
      unfold branchBlocks
      cases block.terminator.runtimeCondition? with
      | none => exact congrArg (block.instrs.filter Instr.isNamedCall :: ·) (ih (slot + 1) fresh)
      | some condition =>
          rw [List.map_cons, List.map_cons, ih, List.filter_append]
          exact congrArg (· :: _) (List.append_nil _)

/-- A probe at the end of a block makes two additions. -/
theorem additions_branchBlocks (counter : Measure → Counter) (slot fresh : Nat)
    (blocks : List Block) :
    ((branchBlocks counter slot fresh blocks).map
        fun block => Func.additions block.instrs).sum =
      (blocks.map fun block => Func.additions block.instrs).sum +
        2 * blocks.countP (·.terminator.runtimeCondition?.isSome) := by
  induction blocks generalizing slot fresh with
  | nil => rfl
  | cons block rest ih =>
      unfold branchBlocks
      cases condition : block.terminator.runtimeCondition? with
      | none =>
          rw [List.countP_cons_of_neg (by simp [condition]), List.map_cons, List.map_cons,
            List.sum_cons, List.sum_cons, ih, Nat.add_assoc]
      | some operand =>
          have probed : Func.additions (branchProbe (counter (.total slot)) (counter (.taken slot))
              fresh operand) = 2 := rfl
          rw [List.countP_cons_of_pos (by simp [condition]), List.map_cons, List.map_cons,
            List.sum_cons, List.sum_cons, ih, Func.additions_append, probed]
          omega

theorem callsByBlock_branches (store : Store) (f : Func) :
    (branches store f).func.callsByBlock = f.callsByBlock :=
  calls_branchBlocks ..

theorem accounts_branches (store : Store) (f : Func) : (branches store f).Accounts f := by
  have announced : Event.total (branches store f).events = 2 * (branchSites f).length :=
    Event.total_announcement (fun _ => rfl) (fun _ => rfl) _
  rw [Step.Accounts, announced, Func.length_counters, Func.length_counters, length_branchSites]
  exact additions_branchBlocks ..

/-! ### Allocation probes -/

/-- Additions ahead of a call call nothing. -/
theorem calls_withAllocation (symbols : AllocSymbols) (stage : Stage) (size count : Counter)
    (instrs : List Instr) :
    (instrs.flatMap (withAllocation symbols stage size count)).filter Instr.isNamedCall =
      instrs.filter Instr.isNamedCall := by
  induction instrs with
  | nil => rfl
  | cons instr rest ih =>
      have here : (withAllocation symbols stage size count instr).filter Instr.isNamedCall =
          [instr].filter Instr.isNamedCall := by
        unfold withAllocation
        split
        · split <;> rfl
        · rfl
      rw [List.flatMap_cons, List.filter_append, ih, here, ← List.filter_append]
      rfl

theorem additions_withAllocation {symbols : AllocSymbols} {stage : Stage} {size count : Counter}
    {instrs : List Instr} (sized : ∀ instr ∈ instrs, symbols.recognizesCall stage instr = true →
      symbols.sizeArg < instr.operands.length) :
    Func.additions (instrs.flatMap (withAllocation symbols stage size count)) =
      Func.additions instrs + 2 * instrs.countP (symbols.recognizesCall stage) := by
  induction instrs with
  | nil => rfl
  | cons instr rest ih =>
      have here : Func.additions (withAllocation symbols stage size count instr) =
          Func.additions [instr] + 2 * [instr].countP (symbols.recognizesCall stage) := by
        unfold withAllocation
        by_cases recognized : symbols.recognizesCall stage instr = true
        · have requested := List.getElem?_eq_getElem (sized instr List.mem_cons_self recognized)
          rw [if_pos recognized, requested, List.countP_singleton, if_pos recognized]
          show Func.additions ([_, _] ++ [instr]) = _
          rw [Func.additions_append]
          exact Nat.add_comm _ _
        · rw [if_neg recognized, List.countP_singleton, if_neg recognized]
          rfl
      have later := ih fun other mem => sized other (List.mem_cons_of_mem _ mem)
      have split : Func.additions (instr :: rest) =
          Func.additions [instr] + Func.additions rest := Func.additions_append [instr] rest
      have split' : (instr :: rest).countP (symbols.recognizesCall stage) =
          [instr].countP (symbols.recognizesCall stage) +
            rest.countP (symbols.recognizesCall stage) := by
        rw [← List.countP_append]
        rfl
      rw [List.flatMap_cons, Func.additions_append, here, later, split, split']
      omega

theorem callsByBlock_allocations (symbols : AllocSymbols) (stage : Stage) (store : Store)
    (f : Func) : (allocations symbols stage store f).func.callsByBlock = f.callsByBlock := by
  simp only [Func.callsByBlock, allocations, Array.toList_map, List.map_map, Function.comp_def,
    calls_withAllocation]

/-- Calls that pass the check have the argument that says the size. -/
theorem sized_of_checked {symbols : AllocSymbols} {stage : Stage} {f : Func}
    (checked : symbols.checkCalls stage f = .ok ()) {block : Block}
    (listed : block ∈ f.blocks.toList) {instr : Instr} (mem : instr ∈ block.instrs)
    (recognized : symbols.recognizesCall stage instr = true) :
    symbols.sizeArg < instr.operands.length := by
  obtain ⟨id, here⟩ := List.mem_iff_getElem?.mp listed
  unfold AllocSymbols.recognizesCall at recognized
  cases called : instr.calledSymbol? with
  | none =>
      rw [called] at recognized
      cases recognized
  | some name =>
      rw [called] at recognized
      refine Nat.lt_of_not_le fun short => ?_
      exact AllocSymbols.checkCalls_eq_ok_iff.mp checked name id
        ⟨block, instr, Array.getElem?_toList.symm.trans here, mem, called, recognized, short⟩

/-- Block by block, every call of an allocator is given two additions. -/
theorem sum_additions_withAllocation {symbols : AllocSymbols} {stage : Stage}
    (size count : Counter) {blocks : List Block}
    (sized : ∀ block ∈ blocks, ∀ instr ∈ block.instrs,
      symbols.recognizesCall stage instr = true → symbols.sizeArg < instr.operands.length) :
    (blocks.map fun block =>
        Func.additions (block.instrs.flatMap (withAllocation symbols stage size count))).sum =
      (blocks.map fun block => Func.additions block.instrs).sum +
        2 * (blocks.map fun block => block.instrs.countP (symbols.recognizesCall stage)).sum := by
  induction blocks with
  | nil => rfl
  | cons block rest ih =>
      have here :
          Func.additions (block.instrs.flatMap (withAllocation symbols stage size count)) =
            Func.additions block.instrs +
              2 * block.instrs.countP (symbols.recognizesCall stage) :=
        additions_withAllocation (sized block List.mem_cons_self)
      have later := ih fun other mem => sized other (List.mem_cons_of_mem _ mem)
      simp only [List.map_cons, List.sum_cons, here, later]
      omega

/-- Every allocation probe makes two additions, if no size is missing. -/
theorem accounts_allocations {symbols : AllocSymbols} {stage : Stage} (store : Store) {f : Func}
    (checked : symbols.checkCalls stage f = .ok ()) :
    (allocations symbols stage store f).Accounts f := by
  have announced : Event.total (allocations symbols stage store f).events =
      2 * (allocationSites symbols stage f).length :=
    Event.total_announcement (fun _ => rfl) (fun _ => rfl) _
  rw [Step.Accounts, announced, length_allocationSites, Func.length_counters,
    Func.length_counters]
  simp only [allocations, Array.toList_map, List.map_map, Function.comp_def]
  exact sum_additions_withAllocation _ _ fun block listed instr mem =>
    sized_of_checked checked listed mem

end Probe

/-! ### Feedback and lowering -/

theorem Retouched.callsByBlock_eq {f g : Func}
    (retouched : Retouched (fun _ block => block.instrs) f g) :
    g.callsByBlock = f.callsByBlock := by
  have same := congrArg (List.map fun instrs : List Instr => instrs.filter Instr.isNamedCall)
    retouched.instrs_eq
  rw [List.map_map, List.map_map] at same
  exact same

/-- Feedback announces nothing. -/
theorem Feedback.isSilent_of_apply (counters : Counters) (store : Store) (slots : Slots)
    (f : Func) : ∀ event ∈ (apply counters store slots f).events, event.isSilent = true := by
  unfold apply
  split
  · exact List.forall_mem_singleton.mpr rfl
  · exact List.forall_mem_singleton.mpr rfl

/-- Feedback adds nothing. -/
theorem Feedback.accounts_apply (counters : Counters) (store : Store) (slots : Slots) (f : Func) :
    (apply counters store slots f).Accounts f := by
  have same := congrArg (List.map Func.additions)
    (Retouched.feedback counters store slots f).instrs_eq
  rw [List.map_map, List.map_map] at same
  rw [Step.Accounts, Event.total_of_isSilent (isSilent_of_apply counters store slots f),
    Func.length_counters, Func.length_counters]
  exact congrArg List.sum same

/-- Lowering adds nothing. -/
theorem Lowering.accounts_lower (lowering : Lowering) (f : Func) :
    (lowering.lower f).Accounts f := by
  have kept (instr : Instr) : (lowering.lowerInstr instr).counter? = instr.counter? := by
    unfold lowerInstr
    split
    · split <;> rfl
    · rfl
  have same (block : Block) :
      Func.additions (block.instrs.map lowering.lowerInstr) = Func.additions block.instrs := by
    rw [Func.additions, List.countP_map]
    exact List.countP_congr fun instr _ => by rw [Function.comp, kept]
  rw [Step.Accounts, Func.length_counters, Func.length_counters]
  simp only [lower, Array.toList_map, List.map_map, Function.comp_def, same]
  rfl

/-! ### Call probes -/

namespace Func

/-- Splitting a block moves its additions. -/
theorem length_counters_splitBlock {f : Func} {id : BlockId} {head : Block}
    (found : f.block? id = some head) (position : Nat) (condition : Operand)
    (weights : Option Weights) :
    (f.splitBlock id position condition weights).2.counters.length = f.counters.length := by
  obtain ⟨before, after, listed, blocks⟩ := toList_splitBlock found position condition weights
  have parts : additions (head.instrs.take position) + additions (head.instrs.drop position) =
      additions head.instrs := by
    rw [← additions_append, List.take_append_drop]
  rw [length_counters, length_counters, blocks, listed]
  simp only [List.map_append, List.map_cons, List.map_nil, List.sum_append, List.sum_cons,
    List.sum_nil, ← parts]
  have none : additions [] = 0 := rfl
  omega

theorem length_counters_modifyBlock {f : Func} {id : BlockId} {change : Block → Block}
    (same : ∀ block, additions (change block).instrs = additions block.instrs) :
    (f.modifyBlock id change).counters.length = f.counters.length := by
  rw [length_counters, length_counters,
    map_modifyBlock (fun block => additions block.instrs) same]

/-- Code at the beginning of the entry block counts once. -/
theorem length_counters_insertEntry {f : Func} (nonempty : f.blocks.isEmpty = false)
    (code : List Instr) :
    (f.insertInstrs entry 0 code).counters.length = f.counters.length + additions code := by
  obtain ⟨head, entered⟩ := entry_of_nonempty nonempty
  obtain ⟨rest, listed⟩ := toList_of_entry entered
  have blocks : (f.insertInstrs entry 0 code).blocks.toList =
      { head with instrs := code ++ head.instrs } :: rest := by
    show (f.blocks.modify entry _).toList = _
    rw [Array.toList_modify, listed]
    rfl
  rw [length_counters, length_counters, blocks, listed, List.map_cons, List.map_cons,
    List.sum_cons, List.sum_cons, additions_append]
  omega

end Func

namespace Probe

/-- Counting calls adds once, whether they are reported or not. -/
theorem accounts_calls (store : Store) (counters : Counters) (reporter : Option Reporter)
    {f : Func} (nonempty : f.blocks.isEmpty = false) :
    (calls store counters reporter f).Accounts f := by
  cases reporter with
  | none =>
      exact Func.length_counters_insertEntry (f := { f with nextValue := f.nextValue + 1 })
        nonempty [countCall (store.counter f.name .calls) f.nextValue]
  | some reporter =>
      obtain ⟨head, entered⟩ := Func.entry_of_nonempty nonempty
      have found : (begun store f reporter).block? Func.entry =
          some { head with instrs := decision store f reporter ++ head.instrs } := by
        rw [block?_begun, if_pos rfl, entered, Option.map_some]
      have begins : (begun store f reporter).counters.length = f.counters.length + 1 :=
        Func.length_counters_insertEntry (f := { f with nextValue := f.nextValue + 3 }) nonempty
          (decision store f reporter)
      show (reportedCalls store counters reporter f).func.counters.length = _
      rw [func_reportedCalls, Func.length_counters_modifyBlock,
        Func.length_counters_splitBlock found, begins]
      · rfl
      · intro block
        rw [Func.additions_append]
        rfl

end Probe

end FlowProfile
