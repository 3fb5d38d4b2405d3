/-
# Branch probes keep totals and parts

What a compilation puts into a function adds to the counters of a slot by branch probes
only, each of which adds to the total of the slot first.  Nothing that a later stage
inserts comes between the parts of a probe.  So compiled functions pair the two counters
of every slot, of whatever profile, if they did not add to them before.
-/

import FlowProfile.Proofs.Run.Shares
import FlowProfile.Proofs.Weave.Durable

namespace FlowProfile

variable {total part : Counter} {f : Func} {store : Store} {counters : Counters}

/-- The counters of a slot, the total first. -/
inductive Counter.OfSlot : Counter → Counter → Prop
  | slot (store function : String) (slot : Nat) :
      OfSlot (.owned store function (.total slot)) (.owned store function (.taken slot))

theorem Counter.OfSlot.differ (ofSlot : total.OfSlot part) : total ≠ part := by
  cases ofSlot
  exact nofun

/-- Counters of other measures are neither. -/
theorem Counter.OfSlot.neither (ofSlot : total.OfSlot part) (store function : String)
    (measure : Measure) (other : ∀ slot, measure ≠ .total slot ∧ measure ≠ .taken slot) :
    Counter.Neither total part (.owned store function measure) := by
  cases ofSlot with
  | slot store' function' slot =>
      refine ⟨fun same => ?_, fun same => ?_⟩
      · exact (other slot).1 (Counter.owned.inj same).2.2
      · exact (other slot).2 (Counter.owned.inj same).2.2

/-- A branch probe calls nothing by name. -/
theorem Probe.unnamed_branchProbe (total part : Counter) (fresh : ValueId) (condition : Operand) :
    ∀ instr ∈ branchProbe total part fresh condition, instr.calledSymbol? = none := by
  intro instr mem
  simp only [branchProbe, List.mem_cons, List.not_mem_nil, or_false] at mem
  rcases mem with rfl | rfl | rfl <;> rfl

namespace Instr.Paired

variable {weave : Weave} {code : List Instr}

/-- Lowering changes no probe. -/
theorem map_lower (paired : Paired total part code) (weave : Weave) :
    Paired total part (code.map weave.lower) := by
  induction paired with
  | nil => exact .nil
  | @other instr rest apart later ih =>
      refine .other ?_ ih
      intro counter same
      rw [weave.counter?_lower] at same
      exact apart counter same
  | probe fresh condition later ih =>
      rw [List.map_append, weave.map_lower (Probe.unnamed_branchProbe total part fresh condition)]
      exact .probe fresh condition ih

/-- Allocation probes come between no parts of a branch probe. -/
theorem flatMap_probedAt (paired : Paired total part code) (ofSlot : total.OfSlot part)
    (weave : Weave) (stage : Stage) :
    Paired total part (code.flatMap (weave.probedAt stage)) := by
  induction paired with
  | nil => exact .nil
  | @other instr rest apart later ih =>
      rw [List.flatMap_cons]
      refine append (of_countsOnly (Weave.countsOnly_probedAt apart fun _ => ?_)) ih
      exact ⟨ofSlot.neither _ _ (.size stage) fun _ => ⟨nofun, nofun⟩,
        ofSlot.neither _ _ (.count stage) fun _ => ⟨nofun, nofun⟩⟩
  | probe fresh condition later ih =>
      rw [List.flatMap_append,
        weave.flatMap_probedAt (Probe.unnamed_branchProbe total part fresh condition)]
      exact .probe fresh condition ih

/-- What is put at the end of a block is a probe of its own slot. -/
theorem tail (ofSlot : total.OfSlot part) (weave : Weave) (fresh : ValueId) (id : BlockId)
    (terminator : Terminator) : Paired total part (weave.tail fresh id terminator) := by
  by_cases own : weave.counter (.total id) = total
  · unfold Weave.tail
    split
    · next condition on isRuntime =>
        cases ofSlot with
        | slot store function slot =>
            cases own
            rw [← List.append_nil (Probe.branchProbe _ _ _ _)]
            exact .probe fresh condition .nil
    · exact .nil
    · exact .nil
  · refine of_countsOnly (weave.countsOnly_tail fun _ _ => ?_)
    cases ofSlot with
    | slot store function slot =>
        refine ⟨⟨own, nofun⟩, nofun, ?_⟩
        intro same
        obtain ⟨sameStore, sameFunction, sameMeasure⟩ := Counter.owned.inj same
        apply own
        rw [Weave.counter, sameStore, sameFunction, Measure.taken.inj sameMeasure]

/-- Compilations keep code that pairs the counters of a slot. -/
theorem durable (ofSlot : total.OfSlot part) :
    Instr.Durable (Counter.Neither total part) (Paired total part) where
  free _ := of_countsOnly
  append _ _ := append
  lowered weave _ paired := paired.map_lower weave
  probed weave stage _ paired := paired.flatMap_probedAt ofSlot weave stage
  tail := tail ofSlot
  calls store function := ofSlot.neither store function .calls fun _ => ⟨nofun, nofun⟩

end Instr.Paired

/-- Whether it succeeds or not, a compilation leaves a function that pairs the counters of
every slot. -/
theorem Pipeline.pairs_compile {pipeline : Pipeline} {lowering : Option Lowering}
    (shipped : pipeline.optimizer = .ofLowering lowering) {after : Option Store}
    {compilation : Compilation} (ofSlot : total.OfSlot part)
    (apart : f.CountsOnly (Counter.Neither total part))
    (compiled : pipeline.compile counters (some store) f = (after, compilation)) :
    compilation.func.Pairs total part :=
  (Instr.Paired.durable ofSlot).compile shipped apart compiled

end FlowProfile
