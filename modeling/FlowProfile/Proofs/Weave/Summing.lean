/-
# Compiled code keeps count of what it sums up

The size of a stage is a sum that is counted by the number of requests at that stage, and
how often a branch was taken is one that is counted by its total.  Compiled functions add
to either sum only next to its count, if they did not add to counters of the store before.

Probes of both stages stand ahead of the same call, and none of them comes between the two
additions of another.
-/

import FlowProfile.Proofs.Run.Sums
import FlowProfile.Proofs.Weave.Pairing

namespace FlowProfile

/-- Among the counters of a store, a count and the sum that it counts. -/
inductive Counter.Counts (store : String) : Counter → Counter → Prop
  | slot (function : String) (slot : Nat) :
      Counts store (.owned store function (.total slot)) (.owned store function (.taken slot))
  | volume (function : String) (stage : Stage) :
      Counts store (.owned store function (.count stage)) (.owned store function (.size stage))

variable {name function : String} {count sum : Counter} {stage stage' : Stage} {f : Func}
  {store : Store} {counters : Counters}

namespace Counter.Counts

theorem differ (counts : Counter.Counts name count sum) : count ≠ sum := by
  cases counts with
  | slot => exact nofun
  | volume => exact nofun

/-- Both are counters of the store. -/
theorem inStore (counts : Counter.Counts name count sum) :
    count.InStore name ∧ sum.InStore name := by
  cases counts with
  | slot function slot => exact ⟨⟨function, _, rfl⟩, function, _, rfl⟩
  | volume function stage => exact ⟨⟨function, _, rfl⟩, function, _, rfl⟩

/-- What is no counter of the store is neither of the two. -/
theorem neither (counts : Counter.Counts name count sum) {counter : Counter}
    (foreign : ¬ counter.InStore name) : Counter.Neither count sum counter where
  left same := foreign (same ▸ counts.inStore.1)
  right same := foreign (same ▸ counts.inStore.2)

end Counter.Counts

namespace Instr.Counted

variable {code : List Instr}

/-- Lowering changes no probe. -/
theorem map_lower (counted : Counted count sum code) (weave : Weave) :
    Counted count sum (code.map weave.lower) := by
  induction counted with
  | nil => exact .nil
  | @other instr rest apart later ih =>
      refine .other ?_ ih
      intro counter same
      rw [weave.counter?_lower] at same
      exact apart counter same
  | before fresh condition later ih =>
      rw [List.map_append, weave.map_lower (Probe.unnamed_branchProbe count sum fresh condition)]
      exact .before fresh condition ih
  | after amount later ih =>
      rw [List.map_cons, List.map_cons, weave.lower_of_calledSymbol? rfl,
        weave.lower_of_calledSymbol? rfl]
      exact .after amount ih

/-- The probe of an allocation adds to a sum next to its count, whatever volume is looked at. -/
theorem probedAt (weave : Weave) (stage : Stage) {instr : Instr}
    (apart : instr.CountsOnly (Counter.Neither (.owned name function (.count stage'))
      (.owned name function (.size stage')))) :
    Counted (.owned name function (.count stage')) (.owned name function (.size stage'))
      (weave.probedAt stage instr) := by
  have alone : Counted (.owned name function (.count stage')) (.owned name function (.size stage'))
      [instr] := .other apart .nil
  rcases weave.talliesAt_eq_or stage instr with none | ⟨symbols, size, -, -, -, two⟩
  · rw [Weave.probedAt, none]
    exact alone
  · rw [Weave.probedAt, two]
    by_cases own : weave.counter (.size stage) = .owned name function (.size stage')
    · cases own
      exact .after size alone
    · refine .other ?_ (.other ?_ alone)
      · apply Instr.countsOnly_tally
        constructor
        · intro same
          cases same
        · exact own
      · apply Instr.countsOnly_tally
        constructor
        · intro same
          apply own
          obtain ⟨sameStore, sameFunction, sameMeasure⟩ := Counter.owned.inj same
          rw [Weave.counter, sameStore, sameFunction, Measure.count.inj sameMeasure]
        · intro same
          cases same

/-- Compilations keep code that counts requests and sums up their sizes. -/
theorem durable (name function : String) (stage : Stage) :
    Instr.Durable (Counter.Neither (.owned name function (.count stage))
      (.owned name function (.size stage)))
      (Counted (.owned name function (.count stage)) (.owned name function (.size stage))) where
  free _ := of_countsOnly
  append _ _ := append
  lowered weave _ counted := counted.map_lower weave
  probed weave stage' code counted := by
    induction counted with
    | nil => exact .nil
    | other apart later ih =>
        rw [List.flatMap_cons]
        exact (probedAt weave stage' apart).append ih
    | before fresh condition later ih =>
        rw [List.flatMap_append, weave.flatMap_probedAt (Probe.unnamed_branchProbe _ _ _ _)]
        exact .before fresh condition ih
    | after amount later ih =>
        rw [List.flatMap_cons, List.flatMap_cons, weave.probedAt_of_calledSymbol? rfl,
          weave.probedAt_of_calledSymbol? rfl]
        exact .after amount ih
  tail weave fresh id terminator := by
    refine of_countsOnly (weave.countsOnly_tail fun _ _ => ?_)
    exact ⟨⟨nofun, nofun⟩, nofun, nofun⟩
  calls _ _ := ⟨nofun, nofun⟩

end Instr.Counted

/-- Whether it succeeds or not, a compilation of a function that adds to no counter of a
store leaves one that keeps count of what it sums up in counters of that store. -/
theorem Pipeline.counted_compile {pipeline : Pipeline} {lowering : Option Lowering}
    (shipped : pipeline.optimizer = .ofLowering lowering) {after : Option Store}
    {compilation : Compilation} (counts : Counter.Counts name count sum)
    (foreign : ∀ counter ∈ f.counters, ¬ counter.InStore name)
    (compiled : pipeline.compile counters (some store) f = (after, compilation)) :
    compilation.func.Blockwise (Instr.Counted count sum) := by
  have apart : f.CountsOnly (Counter.Neither count sum) :=
    fun counter mem => counts.neither (foreign counter mem)
  cases counts with
  | slot function slot =>
      have pairs := Pipeline.pairs_compile shipped (.slot name function slot) apart compiled
      exact fun id block found => .of_paired (pairs id block found)
  | volume function stage =>
      exact (Instr.Counted.durable name function stage).compile shipped apart compiled

end FlowProfile
