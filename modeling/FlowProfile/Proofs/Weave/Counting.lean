/-
# Costs and ledgers along a trail

What the woven function does in answer to a trail of the function is measured by looking
at the trail alone.  Its number of steps is bounded by the number of branches and calls of
allocators on the trail, and its additions to the counters of branches are the numbers of
branches that were decided and taken.
-/

import FlowProfile.Proofs.Weave.Following

namespace FlowProfile

namespace Weave

variable (weave : Weave)

/-- How many steps of the woven function answer the steps along a trail. -/
def costs (f : Func) : List Frame → Nat
  | [] => 0
  | frame :: path => weave.cost f frame + costs f path

/-- What the woven function adds to the counters along a trail. -/
def ledgers (f : Func) (path : List Frame) : Ledger :=
  path.flatMap (weave.ledger f)

variable {weave : Weave} {f : Func}

theorem costs_cons (frame : Frame) (path : List Frame) :
    weave.costs f (frame :: path) = weave.cost f frame + weave.costs f path :=
  rfl

theorem ledgers_cons (frame : Frame) (path : List Frame) :
    weave.ledgers f (frame :: path) = weave.ledger f frame ++ weave.ledgers f path :=
  List.flatMap_cons

theorem costs_singleton (frame : Frame) : weave.costs f [frame] = weave.cost f frame := by
  rw [costs_cons]
  rfl

theorem ledgers_singleton (frame : Frame) :
    weave.ledgers f [frame] = weave.ledger f frame := by
  rw [ledgers_cons]
  exact List.append_nil _

/-! ## Costs -/

theorem cost_pos (weave : Weave) (f : Func) (frame : Frame) : 0 < weave.cost f frame := by
  unfold cost
  split <;> exact Nat.succ_pos _

/-- Every step of the function costs the woven function at least one. -/
theorem length_le_costs (weave : Weave) (f : Func) (path : List Frame) :
    path.length ≤ weave.costs f path := by
  induction path with
  | nil => exact Nat.zero_le _
  | cons frame path ih =>
      rw [costs_cons, List.length_cons, Nat.add_comm]
      exact Nat.add_le_add (weave.cost_pos f frame) ih

variable (weave f)

/-- Whether the next step decides a branch that has a probe. -/
def probesBranch (frame : Frame) : Bool :=
  weave.branches && (frame.branchCondition? f).isSome

/-- Whether the next step executes a call that a stage sees as one of an allocator. -/
def probesCall (stage : Stage) (frame : Frame) : Bool :=
  weave.allocations.any fun symbols =>
    frame.executes fun instr =>
      match stage with
      | .before => symbols.recognizesCall .before instr
      | .after => symbols.recognizesCall .after (weave.lower instr)

variable {weave f}

theorem length_talliesAt_le (stage : Stage) (instr : Instr) :
    (weave.talliesAt stage instr).length ≤
      2 * (weave.allocations.any fun symbols => symbols.recognizesCall stage instr).toNat := by
  rcases weave.talliesAt_eq_or stage instr with none | ⟨symbols, size, asked, recognized, -, two⟩
  · rw [none]
    exact Nat.zero_le _
  · rw [two, asked, Option.any_some, recognized]
    exact Nat.le_refl 2

theorem cost_le (frame : Frame) :
    weave.cost f frame ≤
      1 + 3 * (weave.probesBranch f frame).toNat + 2 * (weave.probesCall .before frame).toNat +
        2 * (weave.probesCall .after frame).toNat := by
  obtain ⟨values, id, rest⟩ := frame
  cases rest with
  | nil =>
      have cost : weave.cost f ⟨values, id, []⟩ =
          1 + 3 * (weave.probesBranch f ⟨values, id, []⟩).toNat := by
        simp only [Weave.cost, probesBranch]
        cases weave.branches && ((⟨values, id, []⟩ : Frame).branchCondition? f).isSome <;> rfl
      rw [cost]
      exact Nat.le_trans (Nat.le_add_right _ _) (Nat.le_add_right _ _)
  | cons first rest =>
      have early := weave.length_talliesAt_le .before first
      have late := weave.length_talliesAt_le .after (weave.lower first)
      have cost : weave.cost f ⟨values, id, first :: rest⟩ =
          (weave.talliesAt .before first).length +
            (weave.talliesAt .after (weave.lower first)).length + 1 := by
        simp only [Weave.cost, tallies, List.length_append]
      rw [cost]
      simp only [probesCall, Frame.executes, List.head?_cons, Option.any_some]
      omega

/-- The woven function takes three more steps for every branch with a probe, and two more
for every call of an allocator at each of the two stages. -/
theorem costs_le (path : List Frame) :
    weave.costs f path ≤
      path.length + 3 * path.countP (weave.probesBranch f) +
        2 * path.countP (weave.probesCall .before) + 2 * path.countP (weave.probesCall .after) := by
  induction path with
  | nil => exact Nat.zero_le _
  | cons frame path ih =>
      have here : weave.cost f frame ≤ _ := cost_le frame
      have digit (truth : Bool) : truth.toNat = if truth = true then 1 else 0 := by
        cases truth <;> rfl
      simp only [digit] at here
      rw [costs_cons, List.length_cons, List.countP_cons, List.countP_cons, List.countP_cons]
      omega

/-! ## Counters of branches -/

/-- A ledger without a measure adds nothing to it. -/
theorem total_eq_zero {measure : Measure} {ledger : Ledger}
    (absent : ∀ entry ∈ ledger, entry.1 ≠ measure) : ledger.total measure = 0 := by
  induction ledger with
  | nil => rfl
  | cons entry rest ih =>
      obtain ⟨other, amount⟩ := entry
      rw [Ledger.total, if_neg (absent (other, amount) List.mem_cons_self)]
      exact ih fun entry mem => absent entry (List.mem_cons_of_mem _ mem)

/-- Tallies concern sizes and counts of allocations. -/
theorem measure_of_mem_tallies {instr : Instr} {entry : Measure × Operand}
    (mem : entry ∈ weave.tallies instr) :
    ∃ stage, entry.1 = .size stage ∨ entry.1 = .count stage := by
  have staged {stage : Stage} {seen : Instr} (mem : entry ∈ weave.talliesAt stage seen) :
      entry.1 = .size stage ∨ entry.1 = .count stage := by
    rcases weave.talliesAt_eq_or stage seen with none | ⟨symbols, size, -, -, -, two⟩
    · rw [none] at mem
      cases mem
    · simp only [two, List.mem_cons, List.not_mem_nil, or_false] at mem
      rcases mem with rfl | rfl
      · exact .inl rfl
      · exact .inr rfl
  rcases List.mem_append.mp mem with early | late
  · exact ⟨_, staged early⟩
  · exact ⟨_, staged late⟩

/-- What the answer to one step adds to the counters of branches and calls. -/
theorem total_ledger (frame : Frame) (id : BlockId) :
    (weave.ledger f frame).total (.total id) =
        (if weave.branches && frame.branchesAt f id then 1 else 0) ∧
      (weave.ledger f frame).total (.taken id) =
        (if weave.branches && frame.takesAt f id then 1 else 0) ∧
      (weave.ledger f frame).total .calls = 0 := by
  obtain ⟨values, block, rest⟩ := frame
  cases rest with
  | cons first rest =>
      have busy : (⟨values, block, first :: rest⟩ : Frame).rest ≠ [] := List.cons_ne_nil _ _
      have foreign (measure : Measure) (unsized : ∀ stage, measure ≠ .size stage)
          (uncounted : ∀ stage, measure ≠ .count stage) :
          (weave.ledger f ⟨values, block, first :: rest⟩).total measure = 0 := by
        apply total_eq_zero
        intro entry mem
        obtain ⟨tallied, listed, rfl⟩ := List.mem_map.mp mem
        obtain ⟨stage, same | same⟩ := measure_of_mem_tallies listed
        · rw [same]
          exact (unsized stage).symm
        · rw [same]
          exact (uncounted stage).symm
      rw [Frame.branchesAt_of_busy busy, Frame.takesAt_of_busy busy, Bool.and_false]
      exact ⟨foreign _ nofun nofun, foreign _ nofun nofun, foreign _ nofun nofun⟩
  | nil =>
      cases on : weave.branches with
      | false => simp [ledger, on, Ledger.total]
      | true =>
          cases condition : (⟨values, block, []⟩ : Frame).branchCondition? f with
          | none => simp [ledger, on, condition, Frame.branchesAt, Frame.takesAt, Ledger.total]
          | some operand =>
              cases read : (⟨values, block, []⟩ : Frame).read operand with
              | error error =>
                  simp [ledger, on, condition, read, Frame.branchesAt, Frame.takesAt, Ledger.total]
              | ok value =>
                  have paid : weave.ledger f ⟨values, block, []⟩ = branchLedger block value := by
                    simp only [ledger, on, condition, read]
                  rw [paid, Frame.branchesAt, Frame.takesAt, condition, Option.any_some, read]
                  by_cases same : block = id <;> by_cases zero : value = 0 <;>
                    simp [branchLedger, Ledger.total, same, zero]

/-- What the answers to a trail add to the counters of branches and calls. -/
theorem total_ledgers (path : List Frame) (id : BlockId) :
    (weave.ledgers f path).total (.total id) =
        (if weave.branches then path.countP (Frame.branchesAt f id) else 0).toUInt64 ∧
      (weave.ledgers f path).total (.taken id) =
        (if weave.branches then path.countP (Frame.takesAt f id) else 0).toUInt64 ∧
      (weave.ledgers f path).total .calls = 0 := by
  induction path with
  | nil => cases weave.branches <;> exact ⟨rfl, rfl, rfl⟩
  | cons frame path ih =>
      obtain ⟨total, taken, calls⟩ := ih
      have here : (weave.ledger f frame).total (.total id) = _ ∧
          (weave.ledger f frame).total (.taken id) = _ ∧ _ := total_ledger frame id
      obtain ⟨total', taken', calls'⟩ := here
      rw [ledgers_cons, Ledger.total_append, Ledger.total_append, Ledger.total_append, total, taken,
        calls, total', taken', calls', List.countP_cons, List.countP_cons]
      have digit (count : Nat) (truth : Bool) :
          (if truth then 1 else 0) + count.toUInt64 = (count + if truth then 1 else 0).toUInt64 := by
        rw [UInt64.add_comm]
        cases truth with
        | false => exact UInt64.add_zero _
        | true => exact (UInt64.ofNat_add count 1).symm
      cases weave.branches with
      | false => exact ⟨rfl, rfl, rfl⟩
      | true => exact ⟨digit _ _, digit _ _, rfl⟩

end Weave

end FlowProfile
