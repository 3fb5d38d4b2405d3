/-
# Hosts that keep to their answers

A host whose routines are functions of their arguments answers a call in the same way
however often it was called before.  `Serves` names the answers, so that two hosts with
different pasts can be compared by what they serve.  Whether a callee has a routine at
all never changes, for any host.
-/

import FlowProfile.Run.Machine

namespace FlowProfile

namespace Host

/-- How a call would be answered now, if there is a routine for it. -/
def answer? (host : Host) (callee : Callee) : Option (List Int64 → Int64) :=
  (host.routine? callee).map fun routine => routine.answer routine.calls

/-- Every routine is a function of its arguments. -/
def IsFunctional (host : Host) : Prop :=
  ∀ entry ∈ host.routines, entry.2.IsFunction

/-- The host answers every call by a fixed function of the arguments, or never. -/
structure Serves (host : Host) (answers : Callee → Option (List Int64 → Int64)) : Prop where
  functional : host.IsFunctional
  answers_eq : ∀ callee, host.answer? callee = answers callee

theorem serves_self {host : Host} (functional : host.IsFunctional) :
    host.Serves host.answer? :=
  ⟨functional, fun _ => rfl⟩

theorem find?_countCall (callee other : Callee) (routines : List (Callee × Routine)) :
    (countCall callee routines).find? (·.1 = other) =
      if other = callee then
        (routines.find? (·.1 = other)).map fun entry =>
          (entry.1, { entry.2 with calls := entry.2.calls + 1 })
      else routines.find? (·.1 = other) := by
  induction routines with
  | nil => simp [countCall]
  | cons entry rest ih =>
      obtain ⟨name, routine⟩ := entry
      unfold countCall
      by_cases same : name = callee
      · subst same
        by_cases here : name = other
        · subst here
          simp
        · simp [here, Ne.symm here]
      · by_cases here : name = other
        · subst here
          simp [same]
        · simp only [same, if_false, List.find?_cons, here, decide_false]
          exact ih

theorem routine?_invoke (host : Host) (callee other : Callee) (routine : Routine)
    (args : List Int64) :
    (host.invoke callee routine args).1.routine? other =
      if other = callee then
        (host.routine? other).map fun called => { called with calls := called.calls + 1 }
      else host.routine? other := by
  simp only [routine?, invoke, find?_countCall]
  split
  · simp [Option.map_map, Function.comp_def]
  · rfl

/-- A call leaves the host with the same routines. -/
theorem isSome_routine?_invoke (host : Host) (callee other : Callee) (routine : Routine)
    (args : List Int64) :
    ((host.invoke callee routine args).1.routine? other).isSome =
      (host.routine? other).isSome := by
  rw [routine?_invoke]
  split
  · exact Option.isSome_map
  · rfl

theorem mem_countCall {callee : Callee} {routines : List (Callee × Routine)}
    {entry : Callee × Routine} (mem : entry ∈ countCall callee routines) :
    ∃ old ∈ routines, old.2.answer = entry.2.answer := by
  induction routines with
  | nil => cases mem
  | cons head rest ih =>
      obtain ⟨name, routine⟩ := head
      unfold countCall at mem
      split at mem
      · rcases List.mem_cons.mp mem with rfl | later
        · exact ⟨(name, routine), List.mem_cons_self, rfl⟩
        · exact ⟨entry, List.mem_cons_of_mem _ later, rfl⟩
      · rcases List.mem_cons.mp mem with rfl | later
        · exact ⟨(name, routine), List.mem_cons_self, rfl⟩
        · obtain ⟨old, known, same⟩ := ih later
          exact ⟨old, List.mem_cons_of_mem _ known, same⟩

theorem isFunctional_invoke {host : Host} (functional : host.IsFunctional)
    (callee : Callee) (routine : Routine) (args : List Int64) :
    (host.invoke callee routine args).1.IsFunctional := by
  intro entry mem before after values
  obtain ⟨old, known, same⟩ := mem_countCall mem
  rw [← same]
  exact functional old known before after values

theorem mem_routines_of_routine? {host : Host} {callee : Callee} {routine : Routine}
    (found : host.routine? callee = some routine) :
    ∃ entry ∈ host.routines, entry.2 = routine := by
  obtain ⟨entry, isFound, same⟩ := Option.map_eq_some_iff.mp found
  exact ⟨entry, List.mem_of_find?_eq_some isFound, same⟩

/-- A call changes no answer. -/
theorem answer?_invoke {host : Host} (functional : host.IsFunctional)
    (callee other : Callee) (routine : Routine) (args : List Int64) :
    (host.invoke callee routine args).1.answer? other = host.answer? other := by
  rw [answer?, routine?_invoke, answer?]
  split
  · cases found : host.routine? other with
    | none => rfl
    | some known =>
        obtain ⟨entry, mem, rfl⟩ := mem_routines_of_routine? found
        simp only [Option.map_some]
        exact congrArg some (funext fun values => functional entry mem _ _ values)
  · rfl

theorem Serves.invoke {host : Host} {answers : Callee → Option (List Int64 → Int64)}
    (serves : host.Serves answers) (callee : Callee) (routine : Routine)
    (args : List Int64) :
    (host.invoke callee routine args).1.Serves answers where
  functional := isFunctional_invoke serves.functional callee routine args
  answers_eq other :=
    (answer?_invoke serves.functional callee other routine args).trans
      (serves.answers_eq other)

theorem Serves.resolve_eq {host : Host} {answers : Callee → Option (List Int64 → Int64)}
    (serves : host.Serves answers) (callee : Callee) :
    (∃ routine answer, host.resolve callee = .ok routine ∧ answers callee = some answer ∧
        ∀ args, routine.answer routine.calls args = answer args) ∨
      (host.resolve callee = .error (unresolved callee) ∧ answers callee = none) := by
  rw [← serves.answers_eq callee, answer?, resolve]
  cases host.routine? callee with
  | none => exact .inr ⟨rfl, rfl⟩
  | some routine => exact .inl ⟨routine, _, rfl, rfl, fun _ => rfl⟩

/-- Whether there is a routine can be told from the answers. -/
theorem Serves.isSome_routine? {host : Host} {answers : Callee → Option (List Int64 → Int64)}
    (serves : host.Serves answers) (callee : Callee) :
    (host.routine? callee).isSome = (answers callee).isSome := by
  rw [← serves.answers_eq callee, answer?, Option.isSome_map]

end Host

end FlowProfile
