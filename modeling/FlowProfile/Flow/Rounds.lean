/-
Loops by rounds

The analyses are loops over arrays. A loop is one round that is repeated: a round goes on
with a new state, ends the loop, or fails. The number of rounds is bounded, and a loop
that would need more of them fails as well, so that a result is always one with which the
loop has come to its own end. Reading or writing an array beyond its end fails too.
-/

import FlowProfile.Error

namespace FlowProfile

/-- What a round of a loop leads to. -/
inductive Round (State Result : Type)
  | again (state : State)
  | done (result : Result)

/-- Repeat a round until it ends the loop. -/
def Round.iterate {State Result : Type} (round : State → Except Error (Round State Result)) :
    Nat → State → Except Error Result
  | 0, _ => .error .endless
  | bound + 1, state =>
      match round state with
      | .error error => .error error
      | .ok (.again next) => iterate round bound next
      | .ok (.done result) => .ok result

/-- The entry of an array at a position. -/
def fetch {α : Type} (entries : Array α) (position : Nat) : Except Error α :=
  match entries[position]? with
  | some entry => .ok entry
  | none => .error .outOfBounds

/-- Replace the entry of an array at a position. -/
def assign {α : Type} (entries : Array α) (position : Nat) (entry : α) :
    Except Error (Array α) :=
  if position < entries.size then .ok (entries.setIfInBounds position entry)
  else .error .outOfBounds

theorem fetch_eq_getD {α : Type} {entries : Array α} {position : Nat}
    (inside : position < entries.size) (default : α) :
    fetch entries position = .ok (entries.getD position default) := by
  simp [fetch, inside]

theorem assign_of_lt {α : Type} {entries : Array α} {position : Nat}
    (inside : position < entries.size) (entry : α) :
    assign entries position entry = .ok (entries.setIfInBounds position entry) :=
  if_pos inside

theorem getD_setIfInBounds {α : Type} (values : Array α) (id other : Nat) (value default : α) :
    (values.setIfInBounds id value).getD other default =
      if id = other ∧ id < values.size then value else values.getD other default := by
  simp only [Array.getD_eq_getD_getElem?, Array.getElem?_setIfInBounds]
  by_cases same : id = other
  · subst same
    by_cases inside : id < values.size <;> simp [inside]
  · simp [same]

theorem getD_replicate {α : Type} (size id : Nat) (value : α) :
    (Array.replicate size value).getD id value = value := by
  rw [Array.getD_eq_getD_getElem?, Array.getElem?_replicate]
  split <;> rfl

/-- A loop comes to its end if each round keeps an invariant and brings a measure down
towards zero, and the result is then what the last round makes sure of. -/
theorem Round.iterate_ok {State Result : Type}
    {round : State → Except Error (Round State Result)} (invariant : State → Prop)
    (measure : State → Nat) {ensured : Result → Prop}
    (each : ∀ state, invariant state →
      (∃ next, round state = .ok (.again next) ∧ invariant next ∧ measure next < measure state) ∨
        ∃ result, round state = .ok (.done result) ∧ ensured result)
    {bound : Nat} {state : State} (begins : invariant state) (enough : measure state < bound) :
    ∃ result, iterate round bound state = .ok result ∧ ensured result := by
  induction bound generalizing state with
  | zero => cases enough
  | succ bound ih =>
      rw [iterate]
      rcases each state begins with ⟨next, goes, kept, less⟩ | ⟨result, ends, sure⟩
      · rw [goes]
        exact ih kept (Nat.lt_of_lt_of_le less (Nat.le_of_lt_succ enough))
      · rw [ends]
        exact ⟨result, rfl, sure⟩

/-- A pass over a list succeeds if each step does, and keeps what each step keeps. What is
kept may depend on how far the pass has come. -/
theorem foldlM_ok {State Item : Type} (step : State → Item → Except Error State)
    (invariant : List Item → State → Prop) {items : List Item} {state : State}
    (begins : invariant [] state)
    (each : ∀ earlier item later state, items = earlier ++ item :: later →
      invariant earlier state →
        ∃ next, step state item = .ok next ∧ invariant (earlier ++ [item]) next) :
    ∃ last, items.foldlM step state = .ok last ∧ invariant items last := by
  suffices ∀ later earlier state, items = earlier ++ later → invariant earlier state →
      ∃ last, later.foldlM step state = .ok last ∧ invariant items last from
    this items [] state rfl begins
  intro later
  induction later with
  | nil =>
      intro earlier state split kept
      rw [List.append_nil] at split
      exact ⟨state, rfl, split ▸ kept⟩
  | cons item rest ih =>
      intro earlier state split kept
      obtain ⟨next, stepped, kept'⟩ := each earlier item rest state split kept
      obtain ⟨last, passed, final⟩ := ih (earlier ++ [item]) next (by simp [split]) kept'
      refine ⟨last, ?_, final⟩
      rw [List.foldlM_cons, stepped]
      exact passed

end FlowProfile
