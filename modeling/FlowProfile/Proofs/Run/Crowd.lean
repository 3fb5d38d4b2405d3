/-
# Runs of several functions

Runs need not be of one function to take turns: each goes on in code of its own, and they
still share the world and nothing else.

What is known of all runs at once is kept as a note for each of them.  A note says where
its run stands, and all notes together say how the world has come to be what it is.  A
turn of one run may change its own note only.
-/

import FlowProfile.Proofs.Run.Interleaving

namespace FlowProfile

namespace Pool

/-- The turn of one run among runs of several functions. -/
def turnAmong (code : List Func) (pool : Pool) (index : Nat) : Pool :=
  match code[index]? with
  | none => pool
  | some g => pool.turn g index

/-- Turn after turn, as a schedule says. -/
def playAmong (code : List Func) (pool : Pool) (schedule : List Nat) : Pool :=
  schedule.foldl (turnAmong code) pool

/-- No turn makes a counter smaller, which is to say that none wraps around. -/
def Climbs (code : List Func) (pool : Pool) (schedule : List Nat) : Prop :=
  ∀ earlier index, earlier ++ [index] <+: schedule → ∀ counter,
    (pool.playAmong code earlier).world.counters.read counter ≤
      (pool.playAmong code (earlier ++ [index])).world.counters.read counter

/-- What notes say of runs and of the world is so. -/
structure Noted {α : Type} (stands : Nat → α → Strand → Prop) (tells : List α → World → Prop)
    (notes : List α) (pool : Pool) : Prop where
  length_eq : notes.length = pool.strands.length
  stands : ∀ {index strand note}, pool.strands[index]? = some strand →
    notes[index]? = some note → stands index note strand
  tells : tells notes pool.world

variable {code : List Func} {pool : Pool} {index : Nat}

theorem playAmong_concat (code : List Func) (pool : Pool) (schedule : List Nat) (index : Nat) :
    pool.playAmong code (schedule ++ [index]) =
      (pool.playAmong code schedule).turnAmong code index := by
  rw [playAmong, List.foldl_append, playAmong]
  rfl

/-- A turn changes the pool only where there is both a run and its code. -/
theorem turnAmong_cases (code : List Func) (pool : Pool) (index : Nat) :
    pool.turnAmong code index = pool ∨
      ∃ g strand, code[index]? = some g ∧ pool.strands[index]? = some strand ∧
        pool.turnAmong code index = pool.turn g index := by
  rw [turnAmong]
  cases coded : code[index]? with
  | none => exact .inl rfl
  | some g =>
      cases found : pool.strands[index]? with
      | none => exact .inl (turn_of_none found)
      | some strand => exact .inr ⟨g, strand, rfl, rfl, rfl⟩

/-- There are as many runs as there were at the start. -/
theorem length_playAmong (code : List Func) (pool : Pool) (schedule : List Nat) :
    (pool.playAmong code schedule).strands.length = pool.strands.length := by
  induction schedule generalizing pool with
  | nil => rfl
  | cons index rest ih =>
      refine (ih (pool.turnAmong code index)).trans ?_
      rcases turnAmong_cases code pool index with same | ⟨g, strand, -, found, same⟩
      · rw [same]
      · rw [same, turn_of_some found, List.length_set]

/-- A turn moves no other run. -/
theorem strands_turnAmong_of_ne {other : Nat} (apart : other ≠ index) :
    (pool.turnAmong code index).strands[other]? = pool.strands[other]? := by
  rw [turnAmong]
  cases code[index]? with
  | none => rfl
  | some g => exact strands_turn_of_ne apart

/-- A run that goes on after its turn has paid for it with a step. -/
theorem left_of_turnAmong {g : Func} (coded : code[index]? = some g) {limit left : Nat}
    {frame : Frame}
    (goes : (pool.turnAmong code index).strands[index]? = some (.going limit left frame)) :
    ∃ place, pool.strands[index]? = some (.going limit (left + 1) place) := by
  rw [turnAmong, coded] at goes
  cases found : pool.strands[index]? with
  | none =>
      simp only [turn_of_none found, found] at goes
      cases goes
  | some strand =>
      simp only [turn_of_some found] at goes
      rw [List.getElem?_set_self (List.getElem?_eq_some_iff.mp found).1] at goes
      cases strand with
      | ended result => cases goes
      | going budget more place =>
          cases more with
          | zero => cases goes
          | succ more =>
              replace goes := Option.some.inj goes
              rw [Strand.step] at goes
              cases stepped : Machine.step g place pool.world with
              | running next world =>
                  rw [stepped] at goes
                  cases goes
                  exact ⟨place, rfl⟩
              | returned value world => rw [stepped] at goes; cases goes
              | failed error world => rw [stepped] at goes; cases goes

section

variable {α : Type} {stands : Nat → α → Strand → Prop} {tells : List α → World → Prop}
  {notes : List α}

/-- The notes stay right if the one of the run that takes its turn is put right. -/
theorem Noted.turn (noted : Noted stands tells notes pool)
    (kept : ∀ g strand note, code[index]? = some g → pool.strands[index]? = some strand →
      notes[index]? = some note → stands index note strand →
        ∃ note', stands index note' (strand.step g pool.world).1 ∧
          tells (notes.set index note') (strand.step g pool.world).2) :
    ∃ notes', Noted stands tells notes' (pool.turnAmong code index) := by
  rcases turnAmong_cases code pool index with same | ⟨g, strand, coded, found, same⟩
  · rw [same]
    exact ⟨notes, noted⟩
  · have inside : index < pool.strands.length := (List.getElem?_eq_some_iff.mp found).1
    obtain ⟨note, here⟩ : ∃ note, notes[index]? = some note :=
      ⟨_, List.getElem?_eq_getElem (noted.length_eq ▸ inside)⟩
    obtain ⟨note', stands', tells'⟩ := kept g strand note coded found here
      (noted.stands found here)
    rw [same, turn_of_some found]
    refine ⟨notes.set index note', ?_, ?_, tells'⟩
    · rw [List.length_set, List.length_set]
      exact noted.length_eq
    · intro other strand' note'' found' here'
      by_cases own : other = index
      · subst own
        rw [List.getElem?_set_self inside] at found'
        rw [List.getElem?_set_self (noted.length_eq ▸ inside)] at here'
        cases found'
        cases here'
        exact stands'
      · rw [List.getElem?_set_ne (Ne.symm own)] at found' here'
        exact noted.stands found' here'

end

end Pool

end FlowProfile
