/-
# Notes that can be read

A note is read entry by entry, and the first entry that does not fit is named.  Here is
said, without an order, which notes can be read at all: those that state flags, and those
that ask for a reporter.  Any other note is refused, for a fault of its own and under its
key.
-/

import FlowProfile.Proofs.Func.Encoding

namespace FlowProfile

namespace Note

/-- The note states flags: it is a tuple of four numbers or truth values. -/
def StatesFlags (note : Note) : Prop :=
  ∃ items, note = .tuple items ∧ items.length = 4 ∧ ∀ item ∈ items, item.asInt?.isSome = true

/-- The note asks for a reporter: it is a tuple of two integers and any number of
literals. -/
def AsksForReporter (note : Note) : Prop :=
  ∃ threshold callback args, note = .tuple (.int threshold :: .int callback :: args) ∧
    ∀ arg ∈ args, arg.asConstant?.isSome = true

theorem isSome_asInt? (item : Note) : item.asInt?.isSome = item.kind.isScalar := by
  cases item <;> rfl

theorem isSome_asConstant? (item : Note) : item.asConstant?.isSome = item.kind.isScalar := by
  cases item <;> rfl

theorem statesFlags_iff {note : Note} : note.StatesFlags ↔ Flags.format.Accepts note := by
  have fine (position : Nat) (item : Note) :
      Flags.format.entryFault? position item.kind = none ↔ item.asInt?.isSome = true := by
    rw [isSome_asInt?]
    simp [Flags.format]
  constructor
  · rintro ⟨items, rfl, four, all⟩
    exact ⟨items, rfl, decide_eq_true four, fun position item here =>
      (fine position item).mpr (all item (List.mem_of_getElem? here))⟩
  · rintro ⟨items, rfl, four, all⟩
    refine ⟨items, rfl, of_decide_eq_true four, fun item mem => ?_⟩
    obtain ⟨position, here⟩ := List.mem_iff_getElem?.mp mem
    exact (fine position item).mp (all position item here)

theorem asksForReporter_iff {note : Note} :
    note.AsksForReporter ↔ Reporter.format.Accepts note := by
  have fine (index : Nat) (item : Note) :
      Reporter.format.entryFault? (index + 2) item.kind = none ↔
        item.asConstant?.isSome = true := by
    rw [isSome_asConstant?]
    simp [Reporter.format]
  constructor
  · rintro ⟨threshold, callback, args, rfl, all⟩
    refine ⟨_, rfl, by simp [Reporter.format], fun position item here => ?_⟩
    rcases position with _ | _ | index
    · cases here
      rfl
    · cases here
      rfl
    · exact (fine index item).mpr (all item (List.mem_of_getElem? here))
  · rintro ⟨items, rfl, enough, all⟩
    rcases items with _ | ⟨threshold, _ | ⟨callback, args⟩⟩
    · cases enough
    · cases enough
    · have first := all 0 threshold rfl
      have second := all 1 callback rfl
      cases threshold with
      | bool | str | tuple => cases first
      | int threshold =>
          cases callback with
          | bool | str | tuple => cases second
          | int callback =>
              refine ⟨threshold, callback, args, rfl, fun item mem => ?_⟩
              obtain ⟨index, here⟩ := List.mem_iff_getElem?.mp mem
              exact (fine index item).mp (all (index + 2) item here)

/-- What holds of a reader that decides a format, said of another description of it. -/
theorem Format.Decides.cases {α : Type} {format : Format} {key : String}
    {read : String → Note → Except Error α} (decides : format.Decides key read)
    {described : Note → Prop} (same : ∀ note, described note ↔ format.Accepts note)
    (function : String) (note : Note) :
    (described note ∧ ∃ value, read function note = .ok value) ∨
      (¬ described note ∧ ∃ fault,
        read function note = .error (.malformedNote function key fault)) := by
  rw [same note, ← decides.ok_iff function note]
  cases ended : read function note with
  | ok value => exact .inl ⟨⟨value, rfl⟩, value, rfl⟩
  | error error =>
      obtain ⟨fault, -, rfl⟩ := (decides.error_iff function note error).mp ended
      exact .inr ⟨nofun, fault, rfl⟩

end Note

/-- A note is read exactly if it states flags. -/
theorem Flags.ofNote_cases (function : String) (note : Note) :
    (note.StatesFlags ∧ ∃ flags, ofNote function note = .ok flags) ∨
      (¬ note.StatesFlags ∧ ∃ fault,
        ofNote function note = .error (.malformedNote function flagsKey fault)) :=
  format_decides.cases (fun _ => Note.statesFlags_iff) function note

/-- A note is read exactly if it asks for a reporter. -/
theorem Reporter.ofNote_cases (function : String) (note : Note) :
    (note.AsksForReporter ∧ ∃ reporter, ofNote function note = .ok reporter) ∨
      (¬ note.AsksForReporter ∧ ∃ fault,
        ofNote function note = .error (.malformedNote function reporterKey fault)) :=
  format_decides.cases (fun _ => Note.asksForReporter_iff) function note

end FlowProfile
