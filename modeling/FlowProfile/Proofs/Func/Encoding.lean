/-
# Notes are codes

Flags and reporters are written as notes, and the notes that can be read are exactly those
of a format: a tuple with so many entries, each of a kind that may stand in its place.  A
format says as well what is wrong with a note of another form, and of all that is wrong the
reading names what comes first: that the note is no tuple, then the number of its entries,
then its entries from left to right.

A reporter is the only one with its note, and the note of flags is theirs up to the way in
which truth values are written.  Where a function has a note its flags are read from it
alone.
-/

import FlowProfile.Probe.Reporter
import FlowProfile.Settings.Basic
import Mathlib.Data.List.Basic

namespace FlowProfile

namespace Note

/-- The form of the notes that can be read. -/
structure Format where
  /-- Whether a tuple may have so many entries. -/
  admits : Nat → Bool
  /-- What is wrong with a tuple of another number of entries. -/
  lengthFault : Nat → NoteFault
  /-- What is wrong with an entry of a kind, if it may not stand in a place. -/
  entryFault? : Nat → Kind → Option NoteFault

/-- What a note can fail in. -/
inductive Requirement
  | form
  | length
  | entry (position : Nat)

/-- The order in which requirements come. -/
def Requirement.rank : Requirement → Nat
  | form => 0
  | length => 1
  | entry position => position + 2

/-- Whether something of this kind stands for a number. -/
def Kind.isScalar : Kind → Bool
  | int | bool => true
  | str | tuple => false

/-- The truth value of an entry: a number is true unless it is zero. -/
def truth : Note → Bool
  | int value => value ≠ 0
  | bool value => value
  | str _ | tuple _ => false

namespace Format

variable {format : Format} {note : Note} {items : List Note} {fault fault' : NoteFault}

/-- The note is a tuple that meets all requirements. -/
def Accepts (format : Format) (note : Note) : Prop :=
  ∃ items, note = .tuple items ∧ format.admits items.length = true ∧
    ∀ position item, items[position]? = some item → format.entryFault? position item.kind = none

/-- The note fails in a requirement, and what is wrong with it. -/
inductive Breaks (format : Format) : Note → Requirement → NoteFault → Prop
  | form {note : Note} (other : note.kind ≠ .tuple) : Breaks format note .form (.notTuple note.kind)
  | length {items : List Note} (other : format.admits items.length = false) :
      Breaks format (.tuple items) .length (format.lengthFault items.length)
  | entry {items : List Note} {position : Nat} {item : Note} {fault : NoteFault}
      (here : items[position]? = some item)
      (refused : format.entryFault? position item.kind = some fault) :
      Breaks format (.tuple items) (.entry position) fault

/-- Nothing that is wrong with the note comes before this. -/
def FirstFault (format : Format) (note : Note) (fault : NoteFault) : Prop :=
  ∃ requirement, format.Breaks note requirement fault ∧
    ∀ other fault', format.Breaks note other fault' → requirement.rank ≤ other.rank

/-- Notes are read exactly if the format accepts them, and any other note is refused for the
first thing that is wrong with it. -/
structure Decides {α : Type} (format : Format) (key : String)
    (read : String → Note → Except Error α) : Prop where
  ok_iff : ∀ function note, (∃ value, read function note = .ok value) ↔ format.Accepts note
  error_iff : ∀ function note error, read function note = .error error ↔
    ∃ fault, format.FirstFault note fault ∧ error = .malformedNote function key fault

theorem Accepts.not_breaks (accepts : format.Accepts note) (requirement : Requirement)
    (fault : NoteFault) : ¬ format.Breaks note requirement fault := by
  obtain ⟨items, rfl, admitted, fine⟩ := accepts
  intro breaks
  cases breaks with
  | form other => exact other rfl
  | length other =>
      rw [admitted] at other
      cases other
  | entry here refused => cases (fine _ _ here).symm.trans refused

theorem FirstFault.unique (first : format.FirstFault note fault)
    (first' : format.FirstFault note fault') : fault = fault' := by
  obtain ⟨requirement, breaks, least⟩ := first
  obtain ⟨requirement', breaks', least'⟩ := first'
  have same := Nat.le_antisymm (least _ _ breaks') (least' _ _ breaks)
  cases breaks with
  | form other =>
      cases breaks' with
      | form => rfl
      | length | entry => exact absurd rfl other
  | length other =>
      cases breaks' with
      | form other => exact absurd rfl other
      | length => rfl
      | entry => cases same
  | entry here refused =>
      cases breaks' with
      | form other => exact absurd rfl other
      | length => cases same
      | entry here' refused' =>
          obtain rfl := Nat.add_right_cancel same
          obtain rfl := Option.some.inj (here.symm.trans here')
          exact Option.some.inj (refused.symm.trans refused')

theorem firstFault_form (other : note.kind ≠ .tuple) :
    format.FirstFault note (.notTuple note.kind) :=
  ⟨.form, .form other, fun _ _ _ => Nat.zero_le _⟩

theorem firstFault_length (other : format.admits items.length = false) :
    format.FirstFault (.tuple items) (format.lengthFault items.length) := by
  refine ⟨.length, .length other, fun requirement fault breaks => ?_⟩
  cases breaks with
  | form tuple => exact absurd rfl tuple
  | length => exact Nat.le_refl _
  | entry => exact Nat.le_add_left 1 _

/-- The entries fit, the first of which stands in the given place. -/
def Fits (format : Format) : Nat → List Note → Prop
  | _, [] => True
  | start, item :: rest => format.entryFault? start item.kind = none ∧ format.Fits (start + 1) rest

theorem fits_iff {start : Nat} : format.Fits start items ↔
    ∀ position item, items[position]? = some item →
      format.entryFault? (start + position) item.kind = none := by
  induction items generalizing start with
  | nil => simp [Fits]
  | cons item rest ih =>
      rw [Fits, ih]
      constructor
      · rintro ⟨first, later⟩ position entry here
        cases position with
        | zero =>
            obtain rfl := Option.some.inj here
            exact first
        | succ position =>
            rw [← Nat.add_assoc, Nat.add_right_comm]
            exact later position entry here
      · intro fine
        refine ⟨fine 0 item rfl, fun position entry here => ?_⟩
        rw [Nat.add_right_comm]
        exact fine (position + 1) entry here

theorem accepts_of_fits (admitted : format.admits items.length = true)
    (fits : format.Fits 0 items) : format.Accepts (.tuple items) := by
  refine ⟨items, rfl, admitted, fun position item here => ?_⟩
  rw [← Nat.zero_add position]
  exact fits_iff.mp fits position item here

/-- The first entry that may not stand in its place. -/
theorem firstFault_entry (earlier : List Note) {later : List Note} {item : Note}
    (split : items = earlier ++ item :: later) (admitted : format.admits items.length = true)
    (fits : format.Fits 0 earlier)
    (refused : format.entryFault? earlier.length item.kind = some fault) :
    format.FirstFault (.tuple items) fault := by
  subst split
  refine ⟨.entry earlier.length, .entry (by simp) refused, ?_⟩
  intro requirement fault' breaks
  cases breaks with
  | form tuple => exact absurd rfl tuple
  | length other =>
      rw [admitted] at other
      cases other
  | @entry _ position entry _ here refused' =>
      refine Nat.add_le_add_right (Nat.le_of_not_lt fun less => ?_) 2
      rw [List.getElem?_append_left less] at here
      have fine := fits_iff.mp fits position entry here
      rw [Nat.zero_add] at fine
      cases fine.symm.trans refused'

/-- It is enough that each note is read and accepted or refused for its first fault. -/
theorem decides_of {α : Type} {key : String} {read : String → Note → Except Error α}
    (ended : ∀ function note,
      (format.Accepts note ∧ ∃ value, read function note = .ok value) ∨
        ∃ fault, format.FirstFault note fault ∧
          read function note = .error (.malformedNote function key fault)) :
    format.Decides key read where
  ok_iff function note := by
    rcases ended function note with ⟨accepts, success⟩ | ⟨fault, ⟨requirement, breaks, -⟩, failed⟩
    · exact ⟨fun _ => accepts, fun _ => success⟩
    · refine ⟨fun ⟨value, success⟩ => ?_, fun accepts => ?_⟩
      · cases failed.symm.trans success
      · exact absurd breaks (accepts.not_breaks requirement fault)
  error_iff function note error := by
    rcases ended function note with ⟨accepts, value, success⟩ | ⟨fault, first, failed⟩
    · refine ⟨fun failed => ?_, fun ⟨fault, ⟨requirement, breaks, _⟩, _⟩ => ?_⟩
      · cases success.symm.trans failed
      · exact absurd breaks (accepts.not_breaks requirement fault)
    · rw [failed]
      constructor
      · intro same
        exact ⟨fault, first, (Except.error.inj same).symm⟩
      · rintro ⟨fault', first', rfl⟩
        rw [first.unique first']

end Format

end Note

/-! ## Flags -/

namespace Flags

/-- Flags are four numbers or truth values. -/
def format : Note.Format where
  admits count := count = 4
  lengthFault := .wrongLength 4
  entryFault? position kind := if kind.isScalar then .none else some (.flagNotBoolean position kind)

theorem readEntry_format (function : String) (index : Nat) (item : Note) :
    (∃ fault, format.entryFault? index item.kind = some fault ∧
        readEntry function index item = .error (.malformedNote function flagsKey fault)) ∨
      format.entryFault? index item.kind = .none ∧
        readEntry function index item = .ok item.truth := by
  cases item with
  | int value => exact .inr ⟨rfl, rfl⟩
  | bool value => exact .inr ⟨rfl, by cases value <;> rfl⟩
  | str | tuple => exact .inl ⟨_, rfl, rfl⟩

/-- A tuple of four entries is read entry by entry. -/
theorem ofNote_four (function : String) (a b c d : Note) :
    format.Fits 0 [a, b, c, d] ∧
        ofNote function (.tuple [a, b, c, d]) = .ok ⟨a.truth, b.truth, c.truth, d.truth⟩ ∨
      ∃ fault, format.FirstFault (.tuple [a, b, c, d]) fault ∧
        ofNote function (.tuple [a, b, c, d]) =
          .error (.malformedNote function flagsKey fault) := by
  have read : ofNote function (.tuple [a, b, c, d]) = (do
      let first ← readEntry function 0 a
      let second ← readEntry function 1 b
      let third ← readEntry function 2 c
      let fourth ← readEntry function 3 d
      return ⟨first, second, third, fourth⟩) := rfl
  rcases readEntry_format function 0 a with ⟨fault, fails, one⟩ | ⟨first, one⟩
  · exact .inr ⟨fault, Note.Format.firstFault_entry [] rfl rfl trivial fails,
      by rw [read, one]; rfl⟩
  rcases readEntry_format function 1 b with ⟨fault, fails, two⟩ | ⟨second, two⟩
  · exact .inr ⟨fault, Note.Format.firstFault_entry [a] rfl rfl ⟨first, trivial⟩ fails,
      by rw [read, one, two]; rfl⟩
  rcases readEntry_format function 2 c with ⟨fault, fails, three⟩ | ⟨third, three⟩
  · exact .inr ⟨fault, Note.Format.firstFault_entry [a, b] rfl rfl ⟨first, second, trivial⟩ fails,
      by rw [read, one, two, three]; rfl⟩
  rcases readEntry_format function 3 d with ⟨fault, fails, four⟩ | ⟨fourth, four⟩
  · exact .inr ⟨fault, Note.Format.firstFault_entry [a, b, c] rfl rfl
      ⟨first, second, third, trivial⟩ fails, by rw [read, one, two, three, four]; rfl⟩
  exact .inl ⟨⟨first, second, third, fourth, trivial⟩, by rw [read, one, two, three, four]; rfl⟩

theorem ofNote_tuple (function : String) (items : List Note) :
    (format.Accepts (.tuple items) ∧ ∃ flags, ofNote function (.tuple items) = .ok flags ∧
        items.map Note.truth = [flags.allocations, flags.branches, flags.calls, flags.feedback]) ∨
      ∃ fault, format.FirstFault (.tuple items) fault ∧
        ofNote function (.tuple items) = .error (.malformedNote function flagsKey fault) := by
  match items with
  | [] | [_] | [_, _] | [_, _, _] => exact .inr ⟨_, Note.Format.firstFault_length rfl, rfl⟩
  | [a, b, c, d] =>
      rcases ofNote_four function a b c d with ⟨fits, read⟩ | refused
      · exact .inl ⟨Note.Format.accepts_of_fits rfl fits, _, read, rfl⟩
      · exact .inr refused
  | _ :: _ :: _ :: _ :: _ :: rest =>
      refine .inr ⟨_, Note.Format.firstFault_length ?_, rfl⟩
      simp [format]

/-- A note is read exactly if it has the format of flags, each flag off the entry in its
place. -/
theorem ofNote_format (function : String) (note : Note) :
    (format.Accepts note ∧ ∃ flags, ofNote function note = .ok flags ∧
        ∃ items, note = .tuple items ∧ items.map Note.truth =
          [flags.allocations, flags.branches, flags.calls, flags.feedback]) ∨
      ∃ fault, format.FirstFault note fault ∧
        ofNote function note = .error (.malformedNote function flagsKey fault) := by
  cases note with
  | int | bool | str => exact .inr ⟨_, Note.Format.firstFault_form nofun, rfl⟩
  | tuple items =>
      rcases ofNote_tuple function items with ⟨accepts, flags, read, entries⟩ | refused
      · exact .inl ⟨accepts, flags, read, items, rfl, entries⟩
      · exact .inr refused

theorem format_decides : format.Decides flagsKey ofNote :=
  Note.Format.decides_of fun function note =>
    (ofNote_format function note).imp
      (fun ⟨accepts, flags, read, _⟩ => ⟨accepts, flags, read⟩) id

/-- Flags that were read are the truth values of the entries, and their own note holds
these in place of the entries. -/
theorem entries_of_ofNote {function : String} {note : Note} {flags : Flags}
    (read : ofNote function note = .ok flags) :
    ∃ items, note = .tuple items ∧
      items.map Note.truth = [flags.allocations, flags.branches, flags.calls, flags.feedback] ∧
      flags.toNote = .tuple (items.map fun item => .bool item.truth) := by
  rcases ofNote_format function note with
    ⟨-, flags', read', items, shape, entries⟩ | ⟨_, -, refused⟩
  · obtain rfl := Except.ok.inj (read.symm.trans read')
    refine ⟨items, shape, entries, ?_⟩
    have written := congrArg (List.map Note.bool) entries
    rw [List.map_map] at written
    exact congrArg Note.tuple written.symm
  · cases read.symm.trans refused

end Flags

/-! ## Reporters -/

namespace Reporter

/-- A reporter is two numbers and after them numbers or truth values, as many as there may
be. -/
def format : Note.Format where
  admits count := 2 ≤ count
  lengthFault := .tooShort 2
  entryFault?
    | 0, kind => if kind = .int then none else some (.thresholdNotInteger kind)
    | 1, kind => if kind = .int then none else some (.callbackNotInteger kind)
    | index + 2, kind => if kind.isScalar then none else some (.argumentNotConstant index kind)

/-- A literal is the only one with its note. -/
theorem argNote_of_asConstant? {item : Note} {constant : Constant}
    (literal : item.asConstant? = some constant) : argNote constant = item := by
  cases item with
  | int value =>
      cases literal
      rfl
  | bool value =>
      cases literal
      cases value <;> rfl
  | str | tuple => cases literal

/-- Arguments are read up to the first entry that is no literal. -/
theorem readArgs_format (function : String) (index : Nat) (items : List Note) :
    (format.Fits (index + 2) items ∧
        ∃ args, readArgs function index items = .ok args ∧ args.map argNote = items) ∨
      ∃ earlier item later fault, items = earlier ++ item :: later ∧
        format.Fits (index + 2) earlier ∧
        format.entryFault? (index + 2 + earlier.length) item.kind = some fault ∧
        readArgs function index items = refuse function fault := by
  induction items generalizing index with
  | nil => exact .inl ⟨trivial, [], rfl, rfl⟩
  | cons item rest ih =>
      cases literal : item.asConstant? with
      | none =>
          refine .inr ⟨[], item, rest, .argumentNotConstant index item.kind, rfl, trivial, ?_, ?_⟩
          · cases item with
            | int | bool => cases literal
            | str | tuple => rfl
          · rw [readArgs, literal]
      | some constant =>
          have fine : format.entryFault? (index + 2) item.kind = none := by
            cases item with
            | int | bool => rfl
            | str | tuple => cases literal
          rcases ih (index + 1) with
            ⟨fits, args, read, written⟩ |
              ⟨earlier, other, later, fault, split, fits, fails, refused⟩
          · refine .inl ⟨⟨fine, fits⟩, constant :: args, by rw [readArgs, literal, read]; rfl, ?_⟩
            rw [List.map_cons, argNote_of_asConstant? literal, written]
          · refine .inr ⟨item :: earlier, other, later, fault, by rw [split]; rfl, ⟨fine, fits⟩, ?_,
              by rw [readArgs, literal, refused]; rfl⟩
            rw [List.length_cons, Nat.add_comm earlier.length, ← Nat.add_assoc]
            exact fails

theorem ofNote_tuple (function : String) (items : List Note) :
    (format.Accepts (.tuple items) ∧ ∃ reporter,
        ofNote function (.tuple items) = .ok reporter ∧ reporter.toNote = .tuple items) ∨
      ∃ fault, format.FirstFault (.tuple items) fault ∧
        ofNote function (.tuple items) = .error (.malformedNote function reporterKey fault) := by
  match items with
  | [] => exact .inr ⟨_, Note.Format.firstFault_length rfl, rfl⟩
  | [only] =>
      refine .inr ⟨_, Note.Format.firstFault_length rfl, ?_⟩
      cases only <;> rfl
  | threshold :: callback :: args =>
      have admitted : format.admits (threshold :: callback :: args).length = true := by
        simp [format]
      cases threshold with
      | bool | str | tuple =>
          exact .inr ⟨_, Note.Format.firstFault_entry [] rfl admitted trivial rfl, rfl⟩
      | int threshold =>
          cases callback with
          | bool | str | tuple =>
              exact .inr ⟨_, Note.Format.firstFault_entry [.int threshold] rfl admitted
                ⟨rfl, trivial⟩ rfl, rfl⟩
          | int callback =>
              have read : ofNote function (.tuple (.int threshold :: .int callback :: args)) =
                  (readArgs function 0 args).map (⟨threshold, callback.toUInt64, ·⟩) := rfl
              rcases readArgs_format function 0 args with
                ⟨fits, values, success, written⟩ |
                  ⟨earlier, item, later, fault, split, fits, fails, refused⟩
              · refine .inl ⟨Note.Format.accepts_of_fits admitted ⟨rfl, rfl, fits⟩,
                  ⟨threshold, callback.toUInt64, values⟩, by rw [read, success]; rfl, ?_⟩
                rw [toNote, written, Int64.toInt64_toUInt64]
              · refine .inr ⟨fault, ?_, by rw [read, refused]; rfl⟩
                refine Note.Format.firstFault_entry
                  (.int threshold :: .int callback :: earlier) (by rw [split]; rfl)
                  admitted ⟨rfl, rfl, fits⟩ ?_
                rw [Nat.zero_add, Nat.add_comm] at fails
                exact fails

/-- A note is read exactly if it has the format of reporters, and it is the note of what is
read. -/
theorem ofNote_format (function : String) (note : Note) :
    (format.Accepts note ∧ ∃ reporter,
        ofNote function note = .ok reporter ∧ reporter.toNote = note) ∨
      ∃ fault, format.FirstFault note fault ∧
        ofNote function note = .error (.malformedNote function reporterKey fault) := by
  cases note with
  | int | bool | str => exact .inr ⟨_, Note.Format.firstFault_form nofun, rfl⟩
  | tuple items => exact ofNote_tuple function items

theorem format_decides : format.Decides reporterKey ofNote :=
  Note.Format.decides_of fun function note =>
    (ofNote_format function note).imp
      (fun ⟨accepts, reporter, read, _⟩ => ⟨accepts, reporter, read⟩) id

theorem toNote_of_ofNote {function : String} {note : Note} {reporter : Reporter}
    (read : ofNote function note = .ok reporter) : reporter.toNote = note := by
  rcases ofNote_format function note with ⟨-, reporter', read', written⟩ | ⟨_, -, refused⟩
  · obtain rfl := Except.ok.inj (read.symm.trans read')
    exact written
  · cases read.symm.trans refused

/-- The truth values among the arguments are zero or one. -/
def Plain (reporter : Reporter) : Prop :=
  ∀ arg ∈ reporter.args, arg.scalar = .bit → arg.value = 0 ∨ arg.value = 1

theorem asConstant?_argNote {arg : Constant}
    (plain : arg.scalar = .bit → arg.value = 0 ∨ arg.value = 1) :
    (argNote arg).asConstant? = some arg := by
  obtain ⟨scalar, value⟩ := arg
  cases scalar with
  | word => rfl
  | bit => rcases plain rfl with rfl | rfl <;> rfl

theorem readArgs_argNote (function : String) (index : Nat) {args : List Constant}
    (plain : ∀ arg ∈ args, arg.scalar = .bit → arg.value = 0 ∨ arg.value = 1) :
    readArgs function index (args.map argNote) = .ok args := by
  induction args generalizing index with
  | nil => rfl
  | cons arg rest ih =>
      rw [List.map_cons, readArgs, asConstant?_argNote (plain arg List.mem_cons_self),
        ih (index + 1) fun other mem => plain other (List.mem_cons_of_mem _ mem)]
      rfl

theorem ofNote_toNote (function : String) {reporter : Reporter} (plain : reporter.Plain) :
    ofNote function reporter.toNote = .ok reporter := by
  obtain ⟨threshold, callback, args⟩ := reporter
  have read : ofNote function (toNote ⟨threshold, callback, args⟩) =
      (readArgs function 0 (args.map argNote)).map
        (⟨threshold, callback.toInt64.toUInt64, ·⟩) := rfl
  rw [read, readArgs_argNote function 0 plain, UInt64.toUInt64_toInt64]
  rfl

end Reporter

/-! ## All codes -/

namespace Note

/-- Flags and reporters are read exactly off the notes of their formats, and any other note
is refused for the first thing that is wrong with it.  The note of a reporter that was read
is the one it was read off, and a reporter is read back from its own note if the truth
values among its arguments are zero or one.  Flags are the truth values of the entries,
which stand in their own note again.  A function that has a note of its flags is given those
of the note, whatever the settings force; only one without is given the forced ones. -/
theorem coding_exact :
    (Reporter.format.Decides reporterKey Reporter.ofNote ∧
      (∀ function note reporter, Reporter.ofNote function note = .ok reporter →
        reporter.toNote = note) ∧
      ∀ function (reporter : Reporter), reporter.Plain →
        Reporter.ofNote function reporter.toNote = .ok reporter) ∧
    (Flags.format.Decides flagsKey Flags.ofNote ∧
      ∀ function note flags, Flags.ofNote function note = .ok flags →
        ∃ items, note = .tuple items ∧
          items.map truth = [flags.allocations, flags.branches, flags.calls, flags.feedback] ∧
          flags.toNote = .tuple (items.map fun item => .bool item.truth)) ∧
    ∀ (settings : Settings) (f : Func),
      (∀ note, f.note? flagsKey = some note →
        settings.flagsOf f = Flags.ofNote f.name note) ∧
      (f.note? flagsKey = none → settings.flagsOf f =
        .ok ⟨settings.forceAllocations, settings.forceBranches, settings.forceCalls, false⟩) := by
  refine ⟨⟨Reporter.format_decides, fun _ _ _ => Reporter.toNote_of_ofNote,
    fun function _ => Reporter.ofNote_toNote function⟩,
    ⟨Flags.format_decides, fun _ _ _ => Flags.entries_of_ofNote⟩, fun settings f => ⟨?_, ?_⟩⟩
  · intro note present
    rw [Settings.flagsOf, present]
  · intro absent
    rw [Settings.flagsOf, absent]
    rfl

/-- Truth values are let through as arguments and as flags, and not as call numbers. -/
theorem coding_exact_sample :
    (∃ reporter, Reporter.ofNote "f" (.tuple [.int 3, .int (-1), .bool true, .int 7]) =
        .ok reporter ∧
      reporter.toNote = .tuple [.int 3, .int (-1), .bool true, .int 7]) ∧
    Reporter.ofNote "f" (Reporter.toNote ⟨3, 18446744073709551615, [.bit true, .word 7]⟩) =
      .ok ⟨3, 18446744073709551615, [.bit true, .word 7]⟩ ∧
    Reporter.ofNote "f" (.tuple [.bool true, .str "g"]) =
      .error (.malformedNote "f" reporterKey (.thresholdNotInteger .bool)) ∧
    (∃ flags, Flags.ofNote "f" (.tuple [.bool true, .int 0, .int (-2), .bool false]) =
        .ok flags ∧
      [true, false, true, false] =
        [flags.allocations, flags.branches, flags.calls, flags.feedback]) ∧
    Settings.standard.flagsOf (Func.blank "f") = .ok ⟨false, false, false, false⟩ := by
  obtain ⟨⟨reporters, written, back⟩, ⟨flags, entries⟩, resolved⟩ := coding_exact
  refine ⟨?_, back "f" _ ?_, ?_, ?_, (resolved .standard _).2 rfl⟩
  · obtain ⟨reporter, read⟩ :=
      (reporters.ok_iff "f" (.tuple [.int 3, .int (-1), .bool true, .int 7])).mpr
        (Format.accepts_of_fits rfl ⟨rfl, rfl, rfl, rfl, trivial⟩)
    exact ⟨reporter, read, written _ _ _ read⟩
  · simp [Reporter.Plain, Constant.bit, Constant.word]
  · exact (reporters.error_iff "f" _ _).mpr
      ⟨_, Format.firstFault_entry [] rfl rfl trivial rfl, rfl⟩
  · obtain ⟨values, read⟩ :=
      (flags.ok_iff "f" (.tuple [.bool true, .int 0, .int (-2), .bool false])).mpr
        (Format.accepts_of_fits rfl ⟨rfl, rfl, rfl, rfl, trivial⟩)
    obtain ⟨items, shape, same, -⟩ := entries _ _ _ read
    cases shape
    exact ⟨values, read, same⟩

end Note

end FlowProfile
