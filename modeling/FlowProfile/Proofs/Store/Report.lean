/-
# Reports are read back

A report is read back from its text exactly as it was written, whatever the names and the
counts of its rows are.  What a row leaves out when it is written is what reading puts
there: no calls, no loops, no branches and no allocations.  The text stands on one line,
so that a report that is handed out is a single line, and different reports are never the
same text.
-/

import FlowProfile.Profile.Report
import FlowProfile.Proofs.Json.Records

namespace FlowProfile

open Json (present)

namespace AllocVolume

/-- What is given of a volume. -/
def given (volume : AllocVolume) : List (String × Option Json) :=
  [("Size", some (.nat volume.size.toNat)), ("Count", some (.nat volume.count.toNat))]

theorem names_given (volume : AllocVolume) : volume.given.map Prod.fst = fieldNames := rfl

theorem toJson_eq (volume : AllocVolume) : volume.toJson = .obj (present volume.given) := rfl

theorem plain_toJson (volume : AllocVolume) : volume.toJson.Plain := by
  simp [toJson, Json.Plain, Json.PlainFields]

theorem ofJson?_toJson (volume : AllocVolume) : ofJson? volume.toJson = some volume := by
  have read := Json.record_present volume.names_given (by decide) true
  rw [ofJson?, toJson_eq, read]
  simp [given, Json.required, Json.asWord?_nat]

end AllocVolume

namespace BranchCount

/-- What is given of a branch. -/
def given (branch : BranchCount) : List (String × Option Json) :=
  [("Idx", some (.nat branch.slot.toNat)), ("Taken", some (.nat branch.taken.toNat)),
    ("Total", some (.nat branch.total.toNat))]

theorem names_given (branch : BranchCount) : branch.given.map Prod.fst = fieldNames := rfl

theorem toJson_eq (branch : BranchCount) : branch.toJson = .obj (present branch.given) := rfl

theorem plain_toJson (branch : BranchCount) : branch.toJson.Plain := by
  simp [toJson, Json.Plain, Json.PlainFields]

theorem ofJson?_toJson (branch : BranchCount) : ofJson? branch.toJson = some branch := by
  have read := Json.record_present branch.names_given (by decide) true
  rw [ofJson?, toJson_eq, read]
  simp [given, Json.required, Json.asWord?_nat]

end BranchCount

namespace ReportRow

/-- A number that is given unless it is zero. -/
def countGiven (count : UInt64) : Option Json :=
  if count = 0 then none else some (.nat count.toNat)

/-- Allocations that are given if there are any. -/
def allocsGiven (allocs : Option (AllocVolume × AllocVolume)) : Option Json :=
  allocs.map fun (before, after) => .arr [before.toJson, after.toJson]

/-- Branches that are given if there are any. -/
def branchesGiven (branches : List BranchCount) : Option Json :=
  if branches = [] then none else some (.arr (branches.map BranchCount.toJson))

/-- What is given of a row. -/
def given (row : ReportRow) : List (String × Option Json) :=
  [("Name", some (.str (some row.name))), ("Calls", countGiven row.calls),
    ("Allocs", allocsGiven row.allocs), ("Branches", branchesGiven row.branches),
    ("Loops", countGiven row.loops), ("BBs", some (.nat row.blocks.toNat)),
    ("Insts", some (.nat row.instrs.toNat))]

theorem countField_eq (name : String) (count : UInt64) :
    countField name count = ((countGiven count).map (some name, ·)).toList := by
  unfold countField countGiven
  split <;> rfl

theorem names_given (row : ReportRow) : row.given.map Prod.fst = fieldNames := rfl

/-- The record of a row has the fields that are given. -/
theorem toJson_eq (row : ReportRow) : row.toJson = .obj (present row.given) := by
  cases allocs : row.allocs <;> cases branches : row.branches <;>
    simp [toJson, given, countField_eq, allocs, branches, allocsGiven, branchesGiven,
      Json.present_cons]

theorem optional_countGiven (count : UInt64) :
    Json.optional 0 Json.asWord? (countGiven count) = some count := by
  unfold countGiven
  split
  · next zero => rw [zero]; rfl
  · exact Json.asWord?_nat count

theorem optional_allocsGiven (allocs : Option (AllocVolume × AllocVolume)) :
    Json.optional none (Json.asNullable? AllocVolume.pairOfJson?) (allocsGiven allocs) =
      some allocs := by
  cases allocs with
  | none => rfl
  | some pair =>
      simp [allocsGiven, Json.optional, Json.asNullable?, AllocVolume.pairOfJson?,
        AllocVolume.ofJson?_toJson]

theorem optional_branchesGiven (branches : List BranchCount) :
    Json.optional [] (Json.asList? BranchCount.ofJson?) (branchesGiven branches) =
      some branches := by
  unfold branchesGiven
  split
  · next none => rw [none]; rfl
  · exact Json.asList?_map fun branch _ => branch.ofJson?_toJson

/-- A row is read back from its record, with all that the record leaves out. -/
theorem ofJson?_toJson (row : ReportRow) : ofJson? row.toJson = some row := by
  have read := Json.record_present row.names_given (by decide) true
  rw [ofJson?, toJson_eq, read]
  simp [given, Json.required, Json.asWord?_nat, Json.asText?, optional_countGiven,
    optional_allocsGiven, optional_branchesGiven]

theorem plain_countGiven (count : UInt64) : ∀ value ∈ countGiven count, value.Plain := by
  unfold countGiven
  split
  · exact nofun
  · rintro _ ⟨⟩
    exact trivial

theorem plain_allocsGiven (allocs : Option (AllocVolume × AllocVolume)) :
    ∀ value ∈ allocsGiven allocs, value.Plain := by
  cases allocs with
  | none => exact nofun
  | some pair =>
      rintro _ ⟨⟩
      exact ⟨pair.1.plain_toJson, pair.2.plain_toJson, trivial⟩

theorem plain_branchesGiven (branches : List BranchCount) :
    ∀ value ∈ branchesGiven branches, value.Plain := by
  unfold branchesGiven
  split
  · exact nofun
  · rintro _ ⟨⟩
    refine Json.plainItems_iff.mpr fun item mem => ?_
    obtain ⟨branch, -, rfl⟩ := List.mem_map.mp mem
    exact branch.plain_toJson

theorem plain_toJson (row : ReportRow) : row.toJson.Plain := by
  rw [toJson_eq]
  refine Json.plain_present ?_
  simp only [given, List.forall_mem_cons]
  exact ⟨by simp [Json.Plain], plain_countGiven _, plain_allocsGiven _, plain_branchesGiven _,
    plain_countGiven _, by simp [Json.Plain], by simp [Json.Plain], List.forall_mem_nil _⟩

end ReportRow

namespace Report

theorem plain_rows (report : Report) : (Json.arr (report.map ReportRow.toJson)).Plain := by
  refine Json.plainItems_iff.mpr fun item mem => ?_
  obtain ⟨row, -, rfl⟩ := List.mem_map.mp mem
  exact row.plain_toJson

theorem asList?_rows (report : Report) :
    Json.asList? ReportRow.ofJson? (.arr (report.map ReportRow.toJson)) = some report :=
  Json.asList?_map fun row _ => row.ofJson?_toJson

/-- A report is read back from its text. -/
theorem ofText_text (report : Report) : ofText report.text = .ok report := by
  rw [ofText, text, Json.ofText?_text report.plain_rows, Option.bind_some, asList?_rows]

/-- A report is read back from the line on which it is handed out. -/
theorem ofText_dump (report : Report) : ofText report.dump = .ok report := by
  rw [ofText, dump, text, Json.ofText?_line report.plain_rows, Option.bind_some, asList?_rows]

/-- The text of a report stands on one line. -/
theorem newline_notMem_text (report : Report) : '\n' ∉ report.text.toList := by
  intro mem
  rw [text, Json.text, String.toList_ofList] at mem
  exact absurd (Json.printable_chars _ report.plain_rows _ mem) (by decide)

theorem dump_injective : Function.Injective dump := by
  intro first second same
  have read := ofText_dump first
  rw [same, ofText_dump] at read
  exact (Except.ok.inj read).symm

/-- The sink keeps what it takes, in the order in which it is written. -/
def Keeps {Sink : Type} (write : Sink → String → Except Error Sink) (contents : Sink → String) :
    Prop :=
  ∀ sink more after, write sink more = .ok after → contents after = contents sink ++ more

theorem keeps_append : Keeps append id := by
  rintro written more _ ⟨⟩
  rfl

/-- A sink that has taken a report has taken one line. -/
theorem contents_writeTo {Sink : Type} {write : Sink → String → Except Error Sink}
    {contents : Sink → String} (keeps : Keeps write contents) {sink after : Sink}
    {report : Report} (taken : report.writeTo write sink = .ok after) :
    contents after = contents sink ++ report.dump := by
  unfold writeTo at taken
  cases first : write sink report.text with
  | error error =>
      rw [first] at taken
      cases taken
  | ok middle =>
      rw [first] at taken
      rw [keeps _ _ _ taken, keeps _ _ _ first, dump, String.append_assoc]

theorem writeTo_append (written : String) (report : Report) :
    report.writeTo append written = .ok (written ++ report.dump) := by
  simp only [writeTo, append, bind, Except.bind, dump, String.append_assoc]

theorem dumpToFile_opened (report : Report) : report.dumpToFile (.ok ()) = .ok report.dump := by
  have written := writeTo_append "" report
  rw [String.empty_append] at written
  exact written

end Report

namespace Sample

/-- A name with characters that must be escaped and others that must not be, and counts of all
kinds. -/
def rows : Report :=
  [⟨"say \"Grüß\\\x01dich\"\n", 0, some (⟨8, 1⟩, ⟨0, 0⟩), [⟨1, 2, 18446744073709551615⟩], 0, 3, 4⟩,
    ⟨"", 7, none, [], 1, 0, 0⟩]

/-- A store that has met one function. -/
def known : Store :=
  (Store.empty "store").put "f" ⟨⟨1, 4, 12⟩, .unsized⟩

end Sample

namespace Report

/-- Every report is read back from its text exactly. The text has no line end in it, and so
each way to hand a report out gives one line. Stores with different reports are never
handed out alike, and whatever is accepted as a report means the same after it was written
and read once more. -/
theorem report_round_trip :
    (∀ report : Report, ofText report.text = .ok report) ∧
      (∀ report : Report, '\n' ∉ report.text.toList ∧
        report.dump = report.text ++ "\n" ∧
        report.dumpToFile (.ok ()) = .ok (report.text ++ "\n") ∧
        (∀ written, report.writeTo append written = .ok (written ++ report.text ++ "\n")) ∧
        ∀ (Sink : Type) (write : Sink → String → Except Error Sink) (contents : Sink → String),
          Keeps write contents → ∀ sink after, report.writeTo write sink = .ok after →
            contents after = contents sink ++ report.text ++ "\n") ∧
      (∀ store counters store' counters',
        ofStore store counters ≠ ofStore store' counters' →
          (ofStore store counters).dump ≠ (ofStore store' counters').dump) ∧
      ∀ text report, ofText text = .ok report → ofText report.text = .ok report := by
  refine ⟨ofText_text, fun report => ⟨report.newline_notMem_text, rfl,
    report.dumpToFile_opened, fun written => ?_, fun Sink write contents keeps sink after taken => ?_⟩,
    fun _ _ _ _ apart same => apart (dump_injective same), fun _ report _ => ofText_text report⟩
  · rw [writeTo_append, dump, String.append_assoc]
  · rw [contents_writeTo keeps taken, dump, String.append_assoc]

theorem report_round_trip_rows :
    ofText Sample.rows.text = .ok Sample.rows ∧
      (ofStore (.empty "store") .zero).dump ≠ (ofStore Sample.known .zero).dump ∧
      ofText (text []) = .ok [] ∧
      ∀ after, Sample.rows.writeTo append "earlier\n" = .ok after →
        after = "earlier\n" ++ Sample.rows.text ++ "\n" := by
  obtain ⟨back, line, apart, again⟩ := report_round_trip
  obtain ⟨-, -, -, -, taken⟩ := line Sample.rows
  exact ⟨back Sample.rows, apart _ _ _ _ (by decide), again "[]" [] (by decide),
    fun after => taken String append id keeps_append "earlier\n" after⟩

end Report

end FlowProfile
