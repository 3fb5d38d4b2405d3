/-
# The report of the sample workload

What the program reports is a closed form of its options: of the flags in force, the number
of runs, and the number of trips in each.  Only the number of odd inputs is up to their
source.  This holds however the runs take turns, and in particular when they are made one
after another, if no run is cut off and the counts of the branches fit into counters.  The size
of what was allocated is told as far as a counter goes.

What is said of the output is said of its text.  The text that is handed in is read back as
the report, and the counts that are fed back stand in the printed code, in its first line and
in the last line of the header.  Without weights a branch is printed as before, and so nothing
is said of weights where there was no run.
-/

import FlowProfile.Proofs.CommandLine.Compiling
import FlowProfile.Proofs.Store.Report

namespace FlowProfile

namespace Workload

/-- The row of the workload after so many runs of so many trips each, with so many odd
inputs in all. -/
def row (flags : Flags) (runs trips odd : Nat) : ReportRow :=
  let requests := runs * trips
  let volume : AllocVolume := ⟨(48 * requests).toUInt64, requests.toUInt64⟩
  { name
    calls := if flags.calls then runs.toUInt64 else 0
    allocs := if flags.allocations ∧ 0 < requests then some (volume, volume) else none
    branches :=
      if flags.branches then
        [⟨1, requests.toUInt64, (runs * (trips + 1)).toUInt64⟩,
          ⟨2, odd.toUInt64, requests.toUInt64⟩]
      else []
    loops := 1
    blocks := 7
    instrs := 14 }

/-- The report: there is a row if any flag is set. -/
def report (flags : Flags) (runs trips odd : Nat) : Report :=
  if flags.isEmpty then [] else [row flags runs trips odd]

/-- The code of the workload after the counts of so many runs were fed back: how often it
was entered, and how often each way out of the header was taken.  In the text, whatever the
counters are called there, this is in the first line and in the last one of the header. -/
structure Fed (flags : Flags) (runs trips : Nat) (g : Func) : Prop where
  entryCount_eq : g.entryCount = some (if flags.calls then runs.toUInt64 else 0)
  headLine_eq : ∀ label, ∃ rest, g.text label = "fn @workload(%0) !function_entry_count(" ++
    toString (if flags.calls then runs else 0) ++ ") \x7b\n" ++ rest
  weighted : flags.branches = true → 0 < runs → ∃ header, g.block? 1 = some header ∧
    header.terminator =
      .branch (.value 4) ⟨2, []⟩ ⟨6, []⟩ (some ⟨(runs * trips).toUInt64, runs.toUInt64⟩) ∧
    ∀ label, ∃ before after, g.text label = before ++ ".1(%1, %2):\n" ++
      Text.lines (header.instrs.map fun instr => "  " ++ instr.text label) ++
      "  condbr %4, bb2(), bb6() !branch_weights(" ++ toString (runs * trips) ++ ", " ++
      toString runs ++ ")\n" ++ after

end Workload

namespace Program

/-- The text of some of the functions that an output prints, one after another. -/
def codes (printed some : List Func) : String :=
  String.join (some.map (Func.text (label (printed.flatMap Func.counters).eraseDups)))

/-- What the program leaves behind that prints some code, hands in a text, and prints some more
code in the end.  The text goes to the output, unless a path is named that is not the output: it
is then in the file, and if there can be none the program fails. -/
inductive Leaves (around : Surroundings) (first : List Func) (text : String) (last : List Func) :
    Option String → Transcript → Prop
  | printed : Leaves around first text last none
      ⟨0, codes (first ++ last) first ++ text ++ codes (first ++ last) last, none, none⟩
  | output {path : String} (opened : around.opening path = .output) :
      Leaves around first text last (some path)
        ⟨0, codes (first ++ last) first ++ text ++ codes (first ++ last) last, none, none⟩
  | file {path : String} (opened : around.opening path = .file) :
      Leaves around first text last (some path)
        ⟨0, codes (first ++ last) first ++ codes (first ++ last) last, some (path, text), none⟩
  | full {path reason : String} (opened : around.opening path = .full reason) :
      Leaves around first text last (some path)
        ⟨1, codes first first, none, some ("Error: " ++ reason)⟩
  | refused {path reason : String} (opened : around.opening path = .refused reason) :
      Leaves around first text last (some path)
        ⟨1, codes first first, none,
          some ("Error: creating " ++ path ++ "\n\nCaused by:\n" ++ indented reason)⟩

end Program

/-! ## Lines of code -/

/-- The text of a function begins with its first line. -/
theorem Func.text_eq_headLine (label : Counter → String) (g : Func) :
    ∃ rest, g.text label = g.headLine ++ "\n" ++ rest :=
  ⟨_, rfl⟩

/-- The text of a function has the lines of each of its blocks in it. -/
theorem Func.text_eq_around {g : Func} {id : BlockId} {block : Block}
    (found : g.block? id = some block) (label : Counter → String) :
    ∃ before after, g.text label = before ++ Text.lines (block.lines label id) ++ after := by
  have listed : (block, id) ∈ g.blocks.toList.zipIdx := by
    rw [List.mem_zipIdx_iff_getElem?, Array.getElem?_toList]
    exact found
  obtain ⟨earlier, later, split⟩ := List.append_of_mem listed
  refine ⟨Text.lines (g.headLine :: g.notes.entries.map noteLine ++
      earlier.flatMap fun (block, id) => block.lines label id),
    Text.lines ((later.flatMap fun (block, id) => block.lines label id) ++ ["\x7d"]), ?_⟩
  rw [text, lines, split, List.flatMap_append, List.flatMap_cons]
  simp only [← Text.lines_append, List.append_assoc]

/-- The lines of a block end with its terminator. -/
theorem Block.lines_eq (label : Counter → String) (id : BlockId) (block : Block) :
    Text.lines (block.lines label id) =
      block.name.getD "bb" ++ "." ++ toString id ++ "(" ++ ValueId.texts block.params ++ "):" ++
        "\n" ++ Text.lines (block.instrs.map fun instr => "  " ++ instr.text label) ++
        ("  " ++ block.terminator.text ++ "\n") := by
  rw [lines, List.cons_append, Text.lines, Text.lines_append, Text.lines, Text.lines,
    String.append_empty]
  simp only [String.append_assoc]

namespace Workload

section

variable {source : Nat → List Int64 → Int64} {flags : Flags} {runs trips : Nat} {world : World}
  {store : Store} {settings : Settings}

/-- A store with the profile of the workload, if any flag is set. -/
structure Profiled (flags : Flags) (store : Store) : Prop where
  name_eq : store.name = "store"
  entries_eq : store.profiles.entries =
    if flags.isEmpty then [] else [(name, ⟨⟨1, 7, 14⟩, slots flags⟩)]

theorem Profiled.counter_eq (profiled : Profiled flags store) :
    store.counter name = (weave flags).counter := by
  funext measure
  rw [Store.counter, profiled.name_eq]
  rfl

theorem Profiled.slotsOf_eq (profiled : Profiled flags store) :
    store.slotsOf name = if flags.isEmpty then .unsized else slots flags := by
  rw [Store.slotsOf, Store.profile?, Table.get?, profiled.entries_eq]
  cases flags.isEmpty with
  | true => rfl
  | false => simp

/-- The slots of the workload serve it again. -/
theorem Profiled.fits (profiled : Profiled flags store) :
    (store.slotsOf name).fits 7 = true := by
  rw [profiled.slotsOf_eq, slots]
  cases flags.isEmpty <;> cases flags.branches <;> rfl

/-- The weights that the counts of the header amount to. -/
theorem Finished.weights_eq (finished : Finished source flags runs trips world)
    (profiled : Profiled flags store) (few : runs * trips + runs < UInt64.size)
    (on : flags.branches = true) (ran : 0 < runs) {slots : Slots} (populated : slots.has 1 = true) :
    Feedback.weights? world.counters (store.counter name) slots 1 =
      some ⟨(runs * trips).toUInt64, runs.toUInt64⟩ := by
  have total := finished.read_eq (.total 1)
  have taken := finished.read_eq (.taken 1)
  simp only [Score.amount, Score.whole, on, if_true] at total taken
  rw [← profiled.counter_eq] at total taken
  rw [Nat.mul_succ] at total
  rw [Feedback.weights?_of_counts few populated total taken, if_neg (by omega)]

/-- The first line of the workload's code, once it is known how often it was entered. -/
theorem text_of_entryCount {g : Func} (name_eq : g.name = name) (params_eq : g.params = [0])
    {calls : Nat} (few : calls < UInt64.size) (entryCount_eq : g.entryCount = some calls.toUInt64)
    (label : Counter → String) :
    ∃ rest, g.text label =
      "fn @workload(%0) !function_entry_count(" ++ toString calls ++ ") \x7b\n" ++ rest := by
  have front : "fn @" ++ name ++ "(" ++ ValueId.texts [0] ++ ")" ++ " !function_entry_count(" =
      "fn @workload(%0) !function_entry_count(" := by decide +kernel
  have back : ")" ++ " \x7b" ++ "\n" = ") \x7b\n" := by decide +kernel
  have number : calls.toUInt64.toNat = calls := UInt64.toNat_ofNat_of_lt' few
  obtain ⟨rest, text_eq⟩ := g.text_eq_headLine label
  refine ⟨rest, ?_⟩
  rw [text_eq, Func.headLine, name_eq, params_eq, entryCount_eq]
  simp only [number, ← front, ← back, String.append_assoc]

/-- The last line of the header, once it is known how often each way out was taken. -/
theorem text_of_weights {taken passed : Nat} (few : taken < UInt64.size)
    (few' : passed < UInt64.size) :
    (Terminator.branch (.value 4) ⟨2, []⟩ ⟨6, []⟩
        (some ⟨taken.toUInt64, passed.toUInt64⟩)).text =
      "condbr %4, bb2(), bb6() !branch_weights(" ++ toString taken ++ ", " ++ toString passed ++
        ")" := by
  have front : "condbr " ++ (Operand.value 4).text ++ ", " ++ (Edge.mk 2 []).text ++ ", " ++
      (Edge.mk 6 []).text ++ (" " ++ "!branch_weights(") =
        "condbr %4, bb2(), bb6() !branch_weights(" := by decide +kernel
  have first : taken.toUInt64.toNat = taken := UInt64.toNat_ofNat_of_lt' few
  have second : passed.toUInt64.toNat = passed := UInt64.toNat_ofNat_of_lt' few'
  unfold Terminator.text Weights.text
  simp only
  rw [first, second]
  simp only [← front, String.append_assoc]

/-- The header in the text, once it is known how often each way out of it was taken. -/
theorem text_of_header {g : Func} {header : Block} (found : g.block? 1 = some header)
    (params_eq : header.params = [1, 2]) {taken passed : Nat}
    (flow : header.terminator = .branch (.value 4) ⟨2, []⟩ ⟨6, []⟩
      (some ⟨taken.toUInt64, passed.toUInt64⟩))
    (few : taken < UInt64.size) (few' : passed < UInt64.size) (label : Counter → String) :
    ∃ before after, g.text label = before ++ ".1(%1, %2):\n" ++
      Text.lines (header.instrs.map fun instr => "  " ++ instr.text label) ++
      "  condbr %4, bb2(), bb6() !branch_weights(" ++ toString taken ++ ", " ++
      toString passed ++ ")\n" ++ after := by
  obtain ⟨before, after, text_eq⟩ := Func.text_eq_around found label
  refine ⟨before ++ header.name.getD "bb", after, ?_⟩
  have place : "." ++ toString 1 ++ "(" ++ ValueId.texts [1, 2] ++ "):" ++ "\n" =
      ".1(%1, %2):\n" := by decide +kernel
  have front : "  " ++ "condbr %4, bb2(), bb6() !branch_weights(" =
      "  condbr %4, bb2(), bb6() !branch_weights(" := by decide +kernel
  have back : ")" ++ "\n" = ")\n" := by decide +kernel
  rw [text_eq, Block.lines_eq, flow, text_of_weights few few', params_eq]
  simp only [← place, ← front, ← back, String.append_assoc]

/-- Compiled again with feedback, the workload has the counts in its code. -/
theorem Finished.fed (finished : Finished source flags runs trips world)
    (profiled : Profiled flags store) (standard : settings.alloc = .standard)
    (few : runs * (trips + 1) < UInt64.size) :
    ∃ store' g events summary,
      (⟨settings, Lowering.standard.optimizer⟩ : Pipeline).compile world.counters (some store)
          (func (some { flags with feedback := true }) none) =
        (some store', ⟨g, events, .ok summary⟩) ∧ Fed flags runs trips g := by
  generalize noted : some { flags with feedback := true } = again
  obtain ⟨store', g, events, summary, compiled⟩ :=
    compile_func again none standard world.counters profiled.fits
  have read := flagsOf_func again none settings
  rw [← noted, Option.getD_some, noted] at read
  have unasked : Probe.After.reporterOf { flags with feedback := true } (func again none) =
      .ok none := by
    rw [reporterOf_func]
    split <;> rfl
  have marks : Feedback.Marks (func again none)
      (Feedback.weights? world.counters (store.counter name) (store'.slotsOf name))
      (world.counters.read (store.counter name .calls)) g :=
    Pipeline.marks_compile (Program.shipped settings) read rfl unasked compiled
  obtain ⟨flags', _, _, stored, compiles⟩ :=
    Pipeline.compiles_of_compile (Program.shipped settings) wellFormed_func compiled
  obtain rfl := Option.some.inj stored
  obtain rfl := Except.ok.inj (read.symm.trans compiles.flags_eq)
  obtain ⟨next, isWoven⟩ := compiles.isWoven
  rw [Nat.mul_succ] at few
  have entryCount_eq : g.entryCount = some (if flags.calls then runs else 0).toUInt64 := by
    rw [marks.entryCount_eq, profiled.counter_eq, finished.read_eq]
    cases on : flags.calls <;> simp only [Score.amount, Score.whole, on] <;> rfl
  have fewCalls : (if flags.calls then runs else 0) < UInt64.size := by
    split <;> omega
  refine ⟨store', g, events, summary, compiled, ?_, ?_, fun on ran => ?_⟩
  · rw [entryCount_eq]
    cases flags.calls <;> rfl
  · exact text_of_entryCount isWoven.name_eq isWoven.params_eq fewCalls entryCount_eq
  · have slots_eq : store'.slotsOf name =
        Probe.branchSlots (store.slotsOf name) (func again none) :=
      compiles.leaves.slots_eq.trans (if_pos on)
    have populated : (store'.slotsOf name).has 1 = true := by
      rw [slots_eq]
      exact (Probe.has_branchSlots profiled.fits 1).mpr (.inr ⟨_, rfl, rfl⟩)
    obtain ⟨header, found, flow⟩ := marks.images 1 _ rfl
    rw [finished.weights_eq profiled few on ran populated] at flow
    have params_eq : header.params = [1, 2] := by
      obtain ⟨image, there, params_eq, -⟩ := isWoven.inner 1 _ (by decide) rfl
      rw [found] at there
      cases there
      exact params_eq
    exact ⟨header, found, flow,
      text_of_header found params_eq flow (by omega) (by omega)⟩

end

end Workload

namespace Program

/-! ## The output -/

section

variable {options : Options} {around : Surroundings} {settings : Settings} {world : World}
  {store : Store}

end

namespace Sample

/-- Everything is counted and fed back, in two runs of one trip each. -/
def options : Options :=
  { profileCalls := true
    profileBranches := true
    profileAllocations := true
    applyFeedback := true
    threads := 2
    iterations := 1
    tripCount := 1 }

/-- The inputs are the numbers of their calls, from zero on, and there is room for two threads
and no more. -/
def surroundings : Surroundings :=
  ⟨[], fun call _ => call.toInt64, fun _ => .file, fun threads => threads ≤ 2⟩

/-- What the program makes of the workload. -/
def compiled : Func :=
  ((⟨.standard, Lowering.standard.optimizer⟩ : Pipeline).compile .zero (some (.empty "store"))
    (Workload.func (notedFlags options) none)).2.func

end Sample

end Program

end FlowProfile
