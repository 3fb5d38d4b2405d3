/-
The program

It compiles the sample workload, runs it, and reports what was counted; it may print the
code, and compile the workload once more with the counts fed back. What it writes is a
function of its command line, the environment, the inputs of the workload, and what comes
of opening files.

Counters have no names in the printed code: they appear as c0, c1 and so on, in the order
in which the whole output first mentions them.
-/

import FlowProfile.CommandLine.FileSystem
import FlowProfile.CommandLine.Options
import FlowProfile.CommandLine.Workload
import FlowProfile.Compile.Pipeline
import FlowProfile.Func.Printer
import FlowProfile.Profile.Report
import FlowProfile.Run.Machine
import FlowProfile.Settings.Variables

namespace FlowProfile

/-- The version of the program. -/
def version : String := "0.1.0"

namespace Program

/-- What the program depends on besides its command line. `opening` tells what comes of
opening a path for writing, and `room` whether so many threads can be had at once. -/
structure Surroundings where
  environment : List (String × String)
  input : Nat → List Int64 → Int64
  opening : String → Opening
  room : Nat → Bool

/-- What the program leaves behind. -/
structure Transcript where
  code : Nat
  output : String
  file : Option (String × String)
  report : Option String
  deriving DecidableEq

/-- A part of the output. -/
inductive Piece
  | text (text : String)
  | code (func : Func)

/-- The counters that the output mentions, in order and each once. -/
def mentioned (pieces : List Piece) : List Counter :=
  (pieces.flatMap fun piece =>
    match piece with
    | .text _ => []
    | .code func => func.counters).eraseDups

/-- The label of a counter in an output that mentions the given ones. -/
def label (mentioned : List Counter) (counter : Counter) : String :=
  "c" ++ toString (mentioned.idxOf counter)

/-- The whole output. -/
def render (pieces : List Piece) : String :=
  String.join (pieces.map fun piece =>
    match piece with
    | .text text => text
    | .code func => func.text (label (mentioned pieces)))

/-- A text with every line moved in by four places. -/
def indented (text : String) : String :=
  "    " ++ String.ofList (text.toList.flatMap fun c =>
    if c = '\n' then ['\n', ' ', ' ', ' ', ' '] else [c])

/-- The report of a failure: its message, and its cause if that is something else. -/
def failureReport (message : String) (cause : Option String) : String :=
  "Error: " ++ message ++
    match cause with
    | some cause => "\n\nCaused by:\n" ++ indented cause
    | none => ""

/-- The end of a program that succeeds. -/
def success (pieces : List Piece) (file : Option (String × String)) : Transcript :=
  ⟨0, render pieces, file, none⟩

/-- The end of a program that fails. -/
def failure (pieces : List Piece) (file : Option (String × String)) (message : String)
    (cause : Option String) : Transcript :=
  ⟨1, render pieces, file, some (failureReport message cause)⟩

/-- The end of a program that cannot have the threads it asks for: it breaks off, without a
word in a report. -/
def breakdown (pieces : List Piece) : Transcript :=
  ⟨101, render pieces, none, none⟩

/-- The flags that the command line puts on the workload, if it names any. -/
def notedFlags (options : Options) : Option Flags :=
  let flags : Flags :=
    ⟨options.profileAllocations, options.profileBranches, options.profileCalls, false⟩
  if flags.isEmpty then none else some flags

/-- The settings: those of the environment, and what the command line adds to them. -/
def settingsOf (options : Options) (environment : List (String × String)) :
    Except Error Settings :=
  (Settings.ofVariables environment).map fun settings =>
    { settings with
      forceCalls := settings.forceCalls || options.forceCalls
      forceBranches := settings.forceBranches || options.forceBranches
      forceAllocations := settings.forceAllocations || options.forceAllocations
      dumpPath := options.dump.orElse fun _ => settings.dumpPath }

/-- The flags of the workload when the counts are fed back. -/
def feedbackFlags (options : Options) (settings : Settings) : Flags :=
  { (notedFlags options).getD settings.forced with feedback := true }

/-- The last part: compile the workload again with the counts fed back, if that is asked
for. -/
def recompile (options : Options) (pipeline : Pipeline) (counters : Counters)
    (store : Option Store) (pieces : List Piece) (file : Option (String × String)) :
    Transcript :=
  if options.applyFeedback then
    match Workload.build (some (feedbackFlags options pipeline.settings)) none with
    | .error error => failure pieces file error.message none
    | .ok again =>
        let (_, compilation) := pipeline.compile counters store again
        match compilation.result with
        | .error error =>
            failure pieces file ("recompiling `" ++ compilation.func.name ++ "` with profile")
              (some error.message)
        | .ok _ => success (pieces ++ [.code compilation.func]) file
  else success pieces file

/-- The report of the store, as the options want it. -/
def dumped (options : Options) (store : Option Store) (counters : Counters) : String :=
  let report : Report := store.elim [] fun store => Report.ofStore store counters
  Report.dump (if options.activeOnly then Report.active report else report)

/-- The part after the runs: hand in the report of the store, and go on. -/
def handIn (options : Options) (around : Surroundings) (pipeline : Pipeline)
    (counters : Counters) (store : Option Store) (pieces : List Piece) : Transcript :=
  let text := dumped options store counters
  let goOn := recompile options pipeline counters store
  match pipeline.settings.dumpPath with
  | none => goOn (pieces ++ [.text text]) none
  | some path =>
      match around.opening path with
      | .file => goOn pieces (some (path, text))
      | .output => goOn (pieces ++ [.text text]) none
      | .full reason => failure pieces none reason none
      | .refused reason => failure pieces none ("creating " ++ path) (some reason)

/-- The part from the compiled workload on: run it, and hand in what was counted. -/
def work (options : Options) (around : Surroundings) (pipeline : Pipeline) (store : Option Store)
    (compiled : Func) : Transcript :=
  let pieces := if options.printCode then [Piece.code compiled] else []
  if around.room options.threads then
    let runs := options.threads * options.iterations
    let world : World := ⟨.zero, Workload.host around.input⟩
    match Machine.runAll compiled Machine.standardLimit [options.tripCount] runs world with
    | (.error error, _) => failure pieces none "executing workload" (some error.message)
    | (.ok (), world) => handIn options around pipeline world.counters store pieces
  else breakdown pieces

/-- The program after its command line was read. -/
def execute (options : Options) (around : Surroundings) : Transcript :=
  match settingsOf options around.environment with
  | .error error => failure [] none "reading profiler environment" (some error.message)
  | .ok settings =>
      let pipeline : Pipeline := ⟨settings, Lowering.standard.optimizer⟩
      match Workload.build (notedFlags options) options.reporterThreshold with
      | .error error => failure [] none error.message none
      | .ok workload =>
          let (store, compilation) := pipeline.compile .zero (some (.empty "store")) workload
          match compilation.result with
          | .error error =>
              failure [] none ("compiling `" ++ compilation.func.name ++ "`")
                (some error.message)
          | .ok _ => work options around pipeline store compilation.func

/-- What the program says about itself when it is asked for help. -/
def help : String :=
  "Profile a sample JIT workload\n\nUsage: jitprof [OPTIONS]\n"

/-- The program from its command line on. A command line that is wrong is answered by the
code two alone. -/
def run (arguments : List String) (around : Surroundings) : Transcript :=
  match Options.parse arguments with
  | .error .misuse => ⟨2, "", none, none⟩
  | .error .version => ⟨0, "jitprof " ++ version ++ "\n", none, none⟩
  | .error .help => ⟨0, help, none, none⟩
  | .ok options => execute options around

end Program

end FlowProfile
