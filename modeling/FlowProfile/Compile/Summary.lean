/-
Summaries of a pipeline

One line that shows how a pipeline is set up: whether it has a store, all its settings,
and its optimizer.
-/

import FlowProfile.Compile.Pipeline

namespace FlowProfile

/-- Named parts of something, in braces after its own name. -/
def summaryOf (name : String) (parts : List (String × String)) : String :=
  name ++ " \x7b " ++ Text.separated (parts.map fun part => part.1 ++ ": " ++ part.2) ++ " \x7d"

/-- One line about the way allocation calls are recognized. -/
def AllocSymbols.summary (symbols : AllocSymbols) : String :=
  summaryOf "AllocSymbols"
    [("preopt_symbol", Text.quoted symbols.request),
      ("postopt_fragments", "[" ++ Text.separated (symbols.fragments.map Text.quoted) ++ "]"),
      ("size_arg", toString symbols.sizeArg)]

/-- One line about settings. -/
def Settings.summary (settings : Settings) : String :=
  summaryOf "ProfilerConfig"
    [("force_profile_allocations", toString settings.forceAllocations),
      ("force_profile_calls", toString settings.forceCalls),
      ("force_profile_branches", toString settings.forceBranches),
      ("alloc", settings.alloc.summary),
      ("dump_path", settings.dumpPath.elim "None" fun path =>
        "Some(" ++ Text.quoted path ++ ")")]

/-- One line about a pipeline. -/
def Pipeline.summary (pipeline : Pipeline) (profiled : Bool) : String :=
  summaryOf "JitPipeline"
    [("profiled", toString profiled),
      ("config", pipeline.settings.summary),
      ("optimizer", Text.quoted pipeline.optimizer.name)]

end FlowProfile
