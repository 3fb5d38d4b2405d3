/-
Settings

How allocation calls are recognized, which counters are forced on functions without an
note of their own, and where a report goes. Feedback is never forced.
-/

import FlowProfile.Profile.Flags
import FlowProfile.Text.Fragment

namespace FlowProfile

/-- How calls of allocators are recognized: by the exact name of the request before the
optimizer has run, by a fragment of the allocator's name afterwards. -/
structure AllocSymbols where
  request : String
  fragments : List String
  sizeArg : Nat
  deriving DecidableEq

namespace AllocSymbols

/-- The names in use unless the settings say otherwise. -/
def standard : AllocSymbols :=
  ⟨"jit.gc_alloc_obj", ["gc_pool_alloc", "gc_big_alloc"], 1⟩

/-- Whether a routine of this name is an allocator at a stage. -/
def recognizes (symbols : AllocSymbols) (stage : Stage) (name : String) : Bool :=
  match stage with
  | .before => name == symbols.request
  | .after => symbols.fragments.any fun fragment => Text.occursIn fragment.toList name.toList

end AllocSymbols

/-- The settings of the profiler. -/
structure Settings where
  forceAllocations : Bool
  forceCalls : Bool
  forceBranches : Bool
  alloc : AllocSymbols
  dumpPath : Option String
  deriving DecidableEq

namespace Settings

/-- Nothing is forced and no report is written to a file. -/
def standard : Settings :=
  ⟨false, false, false, .standard, none⟩

/-- Refuse names that no call could have, or that every call would have. -/
def validate (settings : Settings) : Except Error Unit :=
  if settings.alloc.request = "" then .error (.settings .emptySymbol)
  else if settings.alloc.fragments.contains "" then .error (.settings .emptyFragment)
  else .ok ()

/-- The flags of a function without a note. -/
def forced (settings : Settings) : Flags :=
  ⟨settings.forceAllocations, settings.forceBranches, settings.forceCalls, false⟩

/-- The flags of a function: its note decides alone if it has one. -/
def flagsOf (settings : Settings) (f : Func) : Except Error Flags :=
  match f.note? flagsKey with
  | some note => Flags.ofNote f.name note
  | none => .ok settings.forced

end Settings

end FlowProfile
