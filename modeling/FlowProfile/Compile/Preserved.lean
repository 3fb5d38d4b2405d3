/-
What a transformation leaves alone

A transformation tells what still holds of a function afterwards: that its block graph is
the same, and that its instructions are the same. What survives several transformations
is what survives each of them.
-/

namespace FlowProfile

/-- What of a function is as it was. -/
structure Preserved where
  graph : Bool
  instrs : Bool
  deriving DecidableEq, Repr

namespace Preserved

/-- Nothing changed. -/
def all : Preserved :=
  ⟨true, true⟩

/-- Instructions were added, the block graph is the same. -/
def graphOnly : Preserved :=
  ⟨true, false⟩

/-- Nothing may be relied on. -/
def nothing : Preserved :=
  ⟨false, false⟩

/-- Whether the function is the same. -/
def preservesAll (preserved : Preserved) : Bool :=
  preserved.graph && preserved.instrs

/-- Whether the block graph is the same. -/
def preservesGraph (preserved : Preserved) : Bool :=
  preserved.graph

/-- What survives both of two transformations. -/
def inter (first second : Preserved) : Preserved :=
  ⟨first.graph && second.graph, first.instrs && second.instrs⟩

/-- What survives an insertion at a number of sites: everything if there are none. -/
def ofSites (sites : Nat) : Preserved :=
  if sites > 0 then graphOnly else all

end Preserved

end FlowProfile
