/-
Places

A registry is a store that says where its cells are. Every profile is made at a place of its
own, and so is the pair of counters of every slot, when it is first asked for; places are
given out one after another and none of them twice. Whoever asks again for a profile or for
a slot's counters is told the place that was found for them the first time.

The same profiles without places are a store. What is at a place has a name there: the
function's name and the measure.
-/

import FlowProfile.Profile.Store

namespace FlowProfile

/-- A profile at its place. A slot has the place of its pair of counters, once it has one. -/
structure Holding where
  place : Nat
  shape : Shape
  cells : List (Option Nat)
  deriving DecidableEq

/-- The profiles of one store at their places. So many places have been given out. -/
structure Registry where
  name : String
  holdings : Table Holding
  issued : Nat

namespace Holding

/-- The place of a slot's counters. -/
def cell? (holding : Holding) (slot : Nat) : Option Nat :=
  holding.cells.getD slot none

/-- The place of the profile itself, or of a slot's counters. -/
def place? (holding : Holding) : Option Nat → Option Nat
  | none => some holding.place
  | some slot => holding.cell? slot

/-- Make as many slots as there are blocks, unless their number is known already. -/
def ensure (holding : Holding) (blocks : Nat) : Holding :=
  if holding.cells.isEmpty then { holding with cells := List.replicate blocks none } else holding

/-- The place of a slot's counters, which are made at the next place if there are none. The
slot has to be there. The answer has the next place after that, and the place. -/
def claim (holding : Holding) (next slot : Nat) : Except Error (Holding × Nat × Nat) :=
  match holding.cells[slot]? with
  | none => .error .outOfBounds
  | some (some place) => .ok (holding, next, place)
  | some none => .ok ({ holding with cells := holding.cells.set slot (some next) }, next + 1, next)

/-- The places of the counters of slots, with the slots and in order. -/
def claimAll (holding : Holding) (next : Nat) :
    List Nat → Except Error (Holding × Nat × List (Nat × Nat))
  | [] => .ok (holding, next, [])
  | slot :: rest =>
      match holding.claim next slot with
      | .error error => .error error
      | .ok (holding, next, place) =>
          (holding.claimAll next rest).map fun (holding, next, places) =>
            (holding, next, (slot, place) :: places)

/-- The slots that have counters, in increasing order, with the places of these. -/
def populated (holding : Holding) : List (Nat × Nat) :=
  (List.range holding.cells.length).filterMap fun slot =>
    (holding.cell? slot).map fun place => (slot, place)

/-- The profile, without its place. -/
def profile (holding : Holding) : Profile :=
  ⟨holding.shape, ⟨holding.cells.map Option.isSome⟩⟩

/-- The measures that the profile has counters for. -/
def measures (holding : Holding) : List Measure :=
  [.calls, .size .before, .size .after, .count .before, .count .after] ++
    holding.populated.flatMap fun (slot, _) => [.taken slot, .total slot]

end Holding

namespace Registry

/-- A registry without profiles. -/
def empty (name : String) : Registry :=
  ⟨name, .empty, 0⟩

/-- The profile of a name, if it was created. -/
def holding? (registry : Registry) (function : String) : Option Holding :=
  registry.holdings.get? function

/-- Replace the profile of a name, where so many places have been given out. -/
def put (registry : Registry) (function : String) (holding : Holding) (issued : Nat) : Registry :=
  { registry with holdings := registry.holdings.insert function holding, issued }

/-- The profile of a name. If there is none yet, it is created at the next place with the
given shape, which may fail. The last part of the answer tells whether it was created. -/
def obtain (registry : Registry) (function : String) (shape : Except Error Shape) :
    Except Error (Registry × Holding × Bool) :=
  match registry.holding? function with
  | some holding => .ok (registry, holding, false)
  | none =>
      shape.map fun shape =>
        let holding : Holding := ⟨registry.issued, shape, []⟩
        (registry.put function holding (registry.issued + 1), holding, true)

/-- The place of the profile of a name, or of the counters of one of its slots. -/
def place? (registry : Registry) (function : String) (slot : Option Nat) : Option Nat :=
  (registry.holding? function).bind fun holding => holding.place? slot

/-- The cell of a measure. -/
def counter? (registry : Registry) (function : String) (measure : Measure) : Option Counter :=
  (registry.place? function measure.slot?).map fun place =>
    .placed registry.name place measure.part

/-! ## Names -/

/-- The store that has the same profiles. -/
def names (registry : Registry) : Store :=
  ⟨registry.name, registry.holdings.map Holding.profile⟩

/-- The cell that a name stands for, if it stands for one of the registry. -/
def resolve (registry : Registry) : Counter → Counter
  | .owned store function measure =>
      if store = registry.name then
        (registry.counter? function measure).getD (.owned store function measure)
      else .owned store function measure
  | .cell name => .cell name
  | .placed store place part => .placed store place part

/-- The names of all cells of the registry. -/
def labels (registry : Registry) : List Counter :=
  registry.holdings.entries.flatMap fun (function, holding) =>
    holding.measures.map (.owned registry.name function)

/-- The memory in which the names have the values of the cells that they stand for. -/
def ledger (registry : Registry) (memory : Counters) : Counters :=
  registry.labels.foldl
    (fun ledger label => ledger.put label (memory.read (registry.resolve label))) memory

/-- The name of a cell, if it is one of the registry's. -/
def nameOf (registry : Registry) (cell : Counter) : Counter :=
  (registry.labels.find? (registry.resolve · == cell)).getD cell

end Registry

end FlowProfile
