/-
Counters and their memory

A counter is a 64-bit cell that instrumented code adds to. It is known by what it counts:
a cell of the embedding program by its name, a cell of a profile by the store, the
function's name and the measure. Two mentions are the same cell exactly when they are
equal, so a cell keeps its identity for as long as anything mentions it.

Where it matters who hands cells out, and whether the same one is handed out again, the
cells of a store are known by the places at which they were made, one after another.

The values of all counters live in one memory, apart from the profiles and from the code.
Additions wrap around at the 64th bit.
-/

import Std.Data.HashMap

namespace FlowProfile

/-- The two moments at which a function under compilation is looked at. -/
inductive Stage
  | before
  | after
  deriving DecidableEq, Hashable, Repr

/-- How a stage is named in messages. -/
def Stage.text : Stage → String
  | .before => "pre-optimization"
  | .after => "post-optimization"

/-- What one counter of a function's profile measures. Branch counters belong to the slot
of the block whose branch they watch. -/
inductive Measure
  | calls
  | size (stage : Stage)
  | count (stage : Stage)
  | taken (slot : Nat)
  | total (slot : Nat)
  deriving DecidableEq, Hashable, Repr

namespace Measure

/-- The short name of a measure within its profile. -/
def label : Measure → String
  | calls => "calls"
  | size .before => "pre.size"
  | size .after => "post.size"
  | count .before => "pre.count"
  | count .after => "post.count"
  | taken slot => "br" ++ toString slot ++ ".taken"
  | total slot => "br" ++ toString slot ++ ".total"

end Measure

/-- A cell of what was made at one place: of a profile, or of the pair of counters that a
slot has. -/
inductive Part
  | calls
  | size (stage : Stage)
  | count (stage : Stage)
  | taken
  | total
  deriving DecidableEq, Hashable, Repr

/-- The short name of a cell at its place. -/
def Part.label : Part → String
  | calls => "calls"
  | size .before => "pre.size"
  | size .after => "post.size"
  | count .before => "pre.count"
  | count .after => "post.count"
  | taken => "taken"
  | total => "total"

namespace Measure

/-- The cell of a measure, at its place. -/
def part : Measure → Part
  | calls => .calls
  | size stage => .size stage
  | count stage => .count stage
  | taken _ => .taken
  | total _ => .total

/-- The slot that has the counter of a measure, unless the profile itself has it. -/
def slot? : Measure → Option Nat
  | calls | size _ | count _ => none
  | taken slot | total slot => some slot

/-- The measure of a cell, of a profile or of one of its slots. -/
def ofPart : Part → Option Nat → Option Measure
  | .calls, none => some calls
  | .size stage, none => some (size stage)
  | .count stage, none => some (count stage)
  | .taken, some slot => some (taken slot)
  | .total, some slot => some (total slot)
  | .calls, some _ | .size _, some _ | .count _, some _ | .taken, none | .total, none => none

@[simp] theorem ofPart_part (measure : Measure) :
    ofPart measure.part measure.slot? = some measure := by
  cases measure <;> rfl

end Measure

/-- A counter: a cell of the embedding program, or one measure of a function's profile in
a store, which may be known by its place. -/
inductive Counter
  | cell (name : String)
  | owned (store function : String) (measure : Measure)
  | placed (store : String) (place : Nat) (part : Part)
  deriving DecidableEq, Hashable, Repr

namespace Counter

/-- A readable name of a counter. -/
def label : Counter → String
  | cell name => "cell/" ++ name
  | owned store function measure => store ++ "/" ++ function ++ "." ++ measure.label
  | placed store place part => store ++ "/#" ++ toString place ++ "." ++ part.label

/-- Whether the counter is part of the profile of `function` in `store`. -/
def BelongsTo (counter : Counter) (store function : String) : Prop :=
  ∃ measure, counter = owned store function measure

/-- Whether the counter is part of any profile of `store`. -/
def InStore (counter : Counter) (store : String) : Prop :=
  ∃ function measure, counter = owned store function measure

end Counter

/-- The memory of all counters. A cell that was never added to holds zero. -/
structure Counters where
  cells : Std.HashMap Counter UInt64

namespace Counters

/-- Every counter at zero. -/
def zero : Counters :=
  ⟨∅⟩

instance : Inhabited Counters := ⟨zero⟩

/-- The value of a counter. -/
def read (counters : Counters) (counter : Counter) : UInt64 :=
  counters.cells.getD counter 0

/-- Give a counter a value. -/
def put : Counters → Counter → UInt64 → Counters
  | ⟨cells⟩, counter, value => ⟨cells.insert counter value⟩

/-- Add to one counter, wrapping around, and tell its value from before. -/
def fetchAdd : Counters → Counter → UInt64 → UInt64 × Counters
  | ⟨cells⟩, counter, amount =>
      let previous := cells.getD counter 0
      (previous, ⟨cells.insert counter (previous + amount)⟩)

/-- Add to one counter, wrapping around. -/
def add (counters : Counters) (counter : Counter) (amount : UInt64) : Counters :=
  (counters.fetchAdd counter amount).2

@[simp] theorem read_zero (counter : Counter) : zero.read counter = 0 := by
  simp [zero, read]

theorem read_put (counters : Counters) (changed other : Counter) (value : UInt64) :
    (counters.put changed value).read other =
      if changed = other then value else counters.read other := by
  simp only [put, read, Std.HashMap.getD_insert, beq_iff_eq]

@[simp] theorem fetchAdd_fst (counters : Counters) (counter : Counter) (amount : UInt64) :
    (counters.fetchAdd counter amount).1 = counters.read counter := rfl

theorem fetchAdd_snd (counters : Counters) (counter : Counter) (amount : UInt64) :
    (counters.fetchAdd counter amount).2 = counters.add counter amount := rfl

theorem read_add (counters : Counters) (changed other : Counter) (amount : UInt64) :
    (counters.add changed amount).read other =
      if changed = other then counters.read changed + amount else counters.read other := by
  simp only [add, fetchAdd, read, Std.HashMap.getD_insert, beq_iff_eq]

@[simp] theorem read_add_self (counters : Counters) (counter : Counter) (amount : UInt64) :
    (counters.add counter amount).read counter = counters.read counter + amount := by
  simp [read_add]

theorem read_add_of_ne {changed other : Counter} (apart : changed ≠ other)
    (counters : Counters) (amount : UInt64) :
    (counters.add changed amount).read other = counters.read other := by
  simp [read_add, apart]

end Counters

end FlowProfile
