/-
The profile store

A store keeps one profile for each function name. A profile is created when its name is
first met, with the shape of the function at that moment, and stays for good: functions
that share a name share the profile. The values of its counters are not in the profile
but in the memory of counters, where they are known by the store's own name.
-/

import FlowProfile.Flow.Loops
import FlowProfile.Profile.Slots

namespace FlowProfile

/-- What is known about the functions of one name, the counts apart. -/
structure Profile where
  shape : Shape
  slots : Slots
  deriving DecidableEq

/-- Whether a profile has the counter of a measure. -/
def Profile.hasCounter (profile : Profile) : Measure → Bool
  | .taken slot | .total slot => profile.slots.has slot
  | .calls | .size _ | .count _ => true

/-- The profiles of one store, by function name. -/
structure Store where
  name : String
  profiles : Table Profile
  deriving DecidableEq

namespace Store

/-- A store without profiles. -/
def empty (name : String) : Store :=
  ⟨name, .empty⟩

/-- The profile of a name, if it was created. -/
def profile? (store : Store) (function : String) : Option Profile :=
  store.profiles.get? function

/-- The slots of a name. Without a profile their number is open. -/
def slotsOf (store : Store) (function : String) : Slots :=
  match store.profile? function with
  | some profile => profile.slots
  | none => .unsized

/-- Replace the profile of a name. -/
def put (store : Store) (function : String) (profile : Profile) : Store :=
  { store with profiles := store.profiles.insert function profile }

/-- The number of profiles. -/
def size (store : Store) : Nat :=
  store.profiles.size

/-- The counter of one measure of a function. -/
def counter (store : Store) (function : String) (measure : Measure) : Counter :=
  .owned store.name function measure

/-- The profile of a name. If there is none yet, it is created with the given shape, which
may fail. The last part of the answer tells whether it was created. -/
def obtain (store : Store) (function : String) (shape : Except Error Shape) :
    Except Error (Store × Profile × Bool) :=
  match store.profile? function with
  | some profile => .ok (store, profile, false)
  | none =>
      shape.map fun shape =>
        let profile : Profile := ⟨shape, .unsized⟩
        (store.put function profile, profile, true)

end Store

end FlowProfile
