/-
# Frames that cover one another

One array of values covers another below a bound if it holds the same values there.  It
may hold more beyond the bound, and nothing about the rest is asked.  Code that only
names values below the bound cannot tell the two arrays apart, except by the block that
it names when a value is missing.

Writing below the bound keeps the cover when both arrays are written, and writing beyond
it keeps the cover when the larger one is written alone.

A frame that is moved to another place holds the same values, all of them.  It can do what
it could before.
-/

import FlowProfile.Flow.Rounds
import FlowProfile.Run.Machine

namespace FlowProfile

/-- The same failure, met in a given block. -/
def Error.within (block : BlockId) : Error → Error
  | .undefinedValue id _ => .undefinedValue id block
  | .invalid function (.reachedUnreachable _) => .invalid function (.reachedUnreachable block)
  | error => error

/-- An operand names no value from the bound on. -/
def Operand.Below (bound : Nat) (operand : Operand) : Prop :=
  ∀ id, operand = .value id → id < bound

theorem Operand.below_const (bound : Nat) (constant : Constant) :
    (Operand.const constant).Below bound := nofun

/-- `outer` holds what `inner` holds below the bound. -/
structure Covers (bound : Nat) (inner outer : Array (Option Int64)) : Prop where
  size_eq : inner.size = bound
  le_size : bound ≤ outer.size
  same : ∀ id < bound, outer.getD id none = inner.getD id none

namespace Covers

variable {bound : Nat} {inner outer : Array (Option Int64)}

/-- Both arrays are written at a place below the bound. -/
theorem set (covers : Covers bound inner outer) (id : ValueId) (value : Option Int64) :
    Covers bound (inner.setIfInBounds id value) (outer.setIfInBounds id value) where
  size_eq := by rw [Array.size_setIfInBounds, covers.size_eq]
  le_size := by rw [Array.size_setIfInBounds]; exact covers.le_size
  same other below := by
    have inside : id = other → (id < inner.size ↔ id < outer.size) := by
      rintro rfl
      exact ⟨fun _ => Nat.lt_of_lt_of_le below covers.le_size,
        fun _ => covers.size_eq.symm ▸ below⟩
    rw [getD_setIfInBounds, getD_setIfInBounds, covers.same other below]
    by_cases same : id = other
    · simp only [same, true_and, same ▸ inside same]
    · simp only [same, false_and, if_false]

/-- The covering array is written from the bound on. -/
theorem setBeyond (covers : Covers bound inner outer) {id : ValueId} (beyond : bound ≤ id)
    (value : Option Int64) : Covers bound inner (outer.setIfInBounds id value) where
  size_eq := covers.size_eq
  le_size := by rw [Array.size_setIfInBounds]; exact covers.le_size
  same other below := by
    have apart : ¬ (id = other ∧ id < outer.size) := fun h =>
      Nat.not_lt_of_le beyond (h.1 ▸ below)
    rw [getD_setIfInBounds, if_neg apart, covers.same other below]

end Covers

theorem covers_replicate {bound size : Nat} (le : bound ≤ size) :
    Covers bound (Array.replicate bound none) (Array.replicate size none) where
  size_eq := Array.size_replicate
  le_size := by rw [Array.size_replicate]; exact le
  same id below := by
    simp [Array.getD_eq_getD_getElem?, below, Nat.lt_of_lt_of_le below le]

namespace Frame

theorem read_value (frame : Frame) (id : ValueId) :
    frame.read (.value id) =
      match frame.values.getD id none with
      | some value => .ok value
      | none => .error (.undefinedValue id frame.block) := rfl

theorem mapError_ok {α : Type} (change : Error → Error) (value : α) :
    (Except.ok value).mapError change = .ok value := rfl

/-- Reading depends on the values and on nothing else, apart from the block in the
failure. -/
theorem read_covered {bound : Nat} {frame frame' : Frame}
    (covers : Covers bound frame.values frame'.values) {operand : Operand}
    (below : operand.Below bound) :
    frame'.read operand = (frame.read operand).mapError (Error.within frame'.block) := by
  cases operand with
  | const constant => rfl
  | value id =>
      rw [read_value, read_value, covers.same id (below id rfl)]
      cases frame.values.getD id none <;> rfl

theorem readAll_covered {bound : Nat} {frame frame' : Frame}
    (covers : Covers bound frame.values frame'.values) {operands : List Operand}
    (below : ∀ operand ∈ operands, operand.Below bound) :
    frame'.readAll operands =
      (frame.readAll operands).mapError (Error.within frame'.block) := by
  induction operands with
  | nil => rfl
  | cons operand rest ih =>
      rw [readAll, readAll, read_covered covers (below operand List.mem_cons_self),
        ih fun other mem => below other (List.mem_cons_of_mem _ mem)]
      cases frame.read operand with
      | error error => rfl
      | ok value => cases frame.readAll rest <;> rfl

/-- A failed reading names a value and the block of the frame. -/
theorem eq_undefinedValue_of_read {frame : Frame} {operand : Operand} {error : Error}
    (failed : frame.read operand = .error error) :
    ∃ id, error = .undefinedValue id frame.block := by
  cases operand with
  | const constant => cases failed
  | value id =>
      rw [read_value] at failed
      cases held : frame.values.getD id none with
      | some value => rw [held] at failed; cases failed
      | none => rw [held] at failed; cases failed; exact ⟨id, rfl⟩

theorem eq_undefinedValue_of_readAll {frame : Frame} {operands : List Operand}
    {error : Error} (failed : frame.readAll operands = .error error) :
    ∃ id, error = .undefinedValue id frame.block := by
  induction operands with
  | nil => cases failed
  | cons operand rest ih =>
      rw [readAll] at failed
      cases first : frame.read operand with
      | error error =>
          rw [first] at failed
          cases failed
          exact eq_undefinedValue_of_read first
      | ok value =>
          rw [first] at failed
          cases others : frame.readAll rest with
          | error error => rw [others] at failed; cases failed; exact ih others
          | ok values => rw [others] at failed; cases failed

/-- If one of several operands cannot be read, not all of them can. -/
theorem readAll_of_read_error {frame : Frame} {operands : List Operand} {operand : Operand}
    {error : Error} (mem : operand ∈ operands) (failed : frame.read operand = .error error) :
    ∃ first, frame.readAll operands = .error first := by
  induction operands with
  | nil => cases mem
  | cons head rest ih =>
      rw [readAll]
      cases read : frame.read head with
      | error other => exact ⟨other, rfl⟩
      | ok value =>
          rcases List.mem_cons.mp mem with rfl | later
          · rw [failed] at read
            cases read
          · obtain ⟨first, others⟩ := ih later
            exact ⟨first, by rw [others]; rfl⟩

theorem write_of_lt {frame : Frame} {id : ValueId} (inside : id < frame.values.size)
    (value : Int64) :
    frame.write id value =
      .ok { frame with values := frame.values.setIfInBounds id (some value) } := by
  obtain ⟨values, block, rest⟩ := frame
  exact if_pos inside

/-- Values below the bound can be written in both frames, which then still cover each
other. -/
theorem writeAll_covered {bound : Nat} {frame frame' : Frame}
    (covers : Covers bound frame.values frame'.values) {pairs : List (ValueId × Int64)}
    (below : ∀ pair ∈ pairs, pair.1 < bound) :
    ∃ values values', frame.writeAll pairs = .ok { frame with values } ∧
      frame'.writeAll pairs = .ok { frame' with values := values' } ∧
      Covers bound values values' ∧ values'.size = frame'.values.size := by
  induction pairs generalizing frame frame' with
  | nil => exact ⟨frame.values, frame'.values, rfl, rfl, covers, rfl⟩
  | cons pair rest ih =>
      obtain ⟨id, value⟩ := pair
      have inside : id < bound := below (id, value) List.mem_cons_self
      rw [writeAll, writeAll, write_of_lt (covers.size_eq.symm ▸ inside),
        write_of_lt (Nat.lt_of_lt_of_le inside covers.le_size)]
      have written : Covers bound
          ({ frame with values := frame.values.setIfInBounds id (some value) } : Frame).values
          ({ frame' with values := frame'.values.setIfInBounds id (some value) } : Frame).values :=
        covers.set id (some value)
      obtain ⟨values, values', written, written', covers', size⟩ :=
        ih written fun pair mem => below pair (List.mem_cons_of_mem _ mem)
      exact ⟨values, values', written, written', covers',
        size.trans Array.size_setIfInBounds⟩

/-! ## The same values in another place -/

/-- The frame with its values in another place. -/
def moved (frame : Frame) (block : BlockId) (rest : List Instr) : Frame :=
  ⟨frame.values, block, rest⟩

section

variable (frame : Frame) (block : BlockId) (rest : List Instr)

theorem read_moved (operand : Operand) :
    (frame.moved block rest).read operand =
      (frame.read operand).mapError (Error.within block) := by
  cases operand with
  | const constant => rfl
  | value id =>
      obtain ⟨values, place, code⟩ := frame
      rw [moved, read_value, read_value]
      cases values.getD id none <;> rfl

theorem readAll_moved (operands : List Operand) :
    (frame.moved block rest).readAll operands =
      (frame.readAll operands).mapError (Error.within block) := by
  induction operands with
  | nil => rfl
  | cons operand others ih =>
      rw [readAll, readAll, read_moved, ih]
      cases frame.read operand with
      | error error => rfl
      | ok value => cases frame.readAll others <;> rfl

theorem write_moved (id : ValueId) (value : Int64) :
    (frame.moved block rest).write id value =
      ((frame.write id value).mapError (Error.within block)).map (·.moved block rest) := by
  obtain ⟨values, place, code⟩ := frame
  rw [moved, write, write]
  split <;> rfl

theorem writeResult_moved (result : Option ValueId) (value : Int64) :
    (frame.moved block rest).writeResult result value =
      ((frame.writeResult result value).mapError (Error.within block)).map
        (·.moved block rest) := by
  cases result with
  | none => rfl
  | some id => exact write_moved frame block rest id value

theorem writeAll_moved (pairs : List (ValueId × Int64)) :
    (frame.moved block rest).writeAll pairs =
      ((frame.writeAll pairs).mapError (Error.within block)).map (·.moved block rest) := by
  induction pairs generalizing frame with
  | nil => rfl
  | cons pair others ih =>
      obtain ⟨id, value⟩ := pair
      rw [writeAll, writeAll, write_moved]
      cases frame.write id value with
      | error error => rfl
      | ok next => exact ih next

end

end Frame

end FlowProfile
