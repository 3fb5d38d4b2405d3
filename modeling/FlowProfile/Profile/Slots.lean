/-
Branch slots

A profile keeps one slot for every block of its function, once the number of blocks is
known; the number never changes after that. A slot is populated when the branch of its
block gets its pair of counters, and stays populated.
-/

namespace FlowProfile

/-- The slots of a profile: for each block, whether its branch has counters. -/
structure Slots where
  populated : List Bool
  deriving DecidableEq, Inhabited

namespace Slots

/-- No slots yet. -/
def unsized : Slots :=
  ⟨[]⟩

/-- The number of slots. -/
def size (slots : Slots) : Nat :=
  slots.populated.length

/-- Whether the number of slots is still open. -/
def isEmpty (slots : Slots) : Bool :=
  slots.populated.isEmpty

/-- Make as many slots as there are blocks, unless their number is known already. -/
def ensure (slots : Slots) (blocks : Nat) : Slots :=
  if slots.isEmpty then ⟨List.replicate blocks false⟩ else slots

/-- Whether the slots can serve a function with this many blocks. -/
def fits (slots : Slots) (blocks : Nat) : Bool :=
  slots.isEmpty || slots.size == blocks

/-- Whether the slot is there and has counters. -/
def has (slots : Slots) (slot : Nat) : Bool :=
  slots.populated.getD slot false

/-- Give a slot its counters; it may have them already. -/
def populate (slots : Slots) (slot : Nat) : Slots :=
  ⟨slots.populated.set slot true⟩

/-- The populated slots, in increasing order. -/
def populatedIndices (slots : Slots) : List Nat :=
  (List.range slots.size).filter slots.has

@[simp] theorem size_unsized : unsized.size = 0 := rfl

theorem size_ensure (slots : Slots) (blocks : Nat) :
    (slots.ensure blocks).size = if slots.isEmpty then blocks else slots.size := by
  unfold ensure
  split <;> simp [size]

@[simp] theorem size_populate (slots : Slots) (slot : Nat) :
    (slots.populate slot).size = slots.size := by
  simp [populate, size]

theorem has_ensure (slots : Slots) (blocks slot : Nat) :
    (slots.ensure blocks).has slot = slots.has slot := by
  unfold ensure
  split
  · next empty =>
      have none : slots.populated = [] := by simpa [isEmpty] using empty
      by_cases inside : slot < blocks <;> simp [has, none, List.getD, inside]
  · rfl

theorem has_populate (slots : Slots) (slot other : Nat) :
    (slots.populate slot).has other =
      if slot = other then decide (slot < slots.size) else slots.has other := by
  by_cases same : slot = other
  · subst same
    by_cases inside : slot < slots.populated.length <;>
      simp [populate, has, size, List.getD, inside]
  · simp [populate, has, List.getD, same]

theorem mem_populatedIndices {slots : Slots} {slot : Nat} :
    slot ∈ slots.populatedIndices ↔ slots.has slot = true := by
  simp only [populatedIndices, List.mem_filter, List.mem_range, and_iff_right_iff_imp]
  intro populated
  by_cases inside : slot < slots.populated.length
  · exact inside
  · simp [has, List.getD, List.getElem?_eq_none (Nat.le_of_not_lt inside)] at populated

end Slots

end FlowProfile
