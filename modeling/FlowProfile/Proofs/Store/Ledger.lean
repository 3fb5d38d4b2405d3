/-
# Cells and their names

Every cell that a registry has given out has a name, which says what the cell measures, and
what is measured under a name is in one cell.  Where no place was given out twice the names
and the cells are in one-to-one correspondence.  A memory can therefore be told by names:
under each name there is what is in the cell for which the name stands.
-/

import FlowProfile.Proofs.Store.Names

namespace FlowProfile

/-- The counters that the registry has of a profile are those that the profile says. -/
theorem Holding.mem_measures {holding : Holding} {measure : Measure} :
    measure ∈ holding.measures ↔ (holding.place? measure.slot?).isSome = true := by
  have listed (slot : Nat) : (∃ place, (slot, place) ∈ holding.populated) ↔
      (holding.cell? slot).isSome = true := by
    simp only [mem_populated, Option.isSome_iff_exists]
  simp only [measures, List.mem_append, List.mem_flatMap, List.mem_cons, List.not_mem_nil, or_false]
  cases measure with
  | calls => simp [place?, Measure.slot?]
  | size stage => cases stage <;> simp [place?, Measure.slot?]
  | count stage => cases stage <;> simp [place?, Measure.slot?]
  | taken slot => simpa [place?, Measure.slot?] using listed slot
  | total slot => simpa [place?, Measure.slot?] using listed slot

namespace Counters

/-- What is read after values were put under several names. -/
theorem read_foldl_put (values : Counter → UInt64) (labels : List Counter) (memory : Counters)
    (counter : Counter) :
    (labels.foldl (fun memory label => memory.put label (values label)) memory).read counter =
      if counter ∈ labels then values counter else memory.read counter := by
  induction labels generalizing memory with
  | nil => rfl
  | cons label rest ih =>
      rw [List.foldl_cons, ih, read_put]
      by_cases later : counter ∈ rest
      · rw [if_pos later, if_pos (List.mem_cons_of_mem _ later)]
      · by_cases same : label = counter
        · subst same
          rw [if_neg later, if_pos rfl, if_pos List.mem_cons_self]
        · rw [if_neg later, if_neg same, if_neg]
          exact fun mem => (List.mem_cons.mp mem).elim (fun equal => same equal.symm) later

end Counters

namespace Registry

variable {registry : Registry} {function : String} {measure : Measure} {cell counter : Counter}

theorem mem_labels : counter ∈ registry.labels ↔
    ∃ function measure, counter = .owned registry.name function measure ∧
      (registry.counter? function measure).isSome = true := by
  simp only [labels, List.mem_flatMap, List.mem_map]
  constructor
  · rintro ⟨⟨function, holding⟩, entry, measure, present, rfl⟩
    have known : registry.holding? function = some holding := Table.get?_eq_some_iff.mpr entry
    refine ⟨function, measure, rfl, ?_⟩
    rw [counter?, place?_of_known known, Option.isSome_map]
    exact Holding.mem_measures.mp present
  · rintro ⟨function, measure, rfl, present⟩
    rw [counter?, Option.isSome_map] at present
    cases known : registry.holding? function with
    | none =>
        rw [place?, known] at present
        cases present
    | some holding =>
        rw [place?_of_known known] at present
        exact ⟨(function, holding), Table.get?_eq_some_iff.mp known, measure,
          Holding.mem_measures.mpr present, rfl⟩

/-- A name stands for the cell of its measure. -/
theorem resolve_of_counter? (here : registry.counter? function measure = some cell) :
    registry.resolve (.owned registry.name function measure) = cell := by
  rw [resolve, if_pos rfl, here]
  rfl

/-- What is no name of a cell stands for itself. -/
theorem resolve_of_not_mem (absent : counter ∉ registry.labels) :
    registry.resolve counter = counter := by
  cases counter with
  | cell name => rfl
  | placed store place part => rfl
  | owned store function measure =>
      rw [resolve]
      split
      · next same =>
          subst same
          cases here : registry.counter? function measure with
          | none => rfl
          | some cell =>
              exact absurd (mem_labels.mpr ⟨function, measure, rfl, by rw [here]; rfl⟩) absent
      · rfl

/-- Under every name there is what is in its cell. -/
theorem read_ledger (registry : Registry) (memory : Counters) (counter : Counter) :
    (registry.ledger memory).read counter = memory.read (registry.resolve counter) := by
  rw [ledger, Counters.read_foldl_put (fun label => memory.read (registry.resolve label))]
  split
  · rfl
  · next absent => rw [resolve_of_not_mem absent]

theorem counter?_eq_some {place : Nat} {part : Part} {store : String} :
    registry.counter? function measure = some (.placed store place part) ↔
      store = registry.name ∧ registry.place? function measure.slot? = some place ∧
        measure.part = part := by
  rw [counter?, Option.map_eq_some_iff]
  constructor
  · rintro ⟨place', placed, same⟩
    obtain ⟨rfl, rfl, rfl⟩ := Counter.placed.inj same
    exact ⟨rfl, placed, rfl⟩
  · rintro ⟨rfl, placed, rfl⟩
    exact ⟨place, placed, rfl⟩

theorem placed_of_counter? (here : registry.counter? function measure = some cell) :
    ∃ place part, cell = .placed registry.name place part := by
  obtain ⟨place, -, rfl⟩ := Option.map_eq_some_iff.mp here
  exact ⟨place, measure.part, rfl⟩

/-- Two measures that are in one cell are the same. -/
theorem Sound.eq_of_counter? (sound : registry.Sound) {function' : String} {measure' : Measure}
    (here : registry.counter? function measure = some cell)
    (there : registry.counter? function' measure' = some cell) :
    function = function' ∧ measure = measure' := by
  obtain ⟨place, placed, rfl⟩ := Option.map_eq_some_iff.mp here
  obtain ⟨-, placed', part⟩ := counter?_eq_some.mp there
  have key : (function, measure.slot?) = (function', measure'.slot?) :=
    sound.eq_of_place _ _ placed placed'
  obtain ⟨rfl, slot⟩ := Prod.mk.inj key
  have same : some measure = some measure' := by
    rw [← Measure.ofPart_part measure, ← Measure.ofPart_part measure', part, slot]
  exact ⟨rfl, Option.some.inj same⟩

/-- A cell is told by the name that stands for it. -/
theorem Sound.nameOf_of_counter? (sound : registry.Sound)
    (here : registry.counter? function measure = some cell) :
    registry.nameOf cell = .owned registry.name function measure := by
  have mem : .owned registry.name function measure ∈ registry.labels :=
    mem_labels.mpr ⟨function, measure, rfl, by rw [here]; rfl⟩
  rw [nameOf]
  cases found : registry.labels.find? (registry.resolve · == cell) with
  | none =>
      have apart := List.find?_eq_none.mp found _ mem
      rw [resolve_of_counter? here] at apart
      simp at apart
  | some label =>
      obtain ⟨function', measure', rfl, present⟩ := mem_labels.mp (List.mem_of_find?_eq_some found)
      obtain ⟨cell', there⟩ := Option.isSome_iff_exists.mp present
      have same := List.find?_some found
      rw [resolve_of_counter? there, beq_iff_eq] at same
      subst same
      obtain ⟨rfl, rfl⟩ := sound.eq_of_counter? here there
      rfl

/-- What is no cell of the registry keeps its name. -/
theorem nameOf_of_forall_ne
    (apart : ∀ function measure, registry.counter? function measure ≠ some cell) :
    registry.nameOf cell = cell := by
  have absent : registry.labels.find? (registry.resolve · == cell) = none := by
    refine List.find?_eq_none.mpr fun label mem same => ?_
    obtain ⟨function, measure, rfl, present⟩ := mem_labels.mp mem
    obtain ⟨cell', there⟩ := Option.isSome_iff_exists.mp present
    rw [resolve_of_counter? there, beq_iff_eq] at same
    exact apart function measure (same ▸ there)
  rw [nameOf, absent]
  rfl

end Registry

end FlowProfile
