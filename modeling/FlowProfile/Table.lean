/-
Tables keyed by names

A finite map whose entries are kept in increasing order of their keys, so that listing it
gives the same order however it was filled. Names are compared by their code points. The
order is a field of the type: no operation can hand out an unordered table.
-/

namespace FlowProfile

/-- A map from names, listed in increasing order of the names. -/
structure Table (α : Type) where
  entries : List (String × α)
  sorted : entries.Pairwise (·.1 < ·.1)

namespace Table

variable {α β : Type}

instance [DecidableEq α] : DecidableEq (Table α) := fun first second =>
  if same : first.entries = second.entries then
    isTrue (by cases first; cases second; cases same; rfl)
  else isFalse fun equal => same (congrArg entries equal)

/-- The table without entries. -/
def empty : Table α :=
  ⟨[], .nil⟩

instance : Inhabited (Table α) := ⟨empty⟩

/-- Put an entry in its place among ordered ones, instead of any of the same name. -/
def insertEntry (name : String) (value : α) : List (String × α) → List (String × α)
  | [] => [(name, value)]
  | entry :: rest =>
      if name < entry.1 then (name, value) :: entry :: rest
      else if name = entry.1 then (name, value) :: rest
      else entry :: insertEntry name value rest

theorem mem_insertEntry {name : String} {value : α} {entries : List (String × α)}
    {entry : String × α} (mem : entry ∈ insertEntry name value entries) :
    entry = (name, value) ∨ entry ∈ entries := by
  induction entries with
  | nil => simpa [insertEntry] using mem
  | cons head rest ih =>
      unfold insertEntry at mem
      split at mem
      · simpa using mem
      · split at mem
        · simp only [List.mem_cons] at mem ⊢
          exact mem.imp id .inr
        · simp only [List.mem_cons] at mem ⊢
          rcases mem with same | later
          · exact .inr (.inl same)
          · exact (ih later).imp id .inr

theorem sorted_insertEntry {name : String} {value : α} {entries : List (String × α)}
    (sorted : entries.Pairwise (·.1 < ·.1)) :
    (insertEntry name value entries).Pairwise (·.1 < ·.1) := by
  induction entries with
  | nil => simp [insertEntry]
  | cons head rest ih =>
      obtain ⟨above, sortedRest⟩ := List.pairwise_cons.mp sorted
      unfold insertEntry
      split
      · next below =>
          refine List.pairwise_cons.mpr ⟨fun entry mem => ?_, sorted⟩
          rcases List.mem_cons.mp mem with rfl | later
          · exact below
          · exact String.lt_trans below (above entry later)
      · next notBelow =>
          split
          · next same =>
              exact List.pairwise_cons.mpr ⟨fun entry mem => same ▸ above entry mem, sortedRest⟩
          · next different =>
              have headBelow : head.1 < name := by
                rcases Std.lt_trichotomy head.1 name with below | same | beyond
                · exact below
                · exact absurd same.symm different
                · exact absurd beyond notBelow
              refine List.pairwise_cons.mpr ⟨fun entry mem => ?_, ih sortedRest⟩
              rcases mem_insertEntry mem with rfl | old
              · exact headBelow
              · exact above entry old

/-- Give a name a value, whatever it had before. -/
def insert (table : Table α) (name : String) (value : α) : Table α :=
  ⟨insertEntry name value table.entries, sorted_insertEntry table.sorted⟩

/-- Forget a name. -/
def erase (table : Table α) (name : String) : Table α :=
  ⟨table.entries.filter (·.1 ≠ name), table.sorted.filter _⟩

/-- The value of a name, if it has one. -/
def get? (table : Table α) (name : String) : Option α :=
  (table.entries.find? (·.1 = name)).map (·.2)

/-- The names that have a value, in increasing order. -/
def names (table : Table α) : List String :=
  table.entries.map (·.1)

/-- The number of names. -/
def size (table : Table α) : Nat :=
  table.entries.length

/-- Change every value. -/
def map (change : α → β) (table : Table α) : Table β :=
  ⟨table.entries.map fun entry => (entry.1, change entry.2), by
    simpa [List.pairwise_map] using table.sorted⟩

/-- Every entry of the list in turn, so that the last one of a name stays. -/
def ofList (entries : List (String × α)) : Table α :=
  entries.foldl (fun table entry => table.insert entry.1 entry.2) empty

@[simp] theorem get?_empty (name : String) : (empty : Table α).get? name = none := rfl

theorem get?_insert (table : Table α) (name other : String) (value : α) :
    (table.insert name value).get? other =
      if name = other then some value else table.get? other := by
  obtain ⟨entries, sorted⟩ := table
  simp only [insert, get?]
  clear sorted
  induction entries with
  | nil => by_cases same : name = other <;> simp [insertEntry, same]
  | cons head rest ih =>
      unfold insertEntry
      split
      · by_cases same : name = other <;> simp [same]
      · split
        · next keep =>
            by_cases same : name = other
            · simp [same]
            · simp [same, ← keep]
        · next different =>
            by_cases here : head.1 = other
            · have apart : ¬ name = other := fun h => different (h.trans here.symm)
              simp [here, apart]
            · simp only [List.find?_cons, here, decide_false]
              exact ih

@[simp] theorem get?_insert_self (table : Table α) (name : String) (value : α) :
    (table.insert name value).get? name = some value := by
  simp [get?_insert]

theorem get?_erase (table : Table α) (name other : String) :
    (table.erase name).get? other = if name = other then none else table.get? other := by
  obtain ⟨entries, sorted⟩ := table
  simp only [erase, get?]
  clear sorted
  induction entries with
  | nil => simp
  | cons head rest ih =>
      by_cases gone : head.1 = name
      · by_cases same : name = other
        · simp_all
        · simp [gone, same] at ih ⊢
          exact ih
      · by_cases here : head.1 = other
        · have apart : ¬ name = other := fun h => gone (here.trans h.symm)
          simp [here, Ne.symm apart, apart]
        · simpa [List.filter_cons, List.find?_cons, gone, here] using ih

theorem get?_map (change : α → β) (table : Table α) (name : String) :
    (table.map change).get? name = (table.get? name).map change := by
  obtain ⟨entries, sorted⟩ := table
  simp only [map, get?]
  clear sorted
  induction entries with
  | nil => rfl
  | cons head rest ih =>
      by_cases here : head.1 = name
      · simp [here]
      · simpa [here] using ih

theorem names_sorted (table : Table α) : table.names.Pairwise (· < ·) :=
  List.pairwise_map.mpr table.sorted

theorem get?_eq_some_iff {table : Table α} {name : String} {value : α} :
    table.get? name = some value ↔ (name, value) ∈ table.entries := by
  obtain ⟨entries, sorted⟩ := table
  simp only [get?]
  induction entries with
  | nil => simp
  | cons head rest ih =>
      obtain ⟨above, sortedRest⟩ := List.pairwise_cons.mp sorted
      by_cases here : head.1 = name
      · have absent : (name, value) ∉ rest := fun mem =>
          String.lt_irrefl name (here ▸ above (name, value) mem)
        simp only [List.find?_cons, here, decide_true, Option.map_some, Option.some.injEq,
          List.mem_cons, absent, or_false]
        exact ⟨fun same => by rw [← here, ← same], fun same => by rw [← same]⟩
      · have apart : (name, value) ≠ head := by
          rintro rfl
          exact here rfl
        simp only [List.find?_cons, here, decide_false, List.mem_cons, apart, false_or]
        exact ih sortedRest

/-- Entries in increasing order are known by what is among them. -/
theorem entries_eq_of_mem_iff {first second : List (String × α)}
    (sorted : first.Pairwise (·.1 < ·.1)) (sorted' : second.Pairwise (·.1 < ·.1))
    (same : ∀ entry, entry ∈ first ↔ entry ∈ second) : first = second := by
  induction first generalizing second with
  | nil => exact (List.eq_nil_iff_forall_not_mem.mpr fun entry mem =>
      List.not_mem_nil ((same entry).mpr mem)).symm
  | cons head rest ih =>
      cases second with
      | nil => exact absurd ((same head).mp List.mem_cons_self) List.not_mem_nil
      | cons head' rest' =>
          obtain ⟨above, sortedRest⟩ := List.pairwise_cons.mp sorted
          obtain ⟨above', sortedRest'⟩ := List.pairwise_cons.mp sorted'
          have first : head = head' := by
            rcases List.mem_cons.mp ((same head).mp List.mem_cons_self) with equal | later
            · exact equal
            · rcases List.mem_cons.mp ((same head').mpr List.mem_cons_self) with equal | later'
              · exact equal.symm
              · exact absurd (String.lt_trans (above' head later) (above head' later'))
                  (String.lt_irrefl head'.1)
          subst first
          have tail (entry : String × α) : entry ∈ rest ↔ entry ∈ rest' := by
            have whole := same entry
            simp only [List.mem_cons] at whole
            constructor
            · intro mem
              rcases whole.mp (.inr mem) with rfl | mem'
              · exact absurd (above entry mem) (String.lt_irrefl entry.1)
              · exact mem'
            · intro mem
              rcases whole.mpr (.inr mem) with rfl | mem'
              · exact absurd (above' entry mem) (String.lt_irrefl entry.1)
              · exact mem'
          rw [ih sortedRest sortedRest' tail]

/-- A table is known by the values of its names, in whatever order they were put there. -/
theorem ext_get? {first second : Table α} (same : ∀ name, first.get? name = second.get? name) :
    first = second := by
  have entries : first.entries = second.entries := by
    refine entries_eq_of_mem_iff first.sorted second.sorted fun entry => ?_
    obtain ⟨name, value⟩ := entry
    rw [← get?_eq_some_iff, ← get?_eq_some_iff, same name]
  obtain ⟨entries', sorted⟩ := first
  cases entries
  rfl

/-- Putting a value where it is already changes nothing. -/
theorem insert_eq_self {table : Table α} {name : String} {value : α}
    (known : table.get? name = some value) : table.insert name value = table := by
  refine ext_get? fun other => ?_
  rw [get?_insert]
  split
  · next same => rw [← same, known]
  · rfl

theorem map_insert (change : α → β) (table : Table α) (name : String) (value : α) :
    (table.insert name value).map change = (table.map change).insert name (change value) := by
  refine ext_get? fun other => ?_
  rw [get?_map, get?_insert, get?_insert, get?_map]
  split <;> rfl

end Table

end FlowProfile
