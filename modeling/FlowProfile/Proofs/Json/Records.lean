/-
# Reading back a record

A record is written as an object with the fields that are given, and leaves out the
others.  Reading it finds each given field under its name, and none for the names that
were left out.  The order of the fields does not matter, and neither do other fields
between them.
-/

import FlowProfile.Json.Record
import FlowProfile.Proofs.Json.Reading

namespace FlowProfile

/-- What decodes all items decodes their list. -/
theorem mapM_map_of_mem {α β γ : Type} {encode : α → β} {decode : β → Option γ} {value : α → γ}
    {items : List α} (each : ∀ item ∈ items, decode (encode item) = some (value item)) :
    (items.map encode).mapM decode = some (items.map value) := by
  induction items with
  | nil => rfl
  | cons item items ih =>
      rw [List.map_cons, List.mapM_cons, each item List.mem_cons_self,
        ih fun other mem => each other (List.mem_cons_of_mem _ mem)]
      rfl

namespace Json

theorem plainItems_iff {items : List Json} : PlainItems items ↔ ∀ item ∈ items, item.Plain := by
  induction items with
  | nil => simp [PlainItems]
  | cons item items ih => simp [PlainItems, ih]

theorem plainFields_iff {fields : List (Option String × Json)} :
    PlainFields fields ↔ ∀ field ∈ fields, field.2.Plain := by
  induction fields with
  | nil => simp [PlainFields]
  | cons field fields ih => simp [PlainFields, ih]

/-- The fields of an object for the values that are given. -/
def present (given : List (String × Option Json)) : List (Option String × Json) :=
  given.filterMap fun field => field.2.map (some field.1, ·)

variable {given : List (String × Option Json)} {name : String} {value : Option Json}

theorem plain_present (plain : ∀ field ∈ given, ∀ value ∈ field.2, value.Plain) :
    (obj (present given)).Plain := by
  refine plainFields_iff.mpr fun field mem => ?_
  obtain ⟨source, mem', same⟩ := List.mem_filterMap.mp mem
  obtain ⟨value, has, rfl⟩ := Option.map_eq_some_iff.mp same
  exact plain source mem' value has

theorem filter_present_of_notMem (absent : name ∉ given.map Prod.fst) :
    (present given).filter (·.1 = some name) = [] := by
  refine List.filter_eq_nil_iff.mpr fun field mem named => absent ?_
  obtain ⟨source, mem', same⟩ := List.mem_filterMap.mp mem
  obtain ⟨value, -, rfl⟩ := Option.map_eq_some_iff.mp same
  obtain rfl : source.1 = name := by simpa using named
  exact List.mem_map_of_mem mem'

@[simp] theorem present_nil : present [] = [] := rfl

theorem present_cons (field : String × Option Json) (given : List (String × Option Json)) :
    present (field :: given) = (field.2.map (some field.1, ·)).toList ++ present given := by
  obtain ⟨_, value⟩ := field
  cases value <;> simp [present]

/-- A field is found as it was given, if no two have the same name. -/
theorem lookupOnce_present (distinct : (given.map Prod.fst).Nodup) (mem : (name, value) ∈ given) :
    lookupOnce name (present given) = some value := by
  suffices (present given).filter (·.1 = some name) = (value.map (some name, ·)).toList by
    rw [lookupOnce, this]
    cases value <;> rfl
  induction given with
  | nil => cases mem
  | cons field given ih =>
      obtain ⟨fresh, distinct⟩ := List.nodup_cons.mp distinct
      rw [present_cons, List.filter_append]
      rcases List.mem_cons.mp mem with rfl | mem
      · rw [filter_present_of_notMem fresh]
        cases value <;> simp
      · have apart : field.1 ≠ name := fun same =>
          fresh (same ▸ List.mem_map_of_mem (f := Prod.fst) mem)
        rw [ih distinct mem]
        obtain ⟨_, other⟩ := field
        cases other <;> simp [apart]

/-- The fields of an object that gives some fields of a record, in any order and with
other fields between them. The others have names too, and may have one more than once. -/
def Lists (names : List String) (given : List (String × Option Json))
    (fields : List (Option String × Json)) : Prop :=
  ∃ others, (∀ field ∈ others, ∃ name, field.1 = some name ∧ name ∉ names) ∧
    fields.Perm (present given ++ others)

variable {names : List String} {fields fields' : List (Option String × Json)}

theorem lists_present (names : List String) (given : List (String × Option Json)) :
    Lists names given (present given) :=
  ⟨[], List.forall_mem_nil _, .of_eq (List.append_nil _).symm⟩

/-- Every field that is listed has a name. -/
theorem Lists.named (listed : Lists names given fields) :
    fields.any (·.1.isNone) = false := by
  obtain ⟨others, unknown, perm⟩ := listed
  refine List.any_eq_false.mpr fun field mem => ?_
  rcases List.mem_append.mp (perm.mem_iff.mp mem) with mem | mem
  · obtain ⟨source, -, same⟩ := List.mem_filterMap.mp mem
    obtain ⟨value, -, rfl⟩ := Option.map_eq_some_iff.mp same
    exact Bool.false_ne_true
  · obtain ⟨name, same, -⟩ := unknown field mem
    rw [same]
    exact Bool.false_ne_true

/-- A field that is given once, or not at all, is found in any order of the fields. -/
theorem lookupOnce_perm (perm : fields.Perm fields')
    (found : lookupOnce name fields' = some value) : lookupOnce name fields = some value := by
  have filtered := perm.filter (·.1 = some name)
  unfold lookupOnce at found ⊢
  split at found
  · next none => rw [none] at filtered; rwa [List.perm_nil.mp filtered]
  · next one => rw [one] at filtered; rwa [List.perm_singleton.mp filtered]
  · cases found

/-- A field is found where it is listed, if no two have the same name. -/
theorem Lists.lookupOnce (listed : Lists names given fields) (distinct : (given.map Prod.fst).Nodup)
    (known : name ∈ names) (mem : (name, value) ∈ given) :
    Json.lookupOnce name fields = some value := by
  obtain ⟨others, unknown, perm⟩ := listed
  refine lookupOnce_perm perm ?_
  have apart : others.filter (·.1 = some name) = [] := by
    refine List.filter_eq_nil_iff.mpr fun field mem same => ?_
    obtain ⟨other, named, fresh⟩ := unknown field mem
    rw [named] at same
    obtain rfl : other = name := by simpa using same
    exact fresh known
  have found := lookupOnce_present distinct mem
  rwa [Json.lookupOnce, List.filter_append, apart, List.append_nil]

/-- All fields of a record are read as they are listed. -/
theorem Lists.record (listed : Lists names given fields) (same : given.map Prod.fst = names)
    (distinct : names.Nodup) (whole : Bool) :
    Json.record names whole (obj fields) = some (given.map Prod.snd) := by
  subst same
  rw [Json.record, listed.named, if_neg Bool.false_ne_true]
  exact mapM_map_of_mem fun _ mem =>
    listed.lookupOnce distinct (List.mem_map_of_mem mem) mem

/-- All fields of a record are read as they were given. -/
theorem record_present (same : given.map Prod.fst = names) (distinct : names.Nodup)
    (whole : Bool) : record names whole (obj (present given)) = some (given.map Prod.snd) :=
  (lists_present names given).record same distinct whole

/-! ## Values of fields -/

theorem asWord?_nat (word : UInt64) : asWord? (.nat word.toNat) = some word := by
  rw [asWord?, if_pos word.toNat_lt]
  exact congrArg some UInt64.ofNat_toNat

theorem asList?_map {α : Type} {encode : α → Json} {decode : Json → Option α} {items : List α}
    (each : ∀ item ∈ items, decode (encode item) = some item) :
    asList? decode (.arr (items.map encode)) = some items := by
  have all : (items.map encode).mapM decode = some (items.map id) := mapM_map_of_mem each
  rw [asList?, all, List.map_id]

/-- A field that may be left out keeps its standard value if it is. -/
theorem optional_given {α : Type} {decode : Json → Option α} {json : Json} {value : α}
    (decodes : decode json = some value) (standard : α) (mentions : Bool) :
    optional standard decode (if mentions then some json else none) =
      some (if mentions then value else standard) := by
  cases mentions
  · rfl
  · exact decodes

theorem asBool?_bool (value : Bool) : asBool? (.bool value) = some value := rfl

theorem asText?_str (text : String) : asText? (.str (some text)) = some text := rfl

theorem asTexts?_map (texts : List String) :
    asList? asText? (.arr (texts.map fun text => .str (some text))) = some texts :=
  asList?_map fun text _ => asText?_str text

/-- A number of 64 bits is read back if it is given. -/
theorem optional_number {n : Nat} (small : n < UInt64.size) (standard : Nat) (mentions : Bool) :
    optional standard (asWord? · |>.map UInt64.toNat) (if mentions then some (.nat n) else none) =
      some (if mentions then n else standard) := by
  refine optional_given ?_ standard mentions
  rw [asWord?, if_pos small, Option.map_some, Nat.toUInt64_eq, UInt64.toNat_ofNat_of_lt' small]

theorem asNullableText?_elim (text : Option String) :
    asNullable? asText? (text.elim .null fun text => .str (some text)) = some text := by
  cases text <;> rfl

end Json

end FlowProfile
