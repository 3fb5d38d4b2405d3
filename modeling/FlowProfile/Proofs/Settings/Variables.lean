/-
# The last mention decides

Settings are read from environment variables one after the other, and yet what is read can
be said without any order between different names: a switch is as the last of its values
says, the path of the report is the last one that is not empty, and nothing else about the
environment matters.  Only which value is named when the reading fails depends on what comes
first: it is the first that stands for no truth value, though a good one may follow under
its name.

Whoever tells the same environment in another way, with neighbours of different names in
each other's place or with variables in between that nothing looks at, is given the same
settings.
-/

import FlowProfile.Settings.Variables
import Mathlib.Data.List.Induction
import Mathlib.Logic.Relation

namespace FlowProfile.Settings

/-! ## Switches and their words -/

/-- What can be forced by a variable of its own. -/
inductive Switch
  | allocations
  | calls
  | branches
  deriving DecidableEq

namespace Switch

/-- The variable of a switch. -/
def name : Switch → String
  | allocations => allocationsVariable
  | calls => callsVariable
  | branches => branchesVariable

/-- Whether settings have a switch on. -/
def isOn (settings : Settings) : Switch → Bool
  | allocations => settings.forceAllocations
  | calls => settings.forceCalls
  | branches => settings.forceBranches

/-- Settings with a switch turned on or off. -/
def turn (settings : Settings) (on : Bool) : Switch → Settings
  | allocations => { settings with forceAllocations := on }
  | calls => { settings with forceCalls := on }
  | branches => { settings with forceBranches := on }

variable {switch other : Switch}

theorem name_injective (same : switch.name = other.name) : switch = other := by
  cases switch <;> cases other <;> first | rfl | exact absurd same (by decide)

theorem name_ne_dumpPath (switch : Switch) : switch.name ≠ dumpPathVariable := by
  cases switch <;> decide

variable (settings : Settings) (on : Bool)

@[simp]
theorem isOn_turn_self : switch.isOn (switch.turn settings on) = on := by
  cases switch <;> rfl

theorem isOn_turn_of_ne (differ : switch ≠ other) :
    other.isOn (switch.turn settings on) = other.isOn settings := by
  cases switch <;> cases other <;> first | rfl | exact absurd rfl differ

@[simp]
theorem dumpPath_turn : (switch.turn settings on).dumpPath = settings.dumpPath := by
  cases switch <;> rfl

@[simp]
theorem alloc_turn : (switch.turn settings on).alloc = settings.alloc := by
  cases switch <;> rfl

end Switch

/-- The words for a truth value. -/
def words : Bool → List String
  | true => onWords
  | false => offWords

/-- A value spells a word: there may be blanks around it and capitals in it. -/
def Spells (value word : String) : Prop :=
  ∃ core, Text.TrimsTo value.toList core ∧ String.ofList (Text.lowered core) = word

/-- A value stands for a truth value if it spells one of its words. -/
def StandsFor (value : String) (on : Bool) : Prop :=
  ∃ word ∈ words on, Spells value word

variable {name value word : String} {on on' : Bool}

theorem onWords_apart : ∀ word ∈ onWords, word ∉ offWords := by
  decide

theorem spells_iff : Spells value word ↔ normalized value = word := by
  simp [Spells, Text.trimsTo_iff, normalized]

theorem standsFor_iff : StandsFor value on ↔ normalized value ∈ words on := by
  simp [StandsFor, spells_iff]

/-- No value stands for both truth values. -/
theorem StandsFor.unique (stands : StandsFor value on) (stands' : StandsFor value on') :
    on = on' := by
  have mem := standsFor_iff.mp stands
  have mem' := standsFor_iff.mp stands'
  cases on <;> cases on'
  · rfl
  · exact absurd mem (onWords_apart _ mem')
  · exact absurd mem' (onWords_apart _ mem)
  · rfl

/-- A value is read as what it stands for. -/
theorem readSwitch_of_standsFor (stands : StandsFor value on) :
    readSwitch name value = .ok on := by
  cases on with
  | true =>
      have mem : normalized value ∈ onWords := standsFor_iff.mp stands
      rw [readSwitch, if_pos (List.contains_iff_mem.mpr mem)]
  | false =>
      have mem : normalized value ∈ offWords := standsFor_iff.mp stands
      have other : normalized value ∉ onWords := fun mem' => onWords_apart _ mem' mem
      rw [readSwitch, if_neg (mt List.contains_iff_mem.mp other),
        if_pos (List.contains_iff_mem.mpr mem)]

/-- A word for neither truth value is refused. -/
theorem readSwitch_of_spells (spells : Spells value word) (unknown : ∀ on, word ∉ words on) :
    readSwitch name value = .error (.settings (.notBoolean name word)) := by
  obtain rfl := spells_iff.mp spells
  have on : normalized value ∉ onWords := unknown true
  have off : normalized value ∉ offWords := unknown false
  rw [readSwitch, if_neg (mt List.contains_iff_mem.mp on),
    if_neg (mt List.contains_iff_mem.mp off)]

/-! ## One variable -/

/-- The variables that are looked at. -/
def watched : List String :=
  [allocationsVariable, callsVariable, branchesVariable, dumpPathVariable]

theorem Switch.name_mem_watched (switch : Switch) : switch.name ∈ watched := by
  cases switch <;> decide

theorem name_cases (name : String) :
    (∃ switch : Switch, name = switch.name) ∨ name = dumpPathVariable ∨ name ∉ watched := by
  by_cases known : name ∈ watched
  · simp only [watched, List.mem_cons, List.not_mem_nil, or_false] at known
    rcases known with same | same | same | same
    · exact .inl ⟨.allocations, same⟩
    · exact .inl ⟨.calls, same⟩
    · exact .inl ⟨.branches, same⟩
    · exact .inr (.inl same)
  · exact .inr (.inr known)

/-- An entry spoils the reading: it gives a switch a word for neither truth value. -/
def Spoils (entry : String × String) (error : Error) : Prop :=
  ∃ (switch : Switch) (word : String), entry.1 = switch.name ∧ Spells entry.2 word ∧
    (∀ on, word ∉ words on) ∧ error = .settings (.notBoolean entry.1 word)

theorem standsFor_or_spoils (switch : Switch) (value : String) :
    (∃ on, StandsFor value on) ∨ ∃ error, Spoils (switch.name, value) error := by
  by_cases known : ∃ on, normalized value ∈ words on
  · obtain ⟨on, mem⟩ := known
    exact .inl ⟨on, standsFor_iff.mpr mem⟩
  · exact .inr ⟨_, switch, _, rfl, spells_iff.mpr rfl, not_exists.mp known, rfl⟩

variable (settings : Settings)

theorem readVariable_switch (switch : Switch) (value : String) :
    settings.readVariable switch.name value =
      (readSwitch switch.name value).map fun on => switch.turn settings on := by
  cases switch with
  | allocations => rw [readVariable, Switch.name, if_pos rfl]; rfl
  | calls => rw [readVariable, Switch.name, if_neg (by decide), if_pos rfl]; rfl
  | branches =>
      rw [readVariable, Switch.name, if_neg (by decide), if_neg (by decide), if_pos rfl]
      rfl

theorem readVariable_path (value : String) :
    settings.readVariable dumpPathVariable value =
      .ok { settings with dumpPath := if value = "" then settings.dumpPath else some value } := by
  rw [readVariable, if_neg (by decide), if_neg (by decide), if_neg (by decide)]
  by_cases empty : value = "" <;> simp [empty]

theorem readVariable_unrelated (unrelated : name ∉ watched) (value : String) :
    settings.readVariable name value = .ok settings := by
  simp only [watched, List.mem_cons, List.not_mem_nil, or_false, not_or] at unrelated
  obtain ⟨allocations, calls, branches, path⟩ := unrelated
  rw [readVariable, if_neg allocations, if_neg calls, if_neg branches,
    if_neg fun here => path here.1]

/-- An entry that spoils the reading ends it, whatever was read before. -/
theorem readVariable_of_spoils {entry : String × String} {error : Error}
    (spoils : Spoils entry error) : settings.readVariable entry.1 entry.2 = .error error := by
  obtain ⟨switch, word, named, spells, unknown, rfl⟩ := spoils
  rw [named, readVariable_switch, readSwitch_of_spells spells unknown]
  rfl

/-! ## The values of a variable -/

/-- The values that an environment has for a name, in their order. -/
def valuesOf (name : String) (environment : List (String × String)) : List String :=
  (environment.filter fun entry => entry.1 = name).map Prod.snd

variable {environment first second : List (String × String)} {entry : String × String}

theorem mem_valuesOf : value ∈ valuesOf name environment ↔ (name, value) ∈ environment := by
  simp [valuesOf]

@[simp]
theorem valuesOf_append :
    valuesOf name (first ++ second) = valuesOf name first ++ valuesOf name second := by
  simp [valuesOf]

@[simp]
theorem valuesOf_cons_self :
    valuesOf name ((name, value) :: environment) = value :: valuesOf name environment := by
  simp [valuesOf]

theorem valuesOf_cons_of_ne (differ : entry.1 ≠ name) :
    valuesOf name (entry :: environment) = valuesOf name environment := by
  simp [valuesOf, differ]

theorem valuesOf_concat_self :
    valuesOf name (environment ++ [(name, value)]) = valuesOf name environment ++ [value] := by
  simp [valuesOf]

theorem valuesOf_concat_of_ne (differ : entry.1 ≠ name) :
    valuesOf name (environment ++ [entry]) = valuesOf name environment := by
  simp [valuesOf, differ]

/-! ## What an environment describes -/

/-- What the last value of a switch makes of it: it is off if there is none. -/
def Sets : Option String → Bool → Prop
  | none, on => on = false
  | some value, on => StandsFor value on

/-- Settings are those of an environment: each switch is as its last value says, the path is
the last that is not empty, and the names of allocators are the standard ones. -/
structure DescribedBy (settings : Settings) (environment : List (String × String)) : Prop where
  switches : ∀ switch : Switch,
    Sets (valuesOf switch.name environment).getLast? (switch.isOn settings)
  dumpPath : settings.dumpPath =
    ((valuesOf dumpPathVariable environment).filter fun value => value ≠ "").getLast?
  alloc : settings.alloc = .standard

theorem Sets.unique {last : Option String} (sets : Sets last on) (sets' : Sets last on') :
    on = on' := by
  cases last with
  | none => exact Eq.trans sets (Eq.symm sets')
  | some value => exact StandsFor.unique sets sets'

variable {settings} {settings' : Settings}

theorem DescribedBy.unique (described : settings.DescribedBy environment)
    (described' : settings'.DescribedBy environment) : settings = settings' := by
  have same (switch : Switch) : switch.isOn settings = switch.isOn settings' :=
    (described.switches switch).unique (described'.switches switch)
  obtain ⟨allocations, calls, branches, alloc, path⟩ := settings
  obtain ⟨allocations', calls', branches', alloc', path'⟩ := settings'
  obtain rfl : allocations = allocations' := same .allocations
  obtain rfl : calls = calls' := same .calls
  obtain rfl : branches = branches' := same .branches
  obtain rfl : alloc = alloc' := described.alloc.trans described'.alloc.symm
  obtain rfl : path = path' := described.dumpPath.trans described'.dumpPath.symm
  rfl

theorem describedBy_nil : standard.DescribedBy [] where
  switches switch := by cases switch <;> rfl
  dumpPath := rfl
  alloc := rfl

theorem DescribedBy.turn (described : settings.DescribedBy environment) (switch : Switch)
    (stands : StandsFor value on) :
    (switch.turn settings on).DescribedBy (environment ++ [(switch.name, value)]) where
  switches other := by
    by_cases same : switch = other
    · subst same
      rw [valuesOf_concat_self, List.getLast?_concat, Switch.isOn_turn_self]
      exact stands
    · rw [valuesOf_concat_of_ne (mt Switch.name_injective same), Switch.isOn_turn_of_ne _ _ same]
      exact described.switches other
  dumpPath := by
    rw [valuesOf_concat_of_ne switch.name_ne_dumpPath, Switch.dumpPath_turn]
    exact described.dumpPath
  alloc := by
    rw [Switch.alloc_turn]
    exact described.alloc

theorem DescribedBy.path (described : settings.DescribedBy environment) (value : String) :
    DescribedBy
      { settings with dumpPath := if value = "" then settings.dumpPath else some value }
      (environment ++ [(dumpPathVariable, value)]) where
  switches switch := by
    rw [valuesOf_concat_of_ne switch.name_ne_dumpPath.symm]
    exact described.switches switch
  dumpPath := by
    rw [valuesOf_concat_self, List.filter_append]
    by_cases empty : value = ""
    · simpa [empty] using described.dumpPath
    · simp [empty]
  alloc := described.alloc

theorem DescribedBy.unrelated (described : settings.DescribedBy environment)
    (unrelated : entry.1 ∉ watched) : settings.DescribedBy (environment ++ [entry]) := by
  have kept {name : String} (mem : name ∈ watched) :
      valuesOf name (environment ++ [entry]) = valuesOf name environment :=
    valuesOf_concat_of_ne fun same => unrelated (same ▸ mem)
  refine ⟨fun switch => ?_, ?_, described.alloc⟩
  · rw [kept switch.name_mem_watched]
    exact described.switches switch
  · rw [kept (by decide)]
    exact described.dumpPath

/-- One more entry describes the settings that are read from it. -/
theorem DescribedBy.readVariable (described : settings.DescribedBy environment)
    (fine : ∀ error, ¬ Spoils entry error) :
    ∃ settings', settings.readVariable entry.1 entry.2 = .ok settings' ∧
      settings'.DescribedBy (environment ++ [entry]) := by
  obtain ⟨name, value⟩ := entry
  rcases name_cases name with ⟨switch, rfl⟩ | rfl | unrelated
  · rcases standsFor_or_spoils switch value with ⟨on, stands⟩ | ⟨error, spoils⟩
    · refine ⟨_, ?_, described.turn switch stands⟩
      rw [readVariable_switch, readSwitch_of_standsFor stands]
      rfl
    · exact absurd spoils (fine error)
  · exact ⟨_, readVariable_path settings value, described.path value⟩
  · exact ⟨settings, readVariable_unrelated settings unrelated value,
      described.unrelated unrelated⟩

/-! ## All variables -/

/-- No entry of an environment spoils the reading. -/
def Readable (environment : List (String × String)) : Prop :=
  ∀ entry ∈ environment, ∀ error, ¬ Spoils entry error

/-- The first entry that spoils the reading does so with this error. -/
def SpoiledFirst (environment : List (String × String)) (error : Error) : Prop :=
  ∃ earlier entry later, environment = earlier ++ entry :: later ∧ Readable earlier ∧
    Spoils entry error

/-- What follows the entries that were read is read from their settings. -/
theorem ofVariables_append_cons (read : ofVariables first = .ok settings) :
    ofVariables (first ++ entry :: second) =
      settings.readVariable entry.1 entry.2 >>= fun settings =>
        second.foldlM (fun settings entry => settings.readVariable entry.1 entry.2) settings := by
  rw [ofVariables] at read ⊢
  rw [List.foldlM_append, read]
  rfl

/-- An environment that nothing spoils is read, and as it describes. -/
theorem exists_describedBy (readable : Readable environment) :
    ∃ settings, ofVariables environment = .ok settings ∧ settings.DescribedBy environment := by
  -- From the end: the last entry is read from the settings of all others.
  induction environment using List.reverseRecOn with
  | nil => exact ⟨standard, rfl, describedBy_nil⟩
  | append_singleton environment entry ih =>
      obtain ⟨settings, read, described⟩ :=
        ih fun other mem => readable other (List.mem_append_left _ mem)
      obtain ⟨settings', next, described'⟩ :=
        described.readVariable (readable entry (by simp))
      refine ⟨settings', ?_, described'⟩
      rw [ofVariables_append_cons read, next]
      rfl

theorem ofVariables_of_spoiledFirst {error : Error} (spoiled : SpoiledFirst environment error) :
    ofVariables environment = .error error := by
  obtain ⟨earlier, entry, later, rfl, readable, spoils⟩ := spoiled
  obtain ⟨settings, read, -⟩ := exists_describedBy readable
  rw [ofVariables_append_cons read, readVariable_of_spoils settings spoils]
  rfl

theorem readable_or_spoiledFirst (environment : List (String × String)) :
    Readable environment ∨ ∃ error, SpoiledFirst environment error := by
  induction environment using List.reverseRecOn with
  | nil => exact .inl nofun
  | append_singleton environment entry ih =>
      rcases ih with readable | ⟨error, earlier, other, later, rfl, readable, spoils⟩
      · by_cases fine : ∀ error, ¬ Spoils entry error
        · refine .inl fun other mem => ?_
          rcases List.mem_append.mp mem with old | new
          · exact readable other old
          · obtain rfl := List.mem_singleton.mp new
            exact fine
        · obtain ⟨error, spoils⟩ := not_forall_not.mp fine
          exact .inr ⟨error, environment, entry, [], rfl, readable, spoils⟩
      · exact .inr ⟨error, earlier, other, later ++ [entry], by simp, readable, spoils⟩

theorem ofVariables_eq_error_iff {error : Error} :
    ofVariables environment = .error error ↔ SpoiledFirst environment error := by
  refine ⟨fun failed => ?_, ofVariables_of_spoiledFirst⟩
  rcases readable_or_spoiledFirst environment with readable | ⟨error', spoiled⟩
  · obtain ⟨settings, read, -⟩ := exists_describedBy readable
    cases failed.symm.trans read
  · cases failed.symm.trans (ofVariables_of_spoiledFirst spoiled)
    exact spoiled

theorem ofVariables_eq_ok_iff : ofVariables environment = .ok settings ↔
    Readable environment ∧ settings.DescribedBy environment := by
  constructor
  · intro read
    rcases readable_or_spoiledFirst environment with readable | ⟨error, spoiled⟩
    · obtain ⟨settings', read', described⟩ := exists_describedBy readable
      cases read.symm.trans read'
      exact ⟨readable, described⟩
    · cases read.symm.trans (ofVariables_of_spoiledFirst spoiled)
  · rintro ⟨readable, described⟩
    obtain ⟨settings', read, described'⟩ := exists_describedBy readable
    rw [read, described'.unique described]

theorem exists_spoiledFirst_iff : (∃ error, SpoiledFirst environment error) ↔
    ∃ entry ∈ environment, ∃ error, Spoils entry error := by
  constructor
  · rintro ⟨error, earlier, entry, later, rfl, -, spoils⟩
    exact ⟨entry, by simp, error, spoils⟩
  · rintro ⟨entry, mem, error, spoils⟩
    refine (readable_or_spoiledFirst environment).resolve_left fun readable => ?_
    exact readable entry mem error spoils

/-! ## Other ways to tell an environment -/

/-- One change in the way an environment is told: two neighbours of different names change
places, or a variable comes in that nothing looks at. -/
inductive Retelling : List (String × String) → List (String × String) → Prop
  | swap {entry other : String × String} (apart : entry.1 ≠ other.1)
      (earlier later : List (String × String)) :
      Retelling (earlier ++ entry :: other :: later) (earlier ++ other :: entry :: later)
  | insert {entry : String × String} (unrelated : entry.1 ∉ watched)
      (earlier later : List (String × String)) :
      Retelling (earlier ++ later) (earlier ++ entry :: later)

/-- An environment is told in another way, after any number of changes. -/
def Retold : List (String × String) → List (String × String) → Prop :=
  Relation.ReflTransGen Retelling

theorem valuesOf_swap {other : String × String} (apart : entry.1 ≠ other.1) :
    valuesOf name (entry :: other :: environment) =
      valuesOf name (other :: entry :: environment) := by
  by_cases here : entry.1 = name
  · have there : other.1 ≠ name := fun there => apart (here.trans there.symm)
    simp [valuesOf, here, there]
  · by_cases there : other.1 = name <;> simp [valuesOf, here, there]

/-- A change keeps the values of all variables that are looked at. -/
theorem Retelling.valuesOf_eq (retelling : Retelling first second) (mem : name ∈ watched) :
    valuesOf name first = valuesOf name second := by
  cases retelling with
  | swap apart earlier later => rw [valuesOf_append, valuesOf_append, valuesOf_swap apart]
  | insert unrelated earlier later =>
      rw [valuesOf_append, valuesOf_append,
        valuesOf_cons_of_ne fun same => unrelated (same ▸ mem)]

theorem Retold.valuesOf_eq (retold : Retold first second) (mem : name ∈ watched) :
    valuesOf name first = valuesOf name second := by
  induction retold with
  | refl => rfl
  | tail _ retelling ih => exact ih.trans (retelling.valuesOf_eq mem)

theorem Retelling.cons (retelling : Retelling first second) (entry : String × String) :
    Retelling (entry :: first) (entry :: second) := by
  cases retelling with
  | swap apart earlier later => exact .swap apart (entry :: earlier) later
  | insert unrelated earlier later => exact .insert unrelated (entry :: earlier) later

theorem Retold.cons (retold : Retold first second) (entry : String × String) :
    Retold (entry :: first) (entry :: second) := by
  induction retold with
  | refl => exact .refl
  | tail _ retelling ih => exact ih.tail (retelling.cons entry)

/-- An entry may move behind others as long as none has its name. -/
theorem retold_behind (apart : ∀ other ∈ first, other.1 ≠ entry.1) :
    Retold (entry :: first ++ second) (first ++ entry :: second) := by
  induction first with
  | nil => exact .refl
  | cons other rest ih =>
      have swapped : Retelling (entry :: other :: (rest ++ second))
          (other :: entry :: (rest ++ second)) :=
        .swap (apart other List.mem_cons_self).symm [] _
      exact .head swapped (Retold.cons (ih fun other mem => apart other (.tail _ mem)) other)

theorem exists_first_of_valuesOf {values : List String}
    (given : valuesOf name environment = value :: values) :
    ∃ earlier later, environment = earlier ++ (name, value) :: later ∧
      (∀ other ∈ earlier, other.1 ≠ name) ∧ valuesOf name later = values := by
  obtain ⟨⟨name', value'⟩, rest, found, rfl, others⟩ := List.map_eq_cons_iff.mp given
  obtain ⟨earlier, later, rfl, apart, named, rfl⟩ := List.filter_eq_cons_iff.mp found
  obtain rfl : name' = name := by simpa using named
  exact ⟨earlier, later, rfl, fun other mem => by simpa using apart other mem, others⟩

/-- Any order will do in which each name has its values in the same order. -/
theorem retold_of_valuesOf_eq (same : ∀ name, valuesOf name first = valuesOf name second) :
    Retold first second := by
  -- The first entry stands in the other order as well, behind entries of other names only,
  -- and the rest is told in the order that is left without it.
  induction first generalizing second with
  | nil =>
      cases second with
      | nil => exact .refl
      | cons entry rest =>
          obtain ⟨name, value⟩ := entry
          have none := same name
          rw [valuesOf_cons_self] at none
          cases none
  | cons entry rest ih =>
      obtain ⟨name, value⟩ := entry
      have here := same name
      rw [valuesOf_cons_self] at here
      obtain ⟨earlier, later, rfl, apart, after⟩ := exists_first_of_valuesOf here.symm
      have none : valuesOf name earlier = [] := by
        simpa [valuesOf] using apart
      have others : ∀ other, valuesOf other rest = valuesOf other (earlier ++ later) := by
        intro other
        by_cases named : name = other
        · subst named
          rw [valuesOf_append, none, after]
          rfl
        · have kept := same other
          rw [valuesOf_append, valuesOf_cons_of_ne named, valuesOf_cons_of_ne named] at kept
          rw [kept, valuesOf_append]
      exact (Retold.cons (ih others) (name, value)).trans (retold_behind apart)

theorem readable_iff : Readable environment ↔ ∀ switch : Switch,
    ∀ value ∈ valuesOf switch.name environment, ∀ error, ¬ Spoils (switch.name, value) error := by
  constructor
  · exact fun readable switch value mem => readable _ (mem_valuesOf.mp mem)
  · rintro fine ⟨_, value⟩ mem error ⟨switch, word, rfl, spoils⟩
    exact fine switch value (mem_valuesOf.mpr mem) error ⟨switch, word, rfl, spoils⟩

theorem DescribedBy.of_valuesOf_eq (described : settings.DescribedBy first)
    (same : ∀ name ∈ watched, valuesOf name first = valuesOf name second) :
    settings.DescribedBy second where
  switches switch := same _ switch.name_mem_watched ▸ described.switches switch
  dumpPath := same dumpPathVariable (by decide) ▸ described.dumpPath
  alloc := described.alloc

/-- What is read depends on the values of the variables that are looked at, and on nothing
else about the environment. -/
theorem ofVariables_ok_of_valuesOf_eq (read : ofVariables first = .ok settings)
    (same : ∀ name ∈ watched, valuesOf name first = valuesOf name second) :
    ofVariables second = .ok settings := by
  obtain ⟨readable, described⟩ := ofVariables_eq_ok_iff.mp read
  refine ofVariables_eq_ok_iff.mpr ⟨?_, described.of_valuesOf_eq same⟩
  rw [readable_iff] at readable ⊢
  intro switch
  rw [← same _ switch.name_mem_watched]
  exact readable switch

theorem Retold.ofVariables_eq_ok_iff (retold : Retold first second) :
    ofVariables first = .ok settings ↔ ofVariables second = .ok settings :=
  ⟨fun read => ofVariables_ok_of_valuesOf_eq read fun _ mem => retold.valuesOf_eq mem,
    fun read => ofVariables_ok_of_valuesOf_eq read fun _ mem => (retold.valuesOf_eq mem).symm⟩

/-- Variables are read exactly if no switch is given a value that stands for nothing, and of
several such values the first is named.  What is read is told by the last value of each
switch and the last path that is not empty, with the standard names of allocators.  So an
environment may be told in any way: every order is one that keeps the values of each name in
theirs, and however it is told, with whatever in between that nothing looks at, the same
settings are read. -/
theorem ofVariables_reads_last (environment : List (String × String)) :
    ((∃ error, ofVariables environment = .error error) ↔
      ∃ entry ∈ environment, ∃ error, Spoils entry error) ∧
    (∀ error, ofVariables environment = .error error ↔ SpoiledFirst environment error) ∧
    (∀ settings, ofVariables environment = .ok settings ↔
      Readable environment ∧ settings.DescribedBy environment) ∧
    (∀ other, (∀ name, valuesOf name environment = valuesOf name other) →
      Retold environment other) ∧
    ∀ other, Retold environment other → ∀ settings,
      ofVariables environment = .ok settings ↔ ofVariables other = .ok settings := by
  refine ⟨?_, fun error => ofVariables_eq_error_iff, fun settings => ofVariables_eq_ok_iff,
    fun other => retold_of_valuesOf_eq, fun other retold settings => retold.ofVariables_eq_ok_iff⟩
  simp only [ofVariables_eq_error_iff, exists_spoiledFirst_iff]

/-- Calls are switched on and off again and there are three paths, the last of them empty.
Elsewhere a value that stands for nothing comes before a good one of its name and before
another bad one. -/
theorem ofVariables_reads_last_repeated :
    let given := [(callsVariable, "\tYES "), (dumpPathVariable, "first"), (callsVariable, "0"),
      (branchesVariable, "On"), (dumpPathVariable, "second"), (dumpPathVariable, "")]
    let told := [("PATH", "/bin"), (callsVariable, "\tYES "), (callsVariable, "0"),
      (dumpPathVariable, "first"), (branchesVariable, "On"), (dumpPathVariable, "second"),
      (dumpPathVariable, "")]
    let spoiled := [(callsVariable, "1"), (branchesVariable, " Maybe"), (branchesVariable, "1"),
      (callsVariable, "2")]
    let settings : Settings := ⟨false, false, true, .standard, some "second"⟩
    settings.DescribedBy given ∧ Retold given told ∧ ofVariables told = .ok settings ∧
      ofVariables spoiled = .error (.settings (.notBoolean branchesVariable "maybe")) := by
  intro given told spoiled settings
  have read : ofVariables given = .ok settings := by decide +kernel
  have same (name : String) : valuesOf name given = valuesOf name told.tail := by
    change valuesOf name ([_] ++ _ :: _ :: _) = valuesOf name ([_] ++ _ :: _ :: _)
    rw [valuesOf_append, valuesOf_append, valuesOf_swap (by decide)]
  obtain ⟨-, -, describes, reorders, retells⟩ := ofVariables_reads_last given
  have retold : Retold given told := (reorders told.tail same).tail (.insert (by decide) [] _)
  have begun : ofVariables [(callsVariable, "1")] = .ok ⟨false, true, false, .standard, none⟩ := by
    decide +kernel
  have spoils : Spoils (branchesVariable, " Maybe")
      (.settings (.notBoolean branchesVariable "maybe")) :=
    ⟨.branches, "maybe", rfl, spells_iff.mpr (by decide +kernel), by decide, rfl⟩
  refine ⟨((describes settings).mp read).2, retold, (retells told retold settings).mp read, ?_⟩
  exact ((ofVariables_reads_last spoiled).2.1 _).mpr
    ⟨[(callsVariable, "1")], _, _, rfl, (ofVariables_eq_ok_iff.mp begun).1, spoils⟩

end FlowProfile.Settings
