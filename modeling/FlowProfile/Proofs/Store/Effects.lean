/-
# What requests do to the store

No request removes a profile or replaces it by another.  It may create a profile where
there was none, make slots where there were none, and give a slot its counters.
`Effects` says so exactly: what is there after a request was there before or is what the
request has put there.
-/

import FlowProfile.Proofs.Store.Session

namespace FlowProfile

/-- The shape of the function of a name, as it was first met. -/
def Store.shape? (store : Store) (function : String) : Option Shape :=
  (store.profile? function).map Profile.shape

namespace Session

/-- What has become of a store after a request: its shapes and the slots with counters are
those of before and those that come with the request, and no number of slots has
changed. -/
structure Effects (session : Session) (request : Request) (store' : Store) : Prop where
  name_eq : store'.name = session.store.name
  shape_iff : ∀ function shape, store'.shape? function = some shape ↔
    session.store.shape? function = some shape ∨ Creates function shape session request
  size_eq : ∀ function, 0 < (session.store.slotsOf function).size →
    (store'.slotsOf function).size = (session.store.slotsOf function).size
  has_iff : ∀ function index, (store'.slotsOf function).has index = true ↔
    (session.store.slotsOf function).has index = true ∨ Inserts function index session request

end Session

namespace Store

variable {store base : Store} {function other : String} {profile : Profile}

theorem slotsOf_of_known (known : store.profile? function = some profile) :
    store.slotsOf function = profile.slots := by
  rw [slotsOf, known]

theorem slotsOf_of_unknown (unknown : store.profile? function = none) :
    store.slotsOf function = .unsized := by
  rw [slotsOf, unknown]

theorem profile?_put_self (store : Store) (function : String) (profile : Profile) :
    (store.put function profile).profile? function = some profile :=
  Table.get?_insert_self ..

/-- Changing the slots of a profile changes no shape. -/
theorem shape?_put (known : store.profile? function = some profile) (slots : Slots) :
    (store.put function { profile with slots }).shape? other = store.shape? other := by
  by_cases same : function = other
  · subst same
    rw [shape?, profile?_put_self, shape?, known]
    rfl
  · rw [shape?, profile?_put_of_ne same, shape?]

theorem slotsOf_put_of_ne (apart : function ≠ other) (profile : Profile) :
    (store.put function profile).slotsOf other = store.slotsOf other := by
  rw [slotsOf, profile?_put_of_ne apart, slotsOf]

/-- The profile that is looked up is there already, or it is created with the given shape
and without slots. -/
theorem obtain_cases {shape : Except Error Shape} {created : Bool}
    (obtained : store.obtain function shape = .ok (base, profile, created)) :
    (base = store ∧ created = false ∧ store.profile? function = some profile) ∨
      ∃ given, shape = .ok given ∧ created = true ∧ store.profile? function = none ∧
        profile = ⟨given, .unsized⟩ ∧ base = store.put function profile := by
  unfold obtain at obtained
  cases known : store.profile? function with
  | some old =>
      rw [known] at obtained
      cases obtained
      exact .inl ⟨rfl, rfl, rfl⟩
  | none =>
      rw [known] at obtained
      cases shape with
      | error error => cases obtained
      | ok given =>
          cases obtained
          exact .inr ⟨given, rfl, rfl, rfl, rfl, rfl⟩

theorem obtain_eq_error {shape : Except Error Shape} {error : Error}
    (refused : store.obtain function shape = .error error) : shape = .error error := by
  unfold obtain at refused
  split at refused
  · cases refused
  · cases shape with
    | error cause =>
        cases refused
        rfl
    | ok given => cases refused

/-- Looking a profile up, or creating it, changes no slots. -/
theorem slotsOf_obtain {shape : Except Error Shape} {created : Bool}
    (obtained : store.obtain function shape = .ok (base, profile, created)) (other : String) :
    base.slotsOf other = store.slotsOf other := by
  rcases obtain_cases obtained with ⟨rfl, -, -⟩ | ⟨given, -, -, unknown, rfl, rfl⟩
  · rfl
  · by_cases same : function = other
    · subst same
      rw [slotsOf_put, slotsOf_of_unknown unknown]
    · exact slotsOf_put_of_ne same _

/-- A profile that is created brings its shape. -/
theorem shape?_obtain {shape : Except Error Shape} {created : Bool}
    (obtained : store.obtain function shape = .ok (base, profile, created)) (other : String)
    (counted : Shape) :
    base.shape? other = some counted ↔ store.shape? other = some counted ∨
      function = other ∧ store.profile? other = none ∧ shape = .ok counted := by
  rcases obtain_cases obtained with ⟨rfl, -, known⟩ | ⟨given, rfl, -, unknown, rfl, rfl⟩
  · constructor
    · exact .inl
    · rintro (same | ⟨rfl, unknown, -⟩)
      · exact same
      · rw [known] at unknown
        cases unknown
  · by_cases same : function = other
    · subst same
      rw [shape?, profile?_put_self, shape?, unknown]
      simp
    · rw [shape?, profile?_put_of_ne same, shape?]
      simp [same]

/-- Putting back what is there changes nothing. -/
theorem put_eq_self {function : String} {profile : Profile}
    (known : store.profile? function = some profile) : store.put function profile = store := by
  rw [put, Table.insert_eq_self known]

end Store

namespace Slots

theorem isEmpty_eq_false {slots : Slots} (positive : 0 < slots.size) : slots.isEmpty = false := by
  rw [isEmpty, List.isEmpty_eq_false_iff]
  exact List.ne_nil_of_length_pos positive

/-- Slots whose number is known stay as they are. -/
theorem ensure_of_pos {slots : Slots} (positive : 0 < slots.size) (blocks : Nat) :
    slots.ensure blocks = slots := by
  rw [ensure, isEmpty_eq_false positive]
  rfl

variable {slots : Slots} {index : Nat}

theorem lt_size_of_has (populated : slots.has index = true) : index < slots.size :=
  List.mem_range.mp (List.mem_filter.mp (mem_populatedIndices.mpr populated)).1

/-- A slot that has counters keeps them. -/
theorem populate_of_has (populated : slots.has index = true) : slots.populate index = slots := by
  have inside : index < slots.populated.length := lt_size_of_has populated
  have same : slots.populated[index] = true := by
    rw [has, List.getD_eq_getElem?_getD, List.getElem?_eq_getElem inside] at populated
    exact populated
  have kept : slots.populated.set index true = slots.populated := by
    conv => lhs; rw [← same]
    exact List.set_getElem_self inside
  rw [populate, kept]

theorem populatedIndices_sorted (slots : Slots) : slots.populatedIndices.Pairwise (· < ·) :=
  List.Pairwise.filter _ List.pairwise_lt_range

end Slots

namespace Session

variable {session : Session} {request : Request}

theorem Effects.idle (creates : ∀ function shape, ¬ Creates function shape session request)
    (inserts : ∀ function index, ¬ Inserts function index session request) :
    session.Effects request session.store where
  name_eq := rfl
  shape_iff function shape := by simp only [creates, or_false]
  size_eq _ _ := rfl
  has_iff function index := by simp only [inserts, or_false]

/-- A change of the slots of one profile, which may be new. -/
theorem Effects.put {base : Store} {function : String} {profile : Profile} {slots : Slots}
    (name : base.name = session.store.name)
    (shapes : ∀ other shape, base.shape? other = some shape ↔
      session.store.shape? other = some shape ∨ Creates other shape session request)
    (kept : ∀ other, base.slotsOf other = session.store.slotsOf other)
    (known : base.profile? function = some profile)
    (size : 0 < profile.slots.size → slots.size = profile.slots.size)
    (has : ∀ index, slots.has index = true ↔
      profile.slots.has index = true ∨ Inserts function index session request)
    (apart : ∀ other index, Inserts other index session request → other = function) :
    session.Effects request (base.put function { profile with slots }) where
  name_eq := name
  shape_iff other shape := by rw [Store.shape?_put known, shapes]
  size_eq other positive := by
    by_cases same : function = other
    · subst same
      rw [Store.slotsOf_put, ← kept, Store.slotsOf_of_known known] at *
      exact size positive
    · rw [Store.slotsOf_put_of_ne same, kept]
  has_iff other index := by
    by_cases same : function = other
    · subst same
      rw [Store.slotsOf_put, ← kept, Store.slotsOf_of_known known]
      exact has index
    · rw [Store.slotsOf_put_of_ne same, kept]
      exact ⟨.inl, fun either => either.elim id fun inserts =>
        absurd (apart other index inserts).symm same⟩

/-- What the pass before the optimizer does to the store. -/
theorem effects_before (session : Session) (settings : Settings) (f : Func) :
    session.Effects (.before settings f)
      (Probe.Before.run settings session.world.counters session.store f).1 := by
  rcases ran : Probe.Before.run settings session.world.counters session.store f with
    ⟨store', outcome⟩
  have unread {error : Error} (read : settings.flagsOf f = .error error) {flags : Flags} :
      settings.flagsOf f ≠ .ok flags := by
    rw [read]
    exact nofun
  have shapes {flags : Flags} {base : Store} {profile : Profile} {created : Bool}
      (read : settings.flagsOf f = .ok flags) (nonempty : flags.isEmpty = false)
      (obtained : session.store.obtain f.name f.shape = .ok (base, profile, created))
      (function : String) (shape : Shape) : base.shape? function = some shape ↔
        session.store.shape? function = some shape ∨
          Creates function shape session (.before settings f) := by
    have asks : Asks settings f := ⟨flags, read, nonempty⟩
    rw [Store.shape?_obtain obtained]
    simp only [Creates, asks, true_and]
  -- where the pass refuses or has nothing to insert, only the profile itself may be new
  have registers {flags : Flags} {base : Store} {profile : Profile} {created : Bool}
      (read : settings.flagsOf f = .ok flags) (nonempty : flags.isEmpty = false)
      (obtained : session.store.obtain f.name f.shape = .ok (base, profile, created))
      (inserts : ∀ index, ¬ session.Instruments settings f index) :
      session.Effects (.before settings f) base := by
    refine ⟨(Probe.Before.slotsOf_of_obtain obtained).1, shapes read nonempty obtained,
      fun function _ => by rw [Store.slotsOf_obtain obtained], fun function index => ?_⟩
    · rw [Store.slotsOf_obtain obtained]
      simp only [Inserts, inserts, and_false, or_false]
  cases Probe.Before.ends_of_run ran with
  | misread read =>
      refine .idle ?_ ?_
      · rintro function shape ⟨-, -, ⟨flags, read', -⟩, -⟩
        exact unread read read'
      · rintro function index ⟨-, ⟨flags, read', -⟩, -⟩
        exact unread read read'
  | idle read empty =>
      refine .idle ?_ ?_
      · rintro function shape ⟨-, -, ⟨flags, read', nonempty⟩, -⟩
        obtain rfl := Except.ok.inj (read.symm.trans read')
        rw [empty] at nonempty
        cases nonempty
      · rintro function index ⟨-, ⟨flags, read', on⟩, -⟩
        obtain rfl := Except.ok.inj (read.symm.trans read')
        simp [Flags.isEmpty, on] at empty
  | shapeless read nonempty obtained =>
      refine .idle ?_ ?_
      · rintro function shape ⟨-, -, -, measured⟩
        rw [Store.obtain_eq_error obtained] at measured
        cases measured
      · rintro function index ⟨-, -, accepted, -⟩
        rw [ran] at accepted
        cases accepted
  | unconcerned read nonempty obtained apart =>
      refine registers read nonempty obtained ?_
      rintro index ⟨⟨flags, read', on⟩, -⟩
      obtain rfl := Except.ok.inj (read.symm.trans read')
      simp [Probe.Before.concerns, on] at apart
  | refused read nonempty obtained =>
      refine registers read nonempty obtained ?_
      rintro index ⟨-, accepted, -⟩
      rw [ran] at accepted
      cases accepted
  | @changed flags base profile _ read nonempty obtained concerned checked =>
      obtain ⟨name, known, -⟩ := Probe.Before.slotsOf_of_obtain obtained
      have fits := (Probe.Before.check_eq_ok_iff.mp checked).2
      have inserts (index : Nat) : session.Instruments settings f index ↔
          flags.branches = true ∧ f.BranchesAt index := by
        rw [Instruments, ran]
        constructor
        · rintro ⟨⟨flags', read', on⟩, -, here⟩
          obtain rfl := Except.ok.inj (read.symm.trans read')
          exact ⟨on, here⟩
        · rintro ⟨on, here⟩
          exact ⟨⟨flags, read, on⟩, rfl, here⟩
      refine .put name (shapes read nonempty obtained) (Store.slotsOf_obtain obtained) known
        (fun positive => ?_) (fun index => ?_) (fun other index inserts => inserts.1.symm)
      · split
        · next on =>
            have sized := fits (.inl on)
            rw [Slots.fits, Slots.isEmpty_eq_false positive, Bool.false_or, beq_iff_eq] at sized
            rw [Probe.size_branchSlots (fits (.inl on)), sized]
        · rfl
      · simp only [Inserts, true_and, inserts]
        split
        · next on => simp only [Probe.has_branchSlots (fits (.inl on)), on, true_and]
        · next off => simp only [off, Bool.false_eq_true, false_and, or_false]

theorem withSlots_of_unknown {function : String} (unknown : session.store.profile? function = none)
    (change : Slots → Slots × Answer) : session.withSlots function change = (session, .absent) := by
  rw [withSlots, unknown]

theorem withSlots_of_known {function : String} {profile : Profile}
    (known : session.store.profile? function = some profile) (change : Slots → Slots × Answer) :
    session.withSlots function change =
      ({ session with
          store := session.store.put function { profile with slots := (change profile.slots).1 } },
        (change profile.slots).2) := by
  rw [withSlots, known]

/-- Making slots where there are none, or giving one of them its counters, is all that
requests about slots do. -/
theorem effects_withSlots {function : String} {change : Slots → Slots × Answer}
    (creates : ∀ other shape, ¬ Creates other shape session request)
    (unknown : session.store.profile? function = none → ∀ other index,
      ¬ Inserts other index session request)
    (size : ∀ slots : Slots, 0 < slots.size → (change slots).1.size = slots.size)
    (has : ∀ profile, session.store.profile? function = some profile → ∀ index,
      (change profile.slots).1.has index = true ↔
        profile.slots.has index = true ∨ Inserts function index session request)
    (apart : ∀ other index, Inserts other index session request → other = function) :
    session.Effects request (session.withSlots function change).1.store := by
  cases known : session.store.profile? function with
  | none =>
      rw [withSlots_of_unknown known]
      exact .idle creates (unknown known)
  | some profile =>
      rw [withSlots_of_known known]
      exact .put rfl (fun other shape => by simp only [creates, or_false]) (fun _ => rfl) known
        (size profile.slots) (has profile known) apart

/-- A compilation does to the profiles what its first stage does. -/
theorem store_next_compile (session : Session) (pipeline : Pipeline) (f : Func) :
    (session.next (.compile pipeline f)).store =
      (Probe.Before.run pipeline.settings session.world.counters session.store f).1 := by
  show (pipeline.compile session.world.counters (some session.store) f).1.getD
    session.store = _
  rw [Pipeline.store_of_compile]
  rfl

/-- Adding to a counter by hand leaves the profiles alone. -/
theorem store_next_bump (session : Session) (function : String) (measure : Measure)
    (amount : UInt64) : (session.next (.bump function measure amount)).store = session.store := by
  rw [next, perform]
  split
  · rfl
  · split <;> rfl

/-- What a request does to the store. -/
theorem effects (session : Session) (request : Request) :
    session.Effects request (session.next request).store := by
  cases request with
  | look function => exact .idle (fun _ _ => id) (fun _ _ => id)
  | slot function index => exact .idle (fun _ _ => id) (fun _ _ => id)
  | populated function => exact .idle (fun _ _ => id) (fun _ _ => id)
  | after settings f => exact .idle (fun _ _ => id) (fun _ _ => id)
  | run f limit args => exact .idle (fun _ _ => id) (fun _ _ => id)
  | dump active => exact .idle (fun _ _ => id) (fun _ _ => id)
  | bump function measure amount =>
      rw [store_next_bump]
      exact .idle (fun _ _ => id) (fun _ _ => id)
  | obtain function shape =>
      rw [next, perform]
      cases obtained : session.store.obtain function shape with
      | error error =>
          refine .idle ?_ (fun _ _ => id)
          rintro other given ⟨-, -, made⟩
          rw [Store.obtain_eq_error obtained] at made
          cases made
      | ok result =>
          obtain ⟨base, profile, created⟩ := result
          exact
            { name_eq := (Probe.Before.slotsOf_of_obtain obtained).1
              shape_iff := Store.shape?_obtain obtained
              size_eq := fun other _ => by rw [Store.slotsOf_obtain obtained]
              has_iff := fun other index => by
                rw [Store.slotsOf_obtain obtained]
                simp only [Inserts, or_false] }
  | ensure function blocks =>
      refine effects_withSlots (fun _ _ => id) (fun _ _ _ => id) ?_ ?_ nofun
      · intro slots positive
        rw [Slots.ensure_of_pos positive]
      · intro profile known index
        rw [Slots.has_ensure]
        simp only [Inserts, or_false]
  | insert function index =>
      refine effects_withSlots (fun _ _ => id) ?_ ?_ ?_ ?_
      · rintro unknown other slot ⟨rfl, -, inside⟩
        rw [Store.slotsOf_of_unknown unknown] at inside
        cases inside
      · intro slots _
        split
        · exact Slots.size_populate ..
        · rfl
      · intro profile known slot
        simp only [Inserts, true_and, Store.slotsOf_of_known known]
        split
        · next inside =>
            rw [Slots.has_populate]
            by_cases same : index = slot
            · subst same
              simp [inside]
            · simp [same]
        · next outside =>
            simp only [iff_self_or]
            rintro ⟨rfl, inside⟩
            exact absurd inside outside
      · rintro other slot ⟨same, -⟩
        exact same.symm
  | before settings f => exact effects_before session settings f
  | compile pipeline f =>
      obtain ⟨name, shapes, size, has⟩ := effects_before session pipeline.settings f
      rw [store_next_compile]
      exact ⟨name, shapes, size, has⟩

end Session

end FlowProfile
