/-
# What lasts in a store

Compiled code holds on to the cells that were handed out for it, for as long as it runs, and
a report reads the cells that the registry has then.  Both are the same cells only if a
profile, once created, stays the profile of its name and at its place, with its shape, with
the number of its slots once there are any, and with the counters of each slot once they
were made.

This holds through requests of any kind, whether they succeed or fail.  What is looked up
later is what was there, no factory is run for it again, and what is new was put there by a
request that can be named.  No place is given out twice.  Cells move by runs and by hand and
not otherwise.
-/

import FlowProfile.Proofs.Store.Ledger
import FlowProfile.Proofs.Store.Movement
import FlowProfile.Proofs.Store.Wiring

namespace FlowProfile

/-- A request that asks for nothing to be changed, or for something that fails. -/
def Request.IsIdle : Request → Prop
  | .look _ | .slot _ _ | .populated _ | .after _ _ | .dump _ => True
  | .obtain _ shape => ∃ error, shape = .error error
  | .before settings f | .compile ⟨settings, _⟩ f => ¬ Session.Asks settings f
  | .ensure _ _ | .insert _ _ | .run _ _ _ | .bump _ _ _ => False

namespace Office

/-- A request adds to a cell: by running code that does, or by hand. -/
def Touches (cell : Counter) (office : Office) : Request → Prop
  | .run f _ _ => cell ∈ f.counters
  | .bump function measure _ => office.registry.counter? function measure = some cell
  | _ => False

/-- What there was of a profile at one moment is there later.  Whoever asks for the profile
gets the one at the same place and of the same shape, and no other is created.  The number
of slots, if there were any, is the only one that is accepted.  A slot that had counters has
them at the same place. -/
structure Lasts (office : Office) (function : String) (holding : Holding) (later : Office) :
    Prop where
  known : ∃ holding', holding'.place = holding.place ∧ holding'.shape = holding.shape ∧
    later.perform (.look function) = (later, .holding holding' false) ∧
    ∀ shape, later.perform (.obtain function shape) = (later, .holding holding' false)
  sized : 0 < holding.cells.length → ∀ blocks,
    later.perform (.ensure function blocks) =
      (later, .plain (.fits (holding.cells.length == blocks)))
  held : ∀ index place, holding.cell? index = some place →
    later.perform (.insert function index) = (later, office.pair place) ∧
      later.perform (.slot function index) = (later, office.pair place)

/-- A reply tells the two cells of a slot, which are those of its measures. -/
def TellsSlot (office : Office) (function : String) (index : Nat) (reply : Reply) : Prop :=
  ∃ taken total, reply = .cells taken total ∧
    office.registry.counter? function (.taken index) = some taken ∧
    office.registry.counter? function (.total index) = some total

variable {office : Office} {function : String} {holding : Holding}

/-! ## One request -/

/-- Places are given out and never taken back. -/
theorem grows_next (office : Office) (request : Request) :
    office.registry.Grows (office.next request).registry := by
  cases request with
  | look | slot | populated | after | run | dump => exact .refl _
  | bump function measure amount =>
      rw [next, perform]
      split <;> exact .refl _
  | obtain function shape =>
      rw [next, perform]
      cases obtained : office.registry.obtain function shape with
      | error error => exact .refl _
      | ok answer => exact (Registry.grows_obtain obtained).1
  | ensure function blocks =>
      rw [next, perform]
      cases known : office.registry.holding? function with
      | none => exact .refl _
      | some holding =>
          refine Registry.grows_put ?_
          rw [Registry.place?_of_known known, Holding.place?_ensure]
          exact .refl ..
  | insert function index =>
      rw [next, perform]
      cases known : office.registry.holding? function with
      | none => exact .refl _
      | some holding =>
          dsimp only
          cases claimed : holding.claim office.registry.issued index with
          | error error => exact .refl _
          | ok answer =>
              refine Registry.grows_put ?_
              rw [Registry.place?_of_known known]
              exact (Holding.extends_claim claimed).1
  | before settings f => exact (office.registry.passes_before settings _ f).grows
  | compile pipeline f => exact (office.registry.passes_before pipeline.settings _ f).grows

/-- Apart from places, a registry changes as a store does. -/
theorem names_next (office : Office) (request : Request) :
    (office.next request).registry.names = (office.session.next request).store := by
  cases request with
  | look | slot | populated | after | run | dump => rfl
  | bump function measure amount =>
      rw [Session.store_next_bump, next, perform]
      split <;> rfl
  | obtain function shape =>
      have stored : office.session.store.obtain function shape = _ :=
        office.registry.obtain_names function shape
      rw [next, perform, Session.next, Session.perform, stored]
      cases office.registry.obtain function shape <;> rfl
  | ensure function blocks =>
      rw [next, perform, Session.next, Session.perform]
      cases known : office.registry.holding? function with
      | none =>
          rw [Session.withSlots_of_unknown (Registry.unknown_names known)]
          rfl
      | some holding =>
          rw [Session.withSlots_of_known (Registry.known_names known)]
          dsimp only
          rw [Registry.names_put, Holding.profile_ensure]
          rfl
  | insert function index =>
      rw [next, perform, Session.next, Session.perform]
      cases known : office.registry.holding? function with
      | none =>
          rw [Session.withSlots_of_unknown (Registry.unknown_names known)]
          rfl
      | some holding =>
          have kept := Registry.known_names known
          rw [Session.withSlots_of_known kept]
          dsimp only
          cases claimed : holding.claim office.registry.issued index with
          | error error =>
              rw [if_neg (Nat.not_lt.mpr (Holding.outside_of_claim claimed).1)]
              exact (Store.put_eq_self kept).symm
          | ok answer =>
              obtain ⟨inside, same⟩ := Holding.profile_claim claimed
              rw [if_pos inside]
              dsimp only
              rw [Registry.names_put, same]
              rfl
  | before settings f => exact (office.registry.passes_before settings _ f).names_eq
  | compile pipeline f =>
      rw [Session.store_next_compile]
      exact (office.registry.passes_before pipeline.settings _ f).names_eq

theorem effects_next (office : Office) (request : Request) :
    office.session.Effects request (office.next request).registry.names :=
  office.names_next request ▸ office.session.effects request

/-! ## Requests in a row -/

theorem serve_cons (office : Office) (request : Request) (requests : List Request) :
    office.serve (request :: requests) = (office.next request).serve requests := rfl

theorem grows_serve (office : Office) (requests : List Request) :
    office.registry.Grows (office.serve requests).registry := by
  induction requests generalizing office with
  | nil => exact .refl _
  | cons request rest ih => exact (office.grows_next request).trans (ih (office.next request))

/-- The shape of a name is for good the one with which its profile was created. -/
theorem shape?_serve (office : Office) (requests : List Request) (function : String)
    (shape : Shape) :
    (office.serve requests).registry.names.shape? function = some shape ↔
      office.registry.names.shape? function = some shape ∨
        Request.Ever next (Session.Creates function shape ∘ session) office requests := by
  induction requests generalizing office with
  | nil => simp only [serve, List.foldl_nil, Request.ever_nil, or_false]
  | cons request rest ih =>
      rw [serve_cons, ih, (office.effects_next request).shape_iff, Request.ever_cons, or_assoc]
      rfl

/-- The number of slots of a name stays as it is once there are any. -/
theorem size_serve (office : Office) (requests : List Request) (function : String)
    (positive : 0 < (office.registry.names.slotsOf function).size) :
    ((office.serve requests).registry.names.slotsOf function).size =
      (office.registry.names.slotsOf function).size := by
  induction requests generalizing office with
  | nil => rfl
  | cons request rest ih =>
      have here : ((office.next request).registry.names.slotsOf function).size =
          (office.registry.names.slotsOf function).size :=
        (office.effects_next request).size_eq function positive
      rw [serve_cons, ih (office.next request) (by rw [here]; exact positive), here]

/-- The slots with counters are those that had them and those to which they were given. -/
theorem has_serve (office : Office) (requests : List Request) (function : String) (index : Nat) :
    ((office.serve requests).registry.names.slotsOf function).has index = true ↔
      (office.registry.names.slotsOf function).has index = true ∨
        Request.Ever next (Session.Inserts function index ∘ session) office requests := by
  induction requests generalizing office with
  | nil => simp only [serve, List.foldl_nil, Request.ever_nil, or_false]
  | cons request rest ih =>
      rw [serve_cons, ih, (office.effects_next request).has_iff, Request.ever_cons, or_assoc]
      rfl

/-- A profile is there after any requests, at its place, and has at least what it had. -/
theorem known_serve (known : office.registry.holding? function = some holding)
    (requests : List Request) :
    ∃ holding', (office.serve requests).registry.holding? function = some holding' ∧
      holding'.place = holding.place ∧ holding'.shape = holding.shape ∧
      (0 < holding.cells.length → holding'.cells.length = holding.cells.length) ∧
      ∀ index place, holding.cell? index = some place → holding'.cell? index = some place := by
  have kept (slot : Option Nat) {place : Nat} (here : holding.place? slot = some place) :
      (office.serve requests).registry.place? function slot = some place := by
    refine (office.grows_serve requests).place? ?_
    rw [Registry.place?_of_known known, here]
  have names := Registry.known_names known
  cases known' : (office.serve requests).registry.holding? function with
  | none =>
      have here := kept none rfl
      rw [Registry.place?, known'] at here
      cases here
  | some holding' =>
      rw [Registry.place?_of_known known'] at kept
      have names' := Registry.known_names known'
      refine ⟨holding', rfl, Option.some.inj (kept none rfl), ?_, ?_,
        fun index place => kept (some index)⟩
      · have shape := (office.shape?_serve requests function holding.shape).mpr
          (.inl (by rw [Store.shape?, names]; rfl))
        rw [Store.shape?, names'] at shape
        exact Option.some.inj shape
      · intro positive
        have size := office.size_serve requests function
        rw [Store.slotsOf_of_known names, Store.slotsOf_of_known names', Holding.size_profile,
          Holding.size_profile] at size
        exact size positive

/-! ## Asking for what is there -/

theorem perform_look (known : office.registry.holding? function = some holding) :
    office.perform (.look function) = (office, .holding holding false) := by
  rw [perform, known]

theorem perform_obtain (known : office.registry.holding? function = some holding)
    (shape : Except Error Shape) :
    office.perform (.obtain function shape) = (office, .holding holding false) := by
  rw [perform, Registry.obtain, known]

theorem put_eq_self (known : office.registry.holding? function = some holding) :
    { office with registry := office.registry.put function holding office.registry.issued } =
      office := by
  rw [Registry.put, Table.insert_eq_self known]

theorem perform_ensure (known : office.registry.holding? function = some holding)
    (positive : 0 < holding.cells.length) (blocks : Nat) :
    office.perform (.ensure function blocks) =
      (office, .plain (.fits (holding.cells.length == blocks))) := by
  have sized : holding.ensure blocks = holding := by
    rw [Holding.ensure, if_neg]
    rw [List.isEmpty_iff]
    exact List.ne_nil_of_length_pos positive
  rw [perform, known]
  dsimp only
  rw [sized, put_eq_self known]

theorem perform_insert {index place : Nat}
    (known : office.registry.holding? function = some holding)
    (here : holding.cell? index = some place) :
    office.perform (.insert function index) = (office, office.pair place) := by
  rw [perform, known]
  dsimp only
  rw [Holding.claim_of_cell? here]
  dsimp only
  rw [put_eq_self known]

theorem perform_slot {index place : Nat}
    (known : office.registry.holding? function = some holding)
    (here : holding.cell? index = some place) :
    office.perform (.slot function index) = (office, office.pair place) := by
  rw [perform, Registry.place?_of_known known, Holding.place?, here]

theorem perform_populated (known : office.registry.holding? function = some holding) :
    office.perform (.populated function) = (office, .populated holding.populated) := by
  rw [perform, known]

theorem pair_serve (office : Office) (requests : List Request) (place : Nat) :
    (office.serve requests).pair place = office.pair place := by
  rw [pair, (office.grows_serve requests).name_eq, pair]

/-- What there is of a profile is there after any further requests. -/
theorem lasts (known : office.registry.holding? function = some holding)
    (requests : List Request) : office.Lasts function holding (office.serve requests) := by
  obtain ⟨holding', known', place, shape, size, cells⟩ := known_serve known requests
  refine ⟨⟨holding', place, shape, perform_look known', perform_obtain known'⟩, ?_, ?_⟩
  · intro positive blocks
    have sized := size positive
    rw [← sized] at positive ⊢
    exact perform_ensure known' positive blocks
  · intro index place here
    rw [← pair_serve office requests]
    exact ⟨perform_insert known' (cells index place here),
      perform_slot known' (cells index place here)⟩

theorem tellsSlot_pair {index place : Nat}
    (placed : office.registry.place? function (some index) = some place) :
    office.TellsSlot function index (office.pair place) :=
  ⟨_, _, rfl, Registry.counter?_eq_some.mpr ⟨rfl, placed, rfl⟩,
    Registry.counter?_eq_some.mpr ⟨rfl, placed, rfl⟩⟩

/-- Whoever gives a slot its counters is told those that it has from then on. -/
theorem held_of_insert {index : Nat} {taken total : Counter}
    (told : (office.perform (.insert function index)).2 = .cells taken total) :
    ∃ holding place, (office.next (.insert function index)).registry.holding? function =
        some holding ∧ holding.cell? index = some place ∧
      .cells taken total = (office.next (.insert function index)).pair place := by
  rw [perform] at told
  cases known : office.registry.holding? function with
  | none =>
      rw [known] at told
      cases told
  | some holding =>
      rw [known] at told
      dsimp only at told
      cases claimed : holding.claim office.registry.issued index with
      | error error =>
          rw [claimed] at told
          cases told
      | ok answer =>
          obtain ⟨holding', issued, place⟩ := answer
          rw [claimed] at told
          have after : (office.next (.insert function index)).registry =
              office.registry.put function holding' issued := by
            rw [next, perform, known]
            dsimp only
            rw [claimed]
          have same : (office.next (.insert function index)).pair place = office.pair place := by
            simp only [pair, after]
            rfl
          refine ⟨holding', place, ?_, (Holding.extends_claim claimed).2,
            told.symm.trans same.symm⟩
          rw [after]
          exact Registry.holding?_put_self ..

/-! ## What is left alone -/

/-- A request that asks for no change makes none. -/
theorem next_of_isIdle {request : Request} (idle : request.IsIdle) (office : Office) :
    office.next request = office := by
  cases request with
  | look | slot | populated | after | dump => rfl
  | obtain function shape =>
      obtain ⟨error, rfl⟩ := idle
      rw [next, perform, Registry.obtain]
      cases office.registry.holding? function <;> rfl
  | before settings f =>
      show { office with registry := (office.registry.before ..).1 } = office
      rw [Registry.before_of_not_asks idle]
  | compile pipeline f =>
      show { office with registry := (office.registry.before ..).1 } = office
      rw [Registry.before_of_not_asks idle]
  | ensure | insert | run | bump => cases idle

/-- A cell keeps its value through a request that does not add to it. -/
theorem read_next {cell : Counter} {request : Request}
    (untouched : ¬ Touches cell office request) :
    (office.next request).world.counters.read cell = office.world.counters.read cell := by
  cases request with
  | run f limit args =>
      have only : f.CountsOnly (· ∈ f.counters) := fun _ mem => mem
      exact Machine.read_run only untouched limit args office.world
  | bump function measure amount =>
      rw [next, perform]
      split
      · rfl
      · next counter known =>
          apply Counters.read_add_of_ne
          rintro rfl
          exact untouched known
  | obtain function shape =>
      rw [next, perform]
      split <;> rfl
  | ensure function blocks =>
      rw [next, perform]
      split <;> rfl
  | insert function index =>
      rw [next, perform]
      split
      · rfl
      · split <;> rfl
  | look | slot | populated | before | after | compile | dump => rfl

/-- A cell moves only when a request adds to it. -/
theorem read_serve {cell : Counter} {requests : List Request}
    (untouched : ¬ Request.Ever next (Touches cell) office requests) :
    (office.serve requests).world.counters.read cell = office.world.counters.read cell := by
  induction requests generalizing office with
  | nil => rfl
  | cons request rest ih =>
      rw [Request.ever_cons, not_or] at untouched
      rw [serve_cons, ih untouched.2, read_next untouched.1]

/-! ## The invariant -/

/-- A cell is the one that is reported for a measure of a function. -/
def Reports (office : Office) (function : String) (cell : Counter) : Prop :=
  ∃ measure, office.registry.counter? function measure = some cell ∧
    office.session.world.counters.read (office.session.store.counter function measure) =
      office.world.counters.read cell

/-- The cells that compiled code brings along are reported from then on. -/
theorem reports_of_compiled {pipeline : Pipeline} (harmless : pipeline.optimizer.Harmless)
    {f : Func} {compilation : Compilation}
    (compiled : (office.perform (.compile pipeline f)).2 = .plain (.compiled compilation))
    (requests : List Request) {cell : Counter} (mem : cell ∈ compilation.func.counters) :
    cell ∈ f.counters ∨
      ((office.next (.compile pipeline f)).serve requests).Reports f.name cell := by
  have same : (office.registry.compile pipeline office.world.counters f).2 = compilation :=
    Answer.compiled.inj (Reply.plain.inj compiled)
  subst same
  refine (Registry.countsOnly_compile harmless _ _ f cell mem).imp_right ?_
  rintro ⟨measure, here⟩
  have later := ((office.next (.compile pipeline f)).grows_serve requests).counter? here
  refine ⟨measure, later, ?_⟩
  rw [session, Registry.read_ledger]
  exact congrArg _ (Registry.resolve_of_counter? later)

/-- What is true of a store through requests of any kind, from whatever state of it they
set out.  There is one profile for each name.  What there is of a profile lasts, and whoever
gives a slot its counters is told those that it keeps.  A profile has the shape that it was
created with, and counters in exactly the slots to which they were given, which are listed in
increasing order and are told as those of the slot's measures.  No two measures share a cell.  Requests that ask for no change make none,
only runs and additions by hand move cells, and the cells that compiled code brings along are
those that are reported from then on. -/
theorem store_invariant (office : Office) (requests : List Request) :
    let later := office.serve requests
    later.registry.holdings.names.Nodup ∧
      (∀ function holding, office.registry.holding? function = some holding →
        office.Lasts function holding later) ∧
      (∀ function index taken total,
        (office.perform (.insert function index)).2 = .cells taken total →
          let inserted := (office.next (.insert function index)).serve requests
          inserted.TellsSlot function index (.cells taken total) ∧
            inserted.perform (.insert function index) = (inserted, .cells taken total) ∧
            inserted.perform (.slot function index) = (inserted, .cells taken total)) ∧
      (∀ function holding, later.registry.holding? function = some holding →
        (office.registry.names.shape? function = some holding.shape ∨
          Request.Ever next (Session.Creates function holding.shape ∘ session) office requests) ∧
        ∃ cells, later.perform (.populated function) = (later, .populated cells) ∧
          (cells.map Prod.fst).Pairwise (· < ·) ∧
          (∀ index, index ∈ cells.map Prod.fst ↔
            (office.registry.place? function (some index)).isSome = true ∨
              Request.Ever next (Session.Inserts function index ∘ session) office requests) ∧
          ∀ cell ∈ cells, later.TellsSlot function cell.1 (later.pair cell.2) ∧
            later.perform (.slot function cell.1) = (later, later.pair cell.2)) ∧
      (∀ function shape,
        Request.Ever next (Session.Creates function shape ∘ session) office requests →
          ∃ holding, later.registry.holding? function = some holding ∧ holding.shape = shape) ∧
      (office.registry.Sound → later.registry.Sound ∧
        ∀ function function' measure measure' cell,
          later.registry.counter? function measure = some cell →
            later.registry.counter? function' measure' = some cell →
              function = function' ∧ measure = measure') ∧
      (∀ request, request.IsIdle → later.next request = later) ∧
      (∀ cell, ¬ Request.Ever next (Touches cell) office requests →
        later.world.counters.read cell = office.world.counters.read cell) ∧
      ∀ pipeline f compilation, pipeline.optimizer.Harmless →
        (office.perform (.compile pipeline f)).2 = .plain (.compiled compilation) →
          ∀ cell ∈ compilation.func.counters, cell ∈ f.counters ∨
            ((office.next (.compile pipeline f)).serve requests).Reports f.name cell := by
  intro later
  refine ⟨?_, ?_, ?_, ?_, ?_, ?_, ?_, ?_, ?_⟩
  · refine (Table.names_sorted _).imp ?_
    rintro name _ less rfl
    exact String.lt_irrefl name less
  · intro function holding known
    exact lasts known requests
  · intro function index taken total told
    obtain ⟨holding, place, known, here, same⟩ := held_of_insert told
    rw [same]
    refine ⟨?_, (lasts known requests).held index place here⟩
    rw [← pair_serve _ requests]
    refine tellsSlot_pair (((office.next _).grows_serve requests).place? ?_)
    rw [Registry.place?_of_known known]
    exact here
  · intro function holding known
    have names := Registry.known_names known
    refine ⟨?_, holding.populated, perform_populated known, ?_, fun index => ?_, ?_⟩
    · refine (office.shape?_serve requests function holding.shape).mp ?_
      rw [Store.shape?, names]
      rfl
    · rw [Holding.populated_slots]
      exact Slots.populatedIndices_sorted _
    · rw [Holding.populated_slots, Slots.mem_populatedIndices, ← Registry.has_names, ← has_serve,
        Store.slotsOf_of_known names]
    · intro cell mem
      have here := Holding.mem_populated.mp mem
      refine ⟨tellsSlot_pair ?_, perform_slot known here⟩
      rw [Registry.place?_of_known known]
      exact here
  · intro function shape created
    have here := (office.shape?_serve requests function shape).mpr (.inr created)
    rw [Store.shape?, Registry.profile?_names, Option.map_map] at here
    exact Option.map_eq_some_iff.mp here
  · intro sound
    have sound' := (office.grows_serve requests).sound sound
    exact ⟨sound', fun _ _ _ _ _ here there => sound'.eq_of_counter? here there⟩
  · intro request idle
    exact next_of_isIdle idle _
  · intro cell untouched
    exact read_serve untouched
  · intro pipeline f compilation harmless compiled cell mem
    exact reports_of_compiled harmless compiled requests mem

/-- An office that has given its first place to a profile and the next to the second of the
profile's two slots. -/
def sample : Office :=
  serve ⟨.empty "profiles", Sample.world⟩
    [.obtain "choose" (.ok ⟨0, 2, 4⟩), .ensure "choose" 2, .insert "choose" 1]

theorem store_invariant_choose :
    let requests := [Request.obtain "other" (.ok default), .obtain "choose" (.error .outOfBounds),
      .ensure "choose" 5, .insert "choose" 0,
      .compile Sample.pipeline (Sample.choose Sample.counting)]
    let later := sample.serve requests
    (later.perform (.ensure "choose" 3)).2 = .plain (.fits false) ∧
      (later.perform (.ensure "choose" 2)).2 = .plain (.fits true) ∧
      (later.perform (.insert "choose" 1)).2 = .cells (.placed "profiles" 1 .taken)
        (.placed "profiles" 1 .total) ∧
      (∃ holding, later.registry.holding? "other" = some holding ∧ holding.shape = default) ∧
      later.registry.Sound := by
  intro requests later
  obtain ⟨-, lasts, -, -, creates, apart, -⟩ := store_invariant sample requests
  have known : sample.registry.holding? "choose" = some ⟨0, ⟨0, 2, 4⟩, [none, some 1]⟩ := by
    decide
  have sound : sample.registry.Sound := (grows_serve _ _).sound (Registry.sound_empty _)
  obtain ⟨-, sized, held⟩ := lasts "choose" _ known
  have here (blocks : Nat) := congrArg Prod.snd (sized (by decide) blocks)
  refine ⟨here 3, here 2, congrArg Prod.snd (held 1 1 rfl).1, ?_, (apart sound).1⟩
  have unknown : sample.session.store.profile? "other" = none := by decide
  exact creates "other" default ⟨[], _, _, rfl, rfl, unknown, rfl⟩

end Office

end FlowProfile
