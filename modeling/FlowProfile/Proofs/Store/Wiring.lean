/-
# What passes are handed

A pass asks the registry for the profile of its function and for the counters of slots, and
makes code add to what it was handed.  The registry grows by that as a store without places
changes, and what the pass was handed is there for good: a counter that the code has got is
the cell that the registry has for the function from then on.
-/

import FlowProfile.Proofs.Store.Names
import FlowProfile.Proofs.Weave.Additions
import FlowProfile.Proofs.Weave.Relocation
import FlowProfile.Session.Office

namespace FlowProfile

/-- All that was handed to a pass is what the registry has for the function. -/
def Grant.Fits (grant : Grant) (registry : Registry) (function : String) : Prop :=
  ∀ slot place, grant.place? slot = some place → registry.place? function slot = some place

namespace Registry

variable {registry registry' : Registry} {function : String} {f : Func} {settings : Settings}
  {memory : Counters}

/-- An exchange leaves a counter alone, or it exchanges the name of one of the function's
counters for its cell. -/
def Wires (registry : Registry) (function : String) (move : Counter → Counter) : Prop :=
  ∀ counter, move counter = counter ∨
    ∃ measure, counter = .owned registry.name function measure ∧
      registry.counter? function measure = some (move counter)

/-- What a pass told by names comes to in cells: nothing but an exchange, which reaches all
counters that the pass has brought along. -/
structure Wired (registry : Registry) (f : Func) (named outcome : Outcome)
    (move : Counter → Counter) : Prop where
  wires : registry.Wires f.name move
  outcome_eq : outcome = named.relocate move
  reaches : ∀ counter ∈ named.func.counters, counter ∈ f.counters ∨
    ∃ measure, counter = .owned registry.name f.name measure ∧
      registry.counter? f.name measure = some (move counter)

theorem wires_wire {grant : Grant} (fits : grant.Fits registry function) :
    registry.Wires function (registry.wire function grant) := by
  intro counter
  cases counter with
  | cell name => exact .inl rfl
  | placed store place part => exact .inl rfl
  | owned store name measure =>
      cases handed : grant.place? measure.slot? with
      | none => exact .inl (by simp only [wire, handed])
      | some place =>
          by_cases own : store = registry.name ∧ name = function
          · obtain ⟨rfl, rfl⟩ := own
            refine .inr ⟨measure, rfl, ?_⟩
            simp [wire, handed, counter?, fits _ _ handed]
          · exact .inl (by simp only [wire, handed, if_neg own])

/-- A name of a counter that was handed to the pass is exchanged for it. -/
theorem wire_of_handed {grant : Grant} (fits : grant.Fits registry function) {measure : Measure}
    (handed : (grant.place? measure.slot?).isSome = true) :
    registry.counter? function measure =
      some (registry.wire function grant (.owned registry.name function measure)) := by
  obtain ⟨place, here⟩ := Option.isSome_iff_exists.mp handed
  simp [wire, here, counter?, fits _ _ here]

/-- A pass that was handed something. -/
theorem wired_of_fits {grant : Grant} (fits : grant.Fits registry f.name) {named : Outcome}
    (reaches : ∀ counter ∈ named.func.counters, counter ∈ f.counters ∨
      ∃ measure, counter = .owned registry.name f.name measure ∧
        (grant.place? measure.slot?).isSome = true) :
    registry.Wired f named (named.relocate (registry.wire f.name grant))
      (registry.wire f.name grant) where
  wires := wires_wire fits
  outcome_eq := rfl
  reaches counter mem := by
    refine (reaches counter mem).imp_right ?_
    rintro ⟨measure, rfl, handed⟩
    exact ⟨measure, rfl, wire_of_handed fits handed⟩

/-- A pass that was handed nothing and has left the function's counters as they were. -/
theorem wired_of_eq {named : Outcome} (same : named.func = f) :
    registry.Wired f named named id where
  wires _ := .inl rfl
  outcome_eq := by rw [Outcome.relocate, Func.relocate_id]
  reaches counter mem := .inl (same ▸ mem)

/-! ## The passes -/

theorem obtain_of_names {shape : Except Error Shape} {base : Store} {profile : Profile}
    {created : Bool}
    (obtained : registry.names.obtain function shape = .ok (base, profile, created)) :
    ∃ middle holding, registry.obtain function shape = .ok (middle, holding, created) ∧
      middle.names = base ∧ holding.profile = profile := by
  rw [obtain_names] at obtained
  cases made : registry.obtain function shape with
  | error error =>
      rw [made] at obtained
      cases obtained
  | ok answer =>
      obtain ⟨middle, holding, created'⟩ := answer
      rw [made] at obtained
      cases obtained
      exact ⟨middle, holding, rfl, rfl, rfl⟩

theorem obtain_error_of_names {shape : Except Error Shape} {error : Error}
    (refused : registry.names.obtain function shape = .error error) :
    registry.obtain function shape = .error error := by
  rw [obtain_names] at refused
  cases made : registry.obtain function shape with
  | error error' =>
      rw [made] at refused
      cases refused
      rfl
  | ok answer =>
      rw [made] at refused
      cases refused

/-- A pass may be handed the profile alone. -/
theorem fits_place {holding : Holding} (known : registry.holding? function = some holding) :
    (⟨holding.place, []⟩ : Grant).Fits registry function := by
  intro slot place handed
  cases slot with
  | none => rw [place?_of_known known, ← handed]; rfl
  | some slot => cases handed

/-- What the pass before the optimizer does to a registry, in one with its outcome `named`, by
which it leaves the store `store'` when it is told by names. -/
structure Passes (registry registry' : Registry) (f : Func) (store' : Store)
    (named outcome : Outcome) : Prop where
  grows : registry.Grows registry'
  names_eq : registry'.names = store'
  wired : ∃ move, registry'.Wired f named outcome move

/-- Where only the profile was asked for. -/
theorem passes_of_obtain {middle : Registry} {holding : Holding} {created : Bool}
    (obtained : registry.obtain f.name f.shape = .ok (middle, holding, created))
    {named : Outcome} (same : named.func = f) :
    registry.Passes middle f middle.names named
      (named.relocate (middle.wire f.name ⟨holding.place, []⟩)) := by
  obtain ⟨grows, known⟩ := grows_obtain obtained
  exact ⟨grows, rfl, _, wired_of_fits (fits_place known) fun counter mem => .inl (same ▸ mem)⟩

/-- Where the slots agree with the function's blocks, all of its branches get counters. -/
theorem claims_of_fits {middle : Registry} {holding : Holding} {created : Bool}
    (obtained : registry.obtain f.name f.shape = .ok (middle, holding, created))
    (fits : holding.profile.slots.fits f.blocks.size = true) :
    ∃ holding' issued' cells,
      (holding.ensure f.blocks.size).claimAll middle.issued (Probe.branchSites f) =
          .ok (holding', issued', cells) ∧
        holding'.profile =
          { holding.profile with slots := Probe.branchSlots holding.profile.slots f } ∧
        registry.Grows (middle.put f.name holding' issued') ∧
        (∀ slot ∈ Probe.branchSites f,
          ((⟨holding'.place, cells⟩ : Grant).place? (some slot)).isSome = true) ∧
        (⟨holding'.place, cells⟩ : Grant).Fits (middle.put f.name holding' issued') f.name := by
  obtain ⟨grows, known⟩ := grows_obtain obtained
  have sized := holding.profile_ensure f.blocks.size
  have inside : ∀ slot ∈ Probe.branchSites f,
      slot < (holding.ensure f.blocks.size).profile.slots.size := by
    intro slot site
    obtain ⟨block, found, -⟩ := Probe.mem_branchSites.mp site
    rw [sized, Slots.size_ensure_eq_iff.mpr fits]
    exact Func.lt_size_of_block? found
  obtain ⟨holding', issued', cells, claimed, profile⟩ :=
    Holding.profile_claimAll middle.issued inside
  obtain ⟨extended, slots, placed⟩ := Holding.extends_claimAll claimed
  rw [Holding.place?_ensure] at extended
  refine ⟨holding', issued', cells, claimed, ?_, grows.trans (grows_put ?_), ?_, ?_⟩
  · rw [profile, sized]
    rfl
  · rw [place?_of_known known]
    exact extended
  · intro slot site
    rw [← slots] at site
    obtain ⟨cell, mem, rfl⟩ := List.mem_map.mp site
    exact List.lookup_isSome_iff.mpr ⟨cell, mem, beq_self_eq_true _⟩
  · intro slot place handed
    rw [place?_of_known (holding?_put_self ..)]
    cases slot with
    | none => exact handed
    | some slot =>
        obtain ⟨before, after, split, -⟩ := List.lookup_eq_some_iff.mp handed
        have mem : (slot, place) ∈ cells := by
          rw [show cells = before ++ (slot, place) :: after from split]
          exact List.mem_append_right _ List.mem_cons_self
        exact placed (slot, place) mem

theorem passes_before (registry : Registry) (settings : Settings) (memory : Counters) (f : Func) :
    registry.Passes (registry.before settings memory f).1 f
      (Probe.Before.run settings (registry.ledger memory) registry.names f).1
      (Probe.Before.run settings (registry.ledger memory) registry.names f).2
      (registry.before settings memory f).2 := by
  have nothing {named : Outcome} (same : named.func = f) :
      registry.Passes registry f registry.names named named :=
    ⟨.refl _, rfl, id, wired_of_eq same⟩
  rcases ran : Probe.Before.run settings (registry.ledger memory) registry.names f with
    ⟨store', named⟩
  cases Probe.Before.ends_of_run ran with
  | misread read =>
      simp only [before, grant, ran, read]
      exact nothing rfl
  | idle read empty =>
      simp only [before, grant, ran, read, empty, if_true]
      exact nothing rfl
  | shapeless read nonempty obtained =>
      simp only [before, grant, ran, read, nonempty, Bool.false_eq_true, if_false,
        obtain_error_of_names obtained]
      exact nothing rfl
  | unconcerned read nonempty obtained apart =>
      obtain ⟨middle, holding, here, rfl, rfl⟩ := obtain_of_names obtained
      simp only [Probe.Before.concerns, Bool.or_eq_false_iff] at apart
      simp only [before, grant, ran, read, nonempty, Bool.false_eq_true, if_false, here,
        apart.1.1, Bool.false_and]
      exact passes_of_obtain here rfl
  | refused read nonempty obtained checked =>
      obtain ⟨middle, holding, here, rfl, rfl⟩ := obtain_of_names obtained
      simp only [before, grant, ran, read, nonempty, Bool.false_eq_true, if_false, here,
        Outcome.refused, Except.isOk, Except.toBool, Bool.and_false]
      exact passes_of_obtain here rfl
  | @changed flags base profile created read nonempty obtained concerned checked =>
      obtain ⟨middle, holding, here, rfl, rfl⟩ := obtain_of_names obtained
      have fits := (Probe.Before.check_eq_ok_iff.mp checked).2
      simp only [before, grant, ran, read, nonempty, Bool.false_eq_true, if_false, here,
        Except.isOk, Except.toBool, Bool.and_true]
      have kept : middle.names.profile? f.name = some holding.profile :=
        known_names (grows_obtain here).2
      -- what the flags permit was handed out: all cells of the profile, and those of the branches
      have reaches {grant : Grant} {registry' : Registry} (name : registry'.name = middle.name)
          (branches : flags.branches = true → ∀ slot ∈ Probe.branchSites f,
            (grant.place? (some slot)).isSome = true) :
          ∀ counter ∈ (Probe.Before.change settings flags (registry.ledger memory) middle.names
            holding.profile f).2.func.counters, counter ∈ f.counters ∨
              ∃ measure, counter = .owned registry'.name f.name measure ∧
                (grant.place? measure.slot?).isSome = true := by
        refine Probe.Before.countsOnly_change (fun _ mem => .inl mem) (fun measure permits => ?_) _
        refine .inr ⟨measure, by rw [name]; rfl, ?_⟩
        cases measure with
        | calls | size | count => rfl
        | taken slot | total slot => exact branches permits.1 slot permits.2
      cases on : flags.branches with
      | false =>
          simp only [Bool.false_eq_true, if_false]
          obtain ⟨grows, known⟩ := grows_obtain here
          refine ⟨grows, ?_, _, wired_of_fits (fits_place known) (reaches rfl ?_)⟩
          · simp only [Probe.Before.change, on, Bool.false_eq_true, if_false]
            exact (Store.put_eq_self kept).symm
          · rw [on]
            intro branches
            cases branches
      | true =>
          obtain ⟨holding', issued', cells, claimed, profile, grows, slots, grantFits⟩ :=
            claims_of_fits here (fits (.inl on))
          simp only [if_true, claimed]
          refine ⟨grows, ?_, _, wired_of_fits grantFits (reaches rfl fun _ => slots)⟩
          simp only [Probe.Before.change, on, if_true, names_put, profile]

/-- The pass after the optimizer makes code add to the profile that is there, and leaves the
registry alone. -/
theorem wired_after (registry : Registry) (settings : Settings) (memory : Counters) (f : Func) :
    ∃ move, registry.Wired f
      (Probe.After.run settings (registry.ledger memory) registry.names f)
      (registry.after settings memory f) move := by
  have only (measure : Measure) (flags : Flags) (permits : flags.Permits (.blank f.name) measure) :
      measure.slot? = none := by
    cases measure with
    | calls | size | count => rfl
    | taken slot | total slot => cases permits.2
  have own : f.CountsOnly (· ∈ f.counters) := fun _ mem => mem
  unfold after
  cases known : registry.holding? f.name with
  | none =>
      refine ⟨id, fun _ => .inl rfl, ?_, ?_⟩
      · rw [Outcome.relocate, Func.relocate_id]
      · refine fun counter mem => .inl ?_
        refine Probe.After.countsOnly_run (.blank f.name) rfl own ?_ counter mem
        intro flags read isSome
        rw [unknown_names known] at isSome
        cases isSome
  | some holding =>
      refine ⟨_, wired_of_fits (fits_place known) ?_⟩
      refine Probe.After.countsOnly_run (.blank f.name) rfl (fun _ mem => .inl mem) ?_
      intro flags read isSome measure permits
      refine .inr ⟨measure, rfl, ?_⟩
      rw [only measure flags permits]
      rfl

/-- Settings that ask for nothing leave the registry to be. -/
theorem before_of_not_asks {settings : Settings} {f : Func}
    (silent : ¬ Session.Asks settings f) (registry : Registry) (memory : Counters) :
    (registry.before settings memory f).1 = registry := by
  have nothing (accepted : Bool) :
      registry.grant settings accepted f = .ok (registry, none) := by
    unfold grant
    cases read : settings.flagsOf f with
    | error error => rfl
    | ok flags =>
        have empty : flags.isEmpty = true := by
          by_contra nonempty
          exact silent ⟨flags, read, Bool.eq_false_iff.mpr nonempty⟩
        simp only [empty, if_true]
  simp only [before, nothing]

/-! ## Compilations -/

/-- Whether an exchange leaves a counter alone or not, the code adds to a counter of before
or to a cell that the registry has for the function. -/
theorem Wired.countsOnly {named outcome : Outcome} {move : Counter → Counter}
    (wired : registry.Wired f named outcome move) :
    outcome.func.CountsOnly fun counter => counter ∈ f.counters ∨
      ∃ measure, registry.counter? f.name measure = some counter := by
  intro counter mem
  rw [wired.outcome_eq, Outcome.relocate, Func.counters_relocate] at mem
  obtain ⟨old, inside, rfl⟩ := List.mem_map.mp mem
  rcases wired.reaches old inside with mine | ⟨measure, -, cell⟩
  · rcases wired.wires old with same | ⟨measure, -, cell⟩
    · rw [same]
      exact .inl mine
    · exact .inr ⟨measure, cell⟩
  · exact .inr ⟨measure, cell⟩

/-- What compiled code adds to that the function has not added to before is a cell that the
registry has for the function. -/
theorem countsOnly_compile {pipeline : Pipeline} (harmless : pipeline.optimizer.Harmless)
    (registry : Registry) (memory : Counters) (f : Func) :
    (registry.compile pipeline memory f).2.func.CountsOnly fun counter => counter ∈ f.counters ∨
      ∃ measure, (registry.compile pipeline memory f).1.counter? f.name measure = some counter := by
  obtain ⟨-, -, move, wired⟩ := registry.passes_before pipeline.settings memory f
  rcases passed : registry.before pipeline.settings memory f with ⟨later, first⟩
  rw [passed] at wired
  dsimp only at wired
  simp only [compile, passed]
  let allowed (counter : Counter) : Prop := counter ∈ f.counters ∨
    ∃ measure, later.counter? f.name measure = some counter
  refine Pipeline.holds_goOn (fun g => g.CountsOnly allowed ∧ g.name = f.name)
    (Func.CountsOnly allowed) ?_ ?_ ?_ fun g here => here.1
  · refine ⟨wired.countsOnly, ?_⟩
    rw [wired.outcome_eq]
    exact (Probe.Before.names_run rfl).2.1
  · rintro g ⟨here, name⟩
    exact ⟨here.optimized harmless, (harmless.name_eq g).trans name⟩
  · rintro g ⟨here, name⟩ counter mem
    obtain ⟨move', wired'⟩ := later.wired_after pipeline.settings memory g
    rcases wired'.countsOnly counter mem with old | ⟨measure, cell⟩
    · exact here counter old
    · exact .inr ⟨measure, name ▸ cell⟩

end Registry

end FlowProfile
