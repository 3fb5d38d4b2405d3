/-
# Checks that are made twice

A pass looks at everything it could refuse before it changes anything, and its parts look
again at what they rely on, when other parts have changed the function already.  Nothing
that a pass does makes the second look end otherwise than the first: it calls no routine
by name, keeps every block in its place, and makes as many slots as there are blocks.  So
a pass whose checks have succeeded is a change that cannot fail.
-/

import FlowProfile.Proofs.Weave.Calls

namespace FlowProfile

/-! ## Calls of allocators without a size -/

/-- In a block of the function an allocator is called by name without a size. -/
def AllocSymbols.Misses (symbols : AllocSymbols) (stage : Stage) (f : Func) (name : String)
    (id : BlockId) : Prop :=
  ∃ block instr, f.block? id = some block ∧ instr ∈ block.instrs ∧
    instr.calledSymbol? = some name ∧ symbols.recognizes stage name = true ∧
    instr.operands.length ≤ symbols.sizeArg

namespace AllocSymbols

variable {symbols : AllocSymbols} {stage : Stage} {f : Func}

theorem lacksSize?_eq_some_iff {instr : Instr} {name : String} :
    symbols.lacksSize? stage instr = some name ↔
      instr.calledSymbol? = some name ∧ symbols.recognizes stage name = true ∧
        instr.operands.length ≤ symbols.sizeArg := by
  unfold lacksSize? recognizesCall
  cases called : instr.calledSymbol? with
  | none => simp
  | some other =>
      by_cases same : other = name
      · simp [same]
      · simp [same]

theorem mem_calls {id position : Nat} {instr : Instr} :
    (id, position, instr) ∈ f.calls ↔
      instr.isCall = true ∧ ∃ block, f.block? id = some block ∧
        block.instrs[position]? = some instr := by
  simp only [Func.calls, List.mem_flatMap, List.mem_filterMap, Prod.exists,
    List.mk_mem_zipIdx_iff_getElem?, Array.getElem?_toList, Func.block?]
  constructor
  · rintro ⟨block, id', found, instr', position', here, kept⟩
    split at kept
    · next isCall =>
        cases kept
        exact ⟨isCall, block, found, here⟩
    · cases kept
  · rintro ⟨isCall, block, found, here⟩
    exact ⟨block, id, found, instr, position, here, if_pos isCall⟩

/-- The check names a call without a size if there is one. -/
theorem checkCalls_cases (symbols : AllocSymbols) (stage : Stage) (f : Func) :
    (symbols.checkCalls stage f = .ok () ∧ ∀ name id, ¬ symbols.Misses stage f name id) ∨
      ∃ name id, symbols.Misses stage f name id ∧ symbols.checkCalls stage f =
        .error (.invalid f.name (.allocationWithoutSize name id symbols.sizeArg)) := by
  unfold checkCalls
  cases first : f.calls.findSome? _ with
  | none =>
      left
      refine ⟨rfl, ?_⟩
      rintro name id ⟨block, instr, found, mem, called, recognized, short⟩
      obtain ⟨position, here⟩ := List.getElem?_of_mem mem
      have isCall : instr.isCall = true := by
        cases instr <;> first | rfl | cases called
      have silent : (symbols.lacksSize? stage instr).map (·, id) = none :=
        List.findSome?_eq_none_iff.mp first (id, position, instr)
          (mem_calls.mpr ⟨isCall, block, found, here⟩)
      have lacks : symbols.lacksSize? stage instr = some name :=
        lacksSize?_eq_some_iff.mpr ⟨called, recognized, short⟩
      rw [lacks] at silent
      cases silent
  | some named =>
      right
      obtain ⟨⟨id, position, instr⟩, mem, here⟩ := List.exists_of_findSome?_eq_some first
      have here : (symbols.lacksSize? stage instr).map (·, id) = some named := here
      obtain ⟨name, lacks, rfl⟩ := Option.map_eq_some_iff.mp here
      obtain ⟨called, recognized, short⟩ := lacksSize?_eq_some_iff.mp lacks
      obtain ⟨-, block, found, here⟩ := mem_calls.mp mem
      exact ⟨name, id, ⟨block, instr, found, List.mem_of_getElem? here, called, recognized, short⟩,
        rfl⟩

theorem checkCalls_eq_ok_iff :
    symbols.checkCalls stage f = .ok () ↔ ∀ name id, ¬ symbols.Misses stage f name id := by
  rcases symbols.checkCalls_cases stage f with ⟨accepted, none⟩ | ⟨name, id, misses, refused⟩
  · exact ⟨fun _ => none, fun _ => accepted⟩
  · rw [refused]
    exact ⟨nofun, fun none => absurd misses (none name id)⟩

/-- A function without calls by name that another one does not have misses no size that the
other one does not miss. -/
theorem checkCalls_of_calls {g : Func}
    (calls : ∀ id block, g.block? id = some block → ∀ instr ∈ block.instrs,
      instr.calledSymbol? = none ∨
        ∃ id' block', f.block? id' = some block' ∧ instr ∈ block'.instrs)
    (checked : symbols.checkCalls stage f = .ok ()) : symbols.checkCalls stage g = .ok () := by
  rw [checkCalls_eq_ok_iff] at checked ⊢
  rintro name id ⟨block, instr, found, mem, called, recognized, short⟩
  rcases calls id block found instr mem with unnamed | ⟨id', block', found', mem'⟩
  · rw [unnamed] at called
    cases called
  · exact checked name id' ⟨block', instr, found', mem', called, recognized, short⟩

end AllocSymbols

/-! ## Changes in a row -/

/-- What holds of a function and is kept by a change holds after the change, made or not. -/
theorem Step.holds_andThen {motive : Func → Prop} {step : Step} {condition : Bool}
    {change : Func → Step} (here : motive step.func)
    (kept : condition = true → motive step.func → motive (change step.func).func) :
    motive (step.andThen condition change).func := by
  rw [func_andThen]
  split
  · next on => exact kept on here
  · exact here

namespace Outcome

/-- A change that does not fail on what a step has made is a further step. -/
theorem ofStep_andThen {step : Step} {condition : Bool} {change : Func → Outcome}
    {sure : Func → Step}
    (succeeds : condition = true → change step.func = .ofStep (sure step.func)) :
    (ofStep step).andThen condition change = .ofStep (step.andThen condition sure) := by
  cases condition with
  | false => rfl
  | true =>
      simp only [andThen, ofStep, succeeds rfl]
      rfl

end Outcome

namespace Retouched

variable {code : BlockId → Block → List Instr} {f f' : Func}

/-- Every block of the outcome is that of a block. -/
theorem origin (retouched : Retouched code f f') {id : BlockId} {image : Block}
    (found : f'.block? id = some image) :
    ∃ block, f.block? id = some block ∧ image.params = block.params ∧
      image.instrs = code id block ∧
      image.terminator.unweighted = block.terminator.unweighted := by
  have inside := Func.lt_size_of_block? found
  rw [retouched.size_eq] at inside
  have here : f.block? id = some f.blocks[id] := Array.getElem?_eq_getElem inside
  obtain ⟨image', found', rest⟩ := retouched.image id _ here
  obtain rfl : image = image' := Option.some.inj (found.symm.trans found')
  exact ⟨_, here, rest⟩

end Retouched

theorem Func.entry_of_nonempty {f : Func} (nonempty : f.blocks.isEmpty = false) :
    ∃ head, f.block? entry = some head := by
  refine ⟨_, Array.getElem?_eq_getElem ?_⟩
  rw [Array.isEmpty_eq_false_iff] at nonempty
  exact Array.size_pos_iff.mpr nonempty

namespace Probe

variable {settings : Settings} {flags : Flags} {counters : Counters} {store : Store}
  {profile : Profile} {f : Func}

/-! ## The pass before the optimizer -/

/-- Probing branches calls nothing. -/
theorem checkCalls_branches {symbols : AllocSymbols} {stage : Stage} (store : Store)
    (checked : symbols.checkCalls stage f = .ok ()) :
    symbols.checkCalls stage (branches store f).func = .ok () := by
  let weave : Weave := ⟨store.name, f.name, true, none, none⟩
  have retouched : Retouched
      (fun id block => block.instrs ++ weave.tail (branchValue f id) id block.terminator) f
      (branches store f).func := Retouched.branches weave rfl rfl rfl
  refine AllocSymbols.checkCalls_of_calls (fun id image found instr mem => ?_) checked
  obtain ⟨block, here, -, instrs, -⟩ := retouched.origin found
  rw [instrs] at mem
  rcases List.mem_append.mp mem with own | probe
  · exact .inr ⟨id, block, here, own⟩
  · exact .inl (weave.calledSymbol?_of_mem_tail probe)

end Probe

namespace Slots

/-- The number of slots fits a function exactly if making them leads to it. -/
theorem size_ensure_eq_iff {slots : Slots} {blocks : Nat} :
    (slots.ensure blocks).size = blocks ↔ slots.fits blocks = true := by
  rw [size_ensure, fits, Bool.or_eq_true, beq_iff_eq]
  split
  · next empty => exact ⟨fun _ => .inl empty, fun _ => rfl⟩
  · next known => exact ⟨.inr, fun either => either.elim (fun empty => absurd empty known) id⟩

theorem size_foldl_populate (slots : Slots) (sites : List Nat) :
    (sites.foldl populate slots).size = slots.size := by
  induction sites generalizing slots with
  | nil => rfl
  | cons site rest ih => rw [List.foldl_cons, ih, size_populate]

end Slots

theorem Profile.checkSlots_eq_ok_iff {profile : Profile} {f : Func} :
    profile.checkSlots f = .ok () ↔ profile.slots.fits f.blocks.size = true := by
  unfold checkSlots
  split
  · next fits => exact ⟨fun _ => fits, fun _ => rfl⟩
  · next other => exact ⟨nofun, fun fits => absurd fits other⟩

theorem Profile.checkSlots_eq_error {profile : Profile} {f : Func} {error : Error}
    (refused : profile.checkSlots f = .error error) :
    profile.slots.isEmpty = false ∧ profile.slots.size ≠ f.blocks.size ∧
      error = .shapeMismatch f.name profile.slots.size f.blocks.size .before := by
  unfold checkSlots at refused
  split at refused
  · cases refused
  · next unfit =>
      rw [Slots.fits, Bool.or_eq_true, beq_iff_eq, not_or] at unfit
      exact ⟨Bool.eq_false_iff.mpr unfit.1, unfit.2, (Except.error.inj refused).symm⟩

namespace Probe

variable {settings : Settings} {flags : Flags} {counters : Counters} {store : Store}
  {profile : Profile} {f : Func}

theorem size_branchSlots {slots : Slots} (fits : slots.fits f.blocks.size = true) :
    (branchSlots slots f).size = f.blocks.size := by
  rw [branchSlots, Slots.size_foldl_populate, Slots.size_ensure_eq_iff.mpr fits]

theorem tryBranches_of_fits {slots : Slots} (fits : slots.fits f.blocks.size = true)
    (store : Store) :
    tryBranches store slots f = (branchSlots slots f, .ofStep (branches store f)) :=
  if_pos (Slots.size_ensure_eq_iff.mpr fits)

theorem tryAllocations_of_ok {symbols : AllocSymbols} {stage : Stage}
    (checked : symbols.checkCalls stage f = .ok ()) (store : Store) :
    tryAllocations symbols stage store f = .ofStep (allocations symbols stage store f) := by
  rw [tryAllocations, checked]

namespace Before

theorem check_eq_ok_iff :
    check settings flags profile f = .ok () ↔
      (flags.allocations = true → settings.alloc.checkCalls .before f = .ok ()) ∧
        (flags.branches = true ∨ flags.feedback = true →
          profile.slots.fits f.blocks.size = true) := by
  have slots : ((if flags.branches || flags.feedback then profile.checkSlots f
        else pure PUnit.unit) = .ok ()) ↔
      (flags.branches = true ∨ flags.feedback = true →
        profile.slots.fits f.blocks.size = true) := by
    rw [← Profile.checkSlots_eq_ok_iff, ← Bool.or_eq_true]
    split
    · next on => exact ⟨fun fits _ => fits, fun fits => fits on⟩
    · next off => exact ⟨fun _ on => absurd on off, fun _ => rfl⟩
  rw [← slots]
  unfold check
  cases flags.allocations with
  | false => simp [pure, Except.pure]
  | true =>
      cases settings.alloc.checkCalls .before f with
      | error error => simp [bind, Except.bind]
      | ok accepted => simp [bind, Except.bind]

theorem check_eq_error {error : Error} (checked : check settings flags profile f = .error error) :
    (flags.allocations = true ∧ settings.alloc.checkCalls .before f = .error error) ∨
      (flags.allocations = true → settings.alloc.checkCalls .before f = .ok ()) ∧
        (flags.branches = true ∨ flags.feedback = true) ∧
          profile.checkSlots f = .error error := by
  unfold check at checked
  have slots (refused : (if flags.branches || flags.feedback then profile.checkSlots f
      else pure PUnit.unit) = .error error) :
      (flags.branches = true ∨ flags.feedback = true) ∧ profile.checkSlots f = .error error := by
    split at refused
    · next on => exact ⟨Bool.or_eq_true_iff.mp on, refused⟩
    · cases refused
  cases asked : flags.allocations with
  | false =>
      rw [asked] at checked
      exact .inr ⟨nofun, slots checked⟩
  | true =>
      rw [asked] at checked
      cases named : settings.alloc.checkCalls .before f with
      | error error' =>
          rw [named] at checked
          cases checked
          exact .inl ⟨rfl, rfl⟩
      | ok accepted =>
          rw [named] at checked
          exact .inr ⟨fun _ => rfl, slots checked⟩

/-- What was checked is found in order by every part of the pass, when its turn comes. -/
theorem perform_eq_change (checked : check settings flags profile f = .ok ()) :
    perform settings flags counters store profile f =
      ((change settings flags counters store profile f).1,
        .ofStep (change settings flags counters store profile f).2) := by
  obtain ⟨calls, fits⟩ := check_eq_ok_iff.mp checked
  let branched := (Step.skip f).andThen flags.branches (branches store)
  let allocated := branched.andThen flags.allocations (allocations settings.alloc .before store)
  let slots := if flags.branches then branchSlots profile.slots f else profile.slots
  have first : (if flags.branches then tryBranches store profile.slots f
      else (profile.slots, .unchanged f [])) = (slots, .ofStep branched) := by
    show _ = (if flags.branches then branchSlots profile.slots f else profile.slots,
      Outcome.ofStep ((Step.skip f).andThen flags.branches (branches store)))
    cases on : flags.branches with
    | false => rfl
    | true =>
        simp only [if_true, tryBranches_of_fits (fits (.inl on))]
        rfl
  have second : (Outcome.ofStep branched).andThen flags.allocations
      (tryAllocations settings.alloc .before store) = .ofStep allocated := by
    refine Outcome.ofStep_andThen fun on => tryAllocations_of_ok ?_ store
    exact Step.holds_andThen (motive := (settings.alloc.checkCalls .before · = .ok ())) (calls on)
      fun _ checked => checkCalls_branches store checked
  have third : (Outcome.ofStep allocated).andThen flags.feedback
      (Feedback.tryApply counters store slots) =
        .ofStep (allocated.andThen flags.feedback (Feedback.apply counters store slots)) := by
    refine Outcome.ofStep_andThen fun on => if_pos ?_
    have branchedSize : branched.func.blocks.size = f.blocks.size :=
      Step.holds_andThen (motive := (·.blocks.size = f.blocks.size)) rfl
        fun _ _ => (sameGraph_branches store f).size_eq
    have size : allocated.func.blocks.size = f.blocks.size :=
      Step.holds_andThen (motive := (·.blocks.size = f.blocks.size)) branchedSize
        fun _ same => (sameGraph_allocations ..).size_eq.trans same
    rw [size]
    show (if flags.branches then branchSlots profile.slots f else profile.slots).fits _ = true
    split
    · have sized := size_branchSlots (fits (.inr on))
      rw [Slots.fits, sized, beq_self_eq_true, Bool.or_true]
    · exact fits (.inr on)
  rw [perform, first]
  show (_, ((Outcome.ofStep branched).andThen _ _).andThen _ _) = _
  rw [second, third]
  rfl

/-- The pass reports a profile that it creates, and not one that it finds. -/
def creation (f : Func) (profile : Profile) (created : Bool) : List Event :=
  if created then [.profileCreated f.name profile.shape] else []

/-- All the ways in which the pass can end: which store it leaves, and with what outcome. -/
inductive Ends (settings : Settings) (counters : Counters) (store : Store) (f : Func) :
    Store → Outcome → Prop
  | misread {error : Error} (read : settings.flagsOf f = .error error) :
      Ends settings counters store f store (.refused f [] error)
  | idle {flags : Flags} (read : settings.flagsOf f = .ok flags) (empty : flags.isEmpty = true) :
      Ends settings counters store f store (.unchanged f [])
  | shapeless {flags : Flags} {error : Error} (read : settings.flagsOf f = .ok flags)
      (nonempty : flags.isEmpty = false) (obtained : store.obtain f.name f.shape = .error error) :
      Ends settings counters store f store (.refused f [] error)
  | unconcerned {flags : Flags} {base : Store} {profile : Profile} {created : Bool}
      (read : settings.flagsOf f = .ok flags) (nonempty : flags.isEmpty = false)
      (obtained : store.obtain f.name f.shape = .ok (base, profile, created))
      (apart : concerns flags = false) :
      Ends settings counters store f base (.unchanged f (creation f profile created))
  | refused {flags : Flags} {base : Store} {profile : Profile} {created : Bool} {error : Error}
      (read : settings.flagsOf f = .ok flags) (nonempty : flags.isEmpty = false)
      (obtained : store.obtain f.name f.shape = .ok (base, profile, created))
      (checked : check settings flags profile f = .error error) :
      Ends settings counters store f base (.refused f (creation f profile created) error)
  | changed {flags : Flags} {base : Store} {profile : Profile} {created : Bool}
      (read : settings.flagsOf f = .ok flags) (nonempty : flags.isEmpty = false)
      (obtained : store.obtain f.name f.shape = .ok (base, profile, created))
      (concerned : concerns flags = true) (checked : check settings flags profile f = .ok ()) :
      Ends settings counters store f (change settings flags counters base profile f).1
        ⟨(change settings flags counters base profile f).2.func,
          creation f profile created ++ (change settings flags counters base profile f).2.events,
          .ok (change settings flags counters base profile f).2.preserved⟩

theorem ends_of_run {store' : Store} {outcome : Outcome}
    (ran : run settings counters store f = (store', outcome)) :
    Ends settings counters store f store' outcome := by
  unfold run at ran
  cases read : settings.flagsOf f with
  | error error =>
      rw [read] at ran
      cases ran
      exact .misread read
  | ok flags =>
      rw [read] at ran
      cases empty : flags.isEmpty with
      | true =>
          simp only [empty, if_true] at ran
          cases ran
          exact .idle read empty
      | false =>
          simp only [empty, Bool.false_eq_true, if_false] at ran
          cases obtained : store.obtain f.name f.shape with
          | error error =>
              rw [obtained] at ran
              cases ran
              exact .shapeless read empty obtained
          | ok result =>
              obtain ⟨base, profile, created⟩ := result
              rw [obtained] at ran
              unfold withProfile at ran
              cases concerned : concerns flags with
              | false =>
                  rw [concerned] at ran
                  cases ran
                  exact .unconcerned read empty obtained concerned
              | true =>
                  simp only [concerned, if_true] at ran
                  cases checked : check settings flags profile f with
                  | error error =>
                      rw [checked] at ran
                      cases ran
                      exact .refused read empty obtained checked
                  | ok accepted =>
                      rw [checked, perform_eq_change checked] at ran
                      cases ran
                      exact .changed read empty obtained concerned checked

end Before

/-! ## The pass after the optimizer -/

/-- Counting calls calls nothing by name. -/
theorem checkCalls_calls {symbols : AllocSymbols} {stage : Stage} (counters : Counters)
    (store : Store) (reporter : Option Reporter) (nonempty : f.blocks.isEmpty = false)
    (checked : symbols.checkCalls stage f = .ok ()) :
    symbols.checkCalls stage (calls store counters reporter f).func = .ok () := by
  refine AllocSymbols.checkCalls_of_calls (fun id image found instr mem => ?_) checked
  cases reporter with
  | none =>
      replace found : (plainCalls store f).func.block? id = some image := found
      rw [block?_plainCalls] at found
      split at found
      · obtain ⟨block, here, rfl⟩ := Option.map_eq_some_iff.mp found
        rcases List.mem_cons.mp mem with rfl | own
        · exact .inl rfl
        · exact .inr ⟨id, block, here, own⟩
      · exact .inr ⟨id, image, found, mem⟩
  | some reporter =>
      obtain ⟨head, entered⟩ := Func.entry_of_nonempty nonempty
      replace found : (reportedCalls store counters reporter f).func.block? id = some image :=
        found
      rw [block?_reportedCalls store f counters reporter entered] at found
      split at found
      · cases found
        obtain rfl := List.mem_singleton.mp mem
        exact .inl rfl
      · split at found
        · cases found
          exact .inr ⟨Func.entry, head, entered, mem⟩
        · split at found
          · cases found
            left
            simp only [decision, prologue, List.mem_cons, List.not_mem_nil, or_false] at mem
            rcases mem with rfl | rfl | rfl <;> rfl
          · exact .inr ⟨id, image, found, mem⟩

namespace After

theorem check_eq_ok_iff {reporter : Option Reporter} :
    check settings flags f = .ok reporter ↔
      (flags.allocations = true → settings.alloc.checkCalls .after f = .ok ()) ∧
        reporterOf flags f = .ok reporter ∧
        (flags.calls = true → f.blocks.isEmpty = false) := by
  have entered : (flags.calls = true → f.blocks.isEmpty = false) ↔
      (flags.calls && f.blocks.isEmpty) = false := by
    cases flags.calls <;> simp
  rw [entered, check]
  cases flags.allocations <;> cases settings.alloc.checkCalls .after f <;>
    cases reporterOf flags f <;> cases flags.calls && f.blocks.isEmpty <;>
    simp [bind, Except.bind, pure, Except.pure, throw, throwThe, MonadExceptOf.throw]

theorem check_eq_error {error : Error} (checked : check settings flags f = .error error) :
    (flags.allocations = true ∧ settings.alloc.checkCalls .after f = .error error) ∨
      (flags.allocations = true → settings.alloc.checkCalls .after f = .ok ()) ∧
        (reporterOf flags f = .error error ∨
          (∃ reporter, reporterOf flags f = .ok reporter) ∧
            flags.calls = true ∧ f.blocks.isEmpty = true) := by
  unfold check at checked
  have later (refused : (do
      let reporter ← reporterOf flags f
      if flags.calls && f.blocks.isEmpty then throw .outOfBounds
      return reporter : Except Error (Option Reporter)) = .error error) :
      reporterOf flags f = .error error ∨
        (∃ reporter, reporterOf flags f = .ok reporter) ∧
          flags.calls = true ∧ f.blocks.isEmpty = true := by
    cases read : reporterOf flags f with
    | error error' =>
        rw [read] at refused
        cases refused
        exact .inl rfl
    | ok reporter =>
        rw [read] at refused
        cases entryless : flags.calls && f.blocks.isEmpty with
        | false =>
            rw [entryless] at refused
            cases refused
        | true => exact .inr ⟨⟨reporter, rfl⟩, Bool.and_eq_true_iff.mp entryless⟩
  cases asked : flags.allocations with
  | false =>
      rw [asked] at checked
      exact .inr ⟨nofun, later checked⟩
  | true =>
      rw [asked] at checked
      cases named : settings.alloc.checkCalls .after f with
      | error error' =>
          rw [named] at checked
          cases checked
          exact .inl ⟨rfl, rfl⟩
      | ok accepted =>
          rw [named] at checked
          exact .inr ⟨fun _ => rfl, later checked⟩

/-- What was checked is found in order when the call probe is in. -/
theorem perform_eq_change {reporter : Option Reporter}
    (checked : check settings flags f = .ok reporter) :
    perform settings flags counters store reporter f =
      .ofStep (change settings flags counters store reporter f) := by
  obtain ⟨named, -, entered⟩ := check_eq_ok_iff.mp checked
  have first : (Outcome.unchanged f []).andThen flags.calls
      (fun f => .ofStep (calls store counters reporter f)) =
        .ofStep ((Step.skip f).andThen flags.calls (calls store counters reporter)) := by
    show (Outcome.ofStep (Step.skip f)).andThen _ _ = _
    exact Outcome.ofStep_andThen fun _ => rfl
  rw [perform, first]
  refine Outcome.ofStep_andThen fun on => tryAllocations_of_ok ?_ store
  exact Step.holds_andThen (motive := (settings.alloc.checkCalls .after · = .ok ())) (named on)
    fun on checked => checkCalls_calls counters store reporter (entered on) checked

/-- All the ways in which the pass can end. -/
inductive Ends (settings : Settings) (counters : Counters) (store : Store) (f : Func) :
    Outcome → Prop
  | misread {error : Error} (read : settings.flagsOf f = .error error) :
      Ends settings counters store f (.refused f [] error)
  | unconcerned {flags : Flags} (read : settings.flagsOf f = .ok flags)
      (calls : flags.calls = false) (allocations : flags.allocations = false) :
      Ends settings counters store f (.unchanged f [])
  | unknown {flags : Flags} (read : settings.flagsOf f = .ok flags)
      (concerned : flags.calls = true ∨ flags.allocations = true)
      (unknown : store.profile? f.name = none) :
      Ends settings counters store f (.unchanged f [.profileMissing f.name])
  | refused {flags : Flags} {error : Error} (read : settings.flagsOf f = .ok flags)
      (concerned : flags.calls = true ∨ flags.allocations = true)
      (known : (store.profile? f.name).isSome = true)
      (checked : check settings flags f = .error error) :
      Ends settings counters store f (.refused f [] error)
  | changed {flags : Flags} {reporter : Option Reporter} (read : settings.flagsOf f = .ok flags)
      (concerned : flags.calls = true ∨ flags.allocations = true)
      (known : (store.profile? f.name).isSome = true)
      (checked : check settings flags f = .ok reporter) :
      Ends settings counters store f
        (.ofStep (change settings flags counters store reporter f))

theorem ends_of_run {outcome : Outcome} (ran : run settings counters store f = outcome) :
    Ends settings counters store f outcome := by
  unfold run at ran
  cases read : settings.flagsOf f with
  | error error =>
      rw [read] at ran
      cases ran
      exact .misread read
  | ok flags =>
      rw [read] at ran
      cases concerned : flags.calls || flags.allocations with
      | false =>
          simp only [concerned, Bool.false_eq_true, if_false] at ran
          cases ran
          obtain ⟨calls, allocations⟩ := Bool.or_eq_false_iff.mp concerned
          exact .unconcerned read calls allocations
      | true =>
          simp only [concerned, if_true] at ran
          cases found : store.profile? f.name with
          | none =>
              rw [found] at ran
              cases ran
              exact .unknown read (Bool.or_eq_true_iff.mp concerned) found
          | some profile =>
              have known : (store.profile? f.name).isSome = true := by rw [found]; rfl
              rw [found] at ran
              cases checked : check settings flags f with
              | error error =>
                  rw [checked] at ran
                  cases ran
                  exact .refused read (Bool.or_eq_true_iff.mp concerned) known checked
              | ok reporter =>
                  rw [checked] at ran
                  replace ran : perform settings flags counters store reporter f = outcome := ran
                  rw [perform_eq_change checked] at ran
                  cases ran
                  exact .changed read (Bool.or_eq_true_iff.mp concerned) known checked

end After

end Probe

end FlowProfile
