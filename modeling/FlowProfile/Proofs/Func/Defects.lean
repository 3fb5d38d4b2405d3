/-
# What verification says

Verification accepts a function or names one defect.  `Func.Shows` says what each defect
means for a function, whichever way it was found.  A function that is refused shows the
defect that it is refused for, and the functions that are accepted are those that meet
five clauses, which can be told without an order of looking at them: there is an entry, it
takes no parameters, nothing is defined twice or beyond the values given out, everything
used is defined, and every edge fits the block that it leads to.
-/

import FlowProfile.Proofs.Func.Verified

namespace FlowProfile

namespace Func

/-- The block at a position reads a value. -/
def UsesAt (f : Func) (id : BlockId) (value : ValueId) : Prop :=
  ∃ block, f.block? id = some block ∧ Operand.value value ∈ block.operands

/-- The block at a position ends in a terminator with an edge. -/
def HasEdgeAt (f : Func) (id : BlockId) (edge : Edge) : Prop :=
  ∃ block, f.block? id = some block ∧ edge ∈ block.terminator.edges

/-- What a defect that verification names says about the function. -/
def Shows (f : Func) : Defect → Prop
  | .noBlocks => f.blocks.size = 0
  | .entryTakesParameters => ∃ first, f.block? entry = some first ∧ first.params ≠ []
  | .definedTwice value =>
      ∃ earlier later, f.definitions = earlier ++ value :: later ∧ value ∈ earlier
  | .outOfRange value => value ∈ f.definitions ∧ f.nextValue ≤ value
  | .neverDefined value => value ∉ f.definitions ∧ ∃ id, f.UsesAt id value
  | .missingTarget source target =>
      f.block? target = none ∧ ∃ args, f.HasEdgeAt source ⟨target, args⟩
  | .branchToEntry source => ∃ args, f.HasEdgeAt source ⟨entry, args⟩
  | .edgeArity source target passed taken =>
      passed ≠ taken ∧ (∃ args, f.HasEdgeAt source ⟨target, args⟩ ∧ args.length = passed) ∧
        ∃ block, f.block? target = some block ∧ block.params.length = taken
  | .noTerminator _ | .appendedToTerminated _ | .terminatedTwice _ | .allocationWithoutSize ..
  | .reachedUnreachable _ => False

/-- The definition that is named is the first one that is out of range or repeats another. -/
theorem of_definitionDefect? {bound : Nat} {seen values : List ValueId} {defect : Defect}
    (named : definitionDefect? bound seen values = some defect) :
    ∃ earlier value later, values = earlier ++ value :: later ∧
      (defect = .outOfRange value ∧ bound ≤ value ∨
        defect = .definedTwice value ∧ (value ∈ seen ∨ value ∈ earlier)) := by
  induction values generalizing seen with
  | nil => cases named
  | cons first rest ih =>
      unfold definitionDefect? at named
      split at named
      · next large =>
          cases named
          exact ⟨[], first, rest, rfl, .inl ⟨rfl, large⟩⟩
      · split at named
        · next known =>
            cases named
            exact ⟨[], first, rest, rfl, .inr ⟨rfl, .inl (List.contains_iff_mem.mp known)⟩⟩
        · obtain ⟨earlier, value, later, rfl, means⟩ := ih named
          refine ⟨first :: earlier, value, later, rfl, means.imp_right ?_⟩
          rintro ⟨rfl, known | repeated⟩
          · rcases List.mem_cons.mp known with rfl | known
            · exact ⟨rfl, .inr List.mem_cons_self⟩
            · exact ⟨rfl, .inl known⟩
          · exact ⟨rfl, .inr (List.mem_cons_of_mem _ repeated)⟩

theorem shows_of_definitionDefect? {f : Func} {defect : Defect}
    (named : definitionDefect? f.nextValue [] f.definitions = some defect) : f.Shows defect := by
  obtain ⟨earlier, value, later, split, means⟩ := of_definitionDefect? named
  rcases means with ⟨rfl, large⟩ | ⟨rfl, known | repeated⟩
  · refine ⟨?_, large⟩
    rw [split]
    exact List.mem_append_right _ List.mem_cons_self
  · cases known
  · exact ⟨earlier, later, split, repeated⟩

theorem shows_of_useDefect? {f : Func} {id : BlockId} {block : Block} {operand : Operand}
    {defect : Defect} (found : f.block? id = some block) (read : operand ∈ block.operands)
    (named : useDefect? f.definitions operand = some defect) : f.Shows defect := by
  cases operand with
  | const constant => cases named
  | value value =>
      by_cases known : value ∈ f.definitions
      · simp [useDefect?, known] at named
      · obtain rfl : Defect.neverDefined value = defect := by simpa [useDefect?, known] using named
        exact ⟨known, id, block, found, read⟩

theorem shows_of_edgeDefect? {f : Func} {id : BlockId} {block : Block} {edge : Edge}
    {defect : Defect} (found : f.block? id = some block) (leaves : edge ∈ block.terminator.edges)
    (named : f.edgeDefect? id edge = some defect) : f.Shows defect := by
  have here : f.HasEdgeAt id ⟨edge.target, edge.args⟩ := ⟨block, found, leaves⟩
  unfold edgeDefect? at named
  split at named
  · next absent =>
      cases named
      exact ⟨absent, edge.args, here⟩
  · next target enters =>
      split at named
      · next back =>
          cases named
          exact ⟨edge.args, back ▸ here⟩
      · split at named
        · next differ =>
            cases named
            exact ⟨differ ∘ Eq.symm, ⟨edge.args, here, rfl⟩, target, enters, rfl⟩
        · cases named

theorem shows_of_blockDefect? {f : Func} {id : BlockId} {block : Block} {defect : Defect}
    (found : f.block? id = some block)
    (named : f.blockDefect? f.definitions id block = some defect) : f.Shows defect := by
  unfold blockDefect? at named
  split at named
  · next misused =>
      cases named
      obtain ⟨operand, read, here⟩ := List.exists_of_findSome?_eq_some misused
      exact shows_of_useDefect? found read here
  · obtain ⟨edge, leaves, here⟩ := List.exists_of_findSome?_eq_some named
    exact shows_of_edgeDefect? found leaves here

/-- A function shows the defect that is named. -/
theorem shows_of_defect? {f : Func} {defect : Defect} (named : f.defect? = some defect) :
    f.Shows defect := by
  unfold defect? at named
  split at named
  · next absent =>
      cases named
      exact Nat.le_zero.mp (Array.getElem?_eq_none_iff.mp absent)
  · next first entered =>
      split at named
      · next takes =>
          cases named
          exact ⟨first, entered, takes⟩
      · split at named
        · next misdefined =>
            cases named
            exact shows_of_definitionDefect? misdefined
        · obtain ⟨⟨block, id⟩, listed, here⟩ := List.exists_of_findSome?_eq_some named
          refine shows_of_blockDefect? ?_ here
          exact Array.getElem?_toList.symm.trans (List.mk_mem_zipIdx_iff_getElem?.mp listed)

/-- Verification accepts a function, or refuses it for a defect that the function shows. -/
theorem verify_cases (f : Func) :
    f.verify = .ok () ∨ ∃ defect, f.verify = .error (.invalid f.name defect) ∧ f.Shows defect := by
  rw [verify]
  cases named : f.defect? with
  | none => exact .inl rfl
  | some defect => exact .inr ⟨defect, rfl, shows_of_defect? named⟩

/-- Verification ends for every function, and accepts exactly those that have a block, whose
first block takes no parameters, whose definitions are distinct and among the values given
out, which read in no block, reachable or not, what is defined nowhere, and all of whose
edges lead to blocks other than the entry with as many arguments as these take.  Every
other function is refused as invalid, for a defect that it shows. -/
theorem verify_exact (f : Func) :
    (f.verify = .ok () ↔
      0 < f.blocks.size ∧
        (∀ first, f.block? entry = some first → first.params = []) ∧
        (f.definitions.Nodup ∧ ∀ value ∈ f.definitions, value < f.nextValue) ∧
        (∀ id value, f.UsesAt id value → value ∈ f.definitions) ∧
        ∀ id edge, f.HasEdgeAt id edge → edge.target ≠ entry ∧
          ∃ target, f.block? edge.target = some target ∧
            edge.args.length = target.params.length) ∧
      (f.verify = .ok () ∨
        ∃ defect, f.verify = .error (.invalid f.name defect) ∧ f.Shows defect) := by
  refine ⟨verify_eq_ok_iff.trans ⟨fun sound => ?_, ?_⟩, f.verify_cases⟩
  · refine ⟨sound.blocks_pos, ?_, ⟨sound.nodup_definitions, sound.lt_nextValue⟩, ?_, ?_⟩
    · intro first entered
      obtain ⟨block, entered', takes⟩ := sound.entry_params
      cases entered.symm.trans entered'
      exact takes
    · rintro id value ⟨block, found, read⟩
      exact sound.mem_definitions id block found value read
    · rintro id edge ⟨block, found, leaves⟩
      obtain ⟨target, enters, inner, arity⟩ := sound.leadsOn id block found edge leaves
      exact ⟨inner, target, enters, arity.symm⟩
  · rintro ⟨nonempty, bare, ⟨distinct, given⟩, uses, edges⟩
    refine ⟨⟨f.blocks[entry], Array.getElem?_eq_getElem nonempty, ?_⟩, distinct, given, ?_, ?_⟩
    · exact bare _ (Array.getElem?_eq_getElem nonempty)
    · exact fun id block found value read => uses id value ⟨block, found, read⟩
    · intro id block found edge leaves
      obtain ⟨inner, target, enters, arity⟩ := edges id edge ⟨block, found, leaves⟩
      exact ⟨target, enters, inner, arity.symm⟩

end Func

end FlowProfile
