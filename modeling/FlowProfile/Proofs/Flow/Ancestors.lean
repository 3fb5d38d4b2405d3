/-
# Ancestors in a dominator tree

Going up from a block by parents meets the blocks above it.  As long as every parent comes
earlier in the order than its block, the way up ends at the entry, and the blocks above a
block form a chain.  All searches in the tree are such ways up: they end, and what they
find is said here by the blocks that are above it.
-/

import FlowProfile.Flow.Dominators
import Mathlib.Data.List.Basic
import Mathlib.Tactic.ByContra

namespace FlowProfile

namespace DominatorTree

/-- The parent of a block, if it has one. -/
def parent? (tree : DominatorTree) (block : BlockId) : Option BlockId :=
  tree.getD block none

/-- The block has a place in the tree. -/
def Holds (tree : DominatorTree) (block : BlockId) : Prop :=
  ∃ parent, tree.parent? block = some parent

/-- The first block is the second one, or is met on the way up from it. -/
inductive Above (tree : DominatorTree) (above : BlockId) : BlockId → Prop
  | refl : Above tree above above
  | up {block parent : BlockId} (apart : block ≠ Func.entry)
      (has : tree.parent? block = some parent) (higher : Above tree above parent) :
      Above tree above block

/-- The tree hangs from the entry, and the way up is the way to the front of the order. -/
structure Rooted (order : List BlockId) (tree : DominatorTree) : Prop where
  first : order.idxOf Func.entry = 0
  short : order.length ≤ tree.size
  root : tree.parent? Func.entry = some Func.entry
  mem : ∀ {block}, tree.Holds block → block ∈ order
  rises : ∀ {block parent}, block ≠ Func.entry → tree.parent? block = some parent →
    tree.Holds parent ∧ order.idxOf parent < order.idxOf block

/-- The array gives the position of each block of the order. -/
def Ranked (order : List BlockId) (ranks : Array Nat) : Prop :=
  ∀ block ∈ order, fetch ranks block = .ok (order.idxOf block)

/-- The block, if there is one, below all those of some blocks that have a place in the tree,
and below nothing else. -/
structure Nearest (tree : DominatorTree) (blocks : List BlockId) (found : Option BlockId) :
    Prop where
  isSome_iff : found.isSome ↔ ∃ block ∈ blocks, tree.Holds block
  holds : ∀ nearest ∈ found, tree.Holds nearest
  above_iff : ∀ nearest ∈ found, ∀ above,
    tree.Above above nearest ↔ ∀ block ∈ blocks, tree.Holds block → tree.Above above block

variable {tree : DominatorTree} {order : List BlockId} {ranks : Array Nat}
  {above block first second third parent : BlockId}

theorem fetch_of_parent? (has : tree.parent? block = some parent) :
    fetch tree block = .ok (some parent) := by
  have inside : block < tree.size := by
    by_contra outside
    simp [parent?, outside] at has
  rw [fetch_eq_getD inside none]
  exact congrArg Except.ok has

namespace Above

theorem trans (higher : tree.Above first second) (lower : tree.Above second third) :
    tree.Above first third := by
  induction lower with
  | refl => exact higher
  | up apart has _ ih => exact ih.up apart has

theorem of_parent (apart : block ≠ Func.entry) (has : tree.parent? block = some parent) :
    tree.Above parent block :=
  .up apart has .refl

/-- What is above a block and not the block itself is above its parent. -/
theorem to_parent (higher : tree.Above above block) (has : tree.parent? block = some parent)
    (apart : above ≠ block) : tree.Above above parent := by
  cases higher with
  | refl => exact absurd rfl apart
  | up _ has' higher =>
      obtain rfl := Option.some.inj (has.symm.trans has')
      exact higher

/-- Nothing else is above the entry. -/
theorem eq_entry (higher : tree.Above above Func.entry) : above = Func.entry := by
  cases higher with
  | refl => rfl
  | up apart => exact absurd rfl apart

/-- Of two blocks above the same one, one is above the other. -/
theorem total (higher : tree.Above first block) (lower : tree.Above second block) :
    tree.Above first second ∨ tree.Above second first := by
  induction higher with
  | refl => exact .inr lower
  | up apart has higher ih =>
      cases lower with
      | refl => exact .inl (higher.up apart has)
      | up _ has' lower =>
          obtain rfl := Option.some.inj (has.symm.trans has')
          exact ih lower

end Above

namespace Nearest

variable {blocks : List BlockId} {found : Option BlockId}

/-- A block without a place changes nothing. -/
theorem concat_absent (near : tree.Nearest blocks found) (absent : ¬ tree.Holds block) :
    tree.Nearest (blocks ++ [block]) found where
  isSome_iff := by
    rw [near.isSome_iff]
    simp [or_and_right, exists_or, absent]
  holds := near.holds
  above_iff nearest mem above := by
    rw [near.above_iff nearest mem]
    simp [or_imp, forall_and, absent]

/-- The first block with a place is the one below all with a place so far. -/
theorem concat_none (near : tree.Nearest blocks none) (held : tree.Holds block) :
    tree.Nearest (blocks ++ [block]) (some block) where
  isSome_iff := iff_of_true rfl ⟨block, by simp, held⟩
  holds := by
    rintro _ ⟨⟩
    exact held
  above_iff := by
    have none : ∀ other ∈ blocks, ¬ tree.Holds other := by
      simpa using near.isSome_iff
    rintro _ ⟨⟩ above
    constructor
    · intro higher other mem held'
      rcases List.mem_append.mp mem with mem | mem
      · exact absurd held' (none other mem)
      · exact List.mem_singleton.mp mem ▸ higher
    · exact fun all => all block (by simp) held

/-- What is nearest to one more block is what the block has in common with the one before. -/
theorem concat_some {nearest common : BlockId} (near : tree.Nearest blocks (some nearest))
    (held : tree.Holds block) (held' : tree.Holds common)
    (common_iff : ∀ above,
      tree.Above above common ↔ tree.Above above block ∧ tree.Above above nearest) :
    tree.Nearest (blocks ++ [block]) (some common) where
  isSome_iff := iff_of_true rfl ⟨block, by simp, held⟩
  holds := by
    rintro _ ⟨⟩
    exact held'
  above_iff := by
    rintro _ ⟨⟩ above
    rw [common_iff above, near.above_iff nearest rfl above]
    constructor
    · intro ⟨higher, all⟩ other mem held''
      rcases List.mem_append.mp mem with mem | mem
      · exact all other mem held''
      · exact List.mem_singleton.mp mem ▸ higher
    · intro all
      exact ⟨all block (by simp) held, fun other mem => all other (by simp [mem])⟩

end Nearest

namespace Rooted

variable (rooted : Rooted order tree)

include rooted

theorem idxOf_lt (holds : tree.Holds block) : order.idxOf block < tree.size :=
  Nat.lt_of_lt_of_le (List.idxOf_lt_length_iff.mpr (rooted.mem holds)) rooted.short

/-- A block that comes after another one is not the entry, and its parent comes earlier. -/
theorem exists_parent (holds : tree.Holds block)
    (later : order.idxOf above < order.idxOf block) :
    ∃ parent, tree.parent? block = some parent ∧ block ≠ Func.entry ∧ tree.Holds parent ∧
      order.idxOf parent < order.idxOf block := by
  obtain ⟨parent, has⟩ := holds
  have apart : block ≠ Func.entry := by
    rintro rfl
    rw [rooted.first] at later
    cases later
  exact ⟨parent, has, apart, rooted.rises apart has⟩

theorem holds_of_above (higher : tree.Above above block) (holds : tree.Holds block) :
    tree.Holds above := by
  induction higher with
  | refl => exact holds
  | up apart has _ ih => exact ih (rooted.rises apart has).1

theorem idxOf_le_of_above (higher : tree.Above above block) :
    order.idxOf above ≤ order.idxOf block := by
  induction higher with
  | refl => exact Nat.le_refl _
  | up apart has _ ih => exact Nat.le_trans ih (Nat.le_of_lt (rooted.rises apart has).2)

/-- Different blocks that hang in the tree have different places in the order. -/
theorem eq_of_idxOf_eq (holds : tree.Holds first)
    (same : order.idxOf first = order.idxOf second) : first = second :=
  List.idxOf_inj (rooted.mem holds) |>.mp same

theorem idxOf_lt_of_above (higher : tree.Above above block) (holds : tree.Holds block)
    (apart : above ≠ block) : order.idxOf above < order.idxOf block :=
  Nat.lt_of_le_of_ne (rooted.idxOf_le_of_above higher) fun same =>
    apart (rooted.eq_of_idxOf_eq (rooted.holds_of_above higher holds) same)

theorem antisymm (higher : tree.Above first second) (lower : tree.Above second first)
    (holds : tree.Holds second) : first = second :=
  rooted.eq_of_idxOf_eq (rooted.holds_of_above higher holds)
    (Nat.le_antisymm (rooted.idxOf_le_of_above higher) (rooted.idxOf_le_of_above lower))

/-- Going up from a block that comes after another one loses no block that is above both. -/
theorem climb_eq_ok (ranked : Ranked order ranks) (holds : tree.Holds block)
    (holds' : tree.Holds above) :
    ∃ found, tree.climb ranks above block = .ok found ∧ tree.Holds found ∧
      tree.Above found block ∧ order.idxOf found ≤ order.idxOf above ∧
      ∀ common, tree.Above common above → tree.Above common block → tree.Above common found := by
  unfold climb
  refine Round.iterate_ok (fun found => tree.Holds found ∧ tree.Above found block ∧
    ∀ common, tree.Above common above → tree.Above common block → tree.Above common found)
    order.idxOf ?_ ⟨holds, .refl, fun _ _ below => below⟩
    (Nat.lt_succ_of_lt (rooted.idxOf_lt holds))
  rintro found ⟨held, higher, keeps⟩
  simp only [ranked found (rooted.mem held), ranked above (rooted.mem holds'), bind, Except.bind]
  by_cases later : order.idxOf above < order.idxOf found
  · left
    obtain ⟨parent, has, apart, held', rises⟩ := rooted.exists_parent held later
    refine ⟨parent, by simp [later, fetch_of_parent? has, pure, Except.pure], ⟨held',
      (Above.of_parent apart has).trans higher, fun common upper lower => ?_⟩, rises⟩
    have differs : common ≠ found := by
      rintro rfl
      exact absurd (rooted.idxOf_le_of_above upper) (Nat.not_le_of_lt later)
    exact (keeps common upper lower).to_parent has differs
  · exact .inr ⟨found, by rw [if_neg later]; rfl, held, higher, Nat.le_of_not_lt later, keeps⟩

/-- The nearest common block of two is found. -/
theorem meet_eq_ok (ranked : Ranked order ranks) (holds : tree.Holds first)
    (holds' : tree.Holds second) :
    ∃ found, tree.meet ranks first second = .ok found ∧ tree.Holds found ∧
      ∀ common, tree.Above common found ↔ tree.Above common first ∧ tree.Above common second := by
  unfold meet
  refine Round.iterate_ok
    (fun pair => tree.Holds pair.1 ∧ tree.Holds pair.2 ∧ ∀ common,
      tree.Above common pair.1 ∧ tree.Above common pair.2 ↔
        tree.Above common first ∧ tree.Above common second)
    (fun pair => max (order.idxOf pair.1) (order.idxOf pair.2)) ?_
    ⟨holds, holds', fun _ => Iff.rfl⟩
    (Nat.lt_succ_of_lt (Nat.max_lt.mpr ⟨rooted.idxOf_lt holds, rooted.idxOf_lt holds'⟩))
  rintro ⟨left, right⟩ ⟨heldLeft, heldRight, same⟩
  dsimp only at heldLeft heldRight same
  by_cases met : left = right
  · subst met
    exact .inr ⟨left, by simp only [if_pos, pure, Except.pure], heldLeft,
      fun common => (and_self_iff.symm).trans (same common)⟩
  · left
    obtain ⟨left', climbed, held', higher, low, keeps⟩ :=
      rooted.climb_eq_ok ranked heldLeft heldRight
    obtain ⟨right', climbed', held'', higher', low', keeps'⟩ :=
      rooted.climb_eq_ok ranked heldRight held'
    refine ⟨(left', right'), ?_, ⟨held', held'', fun common => ?_⟩, ?_⟩
    · simp only [if_neg met, climbed, climbed', bind, Except.bind, pure, Except.pure]
    · rw [← same common]
      constructor
      · exact fun ⟨one, other⟩ => ⟨one.trans higher, other.trans higher'⟩
      · intro ⟨one, other⟩
        have lifted := keeps common other one
        exact ⟨lifted, keeps' common lifted other⟩
    · have apart : order.idxOf left ≠ order.idxOf right := fun equal =>
        met (rooted.eq_of_idxOf_eq heldLeft equal)
      have le := rooted.idxOf_le_of_above higher
      have le' := rooted.idxOf_le_of_above higher'
      dsimp only
      omega

/-- The nearest block above all those of some blocks that have a place is found. -/
theorem meetAll_eq_ok (ranked : Ranked order ranks) {blocks : List BlockId}
    (inside : ∀ block ∈ blocks, block < tree.size) :
    ∃ found, tree.meetAll ranks blocks = .ok found ∧ tree.Nearest blocks found := by
  refine foldlM_ok _ tree.Nearest ⟨by simp, nofun, nofun⟩ ?_
  rintro earlier block later found rfl near
  have read : fetch tree block = .ok (tree.parent? block) :=
    fetch_eq_getD (inside block (by simp)) none
  cases place : tree.parent? block with
  | none =>
      have absent : ¬ tree.Holds block := fun ⟨parent, has⟩ => by
        rw [place] at has
        cases has
      exact ⟨found, by simp only [read, place, bind, Except.bind]; rfl, near.concat_absent absent⟩
  | some parent =>
      have held : tree.Holds block := ⟨parent, place⟩
      cases found with
      | none =>
          exact ⟨some block, by simp only [read, place, bind, Except.bind]; rfl,
            near.concat_none held⟩
      | some nearest =>
          obtain ⟨common, met, held', common_iff⟩ :=
            rooted.meet_eq_ok ranked held (near.holds nearest rfl)
          exact ⟨some common, by simp only [read, place, met, bind, Except.bind]; rfl,
            near.concat_some held held' common_iff⟩

/-- Going up from a block decides whether another one is above it. -/
theorem dominates_eq_ok (holds : tree.Holds block) (above : BlockId) :
    ∃ verdict, tree.dominates above block = .ok verdict ∧
      (verdict = true ↔ tree.Above above block) := by
  unfold dominates
  refine Round.iterate_ok
    (fun current => tree.Holds current ∧ (tree.Above above current ↔ tree.Above above block))
    order.idxOf ?_ ⟨holds, Iff.rfl⟩ (Nat.lt_succ_of_lt (rooted.idxOf_lt holds))
  rintro current ⟨⟨parent, has⟩, same⟩
  by_cases met : current = above
  · exact .inr ⟨true, by rw [if_pos met]; rfl, by simpa [← same, met] using Above.refl⟩
  by_cases loops : parent = current
  · -- Only the entry is its own parent.
    have root : current = Func.entry := by
      by_contra apart
      exact absurd (rooted.rises apart has).2 (by rw [loops]; exact Nat.lt_irrefl _)
    refine .inr ⟨false, ?_, ?_⟩
    · simp only [if_neg met, fetch_of_parent? has, bind, Except.bind, loops]
      simp [pure, Except.pure]
    · rw [← same, root]
      simp only [Bool.false_eq_true, false_iff]
      exact fun higher => met (root.trans higher.eq_entry.symm)
  · have apart : current ≠ Func.entry := by
      rintro rfl
      exact loops (Option.some.inj (has.symm.trans rooted.root))
    obtain ⟨held, rises⟩ := rooted.rises apart has
    refine .inl ⟨parent, ?_, ⟨held, ?_⟩, rises⟩
    · simp only [if_neg met, fetch_of_parent? has, bind, Except.bind]
      simp [loops, pure, Except.pure]
    · rw [← same]
      exact ⟨fun higher => higher.up apart has, fun higher =>
        higher.to_parent has fun equal => met equal.symm⟩

end Rooted

end DominatorTree

end FlowProfile
