/-
# Dominators are found

The sweeps over the parents come to an end, and the tree that they leave tells the
dominators.  What a sweep keeps is said in two halves.  A parent is never too high: what
strictly dominates a block dominates its parent.  A parent is never too low, either:
whatever is above all predecessors of a block is above its parent, so that a new parent
can only be above the old one, and only so many changes fit into the order.  A sweep that
changes nothing leaves every parent above all predecessors, and then what is above a block
lies on every way to it.
-/

import FlowProfile.Proofs.Flow.Ancestors
import FlowProfile.Proofs.Flow.Postorder

namespace FlowProfile

open Finset

namespace Func

variable {f : Func} {source target : BlockId} {order : List BlockId}

theorem mem_predecessorsOf (inside : target < f.blocks.size) :
    source ∈ f.predecessorsOf target ↔ f.Leads source target := by
  simp only [predecessorsOf, List.mem_flatMap, List.mem_range, List.mem_map, List.mem_filter,
    decide_eq_true_eq]
  constructor
  · rintro ⟨_, _, _, ⟨mem, rfl⟩, rfl⟩
    exact ⟨mem, inside⟩
  · intro leads
    exact ⟨source, leads.source_lt, target, ⟨leads.1, rfl⟩, rfl⟩

theorem fetch_predecessors (inside : target < f.blocks.size) :
    fetch f.predecessors.toArray target = .ok (f.predecessorsOf target) := by
  simp [fetch, predecessors, inside]

/-- Writing the positions of blocks one after the other leaves each at its block. -/
theorem getD_foldl_zipIdx {size : Nat} (distinct : order.Nodup)
    (inside : ∀ block ∈ order, block < size) (start : Nat) (ranks : Array Nat)
    (size_eq : ranks.size = size) :
    let filled := (order.zipIdx start).foldl
      (fun ranks (block, rank) => ranks.setIfInBounds block rank) ranks
    filled.size = size ∧ ∀ block, filled.getD block 0 =
      if block ∈ order then start + order.idxOf block else ranks.getD block 0 := by
  induction order generalizing start ranks with
  | nil => exact ⟨size_eq, fun block => by simp⟩
  | cons first rest ih =>
      obtain ⟨fresh, distinct⟩ := List.nodup_cons.mp distinct
      have inside' := inside first List.mem_cons_self
      obtain ⟨size_eq', each⟩ := ih distinct
        (fun block mem => inside block (List.mem_cons_of_mem _ mem)) (start + 1)
        (ranks.setIfInBounds first start) (by rw [Array.size_setIfInBounds, size_eq])
      refine ⟨size_eq', fun block => (each block).trans ?_⟩
      rw [getD_setIfInBounds]
      by_cases same : first = block
      · subst same
        simp [fresh, size_eq, inside']
      · by_cases mem : block ∈ rest
        · rw [if_pos mem, if_pos (List.mem_cons_of_mem _ mem), List.idxOf_cons_ne _ same]
          omega
        · simp [mem, same, Ne.symm same]

namespace Ordered

variable (ordered : f.Ordered order)

include ordered

theorem lt_size (pos : 0 < f.blocks.size) (mem : target ∈ order) : target < f.blocks.size :=
  ((ordered.mem_iff target).mp mem).lt_size pos

theorem length_le (pos : 0 < f.blocks.size) : order.length ≤ f.blocks.size := by
  have subset : order ⊆ List.range f.blocks.size := fun block mem =>
    List.mem_range.mpr (ordered.lt_size pos mem)
  simpa using (List.subperm_of_subset ordered.nodup subset).length_le

theorem ranked (pos : 0 < f.blocks.size) :
    DominatorTree.Ranked order (f.ranks order) := by
  intro block mem
  obtain ⟨size_eq, each⟩ := getD_foldl_zipIdx ordered.nodup
    (fun block mem => ordered.lt_size pos mem) 0
    (Array.replicate f.blocks.size (UInt64.size - 1)) Array.size_replicate
  refine (fetch_eq_getD (size_eq.symm ▸ ordered.lt_size pos mem) 0).trans
    (congrArg Except.ok ((each block).trans ?_))
  rw [if_pos mem, Nat.zero_add]

theorem drop_one : order = entry :: order.drop 1 := by
  cases order with
  | nil => cases ordered.head
  | cons first rest =>
      obtain rfl := Option.some.inj ordered.head
      rfl

/-- Of what comes before a block in the order, everything was seen when its turn comes. -/
theorem mem_iff_idxOf_lt {seen later : List BlockId} {block : BlockId}
    (split : order = seen ++ block :: later) (other : BlockId) :
    other ∈ seen ↔ order.idxOf other < order.idxOf block := by
  have fresh : block ∉ seen := fun mem =>
    (List.nodup_append.mp (split ▸ ordered.nodup)).2.2 block mem block List.mem_cons_self rfl
  have place : order.idxOf block = seen.length := by
    rw [split, List.idxOf_append_of_notMem fresh, List.idxOf_cons_self, Nat.add_zero]
  rw [place, split]
  by_cases mem : other ∈ seen
  · rw [List.idxOf_append_of_mem mem]
    exact iff_of_true mem (List.idxOf_lt_length_iff.mpr mem)
  · rw [List.idxOf_append_of_notMem mem]
    exact iff_of_false mem (Nat.not_lt_of_le (Nat.le_add_right _ _))

end Ordered

end Func

namespace DominatorTree

variable {f : Func} {tree : DominatorTree} {order seen later : List BlockId}
  {above block other parent source : BlockId}

/-! ## Giving a block a parent -/

/-- The tree in which a block has a given parent. -/
def hang (tree : DominatorTree) (block parent : BlockId) : DominatorTree :=
  tree.setIfInBounds block (some parent)

/-- A block of the order other than the entry can get a parent that comes earlier. -/
structure Hangable (order : List BlockId) (tree : DominatorTree) (block parent : BlockId) :
    Prop where
  rooted : tree.Rooted order
  apart : block ≠ Func.entry
  mem : block ∈ order
  inside : block < tree.size
  holds : tree.Holds parent
  rises : order.idxOf parent < order.idxOf block

theorem hang_eq_self (has : tree.parent? block = some parent) :
    tree.hang block parent = tree := by
  refine Array.ext_getElem? fun id => ?_
  rw [hang, Array.getElem?_setIfInBounds]
  split
  · next same =>
      subst same
      rw [parent?, Array.getD_eq_getD_getElem?] at has
      cases found : tree[block]? with
      | none =>
          rw [found] at has
          cases has
      | some entry =>
          rw [found] at has
          simp [(Array.getElem?_eq_some_iff.mp found).1, show entry = some parent from has]
  · rfl

theorem above_iff (apart : block ≠ Func.entry) (has : tree.parent? block = some parent) :
    tree.Above above block ↔ above = block ∨ tree.Above above parent := by
  constructor
  · intro higher
    by_cases same : above = block
    · exact .inl same
    · exact .inr (higher.to_parent has same)
  · rintro (rfl | higher)
    · exact .refl
    · exact higher.up apart has

namespace Hangable

variable (hangable : Hangable order tree block parent)

include hangable

theorem parent?_hang (other : BlockId) : (tree.hang block parent).parent? other =
    if block = other then some parent else tree.parent? other := by
  rw [hang, parent?, getD_setIfInBounds, parent?]
  simp only [hangable.inside, and_true]

theorem parent?_hang_self : (tree.hang block parent).parent? block = some parent := by
  rw [hangable.parent?_hang, if_pos rfl]

theorem holds_hang : (tree.hang block parent).Holds other ↔ other = block ∨ tree.Holds other := by
  unfold Holds
  rw [hangable.parent?_hang]
  by_cases same : block = other
  · simp [same]
  · simp [same, Ne.symm same]

/-- Nothing changes above what is not below the block. -/
theorem above_hang_of_not (outside : ¬ tree.Above block other) :
    (tree.hang block parent).Above above other ↔ tree.Above above other := by
  constructor
  · intro higher
    induction higher with
    | refl => exact .refl
    | @up current next apart has _ ih =>
        have differs : block ≠ current := by
          rintro rfl
          exact outside .refl
        rw [hangable.parent?_hang, if_neg differs] at has
        exact (ih fun below => outside (below.up apart has)).up apart has
  · intro higher
    induction higher with
    | refl => exact .refl
    | @up current next apart has _ ih =>
        have differs : block ≠ current := by
          rintro rfl
          exact outside .refl
        refine (ih fun below => outside (below.up apart has)).up apart ?_
        rw [hangable.parent?_hang, if_neg differs, has]

theorem not_above_of_idxOf_lt (before : order.idxOf other < order.idxOf block) :
    ¬ tree.Above block other :=
  fun below => Nat.not_le_of_lt before (hangable.rooted.idxOf_le_of_above below)

theorem above_hang_parent :
    (tree.hang block parent).Above above parent ↔ tree.Above above parent :=
  hangable.above_hang_of_not (hangable.not_above_of_idxOf_lt hangable.rises)

/-- Above what is below the block stand the blocks in between and what is above the new
parent. -/
theorem above_hang_of_above (below : tree.Above block other) :
    (tree.hang block parent).Above above other ↔
      tree.Above above other ∧ tree.Above block above ∨ tree.Above above parent := by
  induction below with
  | refl =>
      rw [above_iff hangable.apart hangable.parent?_hang_self, hangable.above_hang_parent]
      refine or_congr ⟨?_, fun ⟨higher, lower⟩ => ?_⟩ Iff.rfl
      · rintro rfl
        exact ⟨.refl, .refl⟩
      · have le := hangable.rooted.idxOf_le_of_above higher
        have ge := hangable.rooted.idxOf_le_of_above lower
        exact ((List.idxOf_inj hangable.mem).mp (Nat.le_antisymm ge le)).symm
  | @up current next apart has below ih =>
      have differs : block ≠ current := by
        rintro rfl
        exact Nat.not_le_of_lt (hangable.rooted.rises apart has).2
          (hangable.rooted.idxOf_le_of_above below)
      have has' : (tree.hang block parent).parent? current = some next := by
        rw [hangable.parent?_hang, if_neg differs, has]
      rw [above_iff apart has', ih, above_iff apart has, or_and_right, or_assoc]
      refine or_congr ⟨?_, And.left⟩ Iff.rfl
      rintro rfl
      exact ⟨rfl, below.up apart has⟩

theorem rooted_hang : (tree.hang block parent).Rooted order where
  first := hangable.rooted.first
  short := by
    rw [hang, Array.size_setIfInBounds]
    exact hangable.rooted.short
  root := by
    rw [hangable.parent?_hang, if_neg hangable.apart]
    exact hangable.rooted.root
  mem holds := by
    rcases hangable.holds_hang.mp holds with rfl | holds
    · exact hangable.mem
    · exact hangable.rooted.mem holds
  rises {other next} apart has := by
    rw [hangable.parent?_hang] at has
    split at has
    · next same =>
        cases has
        exact same ▸ ⟨hangable.holds_hang.mpr (.inr hangable.holds), hangable.rises⟩
    · obtain ⟨holds, rises⟩ := hangable.rooted.rises apart has
      exact ⟨hangable.holds_hang.mpr (.inr holds), rises⟩

end Hangable

/-! ## What a sweep keeps -/

/-- What is true of the tree in the course of a sweep, after some blocks had their turn. -/
structure Sweeping (f : Func) (order : List BlockId) (seen : List BlockId)
    (tree : DominatorTree) : Prop where
  rooted : tree.Rooted order
  size_eq : tree.size = f.blocks.size
  filled : ∀ block ∈ seen, tree.Holds block
  /-- What strictly dominates a block dominates its parent. -/
  high : ∀ {block parent above}, block ≠ Func.entry → tree.parent? block = some parent →
    f.StrictlyDominates above block → f.Dominates above parent
  /-- What is above all predecessors of a block is above its parent. -/
  low : ∀ {block parent above}, block ≠ Func.entry → tree.parent? block = some parent →
    (∀ source, f.Leads source block → tree.Holds source → tree.Above above source) →
    tree.Above above parent
  /-- What is strictly above a block is above the predecessors that come earlier, unless a
  turn has moved the one but not yet the other. -/
  behind : ∀ {block above source}, tree.Holds block → block ≠ Func.entry →
    f.Leads source block → order.idxOf source < order.idxOf block →
    tree.Above above block → above ≠ block → block ∈ seen ∨ above ∉ seen →
    tree.Above above source

namespace Sweeping

/-- Of the blocks that dominate a block, those not met on a way up from it are still ahead. -/
theorem dominates_or_above (sweeping : Sweeping f order seen tree)
    (dominates : f.Dominates above block) (higher : tree.Above other block) :
    f.Dominates above other ∨ tree.Above other above := by
  induction higher with
  | refl => exact .inl dominates
  | @up current next apart has higher ih =>
      by_cases same : above = current
      · exact .inr (same ▸ higher.up apart has)
      · exact ih (sweeping.high apart has ⟨dominates, same⟩)

/-- The way up from a block meets all that dominate it. -/
theorem above_of_dominates (sweeping : Sweeping f order seen tree) (holds : tree.Holds block)
    (dominates : f.Dominates above block) : tree.Above above block := by
  induction place : order.idxOf block using Nat.strong_induction_on generalizing block with
  | h _ ih =>
      subst place
      by_cases same : above = block
      · exact same ▸ .refl
      obtain ⟨parent, has⟩ := holds
      have apart : block ≠ Func.entry := by
        rintro rfl
        exact same dominates.eq_entry
      obtain ⟨holds', rises⟩ := sweeping.rooted.rises apart has
      exact (ih _ rises holds' (sweeping.high apart has ⟨dominates, same⟩) rfl).up apart has

/-- Before the first sweep only the entry has a place. -/
theorem start (ordered : f.Ordered order) (pos : 0 < f.blocks.size) :
    Sweeping f order [Func.entry]
      ((Array.replicate f.blocks.size none).setIfInBounds Func.entry (some Func.entry)) := by
  have parents : ∀ block, parent? ((Array.replicate f.blocks.size none).setIfInBounds
      Func.entry (some Func.entry)) block =
        if Func.entry = block then some Func.entry else none := by
    intro block
    have inside : Func.entry < f.blocks.size := pos
    rw [parent?, getD_setIfInBounds, getD_replicate, Array.size_replicate]
    simp only [inside, and_true]
  have only : ∀ {block}, Holds ((Array.replicate f.blocks.size none).setIfInBounds
      Func.entry (some Func.entry)) block → block = Func.entry := by
    rintro block ⟨parent, has⟩
    rw [parents] at has
    split at has
    · next same => exact same.symm
    · cases has
  have root := (parents Func.entry).trans (if_pos rfl)
  exact
    { rooted :=
        { first := ordered.idxOf_entry
          short := by simpa using ordered.length_le pos
          root := root
          mem := fun holds => by
            rw [only holds]
            exact List.mem_of_mem_head? ordered.head
          rises := fun apart has => absurd (only ⟨_, has⟩) apart }
      size_eq := by simp
      filled := fun block mem => by
        rw [List.mem_singleton.mp mem]
        exact ⟨_, root⟩
      high := fun apart has => absurd (only ⟨_, has⟩) apart
      low := fun apart has => absurd (only ⟨_, has⟩) apart
      behind := fun holds apart => absurd (only holds) apart }

/-- After a sweep the next one can begin. -/
theorem again (sweeping : Sweeping f order order tree) :
    Sweeping f order [Func.entry] tree :=
  { sweeping with
    filled := fun block mem => by
      obtain rfl := List.mem_singleton.mp mem
      exact ⟨_, sweeping.rooted.root⟩
    behind := fun holds apart leads before higher differs _ =>
      sweeping.behind holds apart leads before higher differs (.inl (sweeping.rooted.mem holds)) }

end Sweeping

/-- The turn of a block: everything before it was seen, and the nearest block above its
predecessors is known. -/
structure Turn (f : Func) (order seen : List BlockId) (tree : DominatorTree)
    (block parent : BlockId) : Prop where
  ordered : f.Ordered order
  sweeping : Sweeping f order seen tree
  seen_iff : ∀ other, other ∈ seen ↔ order.idxOf other < order.idxOf block
  apart : block ≠ Func.entry
  mem : block ∈ order
  inside : block < f.blocks.size
  near : tree.Nearest (f.predecessorsOf block) (some parent)

namespace Turn

variable (turn : Turn f order seen tree block parent)

include turn

theorem above_parent_iff : tree.Above above parent ↔
    ∀ source, f.Leads source block → tree.Holds source → tree.Above above source := by
  simp only [turn.near.above_iff parent rfl above, Func.mem_predecessorsOf turn.inside]

/-- An earlier block leads to the one whose turn it is. -/
theorem exists_earlier : ∃ source, f.Leads source block ∧ tree.Holds source ∧
    order.idxOf source < order.idxOf block := by
  obtain ⟨source, leads, before⟩ := turn.ordered.entered block turn.mem turn.apart
  exact ⟨source, leads, turn.sweeping.filled source ((turn.seen_iff source).mpr before), before⟩

theorem hangable : Hangable order tree block parent where
  rooted := turn.sweeping.rooted
  apart := turn.apart
  mem := turn.mem
  inside := turn.sweeping.size_eq.symm ▸ turn.inside
  holds := turn.near.holds parent rfl
  rises := by
    obtain ⟨source, leads, holds, before⟩ := turn.exists_earlier
    have higher := turn.above_parent_iff.mp .refl source leads holds
    exact Nat.lt_of_le_of_lt (turn.sweeping.rooted.idxOf_le_of_above higher) before

/-- A parent only moves up. -/
theorem above_old {old : BlockId} (has : tree.parent? block = some old) :
    tree.Above parent old :=
  turn.sweeping.low turn.apart has fun source leads holds =>
    turn.above_parent_iff.mp .refl source leads holds

/-- What is above a block after the turn was above it before. -/
theorem above_of_hang (holds : tree.Holds other)
    (higher : (tree.hang block parent).Above above other) : tree.Above above other := by
  by_cases below : tree.Above block other
  · rcases (turn.hangable.above_hang_of_above below).mp higher with ⟨higher, -⟩ | higher
    · exact higher
    · obtain ⟨old, has⟩ := turn.sweeping.rooted.holds_of_above below holds
      exact ((higher.trans (turn.above_old has)).up turn.apart has).trans below
  · exact (turn.hangable.above_hang_of_not below).mp higher

theorem high_hang {next : BlockId} (apart : other ≠ Func.entry)
    (has : (tree.hang block parent).parent? other = some next)
    (strictly : f.StrictlyDominates above other) : f.Dominates above next := by
  rw [turn.hangable.parent?_hang] at has
  split at has
  · next same =>
      subst same
      cases has
      obtain ⟨source, leads, holds, -⟩ := turn.exists_earlier
      rcases turn.sweeping.dominates_or_above (strictly.of_leads leads)
        (turn.above_parent_iff.mp .refl source leads holds) with dominates | lower
      · exact dominates
      · -- The parent is above the dominator, which is above all predecessors.
        have higher := turn.above_parent_iff.mpr fun source leads holds =>
          turn.sweeping.above_of_dominates holds (strictly.of_leads leads)
        exact turn.sweeping.rooted.antisymm higher lower turn.hangable.holds ▸ .refl f _
  · exact turn.sweeping.high apart has strictly

theorem low_hang {next : BlockId} (apart : other ≠ Func.entry)
    (has : (tree.hang block parent).parent? other = some next)
    (all : ∀ source, f.Leads source other → (tree.hang block parent).Holds source →
      (tree.hang block parent).Above above source) :
    (tree.hang block parent).Above above next := by
  have all' : ∀ source, f.Leads source other → tree.Holds source → tree.Above above source :=
    fun source leads holds => turn.above_of_hang holds
      (all source leads (turn.hangable.holds_hang.mpr (.inr holds)))
  rw [turn.hangable.parent?_hang] at has
  split at has
  · next same =>
      subst same
      cases has
      exact turn.hangable.above_hang_parent.mpr (turn.above_parent_iff.mpr all')
  · next differs =>
      have higher := turn.sweeping.low apart has all'
      by_cases below : tree.Above block next
      · rw [turn.hangable.above_hang_of_above below]
        rcases below.total higher with lower | lower
        · exact .inl ⟨higher, lower⟩
        -- The block is below what is above all predecessors: look at an earlier one.
        have holds : tree.Holds other := ⟨next, has⟩
        obtain ⟨source, leads, before⟩ :=
          turn.ordered.entered other (turn.sweeping.rooted.mem holds) apart
        have unseen : block ∉ seen := fun mem =>
          Nat.lt_irrefl _ ((turn.seen_iff block).mp mem)
        have between : tree.Above block source := turn.sweeping.behind holds apart leads before
          (below.up apart has) differs (.inr unseen)
        have holds' : tree.Holds source := by
          cases between with
          | refl =>
              exact turn.sweeping.rooted.holds_of_above below
                (turn.sweeping.rooted.rises apart has).1
          | up _ has' => exact ⟨_, has'⟩
        rcases (turn.hangable.above_hang_of_above between).mp
          (all source leads (turn.hangable.holds_hang.mpr (.inr holds'))) with ⟨-, upper⟩ | found
        · exact .inl ⟨higher, upper⟩
        · exact .inr found
      · exact (turn.hangable.above_hang_of_not below).mpr higher

theorem behind_hang (holds : (tree.hang block parent).Holds other) (apart : other ≠ Func.entry)
    (leads : f.Leads source other) (before : order.idxOf source < order.idxOf other)
    (higher : (tree.hang block parent).Above above other) (differs : above ≠ other)
    (due : other ∈ seen ++ [block] ∨ above ∉ seen ++ [block]) :
    (tree.hang block parent).Above above source := by
  by_cases same : other = block
  · -- The block has just been moved below what is above all its predecessors.
    subst same
    have found := turn.hangable.above_hang_parent.mp
      (higher.to_parent turn.hangable.parent?_hang_self differs)
    have holds' := turn.sweeping.filled source ((turn.seen_iff source).mpr before)
    exact (turn.hangable.above_hang_of_not (turn.hangable.not_above_of_idxOf_lt before)).mpr
      (turn.above_parent_iff.mp found source leads holds')
  have old := (turn.hangable.holds_hang.mp holds).resolve_left same
  have higher' := turn.above_of_hang old higher
  have due' : other ∈ seen ∨ above ∉ seen := due.imp
    (fun mem => (List.mem_append.mp mem).resolve_right fun last =>
      same (List.mem_singleton.mp last))
    fun unseen mem => unseen (List.mem_append_left _ mem)
  have found := turn.sweeping.behind old apart leads before higher' differs due'
  by_cases below : tree.Above block source
  · rw [turn.hangable.above_hang_of_above below]
    rcases below.total found with lower | lower
    · exact .inl ⟨found, lower⟩
    by_cases equal : above = block
    · exact .inl ⟨found, equal ▸ .refl⟩
    -- What is above the block was seen, and so was what is not below the block.
    have le := turn.sweeping.rooted.idxOf_le_of_above lower
    have first := (turn.seen_iff above).mpr
      (Nat.lt_of_le_of_ne le fun place => equal ((List.idxOf_inj turn.mem).mp place.symm).symm)
    have second := due'.resolve_right fun unseen => unseen first
    have le' := turn.sweeping.rooted.idxOf_le_of_above below
    exact absurd ((turn.seen_iff other).mp second)
      (Nat.not_lt_of_le (Nat.le_of_lt (Nat.lt_of_le_of_lt le' before)))
  · exact (turn.hangable.above_hang_of_not below).mpr found

/-- After the turn the block was seen too. -/
theorem sweeping_hang : Sweeping f order (seen ++ [block]) (tree.hang block parent) where
  rooted := turn.hangable.rooted_hang
  size_eq := by
    rw [hang, Array.size_setIfInBounds]
    exact turn.sweeping.size_eq
  filled other mem := turn.hangable.holds_hang.mpr <|
    (List.mem_append.mp mem).symm.imp List.mem_singleton.mp (turn.sweeping.filled other)
  high := turn.high_hang
  low := turn.low_hang
  behind := turn.behind_hang

end Turn

/-! ## The sweeps come to an end -/

/-- How far a parent is from the front of the order. No parent is farther than any. -/
def depth (order : List BlockId) (parent : Option BlockId) : Nat :=
  parent.elim order.length order.idxOf

/-- How far all parents are from the front of the order. -/
def height (order : List BlockId) (tree : DominatorTree) : Nat :=
  ∑ id ∈ range tree.size, depth order (tree.parent? id)

theorem depth_le (order : List BlockId) (parent : Option BlockId) :
    depth order parent ≤ order.length := by
  cases parent with
  | none => exact Nat.le_refl _
  | some parent => exact List.idxOf_le_length

theorem height_le (order : List BlockId) (tree : DominatorTree) :
    tree.height order ≤ tree.size * order.length := by
  calc tree.height order ≤ ∑ _id ∈ range tree.size, order.length :=
        sum_le_sum fun id _ => depth_le order (tree.parent? id)
    _ = tree.size * order.length := by rw [sum_const, card_range, Nat.nsmul_eq_mul]

theorem Turn.height_lt (turn : Turn f order seen tree block parent)
    (changes : tree.parent? block ≠ some parent) :
    (tree.hang block parent).height order < tree.height order := by
  have less : depth order (some parent) < depth order (tree.parent? block) := by
    cases has : tree.parent? block with
    | none => exact List.idxOf_lt_length_iff.mpr (turn.sweeping.rooted.mem turn.hangable.holds)
    | some old =>
        have holds := (turn.sweeping.rooted.rises turn.apart has).1
        refine turn.sweeping.rooted.idxOf_lt_of_above (turn.above_old has) holds ?_
        rintro rfl
        exact changes has
  rw [height, height, hang, Array.size_setIfInBounds]
  refine sum_lt_sum (fun id _ => ?_) ⟨block, mem_range.mpr turn.hangable.inside, ?_⟩
  · have has := turn.hangable.parent?_hang id
    rw [hang] at has
    rw [has]
    split
    · next same => exact same ▸ Nat.le_of_lt less
    · exact Nat.le_refl _
  · have has := turn.hangable.parent?_hang_self
    rw [hang] at has
    rwa [has]

/-- The parents of some blocks are above all their predecessors. -/
def Covers (f : Func) (blocks : List BlockId) (tree : DominatorTree) : Prop :=
  ∀ block ∈ blocks, ∃ parent, tree.parent? block = some parent ∧
    ∀ source, f.Leads source block → tree.Holds source → tree.Above parent source

/-- How a sweep stands after some blocks had their turn, when it began with a given tree. -/
structure Progress (f : Func) (order : List BlockId) (begun : DominatorTree)
    (earlier : List BlockId) (state : DominatorTree × Bool) : Prop where
  sweeping : Sweeping f order (Func.entry :: earlier) state.1
  changed : state.2 = true → state.1.height order < begun.height order
  unchanged : state.2 = false → state.1 = begun ∧ Covers f earlier begun

/-- A turn goes through, and the tree changes only if it comes down. -/
theorem adopt_eq_ok {begun : DominatorTree} {earlier : List BlockId}
    {state : DominatorTree × Bool} (ordered : f.Ordered order) (pos : 0 < f.blocks.size)
    (split : order = Func.entry :: earlier ++ block :: later)
    (progress : Progress f order begun earlier state) :
    ∃ next, adopt (f.ranks order) f.predecessors.toArray state block = .ok next ∧
      Progress f order begun (earlier ++ [block]) next := by
  obtain ⟨tree, changed⟩ := state
  have mem : block ∈ order := by simp [split]
  have inside := ordered.lt_size pos mem
  have seen_iff := ordered.mem_iff_idxOf_lt split
  have apart : block ≠ Func.entry := by
    rintro rfl
    exact Nat.lt_irrefl _ ((seen_iff Func.entry).mp List.mem_cons_self)
  have listed : ∀ source ∈ f.predecessorsOf block, source < tree.size := fun source mem => by
    rw [progress.sweeping.size_eq]
    exact ((Func.mem_predecessorsOf inside).mp mem).source_lt
  obtain ⟨found, met, near⟩ :=
    progress.sweeping.rooted.meetAll_eq_ok (ordered.ranked pos) listed
  -- An earlier block leads here, so that a parent is found.
  obtain ⟨source, leads, before⟩ := ordered.entered block mem apart
  have isSome : found.isSome := near.isSome_iff.mpr ⟨source,
    (Func.mem_predecessorsOf inside).mpr leads,
    progress.sweeping.filled source ((seen_iff source).mpr before)⟩
  obtain ⟨parent, rfl⟩ := Option.isSome_iff_exists.mp isSome
  have turn : Turn f order (Func.entry :: earlier) tree block parent :=
    ⟨ordered, progress.sweeping, seen_iff, apart, mem, inside, near⟩
  have read : fetch tree block = .ok (tree.parent? block) :=
    fetch_eq_getD turn.hangable.inside none
  have computed : adopt (f.ranks order) f.predecessors.toArray (tree, changed) block =
      if tree.parent? block ≠ some parent then .ok (tree.hang block parent, true)
      else .ok (tree, changed) := by
    simp only [adopt, Func.fetch_predecessors inside, met, read, bind, Except.bind, pure,
      Except.pure, Option.isSome_some, true_and, assign_of_lt turn.hangable.inside, hang]
  by_cases same : tree.parent? block = some parent
  · rw [if_neg (not_not_intro same)] at computed
    -- Nothing changes, and so the tree is the one with this parent.
    have equal := hang_eq_self same
    refine ⟨_, computed, equal ▸ turn.sweeping_hang, progress.changed, fun calm => ?_⟩
    obtain ⟨rfl, covers⟩ := progress.unchanged calm
    refine ⟨rfl, fun other mem => ?_⟩
    rcases List.mem_append.mp mem with mem | last
    · exact covers other mem
    · obtain rfl := List.mem_singleton.mp last
      exact ⟨parent, same, turn.above_parent_iff.mp .refl⟩
  · rw [if_pos same] at computed
    refine ⟨_, computed, turn.sweeping_hang, fun _ => ?_, nofun⟩
    have less := turn.height_lt same
    cases changed with
    | true => exact Nat.lt_trans less (progress.changed rfl)
    | false =>
        obtain ⟨rfl, -⟩ := progress.unchanged rfl
        exact less

/-- The tree after the last sweep. -/
structure Settled (f : Func) (order : List BlockId) (tree : DominatorTree) : Prop where
  sweeping : Sweeping f order order tree
  covers : Covers f (order.drop 1) tree

/-- A sweep goes through, and was the last one or has brought the tree down. -/
theorem Sweeping.sweep (sweeping : Sweeping f order [Func.entry] tree)
    (ordered : f.Ordered order) (pos : 0 < f.blocks.size) :
    (∃ next, sweep (f.ranks order) f.predecessors.toArray (order.drop 1) tree =
          .ok (.again next) ∧ Sweeping f order [Func.entry] next ∧
        next.height order < tree.height order) ∨
      ∃ result, sweep (f.ranks order) f.predecessors.toArray (order.drop 1) tree =
          .ok (.done result) ∧ Settled f order result := by
  have begins : Progress f order tree [] (tree, false) :=
    ⟨sweeping, nofun, fun _ => ⟨rfl, nofun⟩⟩
  obtain ⟨⟨last, changed⟩, passed, progress⟩ := foldlM_ok
    (adopt (f.ranks order) f.predecessors.toArray) (Progress f order tree) begins
    fun _ _ _ _ split progress => adopt_eq_ok ordered pos
      (ordered.drop_one.trans (congrArg (Func.entry :: ·) split)) progress
  have whole : Sweeping f order order last := by
    have sweeping := progress.sweeping
    rwa [← ordered.drop_one] at sweeping
  cases changed with
  | true =>
      exact .inl ⟨last, by simp only [DominatorTree.sweep, passed, bind, Except.bind]; rfl,
        whole.again, progress.changed rfl⟩
  | false =>
      obtain ⟨rfl, covers⟩ := progress.unchanged rfl
      exact .inr ⟨last, by simp only [DominatorTree.sweep, passed, bind, Except.bind]; rfl,
        whole, covers⟩

/-! ## What the last sweep leaves -/

namespace Settled

variable (settled : Settled f order tree) (ordered : f.Ordered order)

include settled ordered

theorem holds_iff : tree.Holds block ↔ f.Reachable block :=
  ⟨fun holds => (ordered.mem_iff block).mp (settled.sweeping.rooted.mem holds),
    fun reachable => settled.sweeping.filled block ((ordered.mem_iff block).mpr reachable)⟩

/-- What is above a block lies on every way to it. -/
theorem dominates_of_above {blocks : List BlockId} (way : f.Way Func.entry block blocks)
    (higher : tree.Above above block) : above ∈ blocks := by
  induction way generalizing above with
  | start => exact List.mem_singleton.mpr higher.eq_entry
  | @step middle target blocks earlier leads ih =>
      by_cases same : above = target
      · exact List.mem_append_right _ (List.mem_singleton.mpr same)
      have reachable : f.Reachable middle := ⟨blocks, earlier⟩
      have apart : target ≠ Func.entry := by
        rintro rfl
        exact same higher.eq_entry
      have mem : target ∈ order.drop 1 := by
        have mem := (ordered.mem_iff target).mpr (reachable.step leads)
        rw [ordered.drop_one] at mem
        exact (List.mem_cons.mp mem).resolve_left apart
      obtain ⟨parent, has, all⟩ := settled.covers target mem
      have below := all middle leads ((settled.holds_iff ordered).mpr reachable)
      exact List.mem_append_left _ (ih ((higher.to_parent has same).trans below))

/-- Going up meets the dominators and nothing else. -/
theorem above_iff_dominates (reachable : f.Reachable block) :
    tree.Above above block ↔ f.Dominates above block :=
  ⟨fun higher _ way => settled.dominates_of_above ordered way higher,
    settled.sweeping.above_of_dominates ((settled.holds_iff ordered).mpr reachable)⟩

/-- The parent of a block is its immediate dominator. -/
theorem exists_immediatelyDominates (reachable : f.Reachable block) (apart : block ≠ Func.entry) :
    ∃ parent, tree.parent? block = some parent ∧ f.ImmediatelyDominates parent block := by
  obtain ⟨parent, has⟩ := (settled.holds_iff ordered).mpr reachable
  refine ⟨parent, has, ⟨?_, ?_⟩, fun other strictly => settled.sweeping.high apart has strictly⟩
  · exact (settled.above_iff_dominates ordered reachable).mp (.of_parent apart has)
  · rintro rfl
    exact Nat.lt_irrefl _ (settled.sweeping.rooted.rises apart has).2

/-- Going up from a block decides what dominates it. -/
theorem dominates_eq_ok (reachable : f.Reachable block) (above : BlockId) :
    ∃ verdict, tree.dominates above block = .ok verdict ∧
      (verdict = true ↔ f.Dominates above block) := by
  obtain ⟨verdict, decided, same⟩ := settled.sweeping.rooted.dominates_eq_ok
    ((settled.holds_iff ordered).mpr reachable) above
  exact ⟨verdict, decided, same.trans (settled.above_iff_dominates ordered reachable)⟩

end Settled

theorem parent?_eq_some_iff :
    tree.parent? block = some parent ↔ tree[block]? = some (some parent) := by
  rw [parent?, Array.getD_eq_getD_getElem?]
  cases tree[block]? <;> simp

end DominatorTree

namespace Func

variable {f : Func}

/-- The tree of dominators is found, whatever the edges between the blocks are. -/
theorem TargetsExist.immediateDominators_eq_ok (closed : f.TargetsExist)
    (pos : 0 < f.blocks.size) :
    ∃ order tree, f.reversePostorder = .ok order ∧ f.Ordered order ∧
      f.immediateDominators = .ok tree ∧ tree.Settled f order := by
  obtain ⟨order, found, ordered⟩ := closed.reversePostorder_eq_ok pos
  let start : DominatorTree := (Array.replicate f.blocks.size none).setIfInBounds entry (some entry)
  have low : start.height order < f.blocks.size * f.blocks.size + 1 := by
    refine Nat.lt_succ_of_le ((DominatorTree.height_le _ _).trans ?_)
    simpa [start] using Nat.mul_le_mul_left _ (ordered.length_le pos)
  obtain ⟨tree, swept, settled⟩ := Round.iterate_ok (DominatorTree.Sweeping f order [entry])
    (DominatorTree.height order) (fun _ sweeping => sweeping.sweep ordered pos)
    (DominatorTree.Sweeping.start ordered pos) low
  refine ⟨order, tree, found, ordered, ?_, settled⟩
  simp only [immediateDominators, pos.ne', if_false, found, bind, Except.bind]
  exact swept

end Func

namespace Sample

/-- A function of which only the graph matters: each block leads to at most two others. -/
def graph (edges : List (List BlockId)) : Func where
  name := "graph"
  params := []
  blocks := (edges.map fun targets => Block.mk none [] [] <|
    match targets with
    | [] => .ret none
    | [target] => .jump ⟨target, []⟩
    | first :: second :: _ =>
        .branch (.const (.word 0)) ⟨first, []⟩ ⟨second, []⟩ none).toArray
  notes := .empty
  entryCount := none
  nextValue := 0

/-- Blocks 1 and 2 lead to each other and are entered at both, block 3 leads to itself, block
4 leads back to the entry, and block 5 cannot be reached. -/
def maze : Func :=
  graph [[1, 2], [2, 3], [1, 3], [3, 4], [0], [3, 5]]

theorem targetsExist_maze : maze.TargetsExist := by
  decide

end Sample

namespace Func

/-- For every function whose edges lead to blocks that are there, the search for immediate
dominators ends. Exactly the reachable blocks have a parent in the tree: the entry itself
is its own, and that of any other is its immediate dominator. Going up in the tree from a
reachable block tells which blocks lie on every way to it. -/
theorem immediateDominators_correct (f : Func) (pos : 0 < f.blocks.size)
    (closed : f.TargetsExist) :
    ∃ tree, f.immediateDominators = .ok tree ∧ tree.size = f.blocks.size ∧
      (∀ block, (∃ parent, tree[block]? = some (some parent)) ↔ f.Reachable block) ∧
      tree[entry]? = some (some entry) ∧
      (∀ block, f.Reachable block → block ≠ entry →
        ∃ parent, tree[block]? = some (some parent) ∧ f.ImmediatelyDominates parent block) ∧
      ∀ block, f.Reachable block → ∀ above, ∃ verdict,
        tree.dominates above block = .ok verdict ∧
          (verdict = true ↔ f.Dominates above block) := by
  obtain ⟨order, tree, -, ordered, found, settled⟩ := closed.immediateDominators_eq_ok pos
  refine ⟨tree, found, settled.sweeping.size_eq, ?_, ?_, ?_, ?_⟩
  · intro block
    simp only [← DominatorTree.parent?_eq_some_iff]
    exact settled.holds_iff ordered
  · exact DominatorTree.parent?_eq_some_iff.mp settled.sweeping.rooted.root
  · intro block reachable apart
    simp only [← DominatorTree.parent?_eq_some_iff]
    exact settled.exists_immediatelyDominates ordered reachable apart
  · intro block reachable above
    exact settled.dominates_eq_ok ordered reachable above

theorem immediateDominators_correct_maze :
    Sample.maze.immediateDominators =
        .ok #[some 0, some 0, some 0, some 0, some 3, none] ∧
      Sample.maze.ImmediatelyDominates 0 3 ∧ ¬ Sample.maze.Reachable 5 := by
  have computed : Sample.maze.immediateDominators =
      .ok #[some 0, some 0, some 0, some 0, some 3, none] := by decide +kernel
  obtain ⟨tree, found, -, placed, -, parents, -⟩ :=
    immediateDominators_correct Sample.maze (by decide) Sample.targetsExist_maze
  obtain rfl := Except.ok.inj (computed.symm.trans found)
  refine ⟨computed, ?_, fun reachable => ?_⟩
  · obtain ⟨parent, has, immediate⟩ := parents 3 ((placed 3).mp ⟨0, rfl⟩) (by decide)
    obtain rfl : 0 = parent := by simpa using has
    exact immediate
  · obtain ⟨parent, has⟩ := (placed 5).mpr reachable
    simp at has

end Func

end FlowProfile
