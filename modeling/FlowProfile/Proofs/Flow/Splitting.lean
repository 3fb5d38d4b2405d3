/-
# The loops of a function with a split block

Where a block is split it leads on through two new blocks: one has the code behind the cut
and ends as the block did, and the other leads there.  A way through the block becomes a way
through its parts.  Nothing else leads into the new blocks, so that every way there passes
the head.  Dominance between old blocks is what it was, and the new ones head no loop.

The walk for the reverse postorder goes into the new blocks as soon as it enters the head
and completes them right before it.  In the order the parts of the block stand where the
block stood, and so the loop headers come as they came before.
-/

import FlowProfile.Proofs.Flow.Loops
import FlowProfile.Proofs.Func.Splitting

namespace FlowProfile

namespace Round

variable {State Result : Type} {round : State → Except Error (Round State Result)}
  {state next : State} {result : Result}

/-- Repeated often enough, the round ends the loop with the result. -/
def Ends (round : State → Except Error (Round State Result)) (state : State) (result : Result) :
    Prop :=
  ∃ bound, iterate round bound state = .ok result

theorem Ends.done (ends : round state = .ok (.done result)) : Ends round state result := by
  refine ⟨1, ?_⟩
  rw [iterate, ends]

theorem Ends.again (goes : round state = .ok (.again next)) (later : Ends round next result) :
    Ends round state result := by
  obtain ⟨bound, ended⟩ := later
  refine ⟨bound + 1, ?_⟩
  rw [iterate, goes]
  exact ended

/-- A loop that ends within a number of rounds ends in the one way in which it ends at all. -/
theorem Ends.unique {bound : Nat} {other : Result} (ends : Ends round state result)
    (ended : iterate round bound state = .ok other) : other = result := by
  obtain ⟨rounds, ends⟩ := ends
  induction rounds generalizing bound state with
  | zero => cases ends
  | succ rounds ih =>
      cases bound with
      | zero => cases ended
      | succ bound =>
          rw [iterate] at ends ended
          split at ends
          · cases ends
          · next next goes =>
              rw [goes] at ended
              exact ih ended ends
          · next found goes =>
              rw [goes] at ended
              exact (Except.ok.inj ended).symm.trans (Except.ok.inj ends)

end Round

namespace Func

/-- The graph of a function after one of its blocks was split. -/
structure SplitGraph (f : Func) (id : BlockId) (g : Func) : Prop where
  size_eq : g.blocks.size = f.blocks.size + 2
  inside : id < f.blocks.size
  head : g.successors id = [f.blocks.size + 1, f.blocks.size]
  rest : g.successors f.blocks.size = f.successors id
  guarded : g.successors (f.blocks.size + 1) = [f.blocks.size]
  others : ∀ other < f.blocks.size, other ≠ id → g.successors other = f.successors other

/-- The block that a block is a part of. -/
def wholeOf (f : Func) (id part : BlockId) : BlockId :=
  if part < f.blocks.size then part else id

/-- The part of a block from which its edges leave. -/
def endOf (f : Func) (id block : BlockId) : BlockId :=
  if block = id then f.blocks.size else block

/-- The parts of a block in reverse postorder. -/
def partsOf (f : Func) (id block : BlockId) : List BlockId :=
  if block = id then [id, f.blocks.size + 1, f.blocks.size] else [block]

/-- Where the walk is outside of the end of a block and still inside of the block. -/
def around (f : Func) (id block : BlockId) : List (BlockId × Nat) :=
  if block = id then [(f.blocks.size + 1, 1), (id, 1)] else []

/-- Where the walk is while it takes the edges of a block. -/
def placesOf (f : Func) (id : BlockId) (place : BlockId × Nat) : List (BlockId × Nat) :=
  (f.endOf id place.1, place.2) :: f.around id place.1

variable {f g : Func} {id source target header block : BlockId} {blocks : List BlockId}

theorem Split.graph {cut : Block} {position : Nat} {condition : Operand}
    {weights : Option Weights} (split : f.Split id cut position condition weights g)
    (found : f.block? id = some cut) : f.SplitGraph id g where
  size_eq := split.size_eq
  inside := lt_size_of_block? found
  head := by
    rw [successors, split.head_eq]
    rfl
  rest := by rw [successors, successors, split.rest_eq, found]
  guarded := by
    rw [successors, split.guarded_eq]
    rfl
  others other old apart := by rw [successors, successors, split.others other old apart]

theorem wholeOf_of_lt (inside : block < f.blocks.size) : f.wholeOf id block = block :=
  if_pos inside

theorem wholeOf_of_le (beyond : f.blocks.size ≤ block) : f.wholeOf id block = id :=
  if_neg (Nat.not_lt_of_le beyond)

theorem wholeOf_endOf (inside : block < f.blocks.size) :
    f.wholeOf id (f.endOf id block) = block := by
  rw [endOf]
  split
  · next same => rw [wholeOf_of_le (Nat.le_refl _), same]
  · exact wholeOf_of_lt inside

namespace SplitGraph

variable (split : f.SplitGraph id g) (closed : f.TargetsExist)

include split

theorem pos : 0 < f.blocks.size :=
  Nat.zero_lt_of_lt split.inside

theorem pos_after : 0 < g.blocks.size := by
  rw [split.size_eq]
  exact Nat.succ_pos _

theorem successors_endOf (inside : block < f.blocks.size) :
    g.successors (f.endOf id block) = f.successors block := by
  rw [endOf]
  split
  · next same => rw [split.rest, same]
  · next apart => exact split.others block inside apart

theorem leads_endOf (leads : f.Leads source target) : g.Leads (f.endOf id source) target := by
  refine ⟨?_, ?_⟩
  · rw [split.successors_endOf leads.source_lt]
    exact leads.1
  · rw [split.size_eq]
    exact Nat.lt_add_right 2 leads.2

theorem leads_rest : g.Leads id f.blocks.size := by
  refine ⟨?_, split.size_eq ▸ Nat.lt_add_of_pos_right Nat.two_pos⟩
  rw [split.head]
  exact List.mem_cons_of_mem _ List.mem_cons_self

theorem leads_guarded : g.Leads id (f.blocks.size + 1) := by
  refine ⟨?_, split.size_eq ▸ Nat.lt_succ_self _⟩
  rw [split.head]
  exact List.mem_cons_self

/-- The new blocks. -/
theorem eq_of_le (beyond : f.blocks.size ≤ block) (below : block < g.blocks.size) :
    block = f.blocks.size ∨ block = f.blocks.size + 1 := by
  rw [split.size_eq] at below
  rcases Nat.eq_or_lt_of_le beyond with same | more
  · exact .inl same.symm
  · exact .inr (Nat.le_antisymm (Nat.le_of_lt_succ below) more)

/-- The head leads to the new blocks and nowhere else. -/
theorem le_of_mem_head (mem : target ∈ g.successors id) :
    f.blocks.size ≤ target ∧ target < g.blocks.size := by
  rw [split.head, List.mem_cons, List.mem_singleton] at mem
  rw [split.size_eq]
  rcases mem with rfl | rfl
  · exact ⟨Nat.le_succ _, Nat.lt_succ_self _⟩
  · exact ⟨Nat.le_refl _, Nat.lt_add_of_pos_right Nat.two_pos⟩

include closed

/-- An edge leads from one part of the split block to a new one, or from the end of a block
to another block. -/
theorem leads_cases (leads : g.Leads source target) :
    (f.blocks.size ≤ target ∧ (source = id ∨ source = f.blocks.size + 1)) ∨
      f.Leads (f.wholeOf id source) target ∧ f.endOf id (f.wholeOf id source) = source := by
  have mem := leads.1
  rcases Nat.lt_or_ge source f.blocks.size with old | beyond
  · by_cases same : source = id
    · rw [same] at mem
      exact .inl ⟨(split.le_of_mem_head mem).1, .inl same⟩
    · rw [split.others source old same] at mem
      rw [wholeOf_of_lt old, endOf, if_neg same]
      exact .inr ⟨closed.leads mem, rfl⟩
  · rcases split.eq_of_le beyond leads.source_lt with same | same
    · rw [same, split.rest] at mem
      rw [wholeOf_of_le beyond, endOf, if_pos rfl]
      exact .inr ⟨closed.leads mem, same.symm⟩
    · rw [same, split.guarded, List.mem_singleton] at mem
      exact .inl ⟨mem.ge, .inr same⟩

theorem targetsExist : g.TargetsExist := by
  have wider {block : BlockId} (old : block < f.blocks.size) : block < g.blocks.size := by
    rw [split.size_eq]
    exact Nat.lt_add_right 2 old
  intro source inside target mem
  rcases Nat.lt_or_ge source f.blocks.size with old | beyond
  · by_cases same : source = id
    · rw [same] at mem
      exact (split.le_of_mem_head mem).2
    · rw [split.others source old same] at mem
      exact wider (closed source old target mem)
  · rcases split.eq_of_le beyond inside with same | same
    · rw [same, split.rest] at mem
      exact wider (closed id split.inside target mem)
    · rw [same, split.guarded, List.mem_singleton] at mem
      rw [mem]
      exact split.leads_rest.2

/-! ## Ways through a split block -/

/-- A way between parts is a way between their blocks. -/
theorem exists_way_wholeOf (way : g.Way entry target blocks) :
    ∃ whole, f.Way entry (f.wholeOf id target) whole ∧ ∀ block ∈ whole, block ∈ blocks := by
  induction way with
  | start =>
      have inside : entry < f.blocks.size := split.pos
      rw [wholeOf_of_lt inside]
      exact ⟨_, .start, fun block mem => mem⟩
  | @step middle target blocks earlier leads ih =>
      obtain ⟨whole, way, part⟩ := ih
      rcases split.leads_cases closed leads with ⟨beyond, within⟩ | ⟨leads', -⟩
      · have same : f.wholeOf id middle = id := by
          rcases within with rfl | rfl
          · exact wholeOf_of_lt split.inside
          · exact wholeOf_of_le (Nat.le_succ _)
        rw [wholeOf_of_le beyond, ← same]
        exact ⟨whole, way, fun block mem => List.mem_append_left _ (part block mem)⟩
      · rw [wholeOf_of_lt leads'.2]
        refine ⟨whole ++ [target], way.step leads', fun block mem => ?_⟩
        rcases List.mem_append.mp mem with before | last
        · exact List.mem_append_left _ (part block before)
        · exact List.mem_append_right _ last

omit closed in
/-- A way between blocks leads through their parts to where the last one ends. -/
theorem exists_way_endOf (way : f.Way entry target blocks) :
    ∃ parts, g.Way entry (f.endOf id target) parts ∧
      ∀ part ∈ parts, f.wholeOf id part ∈ blocks := by
  have onward {source block : BlockId} {parts blocks : List BlockId}
      (way : g.Way source block parts) (inside : block < f.blocks.size)
      (part : ∀ part ∈ parts, f.wholeOf id part ∈ blocks) :
      ∃ parts, g.Way source (f.endOf id block) parts ∧
        ∀ part ∈ parts, f.wholeOf id part ∈ blocks := by
    by_cases same : block = id
    · subst same
      rw [endOf, if_pos rfl]
      refine ⟨parts ++ [f.blocks.size], way.step split.leads_rest, fun other mem => ?_⟩
      rcases List.mem_append.mp mem with before | last
      · exact part other before
      · rw [List.mem_singleton.mp last, wholeOf_of_le (Nat.le_refl _)]
        have known := part block way.target_mem
        rwa [wholeOf_of_lt inside] at known
    · rw [endOf, if_neg same]
      exact ⟨parts, way, part⟩
  induction way with
  | start =>
      have inside : entry < f.blocks.size := split.pos
      refine onward .start inside fun part mem => ?_
      rw [List.mem_singleton.mp mem, wholeOf_of_lt inside]
      exact List.mem_singleton_self _
  | @step middle target blocks earlier leads ih =>
      obtain ⟨parts, way, part⟩ := ih
      refine onward (way.step (split.leads_endOf leads)) leads.2 fun other mem => ?_
      rcases List.mem_append.mp mem with before | last
      · exact List.mem_append_left _ (part other before)
      · rw [List.mem_singleton.mp last, wholeOf_of_lt leads.2]
        exact List.mem_append_right _ (List.mem_singleton_self _)

theorem reachable_wholeOf (reachable : g.Reachable block) : f.Reachable (f.wholeOf id block) := by
  obtain ⟨blocks, way⟩ := reachable
  obtain ⟨whole, way', -⟩ := split.exists_way_wholeOf closed way
  exact ⟨whole, way'⟩

omit closed in
theorem reachable_endOf (reachable : f.Reachable block) : g.Reachable (f.endOf id block) := by
  obtain ⟨blocks, way⟩ := reachable
  obtain ⟨parts, way', -⟩ := split.exists_way_endOf way
  exact ⟨parts, way'⟩

/-- Whether an old block dominates where a block ends is whether it dominates the block. -/
theorem dominates_endOf_iff (old : header < f.blocks.size) (inside : block < f.blocks.size) :
    g.Dominates header (f.endOf id block) ↔ f.Dominates header block := by
  constructor
  · intro dominates blocks way
    obtain ⟨parts, way', part⟩ := split.exists_way_endOf way
    have mem := part header (dominates parts way')
    rwa [wholeOf_of_lt old] at mem
  · intro dominates parts way
    obtain ⟨whole, way', within⟩ := split.exists_way_wholeOf closed way
    rw [wholeOf_endOf inside] at way'
    exact within header (dominates whole way')

/-- Every way into a new block passes the head. -/
theorem dominates_of_le (beyond : f.blocks.size ≤ block) : g.Dominates id block := by
  intro parts way
  obtain ⟨whole, way', within⟩ := split.exists_way_wholeOf closed way
  rw [wholeOf_of_le beyond] at way'
  exact within id way'.target_mem

/-! ## Loops through a split block -/

/-- A new block does not dominate the head, through which one comes to it. -/
theorem not_dominates_head (beyond : f.blocks.size ≤ header) (reachable : g.Reachable header) :
    ¬ g.Dominates header id := by
  intro dominates
  have apart : header ≠ id := (Nat.lt_of_lt_of_le split.inside beyond).ne'
  obtain ⟨order, -, ordered⟩ := (split.targetsExist closed).reversePostorder_eq_ok split.pos_after
  have reached : header ∈ order := (ordered.mem_iff header).mpr reachable
  have above := ordered.idxOf_lt_of_strictlyDominates reached
    ⟨split.dominates_of_le closed beyond, apart.symm⟩
  have mem : id ∈ order :=
    List.idxOf_lt_length_iff.mp (above.trans (List.idxOf_lt_length_iff.mpr reached))
  exact Nat.lt_asymm above (ordered.idxOf_lt_of_strictlyDominates mem ⟨dominates, apart⟩)

/-- The loop headers are those there were. -/
theorem isLoopHeader_iff : g.IsLoopHeader header ↔ f.IsLoopHeader header := by
  constructor
  · rintro ⟨source, reachable, leads, dominates⟩
    rcases split.leads_cases closed leads with ⟨beyond, within⟩ | ⟨leads', ends⟩
    · -- An edge to a new block comes from the head or from behind it.
      refine absurd ?_ (split.not_dominates_head closed beyond (reachable.step leads))
      rcases within with rfl | rfl
      · exact dominates
      · have same : header = f.blocks.size := by
          have mem := leads.1
          rwa [split.guarded, List.mem_singleton] at mem
        apply StrictlyDominates.of_leads ⟨dominates, ?_⟩ split.leads_guarded
        rw [same]
        exact (Nat.lt_succ_self _).ne
    · refine ⟨_, split.reachable_wholeOf closed reachable, leads', ?_⟩
      rw [← ends] at dominates
      exact (split.dominates_endOf_iff closed leads'.2 leads'.source_lt).mp dominates
  · rintro ⟨source, reachable, leads, dominates⟩
    exact ⟨_, split.reachable_endOf reachable, split.leads_endOf leads,
      (split.dominates_endOf_iff closed leads.2 leads.source_lt).mpr dominates⟩

end SplitGraph

end Func

/-! ## The walk through a split block -/

namespace Walk

section

variable {next : BlockId → List BlockId} {met : Array Bool} {order result : List BlockId}
  {block target : BlockId} {taken : Nat} {outer : List (BlockId × Nat)}

theorem ends_of_complete (last : (next block)[taken]? = none)
    (later : Round.Ends (round next) ⟨met, block :: order, outer⟩ result) :
    Round.Ends (round next) ⟨met, order, (block, taken) :: outer⟩ result := by
  apply Round.Ends.again ?_ later
  simp only [round, last]

theorem ends_of_skip (edge : (next block)[taken]? = some target)
    (known : fetch met target = .ok true)
    (later : Round.Ends (round next) ⟨met, order, (block, taken + 1) :: outer⟩ result) :
    Round.Ends (round next) ⟨met, order, (block, taken) :: outer⟩ result := by
  apply Round.Ends.again ?_ later
  simp only [round, edge, known]

theorem ends_of_enter (edge : (next block)[taken]? = some target)
    (fresh : fetch met target = .ok false)
    (later : Round.Ends (round next)
      ⟨met.setIfInBounds target true, order, (target, 0) :: (block, taken + 1) :: outer⟩ result) :
    Round.Ends (round next) ⟨met, order, (block, taken) :: outer⟩ result := by
  apply Round.Ends.again ?_ later
  simp only [round, edge, fresh]

end

theorem fetch_set_of_ne {met : Array Bool} {one other : BlockId} (apart : one ≠ other) :
    fetch (met.setIfInBounds one true) other = fetch met other := by
  rw [fetch, fetch, Array.getElem?_setIfInBounds_ne apart]

/-- A part of a block is met when the block is. -/
structure MetAlike (f : Func) (id : BlockId) (met parts : Array Bool) : Prop where
  size_eq : parts.size = f.blocks.size + 2
  met_eq : ∀ part < f.blocks.size + 2,
    parts.getD part false = met.getD (f.wholeOf id part) false

section

variable {f g : Func} {id : BlockId} {met parts : Array Bool}
  {order result : List BlockId} {block target : BlockId} {outer : List (BlockId × Nat)}

theorem MetAlike.fetch_eq (alike : MetAlike f id met parts) {part : BlockId}
    (inside : part < f.blocks.size + 2) :
    fetch parts part = .ok (met.getD (f.wholeOf id part) false) := by
  rw [fetch_eq_getD (alike.size_eq.symm ▸ inside) false, alike.met_eq part inside]

variable (split : f.SplitGraph id g)

include split

/-- Once the end of a block is completed its other parts are. -/
theorem ends_of_around (alike : MetAlike f id met parts) (known : met.getD block false = true)
    (later : Round.Ends (round g.successors) ⟨parts, f.partsOf id block ++ order, outer⟩ result) :
    Round.Ends (round g.successors)
      ⟨parts, f.endOf id block :: order, f.around id block ++ outer⟩ result := by
  by_cases same : block = id
  · subst same
    have whole : f.wholeOf block f.blocks.size = block := Func.wholeOf_of_le (Nat.le_refl _)
    have read := alike.fetch_eq (Nat.lt_add_of_pos_right Nat.two_pos)
    rw [whole, known] at read
    rw [Func.endOf, if_pos rfl, Func.around, if_pos rfl]
    rw [Func.partsOf, if_pos rfl] at later
    apply ends_of_complete (by rw [split.guarded]; rfl)
    apply ends_of_skip (by rw [split.head]; rfl) read
    exact ends_of_complete (by rw [split.head]; rfl) later
  · rw [Func.endOf, if_neg same, Func.around, if_neg same]
    rwa [Func.partsOf, if_neg same] at later

omit split in
/-- A block that is not split has itself for its only part. -/
theorem MetAlike.enter (alike : MetAlike f id met parts) (size_eq : met.size = f.blocks.size)
    (inside : target < f.blocks.size) (apart : target ≠ id) :
    MetAlike f id (met.setIfInBounds target true) (parts.setIfInBounds target true) where
  size_eq := Array.size_setIfInBounds.trans alike.size_eq
  met_eq part small := by
    have whole : f.wholeOf id part = target ↔ part = target := by
      rw [Func.wholeOf]
      split
      · exact Iff.rfl
      · next beyond =>
          refine ⟨fun same => absurd same.symm apart, fun same => absurd ?_ beyond⟩
          exact same ▸ inside
    have room : target < parts.size := by
      rw [alike.size_eq]
      exact Nat.lt_add_right 2 inside
    rw [getD_setIfInBounds, getD_setIfInBounds, alike.met_eq part small, size_eq]
    simp only [inside, room, and_true, eq_comm (a := target), whole]

omit split in
/-- A block that is split is met with all its parts. -/
theorem MetAlike.enterAll (alike : MetAlike f id met parts) (size_eq : met.size = f.blocks.size)
    (inside : id < f.blocks.size) :
    MetAlike f id (met.setIfInBounds id true)
      (((parts.setIfInBounds id true).setIfInBounds (f.blocks.size + 1) true).setIfInBounds
        f.blocks.size true) where
  size_eq := by simpa only [Array.size_setIfInBounds] using alike.size_eq
  met_eq part small := by
    rw [getD_setIfInBounds, getD_setIfInBounds, getD_setIfInBounds, getD_setIfInBounds,
      Array.size_setIfInBounds, Array.size_setIfInBounds, alike.size_eq, alike.met_eq part small,
      size_eq]
    rcases Nat.lt_or_ge part f.blocks.size with old | beyond
    · rw [Func.wholeOf_of_lt old, if_neg fun last => Nat.ne_of_gt old last.1,
        if_neg fun last => Nat.ne_of_gt (Nat.lt_succ_of_lt old) last.1]
      simp only [inside, Nat.lt_add_right 2 inside, and_true]
    · rcases Nat.eq_or_lt_of_le beyond with rfl | more
      · simp [Func.wholeOf_of_le beyond, inside]
      · obtain rfl : part = f.blocks.size + 1 := Nat.le_antisymm (Nat.le_of_lt_succ small) more
        simp [Func.wholeOf_of_le beyond, inside]

/-- Where the walk enters a block it goes on to the end of the block at once. -/
theorem ends_of_entered (alike : MetAlike f id met parts) (size_eq : met.size = f.blocks.size)
    (inside : target < f.blocks.size) (fresh : met.getD target false = false)
    (later : ∀ parts, MetAlike f id (met.setIfInBounds target true) parts →
      Round.Ends (round g.successors)
        ⟨parts, order, f.placesOf id (target, 0) ++ outer⟩ result) :
    Round.Ends (round g.successors)
      ⟨parts.setIfInBounds target true, order, (target, 0) :: outer⟩ result := by
  by_cases same : target = id
  · subst same
    have unmet {part : BlockId} (beyond : f.blocks.size ≤ part)
        (small : part < f.blocks.size + 2) : fetch parts part = .ok false := by
      rw [alike.fetch_eq small, Func.wholeOf_of_le beyond, fresh]
    have last := later _ (alike.enterAll size_eq inside)
    rw [Func.placesOf, Func.endOf, if_pos rfl, Func.around, if_pos rfl] at last
    apply ends_of_enter (by rw [split.head]; rfl) ?_
    · apply ends_of_enter (by rw [split.guarded]; rfl) ?_ last
      rw [fetch_set_of_ne (Nat.lt_succ_self _).ne', fetch_set_of_ne inside.ne]
      exact unmet (Nat.le_refl _) (Nat.lt_add_of_pos_right Nat.two_pos)
    · rw [fetch_set_of_ne (Nat.lt_succ_of_lt inside).ne]
      exact unmet (Nat.le_succ _) (Nat.lt_succ_self _)
  · have places : f.placesOf id (target, 0) = [(target, 0)] := by
      rw [Func.placesOf, Func.endOf, if_neg same, Func.around, if_neg same]
    rw [places] at later
    exact later _ (alike.enter size_eq inside same)

/-- With a split block the walk takes the same edges and completes the parts of each block
where it completed the block. -/
theorem ends_of_split (closed : f.TargetsExist) {walk : Walk} (sound : Sound f walk) {bound : Nat}
    (ended : Round.iterate (round f.successors) bound walk = .ok result)
    (alike : MetAlike f id walk.met parts) :
    Round.Ends (round g.successors)
      ⟨parts, walk.order.flatMap (f.partsOf id), walk.inside.flatMap (f.placesOf id)⟩
      (result.flatMap (f.partsOf id)) := by
  induction bound generalizing walk parts with
  | zero => cases ended
  | succ bound ih =>
      obtain ⟨met, order, places⟩ := walk
      rw [Round.iterate] at ended
      cases places with
      | nil =>
          cases ended
          exact .done rfl
      | cons place outer =>
          obtain ⟨block, taken⟩ := place
          have mem : block ∈ seen ⟨met, order, (block, taken) :: outer⟩ :=
            List.mem_append_left _ List.mem_cons_self
          have inside : block < f.blocks.size :=
            (sound.reachable block mem).lt_size split.pos
          have edges := split.successors_endOf inside
          rw [List.flatMap_cons, Func.placesOf]
          cases edge : (f.successors block)[taken]? with
          | none =>
              simp only [round, edge] at ended
              apply ends_of_complete (by rw [edges, edge])
              apply ends_of_around split alike ((sound.met_iff block).mpr mem)
              rw [← List.flatMap_cons]
              exact ih (sound.complete edge) ended alike
          | some target =>
              have leads := closed.leads (List.mem_of_getElem? edge)
              have read := fetch_eq_getD (sound.size_eq.symm ▸ leads.2) false
              have read' := alike.fetch_eq (Nat.lt_add_right 2 leads.2)
              rw [Func.wholeOf_of_lt leads.2] at read'
              cases known : met.getD target false with
              | true =>
                  rw [known] at read'
                  simp only [round, edge, read, known] at ended
                  apply ends_of_skip (by rw [edges, edge]) read'
                  exact ih (sound.skip edge known) ended alike
              | false =>
                  rw [known] at read'
                  simp only [round, edge, read, known] at ended
                  apply ends_of_enter (by rw [edges, edge]) read'
                  apply ends_of_entered split alike sound.size_eq leads.2 known
                  exact fun parts alike => ih (sound.enter edge leads known) ended alike

end

end Walk

/-! ## The order of a function with a split block -/

namespace Func

variable {f g : Func} {id : BlockId} {order : List BlockId}

namespace SplitGraph

variable (split : f.SplitGraph id g) (closed : f.TargetsExist)

include split closed

/-- In the order the parts of the block stand where the block stood. -/
theorem reversePostorder_eq (found : f.reversePostorder = .ok order) :
    g.reversePostorder = .ok (order.flatMap (f.partsOf id)) := by
  obtain ⟨order', found', -⟩ :=
    (split.targetsExist closed).reversePostorder_eq_ok split.pos_after
  rw [found']
  rw [reversePostorder, if_neg (by simpa [Array.isEmpty] using split.pos.ne')] at found
  rw [reversePostorder, if_neg (by simpa [Array.isEmpty] using split.pos_after.ne')] at found'
  have alike : Walk.MetAlike f id (Array.replicate f.blocks.size false)
      (Array.replicate g.blocks.size false) := by
    refine ⟨Array.size_replicate.trans split.size_eq, fun part _ => ?_⟩
    rw [getD_replicate, getD_replicate]
  refine congrArg Except.ok (Round.Ends.unique ?_ found')
  apply Walk.ends_of_entered split alike Array.size_replicate split.pos (getD_replicate _ _ _)
  exact fun parts alike => Walk.ends_of_split split closed (Walk.sound_start split.pos) found alike

/-- The loop headers are found as before, in the order in which they came before. -/
theorem loopHeaders_eq : ∃ headers, f.loopHeaders = .ok headers ∧ g.loopHeaders = .ok headers := by
  obtain ⟨order, isHeader, ordered, -, found, isHeader_iff⟩ :=
    closed.loopHeaders_eq_filter split.pos
  obtain ⟨order', isHeader', ordered', -, found', isHeader_iff'⟩ :=
    (split.targetsExist closed).loopHeaders_eq_filter split.pos_after
  obtain rfl : order.flatMap (f.partsOf id) = order' :=
    Except.ok.inj ((split.reversePostorder_eq closed ordered).symm.trans ordered')
  obtain rfl : isHeader' = isHeader := by
    funext header
    rw [Bool.eq_iff_iff, isHeader_iff', isHeader_iff]
    exact split.isLoopHeader_iff closed
  refine ⟨_, found, found'.trans (congrArg Except.ok ?_)⟩
  have new {header : BlockId} (beyond : f.blocks.size ≤ header) : isHeader' header = false := by
    rw [Bool.eq_false_iff, Ne, isHeader_iff]
    rintro ⟨source, -, leads, -⟩
    exact Nat.not_lt_of_le beyond leads.2
  have each (block : BlockId) : (f.partsOf id block).filter isHeader' = [block].filter isHeader' := by
    rw [partsOf]
    split
    · next same =>
        subst same
        simp [List.filter_cons, new (Nat.le_refl _), new (Nat.le_succ _)]
    · rfl
  rw [List.filter_flatMap]
  simp only [each]
  rw [← List.filter_flatMap, List.flatMap_singleton']

end SplitGraph

end Func

end FlowProfile
