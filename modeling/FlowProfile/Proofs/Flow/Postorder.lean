/-
# The walk comes to its end

The walk that yields the reverse postorder ends by itself, for every function whose edges
lead to blocks that are there.  Each round takes an edge or completes a block, and so there
are no more rounds than there are edges and blocks.

The order holds every reachable block once, begins with the entry, and has ahead of every
other block one that leads to it.  An edge points forward in the order unless it closes a
cycle.
-/

import FlowProfile.Flow.Postorder
import FlowProfile.Proofs.Flow.Ways
import Mathlib.Algebra.BigOperators.Group.Finset.Basic
import Mathlib.Algebra.Order.BigOperators.Group.Finset

namespace FlowProfile

open Finset

/-- The reachable blocks in an order that begins with the entry, and in which each other
block comes after one that leads to it. -/
structure Func.Ordered (f : Func) (order : List BlockId) : Prop where
  head : order.head? = some Func.entry
  nodup : order.Nodup
  mem_iff : ∀ block, block ∈ order ↔ f.Reachable block
  entered : ∀ block ∈ order, block ≠ Func.entry →
    ∃ source, f.Leads source block ∧ order.idxOf source < order.idxOf block
  forward : ∀ block ∈ order, ∀ target, f.Leads block target →
    order.idxOf block < order.idxOf target ∨ f.Reaches target block

namespace Walk

/-- The blocks that the walk is inside of, the innermost one first. -/
def path (walk : Walk) : List BlockId :=
  walk.inside.map Prod.fst

/-- The blocks that the walk has met. -/
def seen (walk : Walk) : List BlockId :=
  walk.path ++ walk.order

/-- What is true of a walk throughout. -/
structure Sound (f : Func) (walk : Walk) : Prop where
  size_eq : walk.met.size = f.blocks.size
  met_iff : ∀ block, walk.met.getD block false = true ↔ block ∈ walk.seen
  nodup : walk.seen.Nodup
  reachable : ∀ block ∈ walk.seen, f.Reachable block
  linked : walk.path.IsChain fun inner outer => f.Leads outer inner
  rooted : walk.path.getLast? = some Func.entry ∨
    walk.path = [] ∧ walk.order.head? = some Func.entry
  taken : ∀ place ∈ walk.inside, ∀ target ∈ (f.successors place.1).take place.2,
    target ∈ walk.seen
  entered : ∀ block ∈ walk.order, block ≠ Func.entry → ∃ source, f.Leads source block ∧
    (source ∈ walk.path ∨ walk.order.idxOf source < walk.order.idxOf block)
  forward : ∀ block ∈ walk.order, ∀ target ∈ f.successors block, target ∈ walk.seen ∧
    (target ∈ walk.order ∧ walk.order.idxOf block < walk.order.idxOf target ∨
      f.Reaches target block)

/-- How many rounds are left at most: one for each edge not taken and for each block not
completed. -/
def remaining (f : Func) (walk : Walk) : Nat :=
  (∑ id ∈ range f.blocks.size with walk.met.getD id false = false,
      ((f.successors id).length + 1)) +
    walk.inside.foldr (fun place rounds => (f.successors place.1).length - place.2 + 1 + rounds) 0

variable {f : Func} {met : Array Bool} {order : List BlockId} {block target : BlockId}
  {taken : Nat} {outer : List (BlockId × Nat)}

theorem sound_start (pos : 0 < f.blocks.size) : (start f.blocks.size).Sound f where
  size_eq := by simp [start]
  met_iff block := by
    rw [start, getD_setIfInBounds, getD_replicate, Array.size_replicate]
    by_cases first : Func.entry = block
    · simp [seen, path, ← first, Func.entry, pos]
    · simp [seen, path, first, Ne.symm first]
  nodup := by simp [seen, path, start]
  reachable block mem := by
    obtain rfl : block = Func.entry := by simpa [seen, path, start] using mem
    exact f.reachable_entry
  linked := List.isChain_singleton _
  rooted := .inl rfl
  taken place mem target earlier := by
    obtain rfl : place = (Func.entry, 0) := by simpa [start] using mem
    cases earlier
  entered _ mem := nomatch mem
  forward _ mem := nomatch mem

theorem remaining_start (pos : 0 < f.blocks.size) :
    (start f.blocks.size).remaining f = f.blocks.size + f.edgeCount := by
  have unmet : (range f.blocks.size).filter
      (fun id => (start f.blocks.size).met.getD id false = false) =
        (range f.blocks.size).erase Func.entry := by
    ext id
    rw [start, mem_filter, mem_erase, getD_setIfInBounds, getD_replicate, Array.size_replicate]
    by_cases first : Func.entry = id
    · simp [← first, Func.entry, pos]
    · simp [first, Ne.symm first]
  have all : ∑ id ∈ range f.blocks.size, ((f.successors id).length + 1) =
      f.blocks.size + f.edgeCount := by
    rw [sum_add_distrib, sum_const, card_range, Nat.nsmul_eq_mul, Nat.mul_one, Nat.add_comm]
    congr 1
    exact List.foldr_map
  rw [remaining, unmet, ← all, ← sum_erase_add _ _ (mem_range.mpr pos)]
  simp [start, Func.entry]

/-- A block on the path reaches the innermost one. -/
theorem reaches_of_mem_path {inner : BlockId} {blocks : List BlockId}
    (linked : (inner :: blocks).IsChain fun inner outer => f.Leads outer inner)
    (mem : target ∈ inner :: blocks) : f.Reaches target inner := by
  induction blocks generalizing inner with
  | nil =>
      obtain rfl := List.mem_singleton.mp mem
      exact .refl f _
  | cons next rest ih =>
      obtain ⟨leads, linked⟩ := List.isChain_cons_cons.mp linked
      rcases List.mem_cons.mp mem with rfl | mem
      · exact .refl f _
      · exact (ih linked mem).trans leads.reaches

namespace Sound

/-- An edge to a block that was met before is taken. -/
theorem skip (sound : Sound f ⟨met, order, (block, taken) :: outer⟩)
    (edge : (f.successors block)[taken]? = some target) (known : met.getD target false = true) :
    Sound f ⟨met, order, (block, taken + 1) :: outer⟩ :=
  { sound with
    taken := by
      intro place mem target' earlier
      rcases List.mem_cons.mp mem with rfl | mem
      · rw [List.take_add_one, edge] at earlier
        rcases List.mem_append.mp earlier with earlier | last
        · exact sound.taken _ List.mem_cons_self _ earlier
        · obtain rfl := List.mem_singleton.mp last
          exact (sound.met_iff _).mp known
      · exact sound.taken place (List.mem_cons_of_mem _ mem) target' earlier }

/-- An edge into a block that was not met before is taken. -/
theorem enter (sound : Sound f ⟨met, order, (block, taken) :: outer⟩)
    (edge : (f.successors block)[taken]? = some target) (leads : f.Leads block target)
    (fresh : met.getD target false = false) :
    Sound f ⟨met.setIfInBounds target true, order,
      (target, 0) :: (block, taken + 1) :: outer⟩ := by
  have new : target ∉ seen ⟨met, order, (block, taken) :: outer⟩ := fun mem => by
    have known := (sound.met_iff target).mpr mem
    rw [fresh] at known
    cases known
  have wider : ∀ {other}, other ∈ seen ⟨met, order, (block, taken) :: outer⟩ →
      other ∈ seen ⟨met.setIfInBounds target true, order,
        (target, 0) :: (block, taken + 1) :: outer⟩ := List.mem_cons_of_mem _
  refine
    { size_eq := by rw [← sound.size_eq]; exact Array.size_setIfInBounds
      met_iff := ?_
      nodup := List.nodup_cons.mpr ⟨new, sound.nodup⟩
      reachable := ?_
      linked := List.isChain_cons_cons.mpr ⟨leads, sound.linked⟩
      rooted := ?_
      taken := ?_
      entered := ?_
      forward := fun other mem target' edge' =>
        (sound.forward other mem target' edge').imp_left wider }
  · intro other
    have inside : target < met.size := sound.size_eq.symm ▸ leads.2
    rw [getD_setIfInBounds]
    by_cases same : target = other
    · simp [seen, path, same, same ▸ inside]
    · rw [if_neg fun both => same both.1, sound.met_iff]
      simp [seen, path, Ne.symm same]
  · intro other mem
    rcases List.mem_cons.mp mem with rfl | mem
    · exact (sound.reachable block List.mem_cons_self).step leads
    · exact sound.reachable other mem
  · rcases sound.rooted with last | ⟨empty, -⟩
    · exact .inl last
    · cases empty
  · intro place mem target' earlier
    rcases List.mem_cons.mp mem with rfl | mem
    · cases earlier
    rcases List.mem_cons.mp mem with rfl | mem
    · rw [List.take_add_one, edge] at earlier
      rcases List.mem_append.mp earlier with earlier | last
      · exact wider (sound.taken _ List.mem_cons_self _ earlier)
      · obtain rfl := List.mem_singleton.mp last
        exact List.mem_cons_self
    · exact wider (sound.taken place (List.mem_cons_of_mem _ mem) target' earlier)
  · intro other mem apart
    obtain ⟨source, leads', before⟩ := sound.entered other mem apart
    exact ⟨source, leads', before.imp_left (List.mem_cons_of_mem _)⟩

/-- What is put in front comes before all else. -/
theorem idxOf_cons_self_lt {other : BlockId} (apart : other ≠ block) :
    (block :: order).idxOf block < (block :: order).idxOf other := by
  rw [List.idxOf_cons_self, List.idxOf_cons_ne _ apart.symm]
  exact Nat.succ_pos _

/-- What is put in front does not change how the others come. -/
theorem idxOf_cons_lt_cons (distinct : block ∉ order) {one other : BlockId} (mem : other ∈ order)
    (less : order.idxOf one < order.idxOf other) :
    (block :: order).idxOf one < (block :: order).idxOf other := by
  have mem' : one ∈ order :=
    List.idxOf_lt_length_iff.mp (less.trans (List.idxOf_lt_length_iff.mpr mem))
  have later {third : BlockId} (mem : third ∈ order) : block ≠ third := fun same =>
    distinct (same ▸ mem)
  rw [List.idxOf_cons_ne _ (later mem'), List.idxOf_cons_ne _ (later mem)]
  exact Nat.succ_lt_succ less

/-- A block all of whose edges are taken is completed. -/
theorem complete (sound : Sound f ⟨met, order, (block, taken) :: outer⟩)
    (last : (f.successors block)[taken]? = none) :
    Sound f ⟨met, block :: order, outer⟩ := by
  have all : (f.successors block).take taken = f.successors block :=
    List.take_of_length_le (List.getElem?_eq_none_iff.mp last)
  have same : ∀ other, other ∈ seen ⟨met, block :: order, outer⟩ ↔
      other ∈ seen ⟨met, order, (block, taken) :: outer⟩ := by
    intro other
    simp only [seen, path, List.map_cons, List.cons_append, List.mem_cons, List.mem_append]
    exact or_left_comm
  have distinct : block ∉ order := fun mem =>
    (List.nodup_cons.mp sound.nodup).1 (List.mem_append_right _ mem)
  have later : ∀ other ∈ order, other ≠ block := fun other mem same => distinct (same ▸ mem)
  refine
    { size_eq := sound.size_eq
      met_iff := fun other => (sound.met_iff other).trans (same other).symm
      nodup := List.nodup_middle.mpr sound.nodup
      reachable := fun other mem => sound.reachable other ((same other).mp mem)
      linked := sound.linked.tail
      rooted := ?_
      taken := fun place mem target edge =>
        (same target).mpr (sound.taken place (List.mem_cons_of_mem _ mem) target edge)
      entered := ?_
      forward := ?_ }
  · rcases sound.rooted with root | ⟨empty, -⟩
    · cases outer with
      | nil => exact .inr ⟨rfl, root⟩
      | cons place outer => exact .inl root
    · cases empty
  · intro other mem apart
    rcases List.mem_cons.mp mem with rfl | mem
    · cases outer with
      | nil =>
          rcases sound.rooted with root | ⟨empty, -⟩
          · exact absurd (Option.some.inj root) apart
          · cases empty
      | cons place outer =>
          exact ⟨place.1, (List.isChain_cons_cons.mp sound.linked).1, .inl List.mem_cons_self⟩
    · obtain ⟨source, leads, onPath | before⟩ := sound.entered other mem apart
      · rcases List.mem_cons.mp onPath with same | onPath
        · exact ⟨source, leads, .inr (same ▸ idxOf_cons_self_lt (later other mem))⟩
        · exact ⟨source, leads, .inl onPath⟩
      · exact ⟨source, leads, .inr (idxOf_cons_lt_cons distinct mem before)⟩
  · intro other mem target edge
    rcases List.mem_cons.mp mem with rfl | mem
    · have known := sound.taken (other, taken) List.mem_cons_self target (all.symm ▸ edge)
      refine ⟨(same target).mpr known, ?_⟩
      rcases List.mem_append.mp known with onPath | done
      · exact .inr (reaches_of_mem_path sound.linked onPath)
      · exact .inl ⟨List.mem_cons_of_mem _ done, idxOf_cons_self_lt (later target done)⟩
    · obtain ⟨known, direction⟩ := sound.forward other mem target edge
      refine ⟨(same target).mpr known, direction.imp_left fun ⟨done, less⟩ => ?_⟩
      exact ⟨List.mem_cons_of_mem _ done, idxOf_cons_lt_cons distinct done less⟩

/-- A walk that is inside of no block any more has found the order. -/
theorem ordered (sound : Sound f ⟨met, order, []⟩) : f.Ordered order := by
  have head : order.head? = some Func.entry := by
    rcases sound.rooted with root | ⟨-, head⟩
    · cases root
    · exact head
  refine ⟨head, sound.nodup, fun block => ⟨sound.reachable block, ?_⟩, ?_, ?_⟩
  · rintro ⟨blocks, way⟩
    -- Induction along the way: the order is closed under edges.
    induction way with
    | start => exact List.mem_of_mem_head? head
    | step earlier leads ih => exact (sound.forward _ ih _ leads.1).1
  · intro block mem apart
    obtain ⟨source, leads, onPath | before⟩ := sound.entered block mem apart
    · cases onPath
    · exact ⟨source, leads, before⟩
  · intro block mem target leads
    exact (sound.forward block mem target leads.1).2.imp_left And.right

end Sound

/-- Entering a block takes it from the ones that were not met. -/
theorem unmet_set (inside : target < met.size) (size_eq : met.size = f.blocks.size)
    (fresh : met.getD target false = false) :
    (∑ id ∈ range f.blocks.size with (met.setIfInBounds target true).getD id false = false,
        ((f.successors id).length + 1)) + ((f.successors target).length + 1) =
      ∑ id ∈ range f.blocks.size with met.getD id false = false,
        ((f.successors id).length + 1) := by
  have erased : (range f.blocks.size).filter
      (fun id => (met.setIfInBounds target true).getD id false = false) =
        ((range f.blocks.size).filter fun id => met.getD id false = false).erase target := by
    ext id
    rw [mem_erase, mem_filter, mem_filter, getD_setIfInBounds]
    by_cases same : target = id
    · simp [same, same ▸ inside]
    · simp [same, Ne.symm same]
  rw [erased]
  exact sum_erase_add _ _
    (mem_filter.mpr ⟨mem_range.mpr (size_eq ▸ inside), fresh⟩)

/-- A round keeps what is true of the walk and leaves fewer rounds, or the walk has ended
with the order. -/
theorem Sound.round {walk : Walk} (closed : f.TargetsExist) (sound : Sound f walk) :
    (∃ next, walk.round f.successors = .ok (.again next) ∧ Sound f next ∧
        next.remaining f < walk.remaining f) ∨
      ∃ order, walk.round f.successors = .ok (.done order) ∧ f.Ordered order := by
  obtain ⟨met, order, inside⟩ := walk
  cases inside with
  | nil => exact .inr ⟨order, rfl, sound.ordered⟩
  | cons place outer =>
      left
      obtain ⟨block, taken⟩ := place
      cases edge : (f.successors block)[taken]? with
      | none =>
          refine ⟨_, by simp only [Walk.round, edge], sound.complete edge, ?_⟩
          simp only [remaining, List.foldr_cons]
          omega
      | some target =>
          have mem := List.mem_of_getElem? edge
          have more : taken < (f.successors block).length := (List.getElem?_eq_some_iff.mp edge).1
          have leads : f.Leads block target := closed.leads mem
          have within : target < met.size := sound.size_eq.symm ▸ leads.2
          have read := fetch_eq_getD within false
          cases known : met.getD target false with
          | true =>
              refine ⟨_, by simp only [Walk.round, edge, read, known], sound.skip edge known, ?_⟩
              simp only [remaining, List.foldr_cons]
              omega
          | false =>
              refine ⟨_, by simp only [Walk.round, edge, read, known],
                sound.enter edge leads known, ?_⟩
              have unmet := unmet_set within sound.size_eq known
              simp only [remaining, List.foldr_cons]
              omega

end Walk

namespace Func

variable {f : Func}

/-- The order is found, whatever the edges between the blocks are. -/
theorem TargetsExist.reversePostorder_eq_ok (closed : f.TargetsExist)
    (pos : 0 < f.blocks.size) : ∃ order, f.reversePostorder = .ok order ∧ f.Ordered order := by
  rw [reversePostorder, if_neg (by simpa [Array.isEmpty] using pos.ne')]
  refine Round.iterate_ok (Walk.Sound f) (Walk.remaining f)
    (fun _ => Walk.Sound.round closed) (Walk.sound_start pos) ?_
  rw [Walk.remaining_start pos]
  exact Nat.lt_succ_self _

namespace Ordered

variable {order : List BlockId} {block above : BlockId}

theorem idxOf_entry (ordered : f.Ordered order) : order.idxOf entry = 0 := by
  cases order with
  | nil => cases ordered.head
  | cons first rest =>
      obtain rfl := Option.some.inj ordered.head
      exact List.idxOf_cons_self

/-- A block comes after all that strictly dominate it. -/
theorem idxOf_lt_of_strictlyDominates (ordered : f.Ordered order) (mem : block ∈ order)
    (strictly : f.StrictlyDominates above block) : order.idxOf above < order.idxOf block := by
  induction place : order.idxOf block using Nat.strong_induction_on generalizing block with
  | h _ ih =>
      subst place
      have apart : block ≠ entry := by
        rintro rfl
        exact strictly.2 strictly.1.eq_entry
      obtain ⟨source, leads, before⟩ := ordered.entered block mem apart
      by_cases same : above = source
      · exact same ▸ before
      · have mem' : source ∈ order :=
          List.idxOf_lt_length_iff.mp (before.trans (List.idxOf_lt_length_iff.mpr mem))
        exact (ih _ before mem' ⟨strictly.of_leads leads, same⟩ rfl).trans before

end Ordered

end Func

end FlowProfile
