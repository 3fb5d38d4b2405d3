/-
# The order is that of a depth-first search

The walk keeps a stack of blocks and of edges that it has taken.  What it does is said here
without a stack: the blocks that edges lead to are explored one after another, each by
exploring what its own edges lead to, and a block that was met before is passed over.  A
block goes to the front of the order when all that it leads to has been explored.

In that order an edge points backward only if it closes a cycle, and so a graph without
cycles is listed topologically.
-/

import FlowProfile.Proofs.Flow.Dominators

namespace FlowProfile

namespace Func

/-- Exploring the targets of edges one after another takes the completed blocks from one order
to another.  `path` has the blocks whose exploration has begun and not ended, the innermost one
first, and an order has the block that was completed last at its front. -/
inductive Explores (f : Func) : (path order targets order' : List BlockId) → Prop
  | done {path order : List BlockId} : Explores f path order [] order
  | skip {path order targets order' : List BlockId} {target : BlockId}
      (met : target ∈ path ∨ target ∈ order) (later : Explores f path order targets order') :
      Explores f path order (target :: targets) order'
  | enter {path order inner targets order' : List BlockId} {target : BlockId}
      (apart : target ∉ path) (fresh : target ∉ order)
      (below : Explores f (target :: path) order (f.successors target) inner)
      (later : Explores f path (target :: inner) targets order') :
      Explores f path order (target :: targets) order'

/-- No edge closes a cycle. -/
def Acyclic (f : Func) : Prop :=
  ∀ source target, f.Leads source target → ¬ f.Reaches target source

end Func

namespace Walk

variable {f : Func} {order result : List BlockId} {block : BlockId} {taken bound : Nat}
  {outer : List (BlockId × Nat)}

/-- A walk that ends has explored the edges that were left of its innermost block when it
leaves that block. -/
theorem explores_of_ended (closed : f.TargetsExist) {met : Array Bool}
    (sound : Sound f ⟨met, order, (block, taken) :: outer⟩)
    (ended : Round.iterate (round f.successors) bound ⟨met, order, (block, taken) :: outer⟩ =
      .ok result) :
    ∃ met' inner bound', bound' < bound ∧
      f.Explores (block :: outer.map Prod.fst) order ((f.successors block).drop taken) inner ∧
      Sound f ⟨met', block :: inner, outer⟩ ∧
      Round.iterate (round f.successors) bound' ⟨met', block :: inner, outer⟩ = .ok result := by
  -- A block that is entered is left in fewer rounds, and the walk goes on from there.
  induction bound using Nat.strong_induction_on generalizing met order block taken outer with
  | h bound ih =>
      cases bound with
      | zero => cases ended
      | succ bound =>
          rw [Round.iterate] at ended
          cases edge : (f.successors block)[taken]? with
          | none =>
              simp only [round, edge] at ended
              rw [List.drop_of_length_le (List.getElem?_eq_none_iff.mp edge)]
              exact ⟨met, order, bound, Nat.lt_succ_self _, .done, sound.complete edge, ended⟩
          | some target =>
              obtain ⟨inside, rfl⟩ := List.getElem?_eq_some_iff.mp edge
              rw [List.drop_eq_getElem_cons inside]
              have leads := closed.leads (List.getElem_mem inside)
              have read := fetch_eq_getD (sound.size_eq.symm ▸ leads.2) false
              have seen_iff := sound.met_iff (f.successors block)[taken]
              simp only [seen, path, List.mem_append, List.map_cons] at seen_iff
              cases known : met.getD (f.successors block)[taken] false with
              | true =>
                  simp only [round, edge, read, known] at ended
                  obtain ⟨met', inner, bound', less, explores, sound', ended'⟩ :=
                    ih bound (Nat.lt_succ_self _) (sound.skip edge known) ended
                  exact ⟨met', inner, bound', less.trans (Nat.lt_succ_self _),
                    .skip (seen_iff.mp known) explores, sound', ended'⟩
              | false =>
                  simp only [round, edge, read, known] at ended
                  have unseen := seen_iff.not.mp (by rw [known]; exact Bool.false_ne_true)
                  obtain ⟨apart, fresh⟩ := not_or.mp unseen
                  obtain ⟨met₁, inner, bound₁, less, below, sound₁, ended₁⟩ :=
                    ih bound (Nat.lt_succ_self _) (sound.enter edge leads known) ended
                  obtain ⟨met₂, outermost, bound₂, less', later, sound₂, ended₂⟩ :=
                    ih bound₁ (less.trans (Nat.lt_succ_self _)) sound₁ ended₁
                  exact ⟨met₂, outermost, bound₂, less'.trans (less.trans (Nat.lt_succ_self _)),
                    .enter apart fresh below later, sound₂, ended₂⟩

end Walk

namespace Func

variable {f : Func} {order : List BlockId}

/-- A way along edges that lead to blocks with higher numbers leads to such a block. -/
theorem le_of_reaches (rises : ∀ source < f.blocks.size, ∀ target ∈ f.successors source,
    source < target) {source target : BlockId} (reaches : f.Reaches source target) :
    source ≤ target := by
  obtain ⟨blocks, way⟩ := reaches
  induction way with
  | start => exact Nat.le_refl _
  | step earlier leads ih =>
      exact ih.trans (Nat.le_of_lt (rises _ leads.source_lt _ leads.1))

theorem acyclic_of_rises (rises : ∀ source < f.blocks.size, ∀ target ∈ f.successors source,
    source < target) : f.Acyclic := fun source target leads reaches =>
  Nat.not_lt_of_le (le_of_reaches rises reaches) (rises source leads.source_lt target leads.1)

/-- The order that is found is the one in which a search from the entry completes blocks. -/
theorem TargetsExist.explores (closed : f.TargetsExist) (pos : 0 < f.blocks.size)
    (found : f.reversePostorder = .ok order) : f.Explores [] [] [entry] order := by
  rw [reversePostorder, if_neg (by simpa [Array.isEmpty] using pos.ne')] at found
  obtain ⟨met, inner, bound, -, below, -, ended⟩ :=
    Walk.explores_of_ended closed (Walk.sound_start pos) found
  cases bound with
  | zero => cases ended
  | succ bound =>
      obtain rfl : entry :: inner = order := Except.ok.inj ended
      exact .enter List.not_mem_nil List.not_mem_nil below .done

namespace Ordered

variable (ordered : f.Ordered order)

include ordered

/-- An edge that closes no cycle points forward. -/
theorem idxOf_lt_of_leads {source target : BlockId} (mem : source ∈ order)
    (leads : f.Leads source target) (oneWay : ¬ f.Reaches target source) :
    order.idxOf source < order.idxOf target :=
  (ordered.forward source mem target leads).resolve_right oneWay

/-- Without cycles no block leads to an earlier one. -/
theorem pairwise_of_acyclic (acyclic : f.Acyclic) :
    order.Pairwise fun first second => ¬ f.Leads second first := by
  refine List.pairwise_iff_getElem.mpr fun i j inside inside' less leads => ?_
  have before := ordered.idxOf_lt_of_leads (List.getElem_mem inside') leads (acyclic _ _ leads)
  rw [ordered.nodup.idxOf_getElem, ordered.nodup.idxOf_getElem] at before
  exact Nat.lt_asymm before less

end Ordered

end Func

namespace Sample

/-- Two blocks lie between the entry and the block in which their ways meet again. -/
def diamond : Func :=
  graph [[1, 2], [3], [3], []]

theorem targetsExist_diamond : diamond.TargetsExist := by
  decide

theorem acyclic_diamond : diamond.Acyclic :=
  Func.acyclic_of_rises (by decide)

end Sample

namespace Func

/-- For every function whose edges lead to blocks that are there, the walk ends, with the order
in which a depth-first search completes blocks, from the last one to the first.  It has every
reachable block once and no other, and begins with the entry.  An edge points forward unless
it closes a cycle, so that a graph without cycles is listed topologically, and a block comes
after all that strictly dominate it. -/
theorem reversePostorder_correct (f : Func) (closed : f.TargetsExist) :
    ∃ order, f.reversePostorder = .ok order ∧
      (0 < f.blocks.size → f.Explores [] [] [entry] order ∧ order.head? = some entry) ∧
      order.Nodup ∧
      (∀ block, block ∈ order ↔ block < f.blocks.size ∧ f.Reachable block) ∧
      (∀ source ∈ order, ∀ target ∈ order, f.Leads source target → ¬ f.Reaches target source →
        order.idxOf source < order.idxOf target) ∧
      (f.Acyclic → order.Pairwise fun first second => ¬ f.Leads second first) ∧
      ∀ block ∈ order, ∀ above, f.StrictlyDominates above block →
        above ∈ order ∧ order.idxOf above < order.idxOf block := by
  rcases Nat.eq_zero_or_pos f.blocks.size with empty | pos
  · have none : f.blocks.isEmpty = true := by simpa [Array.isEmpty] using empty
    exact ⟨[], by rw [reversePostorder, if_pos none], by simp [empty]⟩
  · obtain ⟨order, found, ordered⟩ := closed.reversePostorder_eq_ok pos
    refine ⟨order, found, fun _ => ⟨closed.explores pos found, ordered.head⟩, ordered.nodup,
      fun block => ?_, ?_, ordered.pairwise_of_acyclic, ?_⟩
    · rw [ordered.mem_iff block]
      exact ⟨fun reachable => ⟨reachable.lt_size pos, reachable⟩, And.right⟩
    · intro source mem target _ leads oneWay
      exact ordered.idxOf_lt_of_leads mem leads oneWay
    · intro block mem above strictly
      have before := ordered.idxOf_lt_of_strictlyDominates mem strictly
      exact ⟨List.idxOf_lt_length_iff.mp (before.trans (List.idxOf_lt_length_iff.mpr mem)), before⟩

theorem reversePostorder_correct_diamond :
    Sample.diamond.reversePostorder = .ok [0, 2, 1, 3] ∧
      Sample.diamond.Explores [] [] [0] [0, 2, 1, 3] ∧ ¬ Sample.diamond.Reaches 3 1 ∧
      [0, 2, 1, 3].Pairwise fun first second => ¬ Sample.diamond.Leads second first := by
  have computed : Sample.diamond.reversePostorder = .ok [0, 2, 1, 3] := by decide +kernel
  obtain ⟨order, found, explored, -, -, -, topological, -⟩ :=
    reversePostorder_correct Sample.diamond Sample.targetsExist_diamond
  obtain rfl := Except.ok.inj (computed.symm.trans found)
  exact ⟨computed, (explored (by decide)).1,
    fun reaches => Sample.acyclic_diamond 1 3 ⟨by decide, by decide⟩ reaches,
    topological Sample.acyclic_diamond⟩

end Func

end FlowProfile
