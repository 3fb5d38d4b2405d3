/-
# Loops are found

A block is a loop header if an edge leads back to it from a reachable block that it
dominates.  Each header is found once, however many edges lead back to it, and none is
found where a cycle has no block through which all ways into it pass.  Outer headers come
before inner ones, since a dominator comes earlier in the order.
-/

import FlowProfile.Flow.Loops
import FlowProfile.Profile.Report
import FlowProfile.Proofs.Flow.Dominators
import Mathlib.Data.Set.Card

namespace FlowProfile

namespace Func

/-- An edge leads back to the block from one that it dominates. -/
def IsLoopHeader (f : Func) (header : BlockId) : Prop :=
  ∃ source, f.Reachable source ∧ f.Leads source header ∧ f.Dominates header source

variable {f : Func} {tree : DominatorTree} {order : List BlockId}

/-- The marks that are set after the edges of some blocks were looked at. -/
structure Marks (f : Func) (sources : List BlockId) (marks : Array Bool) : Prop where
  size_eq : marks.size = f.blocks.size
  marked_iff : ∀ header, marks.getD header false = true ↔
    ∃ source ∈ sources, f.Reachable source ∧ f.Leads source header ∧ f.Dominates header source

/-- The marks that are set after some edges of one block were looked at as well. -/
structure MarksOf (f : Func) (source : BlockId) (marks : Array Bool) (targets : List BlockId)
    (next : Array Bool) : Prop where
  size_eq : next.size = f.blocks.size
  marked_iff : ∀ header, next.getD header false = true ↔
    marks.getD header false = true ∨ header ∈ targets ∧ f.Dominates header source

/-- The target of an edge from a reachable block is marked if the edge leads back. -/
theorem markHeader_eq_ok (settled : tree.Settled f order) (ordered : f.Ordered order)
    {source target : BlockId} {targets : List BlockId} {marks next : Array Bool}
    (reachable : f.Reachable source) (inside : target < f.blocks.size)
    (marked : f.MarksOf source marks targets next) :
    ∃ last, markHeader tree source next target = .ok last ∧
      f.MarksOf source marks (targets ++ [target]) last := by
  obtain ⟨verdict, decided, dominates_iff⟩ := settled.dominates_eq_ok ordered reachable target
  have within : target < next.size := marked.size_eq.symm ▸ inside
  cases verdict with
  | false =>
      refine ⟨next, by simp [markHeader, decided, bind, Except.bind, pure, Except.pure],
        marked.size_eq, fun header => ?_⟩
      have unmarked : ¬ (header = target ∧ f.Dominates header source) := by
        rintro ⟨rfl, dominates⟩
        cases dominates_iff.mpr dominates
      rw [marked.marked_iff, List.mem_append, List.mem_singleton, or_and_right,
        or_iff_left unmarked]
  | true =>
      refine ⟨next.setIfInBounds target true,
        by simp [markHeader, decided, bind, Except.bind, assign_of_lt within],
        by rw [Array.size_setIfInBounds, marked.size_eq], fun header => ?_⟩
      rw [getD_setIfInBounds]
      by_cases same : target = header
      · subst same
        simp [within, dominates_iff.mp rfl]
      · rw [if_neg fun both => same both.1, marked.marked_iff]
        simp [Ne.symm same]

/-- The edges of a block that lead back are marked, if the block is reachable. -/
theorem markHeaders_eq_ok (settled : tree.Settled f order) (ordered : f.Ordered order)
    (closed : f.TargetsExist) {source : BlockId} (inside : source < f.blocks.size)
    {earlier : List BlockId} {marks : Array Bool} (marked : f.Marks earlier marks) :
    ∃ next, f.markHeaders tree marks source = .ok next ∧ f.Marks (earlier ++ [source]) next := by
  have read : fetch tree source = .ok (tree.parent? source) :=
    fetch_eq_getD (settled.sweeping.size_eq.symm ▸ inside) none
  cases has : tree.parent? source with
  | none =>
      have unreachable : ¬ f.Reachable source := fun reachable => by
        obtain ⟨parent, has'⟩ := (settled.holds_iff ordered).mpr reachable
        cases has.symm.trans has'
      refine ⟨marks, by simp only [markHeaders, read, has, bind, Except.bind]; rfl,
        marked.size_eq, fun header => ?_⟩
      rw [marked.marked_iff]
      simp [or_and_right, exists_or, unreachable]
  | some parent =>
      have reachable := (settled.holds_iff ordered).mp ⟨parent, has⟩
      have begins : f.MarksOf source marks [] marks := ⟨marked.size_eq, by simp⟩
      have each : ∀ targets target later next, f.successors source = targets ++ target :: later →
          f.MarksOf source marks targets next →
            ∃ last, markHeader tree source next target = .ok last ∧
              f.MarksOf source marks (targets ++ [target]) last := by
        intro targets target later next split marked
        have mem : target ∈ f.successors source := by simp [split]
        exact markHeader_eq_ok settled ordered reachable (closed source inside target mem) marked
      obtain ⟨next, passed, size_eq, marked_iff⟩ := foldlM_ok (markHeader tree source) _ begins each
      refine ⟨next, by simp only [markHeaders, read, has, bind, Except.bind]; exact passed,
        size_eq, fun header => ?_⟩
      have leads_iff : f.Leads source header ↔ header ∈ f.successors source :=
        ⟨And.left, fun mem => ⟨mem, closed source inside header mem⟩⟩
      rw [marked_iff, marked.marked_iff]
      simp [or_and_right, exists_or, leads_iff, reachable]

/-- Exactly the headers are marked. -/
theorem headerMarks_eq_ok (settled : tree.Settled f order) (ordered : f.Ordered order)
    (closed : f.TargetsExist) :
    ∃ marks, f.headerMarks tree = .ok marks ∧
      ∀ header, marks.getD header false = true ↔ f.IsLoopHeader header := by
  have begins : f.Marks [] (Array.replicate f.blocks.size false) :=
    ⟨Array.size_replicate, fun header => by rw [getD_replicate]; simp⟩
  have each : ∀ earlier source later marks, List.range f.blocks.size = earlier ++ source :: later →
      f.Marks earlier marks → ∃ next, f.markHeaders tree marks source = .ok next ∧
        f.Marks (earlier ++ [source]) next := by
    intro earlier source later marks split marked
    have mem : source ∈ List.range f.blocks.size := by simp [split]
    exact markHeaders_eq_ok settled ordered closed (List.mem_range.mp mem) marked
  obtain ⟨marks, passed, marked⟩ := foldlM_ok (f.markHeaders tree) f.Marks begins each
  refine ⟨marks, passed, fun header => (marked.marked_iff header).trans ⟨?_, ?_⟩⟩
  · rintro ⟨source, -, back⟩
    exact ⟨source, back⟩
  · rintro ⟨source, reachable, leads, dominates⟩
    exact ⟨source, List.mem_range.mpr leads.source_lt, reachable, leads, dominates⟩

/-- The headers are picked out of the order of the blocks. -/
theorem TargetsExist.loopHeaders_eq_filter (closed : f.TargetsExist) (pos : 0 < f.blocks.size) :
    ∃ order isHeader, f.reversePostorder = .ok order ∧ f.Ordered order ∧
      f.loopHeaders = .ok (order.filter isHeader) ∧
      ∀ header, isHeader header = true ↔ f.IsLoopHeader header := by
  obtain ⟨order, tree, found, ordered, found', settled⟩ := closed.immediateDominators_eq_ok pos
  obtain ⟨marks, passed, marked_iff⟩ := headerMarks_eq_ok settled ordered closed
  refine ⟨order, (marks.getD · false), found, ordered, ?_, marked_iff⟩
  simp only [loopHeaders, found', passed, found, bind, Except.bind]
  rfl

/-- The headers are found, in the order of the blocks. -/
theorem TargetsExist.loopHeaders_eq_ok (closed : f.TargetsExist) (pos : 0 < f.blocks.size) :
    ∃ order headers, f.Ordered order ∧ f.loopHeaders = .ok headers ∧ headers.Sublist order ∧
      ∀ header, header ∈ headers ↔ f.IsLoopHeader header := by
  obtain ⟨order, isHeader, -, ordered, found, isHeader_iff⟩ := closed.loopHeaders_eq_filter pos
  refine ⟨order, order.filter isHeader, ordered, found, List.filter_sublist, fun header => ?_⟩
  rw [List.mem_filter, isHeader_iff, and_iff_right_iff_imp]
  rintro ⟨source, reachable, leads, -⟩
  exact (ordered.mem_iff header).mpr (reachable.step leads)

/-- Of a part of the order, what comes first in the order comes first. -/
theorem idxOf_lt_of_sublist {headers : List BlockId} (distinct : order.Nodup)
    (part : headers.Sublist order) {first second : BlockId} (mem : first ∈ headers)
    (mem' : second ∈ headers) (before : order.idxOf first < order.idxOf second) :
    headers.idxOf first < headers.idxOf second := by
  have sorted : order.Pairwise fun one other => order.idxOf one < order.idxOf other := by
    refine List.pairwise_iff_getElem.mpr fun i j inside inside' less => ?_
    rwa [distinct.idxOf_getElem, distinct.idxOf_getElem]
  have inside := List.idxOf_lt_length_iff.mpr mem
  have inside' := List.idxOf_lt_length_iff.mpr mem'
  rcases Nat.lt_trichotomy (headers.idxOf first) (headers.idxOf second) with less | same | less
  · exact less
  · rw [(List.idxOf_inj mem).mp same] at before
    exact absurd before (Nat.lt_irrefl _)
  · have swapped := List.pairwise_iff_getElem.mp (sorted.sublist part) _ _ inside' inside less
    rw [List.getElem_idxOf, List.getElem_idxOf] at swapped
    exact absurd before (Nat.lt_asymm swapped)

/-- A function without edges that lead nowhere has a shape. -/
theorem TargetsExist.shape_eq_ok (closed : f.TargetsExist) : ∃ shape, f.shape = .ok shape := by
  rcases Nat.eq_zero_or_pos f.blocks.size with empty | pos
  · have none : f.blocks.isEmpty = true := by simpa [Array.isEmpty] using empty
    simp [shape, loopCount, loopHeaders, immediateDominators, headerMarks, reversePostorder,
      empty, none, bind, Except.bind, pure, Except.pure, Except.map]
  · obtain ⟨_, headers, -, found, -, -⟩ := closed.loopHeaders_eq_ok pos
    rw [shape, loopCount, found]
    exact ⟨_, rfl⟩

/-- For every function whose edges lead to blocks that are there, exactly its loop headers
are listed, each once, and one that strictly dominates another comes before it. Their
number is the number of loops, and a profile that is created for the function is reported
with it. -/
theorem loopHeaders_correct (f : Func) (pos : 0 < f.blocks.size) (closed : f.TargetsExist) :
    ∃ headers, f.loopHeaders = .ok headers ∧ headers.Nodup ∧
      (∀ header, header ∈ headers ↔ f.IsLoopHeader header) ∧
      (∀ outer ∈ headers, ∀ inner ∈ headers, f.StrictlyDominates outer inner →
        headers.idxOf outer < headers.idxOf inner) ∧
      f.loopCount = .ok {header | f.IsLoopHeader header}.ncard ∧
      ∀ store : Store, store.profile? f.name = none → ∃ store' profile,
        store.obtain f.name f.shape = .ok (store', profile, true) ∧
        store'.profile? f.name = some profile ∧
        ∀ counters, (ReportRow.capture store' counters f.name profile).loops =
          {header | f.IsLoopHeader header}.ncard.toUInt64 := by
  obtain ⟨order, headers, ordered, found, part, mem_iff⟩ := closed.loopHeaders_eq_ok pos
  have distinct := ordered.nodup.sublist part
  have count : {header | f.IsLoopHeader header}.ncard = headers.length := by
    rw [← List.toFinset_card_of_nodup distinct, ← Set.ncard_coe_finset]
    congr 1
    ext header
    simp [mem_iff]
  have counted : f.loopCount = .ok headers.length := by rw [loopCount, found]; rfl
  refine ⟨headers, found, distinct, mem_iff, fun outer mem inner mem' strictly => ?_,
    count ▸ counted, fun store fresh => ?_⟩
  · exact idxOf_lt_of_sublist ordered.nodup part mem mem'
      (ordered.idxOf_lt_of_strictlyDominates (part.subset mem') strictly)
  · refine ⟨_, _, by rw [Store.obtain, fresh, shape, counted]; rfl,
      by exact Table.get?_insert_self .., fun counters => ?_⟩
    rw [count]
    rfl

theorem loopHeaders_correct_maze :
    Sample.maze.loopHeaders = .ok [0, 3] ∧ Sample.maze.IsLoopHeader 3 ∧
      ¬ Sample.maze.IsLoopHeader 1 ∧ ¬ Sample.maze.IsLoopHeader 5 := by
  have computed : Sample.maze.loopHeaders = .ok [0, 3] := by decide +kernel
  obtain ⟨headers, found, -, mem_iff, -⟩ :=
    loopHeaders_correct Sample.maze (by decide) Sample.targetsExist_maze
  obtain rfl := Except.ok.inj (computed.symm.trans found)
  simp [← mem_iff, computed]

end Func

end FlowProfile
