/-
# What counting calls does to a function

Counting calls works on the entry block alone.  With a reporter that block is split: what
stays in it decides whether to report, and the function's own entry code moves to the
first of two new blocks.  `woven_of_stages` puts this together with the rewritings of the
other passes.
-/

import FlowProfile.Proofs.Func.Splitting
import FlowProfile.Proofs.Weave.Passes

namespace FlowProfile

/-! ## The call probe -/

/-- The prologue that counting calls amounts to, with values from a given one on. -/
def Prologue.ofCalls (calls : Bool) (reporter : Option Reporter) (next : ValueId) : Prologue :=
  match calls, reporter with
  | false, _ => .bare
  | true, none => .counted next
  | true, some reporter => .reported reporter next (next + 1) (next + 2)

/-- Where a block stands in the compiled function: a reporter moves the code of the entry
block behind all other blocks. -/
def Func.home (f : Func) (reporter : Option Reporter) (id : BlockId) : BlockId :=
  if reporter.isSome && id == entry then f.blocks.size else id

theorem Prologue.home_ofCalls {calls : Bool} {reporter : Option Reporter}
    (asked : calls = false → reporter = none) (next : ValueId) (f : Func) (id : BlockId) :
    (ofCalls calls reporter next).home f.blocks.size id = f.home reporter id := by
  cases calls with
  | false =>
      rw [asked rfl]
      rfl
  | true =>
      cases reporter with
      | none => rfl
      | some reporter => simp [ofCalls, home, Func.home]

namespace Probe

variable (store : Store) (f : Func)

theorem block?_plainCalls (id : BlockId) :
    (plainCalls store f).func.block? id =
      if Func.entry = id then
        (f.block? id).map fun block =>
          { block with
            instrs := countCall (store.counter f.name .calls) f.nextValue :: block.instrs }
      else f.block? id := by
  simp only [plainCalls, Func.freshValue, Func.insertInstrs, Func.block?_modifyBlock,
    List.take_zero, List.drop_zero, List.nil_append, List.singleton_append]
  rfl

/-- Without a reporter the call probe leaves the block graph as it is. -/
theorem sameGraph_plainCalls : f.SameGraph (plainCalls store f).func where
  size_eq := Func.size_modifyBlock _ _ _
  image id block found := by
    rw [block?_plainCalls, found]
    split
    · exact ⟨_, rfl, rfl, rfl⟩
    · exact ⟨block, rfl, rfl, rfl⟩

variable (counters : Counters) (reporter : Reporter)

/-- The code that decides whether to report, with the values it takes in a function. -/
def decision : List Instr :=
  prologue (store.counter f.name .calls) reporter.threshold f.nextValue (f.nextValue + 1)
    (f.nextValue + 2)

/-- The function with the decision put in, before its entry block is split. -/
def begun : Func :=
  { f with nextValue := f.nextValue + 3 }.insertInstrs Func.entry 0 (decision store f reporter)

theorem block?_begun (id : BlockId) :
    (begun store f reporter).block? id =
      if Func.entry = id then
        (f.block? id).map fun block =>
          { block with instrs := decision store f reporter ++ block.instrs }
      else f.block? id := by
  simp only [begun, Func.insertInstrs, Func.block?_modifyBlock, List.take_zero, List.drop_zero,
    List.nil_append]
  rfl

theorem size_begun : (begun store f reporter).blocks.size = f.blocks.size :=
  Func.size_modifyBlock _ _ _

/-- The weights of the decision: reports are rare. -/
def decisionWeights : Weights :=
  reporter.weights (counters.read (store.counter f.name .calls))

theorem func_reportedCalls :
    (reportedCalls store counters reporter f).func =
      ((begun store f reporter).splitBlock Func.entry (decision store f reporter).length
        (.value (f.nextValue + 2)) (some (decisionWeights store f counters reporter))).2.modifyBlock
        (f.blocks.size + 1) fun block =>
          { block with instrs := block.instrs ++ [Prologue.callback reporter] } := by
  rw [← size_begun store f reporter]
  exact congrArg (Func.modifyBlock _ · _) (Func.splitBlock_fst _ _ _ _ _)

/-- With a reporter the entry block is cut off after the decision, and its own code is
the first of two new blocks. -/
theorem block?_reportedCalls {head : Block} (found : f.block? Func.entry = some head)
    (id : BlockId) :
    (reportedCalls store counters reporter f).func.block? id =
      if id = f.blocks.size + 1 then
        some ⟨some (Func.splitName Func.entry head ++ ".then"), [],
          [Prologue.callback reporter], .jump ⟨f.blocks.size, []⟩⟩
      else if id = f.blocks.size then
        some ⟨some (Func.splitName Func.entry head ++ ".cont"), [], head.instrs,
          head.terminator⟩
      else if id = Func.entry then
        some { head with
          instrs := decision store f reporter
          terminator := .branch (.value (f.nextValue + 2)) ⟨f.blocks.size + 1, []⟩
            ⟨f.blocks.size, []⟩ (some (decisionWeights store f counters reporter)) }
      else f.block? id := by
  have entered : (begun store f reporter).block? Func.entry =
      some { head with instrs := decision store f reporter ++ head.instrs } := by
    rw [block?_begun, if_pos rfl, found, Option.map_some]
  rw [func_reportedCalls, Func.block?_modifyBlock, Func.block?_splitBlock entered, size_begun,
    List.drop_left, List.take_left]
  by_cases last : id = f.blocks.size + 1
  · subst last
    simp [Func.splitName]
  · by_cases outer : id = Func.entry
    · subst outer
      simp [last, Ne.symm last, Func.splitName]
    · simp [last, Ne.symm last, outer, Ne.symm outer, Func.splitName, block?_begun]

theorem header_reportedCalls :
    (reportedCalls store counters reporter f).func.name = f.name ∧
      (reportedCalls store counters reporter f).func.params = f.params ∧
      (reportedCalls store counters reporter f).func.nextValue = f.nextValue + 3 := by
  rw [func_reportedCalls, Func.header_splitBlock]
  exact ⟨rfl, rfl, rfl⟩

/-- A function with its calls counted if that is asked for. -/
def counted (calls : Bool) (reporter : Option Reporter) : Func :=
  if calls then (Probe.calls store counters reporter f).func else f

theorem header_counted (calls : Bool) (reporter : Option Reporter) :
    (counted store f counters calls reporter).name = f.name ∧
      (counted store f counters calls reporter).params = f.params ∧
      f.nextValue ≤ (counted store f counters calls reporter).nextValue := by
  cases calls with
  | false => exact ⟨rfl, rfl, Nat.le_refl _⟩
  | true =>
      cases reporter with
      | none => exact ⟨rfl, rfl, Nat.le_succ _⟩
      | some reporter =>
          obtain ⟨name, params, next⟩ := header_reportedCalls store f counters reporter
          refine ⟨name, params, ?_⟩
          exact Nat.le_trans (Nat.le_add_right _ 3) (Nat.le_of_eq next.symm)

/-- The values of the prologue are given out by counting calls. -/
theorem fresh_counted (calls : Bool) (reporter : Option Reporter) {low high : Nat}
    (le : low ≤ f.nextValue)
    (le' : (counted store f counters calls reporter).nextValue ≤ high) :
    (Prologue.ofCalls calls reporter f.nextValue).Fresh low high := by
  cases calls with
  | false => trivial
  | true =>
      cases reporter with
      | none => exact ⟨le, le'⟩
      | some reporter =>
          have next := (header_reportedCalls store f counters reporter).2.2
          have le' : (reportedCalls store counters reporter f).func.nextValue ≤ high := le'
          rw [next] at le'
          have bounds (offset : Nat) (inside : offset < 3) :
              low ≤ f.nextValue + offset ∧ f.nextValue + offset < high := by omega
          exact ⟨bounds 0 (by decide), bounds 1 (by decide), bounds 2 (by decide)⟩

/-- Counting calls changes the entry block alone. -/
theorem block?_counted_of_ne {head : Block} (entered : f.block? Func.entry = some head)
    (calls : Bool) (reporter : Option Reporter) {id : BlockId} (inner : id ≠ Func.entry)
    {block : Block} (found : f.block? id = some block) :
    (counted store f counters calls reporter).block? id = some block := by
  cases calls with
  | false => exact found
  | true =>
      cases reporter with
      | none =>
          show (plainCalls store f).func.block? id = some block
          rw [block?_plainCalls, if_neg (Ne.symm inner), found]
      | some reporter =>
          have inside := Func.lt_size_of_block? found
          have notLast : id ≠ f.blocks.size := Nat.ne_of_lt inside
          have notBeyond : id ≠ f.blocks.size + 1 := Nat.ne_of_lt (Nat.lt_succ_of_lt inside)
          show (reportedCalls store counters reporter f).func.block? id = some block
          rw [block?_reportedCalls store f counters reporter entered, if_neg notBeyond,
            if_neg notLast, if_neg inner, found]

end Probe

/-! ## From one block to what it is woven into -/

namespace Weave

variable (weave : Weave)

/-- A block's code before the last pass. -/
def beforeCalls (fresh : BlockId → ValueId) (id : BlockId) (block : Block) : List Instr :=
  ((block.instrs ++ weave.tail (fresh id) id block.terminator).flatMap
    (weave.probedAt .before)).map weave.lower

/-- The last pass finds a block's code behind some leading code that calls nothing by name,
and leaves what the block is woven into. -/
theorem hosts_of_image {middle woven : Func}
    (last : Retouched (fun _ block => block.instrs.flatMap (weave.probedAt .after)) middle woven)
    {fresh : BlockId → ValueId} {id position : BlockId} {block image : Block}
    (found : middle.block? position = some image) (params : image.params = block.params)
    (lead : List Instr) (unnamed : ∀ instr ∈ lead, instr.calledSymbol? = none)
    (instrs : image.instrs = lead ++ weave.beforeCalls fresh id block)
    (flow : image.terminator.unweighted = block.terminator.unweighted) :
    weave.Hosts woven position lead (fresh id) id block := by
  obtain ⟨final, foundFinal, params', instrs', flow'⟩ := last.image position image found
  refine ⟨final, foundFinal, params'.trans params, ?_, flow'.trans flow⟩
  rw [instrs', instrs, List.flatMap_append, weave.flatMap_probedAt unnamed, beforeCalls,
    weave.stages_eq_code]

end Weave

section

variable {weave : Weave} {fresh : BlockId → ValueId} {f inner woven : Func}
  {store : Store} {counters : Counters} {calls : Bool} {reporter : Option Reporter}

/-- The last pass leaves blocks without calls by name alone. -/
theorem Retouched.block?_of_unnamed {middle : Func}
    (last : Retouched (fun _ block => block.instrs.flatMap (weave.probedAt .after)) middle woven)
    {id : BlockId} {block : Block} (found : middle.block? id = some block)
    (unnamed : ∀ instr ∈ block.instrs, instr.calledSymbol? = none) :
    ∃ image, woven.block? id = some image ∧ image.params = block.params ∧
      image.instrs = block.instrs ∧
      image.terminator.unweighted = block.terminator.unweighted := by
  obtain ⟨image, foundImage, params, instrs, flow⟩ := last.image id block found
  rw [weave.flatMap_probedAt unnamed] at instrs
  exact ⟨image, foundImage, params, instrs, flow⟩

/-- Counting calls puts the prologue ahead of the function's own code. -/
theorem begins_of_stages (hstore : store.name = weave.store) (hname : inner.name = weave.function)
    (last : Retouched (fun _ block => block.instrs.flatMap (weave.probedAt .after))
      (Probe.counted store inner counters calls reporter) woven)
    {head image : Block} (entered : inner.block? Func.entry = some image)
    (params : image.params = head.params) (noParams : head.params = [])
    (instrs : image.instrs = weave.beforeCalls fresh Func.entry head)
    (flow : image.terminator.unweighted = head.terminator.unweighted) :
    (Prologue.ofCalls calls reporter inner.nextValue).Begins weave woven inner.blocks.size
      (fresh Func.entry) head := by
  have moved : store.counter inner.name .calls = weave.counter .calls := by
    rw [Store.counter, hstore, hname, Weave.counter]
  cases calls with
  | false => exact weave.hosts_of_image last entered params [] (by simp) instrs flow
  | true =>
      cases reporter with
      | none =>
          have found : (Probe.plainCalls store inner).func.block? Func.entry =
              some { image with
                instrs := Probe.countCall (store.counter inner.name .calls) inner.nextValue ::
                  image.instrs } := by
            rw [Probe.block?_plainCalls, if_pos rfl, entered, Option.map_some]
          refine weave.hosts_of_image last found params [_] ?_ ?_ flow
          · intro instr mem
            rw [List.mem_singleton.mp mem]
            rfl
          · rw [instrs, moved]
            rfl
      | some reporter =>
          have found := Probe.block?_reportedCalls store inner counters reporter entered
          have size : 0 < inner.blocks.size := Func.lt_size_of_block? entered
          refine ⟨?_, ?_, ?_⟩
          · have outer : (Func.entry : Nat) ≠ inner.blocks.size + 1 ∧
                (Func.entry : Nat) ≠ inner.blocks.size := ⟨Nat.zero_ne_add_one _, Nat.ne_of_lt size⟩
            have foundHead := found Func.entry
            rw [if_neg outer.1, if_neg outer.2, if_pos rfl] at foundHead
            have unnamed : ∀ instr ∈ Probe.decision store inner reporter,
                instr.calledSymbol? = none := by
              simp [Probe.decision, Probe.prologue, Probe.countCall, Instr.calledSymbol?]
            obtain ⟨final, foundFinal, -, instrs', flow'⟩ :=
              Retouched.block?_of_unnamed last foundHead unnamed
            obtain ⟨weights, flow'⟩ := Terminator.eq_branch_of_unweighted flow'
            refine ⟨final, weights, foundFinal, ?_, flow'⟩
            rw [instrs', Probe.decision, moved]
          · have foundRest := found inner.blocks.size
            rw [if_neg (Nat.ne_of_lt (Nat.lt_succ_self _)), if_pos rfl] at foundRest
            exact weave.hosts_of_image last foundRest noParams.symm [] (by simp) instrs
              flow
          · have foundReport := found (inner.blocks.size + 1)
            rw [if_pos rfl] at foundReport
            have unnamed : ∀ instr ∈ [Prologue.callback reporter], instr.calledSymbol? = none := by
              simp [Prologue.callback, Instr.calledSymbol?, Callee.symbol?]
            obtain ⟨final, foundFinal, params', instrs', flow'⟩ :=
              Retouched.block?_of_unnamed last foundReport unnamed
            exact ⟨final, foundFinal, params', instrs', Terminator.eq_jump_of_unweighted flow'⟩

/-- Counting calls and the last pass turn a function whose blocks were rewritten into a
woven one. -/
theorem woven_of_stages (sound : f.WellFormed) (hstore : store.name = weave.store)
    (hname : f.name = weave.function)
    (first : Retouched (weave.beforeCalls fresh) f inner)
    (freshBetween : ∀ id block, f.block? id = some block → weave.branches = true →
      block.terminator.runtimeCondition?.isSome = true →
      f.nextValue ≤ fresh id ∧ fresh id < inner.nextValue)
    (last : Retouched (fun _ block => block.instrs.flatMap (weave.probedAt .after))
      (Probe.counted store inner counters calls reporter) woven) :
    Woven weave (.ofCalls calls reporter inner.nextValue) fresh f woven := by
  obtain ⟨name, params, le⟩ := Probe.header_counted store inner counters calls reporter
  obtain ⟨head, entered, noParams⟩ := sound.entry_params
  obtain ⟨image, foundImage, -⟩ := first.image Func.entry head entered
  refine ⟨?_, ?_, ?_, ?_, ?_, ?_, ?_⟩
  · rw [last.name_eq, name, first.name_eq]
  · rw [last.params_eq, params, first.params_eq]
  · exact Nat.le_trans first.le_nextValue (Nat.le_trans le last.le_nextValue)
  · intro id block found on isRuntime
    obtain ⟨low, high⟩ := freshBetween id block found on isRuntime
    exact ⟨low, Nat.lt_of_lt_of_le high (Nat.le_trans le last.le_nextValue)⟩
  · exact Probe.fresh_counted store inner counters calls reporter first.le_nextValue
      last.le_nextValue
  · intro id block outer found
    obtain ⟨image', foundInner, params', instrs', flow'⟩ := first.image id block found
    exact weave.hosts_of_image last
      (Probe.block?_counted_of_ne store inner counters foundImage calls reporter outer foundInner)
      params' [] (by simp) instrs' flow'
  · intro block found
    obtain ⟨image', foundInner, params', instrs', flow'⟩ := first.image Func.entry block found
    rw [← first.size_eq]
    have noParams' : block.params = [] := by
      rw [entered] at found
      cases found
      exact noParams
    exact begins_of_stages hstore (first.name_eq.trans hname) last foundInner params' noParams'
      instrs' flow'

end

end FlowProfile
