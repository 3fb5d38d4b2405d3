/-
# Whole runs

A run of the function and a run of the woven function keep pace, step after answer, for as
long as the function runs.  What the woven function has added to the counters of the
profile is the sum of the ledgers along the trail of the function, and the number of its
steps is the sum of their costs.

Hosts are functions of the arguments here, because the two runs meet different hosts when
calls are lowered or a reporter was called in between.  `Woven.tallies_of_returned` does
without: it looks at the woven run alone.
-/

import FlowProfile.Proofs.Weave.Counting
import FlowProfile.Proofs.Weave.Entering
import FlowProfile.Proofs.Weave.Renaming

namespace FlowProfile

namespace Weave

variable (weave : Weave)

/-- The worlds of the two runs: they differ in the counters of the profile and in the names
under which calls were recorded since some moment. -/
structure Kin (answers : Callee → Option (List Int64 → Int64)) (past past' : List Call)
    (world world' : World) : Prop where
  concur : weave.Concur answers past past' world.host world'.host
  read_eq : ∀ counter, ¬ weave.Owns counter →
    world'.counters.read counter = world.counters.read counter

/-- Where the woven run stands when the function's run stands somewhere, after a trail. -/
inductive Tracks (prologue : Prologue) (fresh : BlockId → ValueId) (f woven : Func)
    (answers : Callee → Option (List Int64 → Int64)) (past past' : List Call)
    (path : List Frame) (frame' : Frame) (world' : World) : Progress → Prop
  | running {next next' : Frame} {after after' : World}
      (reaches : Machine.advance woven (weave.costs f path) frame' world' = .running next' after')
      (follows : weave.Follows prologue fresh f woven next next')
      (kin : weave.Kin answers past past' after after')
      (grows : weave.Grows (weave.ledgers f path) world' after') :
      Tracks prologue fresh f woven answers past past' path frame' world' (.running next after)
  | returned {value : Option Int64} {after after' : World}
      (reaches : Machine.advance woven (weave.costs f path) frame' world' = .returned value after')
      (kin : weave.Kin answers past past' after after')
      (grows : weave.Grows (weave.ledgers f path) world' after') :
      Tracks prologue fresh f woven answers past past' path frame' world' (.returned value after)
  | failed {error error' : Error} {after after' : World} {steps : Nat}
      (le : steps ≤ weave.costs f path)
      (fails : Machine.advance woven steps frame' world' = .failed error' after')
      (mirrors : weave.Mirrors error error')
      (kin : weave.Kin answers past past' after after') :
      Tracks prologue fresh f woven answers past past' path frame' world' (.failed error after)

end Weave

section

variable {weave : Weave} {prologue : Prologue} {fresh : BlockId → ValueId} {f woven : Func}
  {answers : Callee → Option (List Int64 → Int64)} {past past' : List Call}
  {frame frame' : Frame} {world world' : World}

theorem Weave.kin_of_agrees {counters : Counters} {host host' : Host} {after' : World}
    (concur : weave.Concur answers past past' host host')
    (agrees : weave.Agrees ⟨counters, host'⟩ after') :
    weave.Kin answers past past' ⟨counters, host⟩ after' where
  concur := by
    rw [agrees.host_eq]
    exact concur
  read_eq := agrees.read_eq

/-- A step and its answer ahead of a run. -/
theorem Weave.Tracks.prepend {next' : Frame} {middle' : World} {path : List Frame}
    {progress : Progress}
    (tracks : weave.Tracks prologue fresh f woven answers past past' path next' middle' progress)
    (reaches : Machine.advance woven (weave.costs f [frame]) frame' world' =
      .running next' middle')
    (grows : weave.Grows (weave.ledgers f [frame]) world' middle') :
    weave.Tracks prologue fresh f woven answers past past' (frame :: path) frame' world'
      progress := by
  rw [costs_singleton] at reaches
  rw [ledgers_singleton] at grows
  cases tracks with
  | running reaches' follows kin grows' =>
      refine .running ?_ follows kin ?_
      · rw [costs_cons, Machine.advance_add_of_running reaches]
        exact reaches'
      · rw [ledgers_cons]
        exact grows.trans grows'
  | returned reaches' kin grows' =>
      refine .returned ?_ kin ?_
      · rw [costs_cons, Machine.advance_add_of_running reaches]
        exact reaches'
      · rw [ledgers_cons]
        exact grows.trans grows'
  | @failed error error' after after' steps le fails mirrors kin =>
      have fails' : Machine.advance woven (weave.cost f frame + steps) frame' world' =
          .failed error' after' := (Machine.advance_add_of_running reaches steps).trans fails
      refine .failed ?_ fails' mirrors kin
      rw [costs_cons]
      exact Nat.add_le_add_left le _

section

variable (isWoven : Woven weave prologue fresh f woven) (sound : f.WellFormed)
  (spares : ∀ counter ∈ f.counters, ¬ weave.Owns counter)
  (interchanges : Lowering.Interchanges weave.lowering answers)

include isWoven sound spares interchanges

/-- The woven run keeps pace for one step of the function. -/
theorem Woven.tracks_step (follows : weave.Follows prologue fresh f woven frame frame')
    (kin : weave.Kin answers past past' world world') :
    weave.Tracks prologue fresh f woven answers past past' [frame] frame' world'
      (Machine.step f frame world) := by
  obtain ⟨counters, host⟩ := world
  have pairs : weave.Pairs answers past past' (Machine.step f frame ⟨counters, host⟩)
      (Machine.step f (weave.poised frame) ⟨counters, world'.host⟩) :=
    Weave.pairs_step interchanges kin.concur f frame
  have agrees : weave.Agrees ⟨counters, world'.host⟩ world' := ⟨rfl, kin.read_eq⟩
  have answered := isWoven.answers sound spares follows agrees
  generalize Machine.step f frame ⟨counters, host⟩ = progress at pairs
  generalize Machine.step f (weave.poised frame) ⟨counters, world'.host⟩ = middle at pairs answered
  cases pairs with
  | running concur =>
      cases answered with
      | running passes retells follows' agrees' grows =>
          refine .running ?_ follows' (Weave.kin_of_agrees concur agrees') ?_
          · rw [Weave.costs_singleton]
            exact passes.advance_eq
          · rw [Weave.ledgers_singleton]
            exact grows
  | returned concur =>
      cases answered with
      | returned passes retells agrees' grows =>
          refine .returned ?_ (Weave.kin_of_agrees concur agrees') ?_
          · rw [Weave.costs_singleton]
            exact passes.advance_eq
          · rw [Weave.ledgers_singleton]
            exact grows
  | failed same concur =>
      cases answered with
      | failed le fails mirrors agrees' =>
          refine .failed ?_ fails (same.mirrors mirrors) (Weave.kin_of_agrees concur agrees')
          rw [Weave.costs_singleton]
          exact le

/-- The woven run keeps pace for as long as the function runs. -/
theorem Woven.tracks (steps : Nat) (follows : weave.Follows prologue fresh f woven frame frame')
    (kin : weave.Kin answers past past' world world') :
    weave.Tracks prologue fresh f woven answers past past' (Machine.trail f steps frame world)
      frame' world' (Machine.advance f steps frame world) := by
  induction steps generalizing frame frame' world world' with
  | zero => exact .running rfl follows kin (.refl world')
  | succ steps ih =>
      have first := isWoven.tracks_step sound spares interchanges follows kin
      rw [Machine.advance_succ, Machine.trail_succ]
      cases stepped : Machine.step f frame world with
      | returned value after =>
          rw [stepped] at first
          exact first
      | failed error after =>
          rw [stepped] at first
          exact first
      | running next after =>
          rw [stepped] at first
          cases first with
          | running reaches follows' kin' grows => exact (ih follows' kin').prepend reaches grows

/-- A woven run that returns does so because the function returns. -/
theorem Woven.returned_of_returned {steps : Nat} {value : Option Int64} {after' : World}
    (follows : weave.Follows prologue fresh f woven frame frame')
    (kin : weave.Kin answers past past' world world')
    (returned : Machine.advance woven steps frame' world' = .returned value after') :
    ∃ after, Machine.advance f steps frame world = .returned value after ∧
      weave.Kin answers past past' after after' ∧
      weave.Grows (weave.ledgers f (Machine.trail f steps frame world)) world' after' := by
  have tracks := isWoven.tracks sound spares interchanges steps follows kin
  have going : ∀ next after, Machine.advance f steps frame world = .running next after →
      steps ≤ weave.costs f (Machine.trail f steps frame world) := by
    intro next after reached
    have length := Machine.length_trail_of_running reached
    exact Nat.le_trans (Nat.le_of_eq length.symm) (weave.length_le_costs f _)
  generalize Machine.advance f steps frame world = progress at tracks going
  cases tracks with
  | @running next next' after after' reaches follows' kin' grows =>
      have later : (Machine.advance woven steps frame' world').isRunning = true :=
        Machine.isRunning_of_le (going next after rfl) (by rw [reaches]; rfl)
      rw [returned] at later
      cases later
  | @returned value' after after'' reaches kin' grows =>
      cases Machine.ends_once returned reaches rfl rfl
      exact ⟨after, rfl, kin', grows⟩
  | @failed error error' after after'' steps' le fails mirrors kin' =>
      cases Machine.ends_once returned fails rfl rfl

end

end

/-! ## From the arguments on -/

section

variable {weave : Weave} {prologue : Prologue} {fresh : BlockId → ValueId} {f woven : Func}
  {answers : Callee → Option (List Int64 → Int64)} {world : World}

/-- The call that a reporter makes. -/
def Reporter.call (reporter : Reporter) : Call :=
  (.address reporter.callback, reporter.args.map Constant.value)

/-- The reporter, if it is due in a run before which so many calls were counted. -/
def Reporter.due? (reporter : Option Reporter) (calls : UInt64) : Option Reporter :=
  reporter.filter fun reporter => calls.toInt64 + 1 == reporter.threshold

/-- The calls that a run makes ahead of the function's own: that of a reporter which is
due, and no other. -/
def Reporter.callsAhead (reporter : Option Reporter) (calls : UInt64) : List Call :=
  ((due? reporter calls).map call).toList

theorem Host.serves_report {host : Host} (serves : host.Serves answers) (reporter : Reporter) :
    (host.report reporter).Serves answers := by
  unfold report
  split
  · exact serves.invoke ..
  · exact serves

theorem Host.calls_report {host : Host} {reporter : Reporter}
    (registered : (host.routine? (.address reporter.callback)).isSome = true) :
    (host.report reporter).calls = reporter.call :: host.calls := by
  obtain ⟨routine, found⟩ := Option.isSome_iff_exists.mp registered
  rw [report, found]
  rfl

/-- Every routine that a run is to report to is registered. -/
def Prologue.Registered (prologue : Prologue) (weave : Weave) (world : World) : Prop :=
  ∀ reporter, prologue.fires? weave world.counters = some reporter →
    (world.host.routine? (.address reporter.callback)).isSome = true

/-- Behind the prologue the two runs are kin. -/
theorem Weave.Enters.kin {frame frame' next : Frame} {middle : World}
    (enters : weave.Enters prologue fresh f woven frame frame' world next middle)
    (functional : world.host.IsFunctional) :
    weave.Kin world.host.answer? world.host.calls middle.host.calls world middle where
  concur := by
    have serves := Host.serves_self functional
    apply Weave.Concur.start serves
    rw [enters.host_eq]
    split
    · exact Host.serves_report serves _
    · exact serves
  read_eq := enters.read_eq

/-- What a run has recorded behind the prologue: at most the report. -/
theorem Weave.Enters.calls {frame frame' next : Frame} {middle : World}
    (enters : weave.Enters prologue fresh f woven frame frame' world next middle)
    (registered : prologue.Registered weave world) :
    middle.host.calls =
      ((prologue.fires? weave world.counters).map Reporter.call).toList ++ world.host.calls := by
  rw [enters.host_eq]
  cases fires : prologue.fires? weave world.counters with
  | none => rfl
  | some reporter => exact Host.calls_report (registered reporter fires)

/-- Both runs refuse their arguments, or both start and the woven one gets to the
function's own code. -/
theorem Woven.enters_run (isWoven : Woven weave prologue fresh f woven) (sound : f.WellFormed)
    (registered : prologue.Registered weave world) (args : List Int64) :
    (Frame.start f args = .error (.functionArity f.name f.params.length args.length) ∧
        Frame.start woven args = .error (.functionArity f.name f.params.length args.length)) ∨
      ∃ frame frame' next middle, Frame.start f args = .ok frame ∧
        Frame.start woven args = .ok frame' ∧
        weave.Enters prologue fresh f woven frame frame' world next middle := by
  rcases isWoven.start sound args with
    refused | ⟨head, image, values, values', entered, found, starts, starts', covers, size⟩
  · exact .inl refused
  · obtain ⟨next, middle, enters⟩ :=
      isWoven.enters sound entered found covers size registered
    exact .inr ⟨_, _, next, middle, starts, starts', enters⟩

/-- A run that returns has found every routine it was to report to. -/
theorem Woven.registered_of_returned (isWoven : Woven weave prologue fresh f woven)
    (sound : f.WellFormed) {limit : Nat} {args : List Int64} {value : Option Int64}
    {after : World} (returned : Machine.run woven limit args world = (.ok value, after)) :
    prologue.Registered weave world := by
  intro reporter fires
  cases found : world.host.routine? (.address reporter.callback) with
  | some routine => rfl
  | none =>
      obtain ⟨start', starts, reached⟩ := Machine.advance_of_run_ok returned
      rcases isWoven.start sound args with
        ⟨-, refused⟩ | ⟨head, image, values, values', entered, image?, -, starts', -, size⟩
      · rw [refused] at starts
        cases starts
      · obtain rfl : start' = _ := Except.ok.inj (starts.symm.trans starts')
        cases prologue with
        | bare => cases fires
        | counted previous => cases fires
        | reported reporter' previous current hit =>
            obtain rfl : reporter' = reporter := by
              rw [Prologue.fires?] at fires
              split at fires
              · exact Option.some.inj fires
              · cases fires
            have fails := isWoven.fails_reported sound entered image? size fires found
            cases Machine.ends_once reached fails rfl rfl

end

/-! ## The woven run by itself -/

/-- The counters of branches have grown by what a path of the woven function has decided,
and no call was counted. -/
structure Weave.Tallies (weave : Weave) (prologue : Prologue) (f woven : Func)
    (path : List Frame) (world world' : World) : Prop where
  total : ∀ id < f.blocks.size, world'.counters.read (weave.counter (.total id)) =
    world.counters.read (weave.counter (.total id)) +
      (if weave.branches then
        path.countP (Frame.branchesAt woven (prologue.home f.blocks.size id)) else 0).toUInt64
  taken : ∀ id < f.blocks.size, world'.counters.read (weave.counter (.taken id)) =
    world.counters.read (weave.counter (.taken id)) +
      (if weave.branches then
        path.countP (Frame.takesAt woven (prologue.home f.blocks.size id)) else 0).toUInt64
  calls : world'.counters.read (weave.counter .calls) = world.counters.read (weave.counter .calls)

section

variable {weave : Weave} {prologue : Prologue} {fresh : BlockId → ValueId} {f woven : Func}
  {frame frame' : Frame} {world world' world'' : World} {path path' : List Frame}

theorem Weave.Tallies.trans (first : weave.Tallies prologue f woven path world world')
    (second : weave.Tallies prologue f woven path' world' world'') :
    weave.Tallies prologue f woven (path ++ path') world world'' := by
  have sum (count count' : Nat) (on : Bool) (start : UInt64) :
      start + (if on then count else 0).toUInt64 + (if on then count' else 0).toUInt64 =
        start + (if on then count + count' else 0).toUInt64 := by
    rw [UInt64.add_assoc]
    cases on with
    | false => rfl
    | true => exact congrArg (start + ·) (UInt64.ofNat_add count count').symm
  refine ⟨fun id inside => ?_, fun id inside => ?_, second.calls.trans first.calls⟩
  · rw [second.total id inside, first.total id inside, List.countP_append, sum]
  · rw [second.taken id inside, first.taken id inside, List.countP_append, sum]

/-- The answer to one step tallies the branches that it decides itself. -/
theorem Weave.tallies_of_answer (retells : weave.Retells prologue fresh f woven frame path)
    (grows : weave.Grows (weave.ledger f frame) world world') :
    weave.Tallies prologue f woven path world world' := by
  have digit (truth on : Bool) :
      (if on && truth then 1 else 0 : UInt64) = (if on then truth.toNat else 0).toUInt64 := by
    cases truth <;> cases on <;> rfl
  refine ⟨fun id inside => ?_, fun id inside => ?_, ?_⟩
  · rw [grows, (Weave.total_ledger frame id).1, digit, (retells.retraces id inside).1]
  · rw [grows, (Weave.total_ledger frame id).2.1, digit, (retells.retraces id inside).2]
  · rw [grows, (Weave.total_ledger frame Func.entry).2.2]
    exact UInt64.add_zero _

section

variable (isWoven : Woven weave prologue fresh f woven) (sound : f.WellFormed)
  (spares : ∀ counter ∈ f.counters, ¬ weave.Owns counter) {steps : Nat} {value : Option Int64}
  {after : World} (follows : weave.Follows prologue fresh f woven frame frame')
  (returned : Machine.advance woven steps frame' world = .returned value after)

include isWoven sound spares follows returned

/-- A woven run that returns is made of answers to steps of the function: what holds of each
of them, and of any two in a row, holds of the run. -/
theorem Woven.holds_of_returned {motive : List Frame → World → World → Prop}
    (answer : ∀ {frame path world world'}, weave.Retells prologue fresh f woven frame path →
      weave.Grows (weave.ledger f frame) world world' → motive path world world')
    (trans : ∀ {path path' world world' world''}, motive path world world' →
      motive path' world' world'' → motive (path ++ path') world world'') :
    motive (Machine.trail woven steps frame' world) world after := by
  induction steps using Nat.strongRecOn generalizing frame frame' world with
  | ind steps ih =>
      have answered := isWoven.answers sound spares follows (.refl world)
      generalize Machine.step f (weave.poised frame) world = progress at answered
      cases answered with
      | @running next next' middle middle' path passes retells follows' agrees grows =>
          obtain ⟨more, rfl⟩ := Nat.exists_eq_add_of_le
            (Machine.le_of_ended passes.advance_eq returned rfl)
          have pos : 0 < weave.cost f frame := weave.cost_pos f frame
          rw [Machine.advance_add_of_running passes.advance_eq] at returned
          rw [Machine.trail_add_of_running passes.advance_eq, passes.trail_eq]
          exact trans (answer retells grows)
            (ih more (Nat.lt_add_of_pos_left pos) follows' returned)
      | @returned value' middle middle' path passes retells agrees grows =>
          cases Machine.ends_once returned passes.advance_eq rfl rfl
          have sameTrail : Machine.trail woven steps frame' world = path := by
            rw [← passes.trail_eq]
            refine Machine.trail_ends_once ?_ ?_
            · rw [returned]
              rfl
            · rw [passes.advance_eq]
              rfl
          rw [sameTrail]
          exact answer retells grows
      | @failed error error' middle middle' steps' le fails mirrors agrees =>
          cases Machine.ends_once returned fails rfl rfl

/-- A woven run that returns has tallied every branch it has decided. -/
theorem Woven.tallies_of_returned :
    weave.Tallies prologue f woven (Machine.trail woven steps frame' world) world after :=
  isWoven.holds_of_returned sound spares follows returned Weave.tallies_of_answer
    fun first second => first.trans second

end

end

end FlowProfile
