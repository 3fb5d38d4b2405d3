/-
Offices

An office does what is asked of a session, and keeps a registry for it: it hands out cells
by their places, compiled code adds to the cells that were handed out to the pass that put
the additions in, and a report reads the cells that the registry has then.

What a pass puts into a function, and what it feeds back, is told by names first. The names
are then exchanged for the cells that the registry was asked for on behalf of the pass.
-/

import FlowProfile.Func.Relocation
import FlowProfile.Profile.Registry
import FlowProfile.Session.Basic

namespace FlowProfile

/-- What a pass was handed: the place of the profile, and those of the counters of slots. -/
structure Grant where
  place : Nat
  cells : List (Nat × Nat)

/-- The place that was handed to the pass, of the profile itself or of a slot's counters. -/
def Grant.place? (grant : Grant) : Option Nat → Option Nat
  | none => some grant.place
  | some slot => grant.cells.lookup slot

namespace Registry

/-- Exchange the names of a function's counters for the cells that were handed out. -/
def wire (registry : Registry) (function : String) (grant : Grant) : Counter → Counter
  | .owned store name measure =>
      match grant.place? measure.slot? with
      | some place =>
          if store = registry.name ∧ name = function then .placed store place measure.part
          else .owned store name measure
      | none => .owned store name measure
  | .cell name => .cell name
  | .placed store place part => .placed store place part

/-- Ask for what the pass before the optimizer needs: for the profile, if any flag is set, and
for the counters of the branches, if these are to be counted and nothing is wrong. -/
def grant (registry : Registry) (settings : Settings) (accepted : Bool) (f : Func) :
    Except Error (Registry × Option Grant) :=
  match settings.flagsOf f with
  | .error _ => .ok (registry, none)
  | .ok flags =>
      if flags.isEmpty then .ok (registry, none)
      else
        match registry.obtain f.name f.shape with
        | .error _ => .ok (registry, none)
        | .ok (registry, holding, _) =>
            if flags.branches && accepted then
              match (holding.ensure f.blocks.size).claimAll registry.issued
                  (Probe.branchSites f) with
              | .error error => .error error
              | .ok (holding, issued, cells) =>
                  .ok (registry.put f.name holding issued, some ⟨holding.place, cells⟩)
            else .ok (registry, some ⟨holding.place, []⟩)

/-- The pass before the optimizer. -/
def before (registry : Registry) (settings : Settings) (memory : Counters) (f : Func) :
    Registry × Outcome :=
  let outcome := (Probe.Before.run settings (registry.ledger memory) registry.names f).2
  match registry.grant settings outcome.result.isOk f with
  | .error error => (registry, .refused f outcome.events error)
  | .ok (registry, none) => (registry, outcome)
  | .ok (registry, some grant) => (registry, outcome.relocate (registry.wire f.name grant))

/-- The pass after the optimizer. -/
def after (registry : Registry) (settings : Settings) (memory : Counters) (f : Func) : Outcome :=
  let outcome := Probe.After.run settings (registry.ledger memory) registry.names f
  match registry.holding? f.name with
  | none => outcome
  | some holding => outcome.relocate (registry.wire f.name ⟨holding.place, []⟩)

/-- Compile a function against the cells as they are now. -/
def compile (registry : Registry) (pipeline : Pipeline) (memory : Counters) (f : Func) :
    Registry × Compilation :=
  let (registry, first) := registry.before pipeline.settings memory f
  (registry, pipeline.goOn first (registry.after pipeline.settings memory))

end Registry

/-- A registry, and the world that functions run in. -/
structure Office where
  registry : Registry
  world : World

/-- What an office answers: with places, or as a session would. -/
inductive Reply
  | holding (holding : Holding) (created : Bool)
  | cells (taken total : Counter)
  | populated (cells : List (Nat × Nat))
  | plain (answer : Answer)

namespace Office

/-- The session that is served by names. -/
def session (office : Office) : Session :=
  ⟨office.registry.names,
    { office.world with counters := office.registry.ledger office.world.counters }⟩

/-- The pair of counters at a place. -/
def pair (office : Office) (place : Nat) : Reply :=
  .cells (.placed office.registry.name place .taken) (.placed office.registry.name place .total)

/-- Do what is asked. -/
def perform (office : Office) : Request → Office × Reply
  | .look function =>
      (office,
        match office.registry.holding? function with
        | none => .plain .absent
        | some holding => .holding holding false)
  | .obtain function shape =>
      match office.registry.obtain function shape with
      | .error error => (office, .plain (.failed error))
      | .ok (registry, holding, created) => ({ office with registry }, .holding holding created)
  | .ensure function blocks =>
      match office.registry.holding? function with
      | none => (office, .plain .absent)
      | some holding =>
          let holding := holding.ensure blocks
          ({ office with registry := office.registry.put function holding office.registry.issued },
            .plain (.fits (holding.cells.length == blocks)))
  | .slot function index =>
      (office,
        match office.registry.place? function (some index) with
        | none => .plain .absent
        | some place => office.pair place)
  | .insert function index =>
      match office.registry.holding? function with
      | none => (office, .plain .absent)
      | some holding =>
          match holding.claim office.registry.issued index with
          | .error error => (office, .plain (.failed error))
          | .ok (holding, issued, place) =>
              ({ office with registry := office.registry.put function holding issued },
                office.pair place)
  | .populated function =>
      (office,
        match office.registry.holding? function with
        | none => .plain .absent
        | some holding => .populated holding.populated)
  | .before settings f =>
      let (registry, outcome) := office.registry.before settings office.world.counters f
      ({ office with registry }, .plain (.passed outcome))
  | .after settings f =>
      (office, .plain (.passed (office.registry.after settings office.world.counters f)))
  | .compile pipeline f =>
      let (registry, compilation) := office.registry.compile pipeline office.world.counters f
      ({ office with registry }, .plain (.compiled compilation))
  | .run f limit args =>
      let (result, world) := Machine.run f limit args office.world
      ({ office with world }, .plain (.ended result))
  | .bump function measure amount =>
      match office.registry.counter? function measure with
      | none => (office, .plain .absent)
      | some counter =>
          ({ office with world.counters := office.world.counters.add counter amount },
            .plain (.value (office.world.counters.read counter)))
  | .dump active => (office, .plain (office.session.perform (.dump active)).2)

/-- The office after one request. -/
def next (office : Office) (request : Request) : Office :=
  (office.perform request).1

/-- The office after requests in a row. -/
def serve (office : Office) (requests : List Request) : Office :=
  requests.foldl next office

end Office

end FlowProfile
