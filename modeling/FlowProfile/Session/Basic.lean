/-
Sessions

A store serves many parties at once: some look profiles up or create them, some size the
slots of a profile and give them their counters, passes and compilations do all of this
for a function at hand, compiled functions run, and somebody reads everything out. A
session is the store with the counters and the host, and a request is one of these things
done to it. Requests that fail are requests like any others.
-/

import FlowProfile.Compile.Pipeline
import FlowProfile.Profile.Report
import FlowProfile.Run.Machine

namespace FlowProfile

/-- A store, and the world that functions run in. -/
structure Session where
  store : Store
  world : World

/-- What can be asked of a session. The shape for a new profile is given as what the
factory makes, which may be a failure. -/
inductive Request
  | look (function : String)
  | obtain (function : String) (shape : Except Error Shape)
  | ensure (function : String) (blocks : Nat)
  | slot (function : String) (index : Nat)
  | insert (function : String) (index : Nat)
  | populated (function : String)
  | before (settings : Settings) (f : Func)
  | after (settings : Settings) (f : Func)
  | compile (pipeline : Pipeline) (f : Func)
  | run (f : Func) (limit : Nat) (args : List Int64)
  | bump (function : String) (measure : Measure) (amount : UInt64)
  | dump (active : Bool)

/-- What a session answers. -/
inductive Answer
  | absent
  | profile (profile : Profile) (created : Bool)
  | fits (truth : Bool)
  | cells (taken total : Counter)
  | slots (indices : List Nat)
  | passed (outcome : Outcome)
  | compiled (compilation : Compilation)
  | ended (result : Except Error (Option Int64))
  | value (previous : UInt64)
  | text (report : String)
  | failed (error : Error)

namespace Session

/-- The counters of a slot. -/
def cellsOf (session : Session) (function : String) (slot : Nat) : Answer :=
  .cells (session.store.counter function (.taken slot))
    (session.store.counter function (.total slot))

/-- Change the slots of a profile, if there is one. -/
def withSlots (session : Session) (function : String) (change : Slots → Slots × Answer) :
    Session × Answer :=
  match session.store.profile? function with
  | none => (session, .absent)
  | some profile =>
      let (slots, answer) := change profile.slots
      ({ session with store := session.store.put function { profile with slots } }, answer)

/-- Do what is asked. -/
def perform (session : Session) : Request → Session × Answer
  | .look function =>
      (session,
        match session.store.profile? function with
        | none => .absent
        | some profile => .profile profile false)
  | .obtain function shape =>
      match session.store.obtain function shape with
      | .error error => (session, .failed error)
      | .ok (store, profile, created) => ({ session with store }, .profile profile created)
  | .ensure function blocks =>
      session.withSlots function fun slots =>
        (slots.ensure blocks, .fits ((slots.ensure blocks).size == blocks))
  | .slot function index =>
      (session,
        if (session.store.slotsOf function).has index then session.cellsOf function index
        else .absent)
  | .insert function index =>
      session.withSlots function fun slots =>
        if index < slots.size then (slots.populate index, session.cellsOf function index)
        else (slots, .failed .outOfBounds)
  | .populated function =>
      (session,
        match session.store.profile? function with
        | none => .absent
        | some profile => .slots profile.slots.populatedIndices)
  | .before settings f =>
      let (store, outcome) := Probe.Before.run settings session.world.counters session.store f
      ({ session with store }, .passed outcome)
  | .after settings f =>
      (session, .passed (Probe.After.run settings session.world.counters session.store f))
  | .compile pipeline f =>
      let (store, compilation) := pipeline.compile session.world.counters (some session.store) f
      ({ session with store := store.getD session.store }, .compiled compilation)
  | .run f limit args =>
      let (result, world) := Machine.run f limit args session.world
      ({ session with world }, .ended result)
  | .bump function measure amount =>
      match session.store.profile? function with
      | none => (session, .absent)
      | some profile =>
          if profile.hasCounter measure then
            let counter := session.store.counter function measure
            ({ session with world.counters := session.world.counters.add counter amount },
              .value (session.world.counters.read counter))
          else (session, .absent)
  | .dump active =>
      let report := Report.ofStore session.store session.world.counters
      (session, .text (if active then report.active.dump else report.dump))

/-- The session after one request. -/
def next (session : Session) (request : Request) : Session :=
  (session.perform request).1

/-- The session after requests in a row. -/
def serve (session : Session) (requests : List Request) : Session :=
  requests.foldl next session

end Session

end FlowProfile
