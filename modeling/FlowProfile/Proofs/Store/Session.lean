/-
# Requests in a row

What a request does to the store is told here apart from how it does it: it may create a
profile, and it may give a slot its counters.  Of requests in a row one may be of a kind that
depends on what the others before it have done.
-/

import FlowProfile.Proofs.Compile.Atomicity
import FlowProfile.Proofs.Compile.BranchCounts
import FlowProfile.Session.Basic

namespace FlowProfile

/-- Among requests in a row one is of a kind, in the state in which its turn comes. -/
def Request.Ever {σ : Type} (next : σ → Request → σ) (kind : σ → Request → Prop) (state : σ)
    (requests : List Request) : Prop :=
  ∃ earlier request later, requests = earlier ++ request :: later ∧
    kind (earlier.foldl next state) request

namespace Request

variable {σ : Type} {next : σ → Request → σ} {kind : σ → Request → Prop} {state : σ}

theorem ever_nil : ¬ Ever next kind state [] := by
  rintro ⟨earlier, request, later, split, -⟩
  cases earlier with
  | nil => cases split
  | cons first rest => cases split

theorem ever_cons {request : Request} {requests : List Request} :
    Ever next kind state (request :: requests) ↔
      kind state request ∨ Ever next kind (next state request) requests := by
  constructor
  · rintro ⟨earlier, asked, later, split, isKind⟩
    cases earlier with
    | nil =>
        cases split
        exact .inl isKind
    | cons first rest =>
        cases split
        exact .inr ⟨rest, asked, later, rfl, isKind⟩
  · rintro (here | ⟨earlier, asked, later, rfl, isKind⟩)
    · exact ⟨[], request, requests, rfl, here⟩
    · exact ⟨request :: earlier, asked, later, rfl, isKind⟩

end Request

/-! ## What a request does to the store -/

namespace Session

theorem serve_cons (session : Session) (request : Request) (requests : List Request) :
    session.serve (request :: requests) = (session.next request).serve requests := rfl

/-- The settings ask for something to be done with a function. -/
def Asks (settings : Settings) (f : Func) : Prop :=
  ∃ flags, settings.flagsOf f = .ok flags ∧ flags.isEmpty = false

/-- A request creates the profile of a name, with a shape. -/
def Creates (function : String) (shape : Shape) (session : Session) : Request → Prop
  | .obtain name given =>
      name = function ∧ session.store.profile? function = none ∧ given = .ok shape
  | .before settings f | .compile ⟨settings, _⟩ f =>
      f.name = function ∧ session.store.profile? function = none ∧ Asks settings f ∧
        f.shape = .ok shape
  | _ => False

/-- The pass before the optimizer gives its counters to the slot of a block. -/
def Instruments (session : Session) (settings : Settings) (f : Func) (index : Nat) : Prop :=
  (∃ flags, settings.flagsOf f = .ok flags ∧ flags.branches = true) ∧
    (Probe.Before.run settings session.world.counters session.store f).2.result.isOk = true ∧
    f.BranchesAt index

/-- A request gives a slot its counters. -/
def Inserts (function : String) (index : Nat) (session : Session) : Request → Prop
  | .insert name slot =>
      name = function ∧ slot = index ∧ index < (session.store.slotsOf function).size
  | .before settings f | .compile ⟨settings, _⟩ f =>
      f.name = function ∧ session.Instruments settings f index
  | _ => False

end Session

end FlowProfile
