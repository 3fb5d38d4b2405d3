/-
# Places last

Whatever has a place keeps it, and what gets one gets one that nothing else has.  Two things
are told alike here: the slots of one profile together with the profile itself, and all of
these in a registry.  Both are asked for the place of a key, and `Extends` says what may
become of the answers while more places are given out.
-/

import FlowProfile.Profile.Registry
import Mathlib.Logic.Function.Basic
import Mathlib.Tactic.ByContra

namespace FlowProfile

/-- The places are among the first so many, and no two keys have the same. -/
structure Apart {κ : Type} (places : κ → Option Nat) (issued : Nat) : Prop where
  lt_issued : ∀ key {place}, places key = some place → place < issued
  eq_of_place : ∀ key key' {place}, places key = some place → places key' = some place →
    key = key'

/-- More places were given out: the old ones are where they were, the new ones were not
given out before, and no key has got that of another. -/
structure Extends {κ : Type} (places : κ → Option Nat) (issued : Nat)
    (places' : κ → Option Nat) (issued' : Nat) : Prop where
  issued_le : issued ≤ issued'
  kept : ∀ key {place}, places key = some place → places' key = some place
  fresh : ∀ key {place}, places' key = some place → places key = some place ∨ issued ≤ place
  apart : Apart places issued → Apart places' issued'

namespace Extends

variable {κ : Type} {places places' places'' : κ → Option Nat} {issued issued' issued'' : Nat}

theorem refl (places : κ → Option Nat) (issued : Nat) : Extends places issued places issued :=
  ⟨Nat.le_refl _, fun _ _ => id, fun _ _ => .inl, id⟩

theorem trans (first : Extends places issued places' issued')
    (second : Extends places' issued' places'' issued'') :
    Extends places issued places'' issued'' where
  issued_le := Nat.le_trans first.issued_le second.issued_le
  kept key _ here := second.kept key (first.kept key here)
  fresh key _ here := (second.fresh key here).elim (first.fresh key)
    fun later => .inr (Nat.le_trans first.issued_le later)
  apart here := second.apart (first.apart here)

/-- A key without a place gets the next one. -/
theorem update [DecidableEq κ] {key : κ} (unplaced : places key = none) :
    Extends places issued (Function.update places key (some issued)) (issued + 1) where
  issued_le := Nat.le_succ _
  kept other place here := by
    rw [Function.update_of_ne, here]
    rintro rfl
    rw [unplaced] at here
    cases here
  fresh other place here := by
    by_cases same : other = key
    · subst same
      rw [Function.update_self] at here
      exact .inr (Nat.le_of_eq (Option.some.inj here))
    · rw [Function.update_of_ne same] at here
      exact .inl here
  apart := by
    rintro ⟨below, unique⟩
    have inside {other place} (here : Function.update places key (some issued) other = some place) :
        other = key ∧ place = issued ∨ places other = some place ∧ place < issued := by
      by_cases same : other = key
      · subst same
        rw [Function.update_self] at here
        exact .inl ⟨rfl, (Option.some.inj here).symm⟩
      · rw [Function.update_of_ne same] at here
        exact .inr ⟨here, below other here⟩
    refine ⟨fun _ _ here => ?_, fun _ _ _ here there => ?_⟩
    · rcases inside here with ⟨-, rfl⟩ | ⟨-, less⟩
      · exact Nat.lt_succ_self _
      · exact Nat.lt_succ_of_lt less
    · rcases inside here with ⟨rfl, rfl⟩ | ⟨old, less⟩ <;>
        rcases inside there with ⟨rfl, same⟩ | ⟨old', less'⟩
      · rfl
      · exact absurd less' (Nat.lt_irrefl _)
      · exact absurd (same ▸ less) (Nat.lt_irrefl _)
      · exact unique _ _ old old'

end Extends

/-! ## The slots of a profile -/

namespace Holding

variable {holding holding' : Holding} {next next' slot place : Nat} {cells : List (Nat × Nat)}

/-- Sizing the slots gives none of them counters. -/
theorem place?_ensure (holding : Holding) (blocks : Nat) :
    (holding.ensure blocks).place? = holding.place? := by
  unfold ensure
  split
  · next empty =>
      have none : holding.cells = [] := List.isEmpty_iff.mp empty
      funext slot
      cases slot with
      | none => rfl
      | some slot =>
          by_cases inside : slot < blocks <;> simp [place?, cell?, none, List.getD, inside]
  · rfl

theorem cells_getElem? (holding : Holding) (slot : Nat) :
    holding.cells[slot]? =
      if slot < holding.cells.length then some (holding.cell? slot) else none := by
  by_cases inside : slot < holding.cells.length <;> simp [cell?, List.getD, inside]

theorem lt_length_of_cell? (here : holding.cell? slot = some place) :
    slot < holding.cells.length := by
  by_contra outside
  rw [cell?, List.getD_eq_getElem?_getD, List.getElem?_eq_none (Nat.le_of_not_lt outside)] at here
  cases here

/-- A slot that has counters keeps them, and no place is given out. -/
theorem claim_of_cell? (here : holding.cell? slot = some place) :
    holding.claim next slot = .ok (holding, next, place) := by
  rw [claim, cells_getElem?, if_pos (lt_length_of_cell? here), here]

/-- What claiming a slot comes to: the place that it has, or else the next one. -/
inductive Claims (holding : Holding) (next slot : Nat) : Except Error (Holding × Nat × Nat) → Prop
  | found {place : Nat} (here : holding.cell? slot = some place) :
      Claims holding next slot (.ok (holding, next, place))
  | made (inside : slot < holding.cells.length) (unclaimed : holding.cell? slot = none) :
      Claims holding next slot
        (.ok ({ holding with cells := holding.cells.set slot (some next) }, next + 1, next))
  | refused (outside : holding.cells.length ≤ slot) : Claims holding next slot (.error .outOfBounds)

theorem claims (holding : Holding) (next slot : Nat) :
    holding.Claims next slot (holding.claim next slot) := by
  cases here : holding.cell? slot with
  | some place =>
      rw [claim_of_cell? here]
      exact .found here
  | none =>
      rw [claim, cells_getElem?, here]
      by_cases inside : slot < holding.cells.length
      · rw [if_pos inside]
        exact .made inside here
      · rw [if_neg inside]
        exact .refused (Nat.le_of_not_lt inside)

/-- A slot that was given counters has them at the next place. -/
theorem place?_set (inside : slot < holding.cells.length) :
    { holding with cells := holding.cells.set slot (some place) }.place? =
      Function.update holding.place? (some slot) (some place) := by
  funext other
  cases other with
  | none => rfl
  | some other =>
      by_cases same : other = slot
      · subst same
        rw [Function.update_self]
        simp [place?, cell?, List.getD, inside]
      · rw [Function.update_of_ne (by simpa using same)]
        simp [place?, cell?, List.getD, Ne.symm same]

/-- Whoever claims a slot is told the place that it has from then on. -/
theorem extends_claim (claimed : holding.claim next slot = .ok (holding', next', place)) :
    Extends holding.place? next holding'.place? next' ∧ holding'.cell? slot = some place := by
  have ways := holding.claims next slot
  rw [claimed] at ways
  cases ways with
  | found here => exact ⟨.refl .., here⟩
  | made inside unclaimed =>
      rw [place?_set inside]
      refine ⟨Extends.update unclaimed, ?_⟩
      show place? _ (some slot) = _
      rw [place?_set inside, Function.update_self]

/-- Whoever claims several slots is told the places that they have in the end. -/
theorem extends_claimAll {slots : List Nat}
    (claimed : holding.claimAll next slots = .ok (holding', next', cells)) :
    Extends holding.place? next holding'.place? next' ∧ cells.map Prod.fst = slots ∧
      ∀ cell ∈ cells, holding'.cell? cell.1 = some cell.2 := by
  induction slots generalizing holding next cells with
  | nil =>
      cases claimed
      exact ⟨.refl .., rfl, nofun⟩
  | cons slot rest ih =>
      rw [claimAll] at claimed
      cases first : holding.claim next slot with
      | error error =>
          rw [first] at claimed
          cases claimed
      | ok answer =>
          obtain ⟨middle, between, place⟩ := answer
          rw [first] at claimed
          dsimp only at claimed
          cases others : middle.claimAll between rest with
          | error error =>
              rw [others] at claimed
              cases claimed
          | ok answer =>
              obtain ⟨last, after, places⟩ := answer
              rw [others] at claimed
              cases claimed
              obtain ⟨grown, here⟩ := extends_claim first
              obtain ⟨grown', slots, there⟩ := ih others
              refine ⟨grown.trans grown', by rw [List.map_cons, slots], ?_⟩
              intro cell mem
              rcases List.mem_cons.mp mem with rfl | later
              · exact grown'.kept (some slot) here
              · exact there cell later

end Holding

/-! ## Registries -/

namespace Registry

variable {registry registry' : Registry} {function : String} {holding : Holding} {issued : Nat}

/-- The places of all profiles and of their slots. -/
def places (registry : Registry) (key : String × Option Nat) : Option Nat :=
  registry.place? key.1 key.2

/-- No place was given out twice. -/
def Sound (registry : Registry) : Prop :=
  Apart registry.places registry.issued

/-- A registry has become another one, of the same name. -/
structure Grows (registry registry' : Registry) : Prop where
  name_eq : registry'.name = registry.name
  extends_places : Extends registry.places registry.issued registry'.places registry'.issued

theorem Grows.refl (registry : Registry) : registry.Grows registry :=
  ⟨rfl, .refl ..⟩

theorem Grows.trans {registry'' : Registry} (first : registry.Grows registry')
    (second : registry'.Grows registry'') : registry.Grows registry'' :=
  ⟨second.name_eq.trans first.name_eq, first.extends_places.trans second.extends_places⟩

theorem Grows.place? (grows : registry.Grows registry') {slot : Option Nat} {place : Nat}
    (here : registry.place? function slot = some place) :
    registry'.place? function slot = some place :=
  grows.extends_places.kept (function, slot) here

/-- A cell that was handed out for a measure is the cell of that measure for good. -/
theorem Grows.counter? (grows : registry.Grows registry') {measure : Measure} {cell : Counter}
    (here : registry.counter? function measure = some cell) :
    registry'.counter? function measure = some cell := by
  obtain ⟨place, placed, rfl⟩ := Option.map_eq_some_iff.mp here
  rw [Registry.counter?, grows.place? placed, grows.name_eq]
  rfl

theorem Grows.sound (grows : registry.Grows registry') (sound : registry.Sound) :
    registry'.Sound :=
  grows.extends_places.apart sound

theorem sound_empty (name : String) : (empty name).Sound :=
  ⟨nofun, nofun⟩

theorem holding?_put_self (registry : Registry) (function : String) (holding : Holding)
    (issued : Nat) : (registry.put function holding issued).holding? function = some holding :=
  Table.get?_insert_self ..

theorem holding?_put_of_ne {other : String} (apart : function ≠ other) (holding : Holding)
    (issued : Nat) :
    (registry.put function holding issued).holding? other = registry.holding? other := by
  rw [holding?, put, Table.get?_insert, if_neg apart, holding?]

theorem place?_of_known (known : registry.holding? function = some holding) :
    registry.place? function = holding.place? := by
  funext slot
  rw [place?, known]
  rfl

/-- A registry grows with one of its profiles. -/
theorem grows_put
    (grown : Extends (registry.place? function) registry.issued holding.place? issued) :
    registry.Grows (registry.put function holding issued) := by
  have here (slot : Option Nat) :
      (registry.put function holding issued).places (function, slot) = holding.place? slot := by
    rw [places, place?_of_known (holding?_put_self ..)]
  have there {other : String} (different : function ≠ other) (slot : Option Nat) :
      (registry.put function holding issued).places (other, slot) =
        registry.places (other, slot) := by
    rw [places, place?, holding?_put_of_ne different, ← place?, places]
  refine ⟨rfl, grown.issued_le, ?_, ?_, ?_⟩
  · rintro ⟨other, slot⟩ place placed
    by_cases same : function = other
    · subst same
      rw [here]
      exact grown.kept slot placed
    · rw [there same, placed]
  · rintro ⟨other, slot⟩ place placed
    by_cases same : function = other
    · subst same
      rw [here] at placed
      exact grown.fresh slot placed
    · exact .inl (there same slot ▸ placed)
  · rintro ⟨below, unique⟩
    have own : Apart holding.place? issued :=
      grown.apart ⟨fun slot _ placed => below (function, slot) placed,
        fun slot slot' _ placed placed' =>
          congrArg Prod.snd (unique (function, slot) (function, slot') placed placed')⟩
    -- a place that is new to the profile was given out after those of the others
    have across {slot slot' other place} (different : function ≠ other)
        (placed : holding.place? slot = some place)
        (placed' : registry.places (other, slot') = some place) : False := by
      rcases grown.fresh _ placed with old | new
      · exact different (congrArg Prod.fst (unique (function, slot) _ old placed'))
      · exact absurd (below _ placed') (Nat.not_lt.mpr new)
    refine ⟨?_, ?_⟩
    · rintro ⟨other, slot⟩ place placed
      by_cases same : function = other
      · subst same
        rw [here] at placed
        exact own.lt_issued slot placed
      · rw [there same] at placed
        exact Nat.lt_of_lt_of_le (below _ placed) grown.issued_le
    · rintro ⟨other, slot⟩ ⟨other', slot'⟩ place placed placed'
      by_cases same : function = other <;> by_cases same' : function = other'
      · subst same same'
        rw [here] at placed placed'
        rw [own.eq_of_place slot slot' placed placed']
      · subst same
        rw [here] at placed
        rw [there same'] at placed'
        exact (across same' placed placed').elim
      · subst same'
        rw [here] at placed'
        rw [there same] at placed
        exact (across same placed' placed).elim
      · rw [there same] at placed
        rw [there same'] at placed'
        exact unique _ _ placed placed'

/-- The profile that is looked up is there already, or it is created at the next place. -/
theorem obtain_cases {shape : Except Error Shape} {created : Bool}
    (obtained : registry.obtain function shape = .ok (registry', holding, created)) :
    (registry' = registry ∧ created = false ∧ registry.holding? function = some holding) ∨
      ∃ given, shape = .ok given ∧ created = true ∧ registry.holding? function = none ∧
        holding = ⟨registry.issued, given, []⟩ ∧
        registry' = registry.put function holding (registry.issued + 1) := by
  unfold obtain at obtained
  cases known : registry.holding? function with
  | some old =>
      rw [known] at obtained
      cases obtained
      exact .inl ⟨rfl, rfl, rfl⟩
  | none =>
      rw [known] at obtained
      cases shape with
      | error error => cases obtained
      | ok given =>
          cases obtained
          exact .inr ⟨given, rfl, rfl, rfl, rfl, rfl⟩

/-- Whoever asks for a profile is told the one that there is from then on. -/
theorem grows_obtain {shape : Except Error Shape} {created : Bool}
    (obtained : registry.obtain function shape = .ok (registry', holding, created)) :
    registry.Grows registry' ∧ registry'.holding? function = some holding := by
  rcases obtain_cases obtained with ⟨rfl, -, known⟩ | ⟨given, -, -, unknown, rfl, rfl⟩
  · exact ⟨.refl _, known⟩
  · refine ⟨grows_put ?_, holding?_put_self ..⟩
    have nothing : registry.place? function = fun _ => none := by
      funext slot
      rw [place?, unknown]
      rfl
    have one : (⟨registry.issued, given, []⟩ : Holding).place? =
        Function.update (fun _ => none) none (some registry.issued) := by
      funext slot
      cases slot <;> rfl
    rw [nothing, one]
    exact .update rfl

end Registry

end FlowProfile
