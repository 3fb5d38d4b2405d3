/-
# The store that a registry keeps

Without its places a registry is a store, and what is done to the registry is done to that
store.  Looking a profile up finds the same one, sizing slots sizes the same slots, and a
slot that is claimed is one that gets its counters.
-/

import FlowProfile.Proofs.Store.Effects
import FlowProfile.Proofs.Store.Places

namespace FlowProfile

namespace Holding

variable {holding holding' : Holding} {next next' slot place : Nat} {cells : List (Nat × Nat)}

theorem size_profile (holding : Holding) :
    holding.profile.slots.size = holding.cells.length :=
  List.length_map ..

theorem has_profile (holding : Holding) (slot : Nat) :
    holding.profile.slots.has slot = (holding.cell? slot).isSome := by
  rw [profile, Slots.has, cell?, List.getD_eq_getElem?_getD, List.getD_eq_getElem?_getD,
    List.getElem?_map]
  cases holding.cells[slot]? <;> rfl

theorem hasCounter_profile (holding : Holding) (measure : Measure) :
    holding.profile.hasCounter measure = (holding.place? measure.slot?).isSome := by
  cases measure with
  | calls | size | count => rfl
  | taken slot | total slot => exact holding.has_profile slot

/-- The slots that are listed are those that have counters. -/
theorem populated_slots (holding : Holding) :
    holding.populated.map Prod.fst = holding.profile.slots.populatedIndices := by
  rw [populated, Slots.populatedIndices, size_profile, List.map_filterMap,
    ← List.filterMap_eq_filter]
  refine List.filterMap_congr fun slot _ => ?_
  simp only [Option.guard, has_profile]
  cases holding.cell? slot <;> rfl

/-- Every slot is listed with its place. -/
theorem mem_populated {cell : Nat × Nat} :
    cell ∈ holding.populated ↔ holding.cell? cell.1 = some cell.2 := by
  obtain ⟨slot, place⟩ := cell
  simp only [populated, List.mem_filterMap, List.mem_range, Option.map_eq_some_iff, Prod.mk.injEq]
  constructor
  · rintro ⟨other, -, found, here, rfl, rfl⟩
    exact here
  · intro here
    exact ⟨slot, lt_length_of_cell? here, place, here, rfl, rfl⟩

theorem profile_ensure (holding : Holding) (blocks : Nat) :
    (holding.ensure blocks).profile =
      { holding.profile with slots := holding.profile.slots.ensure blocks } := by
  unfold ensure Slots.ensure
  have same : holding.profile.slots.isEmpty = holding.cells.isEmpty := List.isEmpty_map
  rw [same]
  split
  · simp [profile, List.map_replicate]
  · rfl

/-- Claiming a slot that is there gives it its counters, if it has none. -/
theorem profile_claim (claimed : holding.claim next slot = .ok (holding', next', place)) :
    slot < holding.profile.slots.size ∧
      holding'.profile = { holding.profile with slots := holding.profile.slots.populate slot } := by
  have ways := holding.claims next slot
  rw [claimed] at ways
  cases ways with
  | found here =>
      have populated : holding.profile.slots.has slot = true := by
        rw [has_profile, here]
        rfl
      rw [Slots.populate_of_has populated]
      exact ⟨Slots.lt_size_of_has populated, rfl⟩
  | made inside unclaimed =>
      rw [size_profile]
      refine ⟨inside, ?_⟩
      simp [profile, Slots.populate, List.map_set]

theorem outside_of_claim {error : Error} (refused : holding.claim next slot = .error error) :
    holding.profile.slots.size ≤ slot ∧ error = .outOfBounds := by
  have ways := holding.claims next slot
  rw [refused] at ways
  cases ways with
  | refused outside => exact ⟨holding.size_profile ▸ outside, rfl⟩

/-- Slots that are there can all be claimed. -/
theorem profile_claimAll (next : Nat) {slots : List Nat}
    (inside : ∀ slot ∈ slots, slot < holding.profile.slots.size) :
    ∃ holding' next' cells, holding.claimAll next slots = .ok (holding', next', cells) ∧
      holding'.profile =
        { holding.profile with slots := slots.foldl Slots.populate holding.profile.slots } := by
  induction slots generalizing holding next with
  | nil => exact ⟨holding, next, [], rfl, rfl⟩
  | cons slot rest ih =>
      cases first : holding.claim next slot with
      | error error =>
          exact absurd (inside slot List.mem_cons_self)
            (Nat.not_lt.mpr (outside_of_claim first).1)
      | ok answer =>
          obtain ⟨middle, between, place⟩ := answer
          obtain ⟨-, same⟩ := profile_claim first
          obtain ⟨last, after, cells, others, result⟩ := @ih middle between
            fun other mem => by
              rw [same]
              exact (Slots.size_populate ..).symm ▸ inside other (List.mem_cons_of_mem _ mem)
          refine ⟨last, after, (slot, place) :: cells, ?_, ?_⟩
          · rw [claimAll, first]
            dsimp only
            rw [others]
            rfl
          · rw [result, same]
            rfl

end Holding

namespace Registry

variable {registry registry' : Registry} {function : String} {holding : Holding}

theorem profile?_names (registry : Registry) (function : String) :
    registry.names.profile? function = (registry.holding? function).map Holding.profile :=
  Table.get?_map ..

theorem names_put (registry : Registry) (function : String) (holding : Holding) (issued : Nat) :
    (registry.put function holding issued).names =
      registry.names.put function holding.profile := by
  rw [names, put, Table.map_insert]
  rfl

theorem known_names (known : registry.holding? function = some holding) :
    registry.names.profile? function = some holding.profile := by
  rw [profile?_names, known]
  rfl

theorem unknown_names (unknown : registry.holding? function = none) :
    registry.names.profile? function = none := by
  rw [profile?_names, unknown]
  rfl

/-- A slot of the store has counters when there is a place for them. -/
theorem has_names (registry : Registry) (function : String) (slot : Nat) :
    (registry.names.slotsOf function).has slot = (registry.place? function (some slot)).isSome := by
  cases known : registry.holding? function with
  | none =>
      rw [Store.slotsOf_of_unknown (unknown_names known), place?, known]
      rfl
  | some holding =>
      rw [Store.slotsOf_of_known (known_names known), place?_of_known known,
        Holding.has_profile]
      rfl

/-- The same profile is looked up, or created, with places and without. -/
theorem obtain_names (registry : Registry) (function : String) (shape : Except Error Shape) :
    registry.names.obtain function shape =
      (registry.obtain function shape).map fun (registry, holding, created) =>
        (registry.names, holding.profile, created) := by
  unfold Store.obtain obtain
  cases known : registry.holding? function with
  | none =>
      rw [unknown_names known]
      cases shape with
      | error error => rfl
      | ok shape =>
          simp only [Except.map, names_put]
          rfl
  | some holding =>
      rw [known_names known]
      rfl

end Registry

end FlowProfile
