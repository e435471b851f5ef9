import SupernoteModule.Lib.Exclusive
import Mathlib.Data.Option.Basic

/-!
# Custody of tokens

A token is made once, is in one place until somebody releases it, and is released once. Places are
a map to the token each of them holds; a step makes a token in a place, moves what one place holds
to an empty one, or releases it.
-/

namespace SupernoteModule.Lib

open Function

variable {Place : Type*}

/-- Where a token is that was released the given number of times. Tokens are numbered in the order
in which they are made. -/
inductive Custody (place : Place → Option Nat) (next token : Nat) : Nat → Prop where
  | unborn : next ≤ token → Vacant (· = some token) place → Custody place next token 0
  | kept : token < next → AtMostOne (· = some token) place →
      Occupied (· = some token) place → Custody place next token 0
  | released : token < next → Vacant (· = some token) place → Custody place next token 1

variable {place : Place → Option Nat} {next count token : Nat}

theorem Custody.atMostOne (hfate : Custody place next token count) :
    AtMostOne (· = some token) place := by
  cases hfate with
  | unborn _ hvacant | released _ hvacant => exact hvacant.atMostOne
  | kept _ hone _ => exact hone

/-- A token that is in a place exists and was not released. -/
theorem Custody.of_mem (hfate : Custody place next token count) {spot : Place}
    (hspot : place spot = some token) : token < next ∧ count = 0 := by
  cases hfate with
  | unborn _ hvacant | released _ hvacant => exact absurd hspot (hvacant spot)
  | kept hlt _ _ => exact ⟨hlt, rfl⟩

theorem Custody.transfer (hfate : Custody place next token count) {later : Place → Option Nat}
    (hone : AtMostOne (· = some token) later)
    (hoccupied : Occupied (· = some token) later ↔ Occupied (· = some token) place) :
    Custody later next token count := by
  have hvacant : Vacant (· = some token) place → Vacant (· = some token) later := by
    intro hvacant spot hspot
    obtain ⟨other, hother⟩ := hoccupied.mp ⟨spot, hspot⟩
    exact hvacant other hother
  cases hfate with
  | unborn hle hnone => exact .unborn hle (hvacant hnone)
  | kept hlt _ hold => exact .kept hlt hone (hoccupied.mpr hold)
  | released hlt hnone => exact .released hlt (hvacant hnone)

variable [DecidableEq Place]

/-- Whatever is in one place may be moved to an empty one. -/
theorem Custody.move (hfate : Custody place next token count) (source target : Place)
    {held : Option Nat} (hsource : place source = held) (htarget : place target = none) :
    Custody (update (update place source none) target held) next token count := by
  have hone := hfate.atMostOne
  have hnone : (none : Option Nat) ≠ some token := nofun
  by_cases hheld : held = some token
  · have hat : place source = some token := hsource.trans hheld
    have hempty : Vacant (· = some token) (update place source none) := hone.vacant_update hat nofun
    exact hfate.transfer hempty.atMostOne_update
      ⟨fun _ => ⟨source, hat⟩, fun _ => occupied_update hheld⟩
  · refine hfate.transfer ((hone.update_of_not hnone).update_of_not hheld) ⟨?_, ?_⟩
    · rintro ⟨spot, hspot⟩
      refine ⟨spot, ?_⟩
      rcases eq_or_ne spot target with rfl | htarget'
      · rw [update_self] at hspot
        exact absurd hspot hheld
      rw [update_of_ne htarget'] at hspot
      rcases eq_or_ne spot source with rfl | hsource'
      · rw [update_self] at hspot
        cases hspot
      · rwa [update_of_ne hsource'] at hspot
    · intro hoccupied
      have hleft : Occupied (· = some token) (update place source none) :=
        hoccupied.update_of_not (by rw [hsource]; exact hheld)
      refine hleft.update_of_not ?_
      rcases eq_or_ne target source with rfl | hne
      · rw [update_self]
        nofun
      · rw [update_of_ne hne, htarget]
        nofun

/-- Whatever is in a place may be released. -/
theorem Custody.release (hfate : Custody place next token count) {source : Place}
    {held : Option Nat} (hsource : place source = held) :
    Custody (update place source none) next token
      (count + held.toList.count token) := by
  have hone := hfate.atMostOne
  by_cases hheld : held = some token
  · have hat : place source = some token := hsource.trans hheld
    obtain ⟨hlt, hcount⟩ := hfate.of_mem hat
    rw [hcount, hheld, Option.toList_some, List.count_singleton_self]
    exact .released hlt (hone.vacant_update hat nofun)
  · have hcount : held.toList.count token = 0 := by
      refine List.count_eq_zero.mpr fun h => hheld ?_
      rwa [Option.mem_toList] at h
    rw [hcount, Nat.add_zero]
    refine hfate.transfer (hone.update_of_not nofun) ⟨?_, fun hoccupied => ?_⟩
    · rintro ⟨spot, hspot⟩
      refine ⟨spot, ?_⟩
      rcases eq_or_ne spot source with rfl | hne
      · rw [update_self] at hspot
        cases hspot
      · rwa [update_of_ne hne] at hspot
    · exact hoccupied.update_of_not (by rw [hsource]; exact hheld)

/-- A new token appears in an empty place. -/
theorem Custody.create (hfate : Custody place next token count) {target : Place}
    (htarget : place target = none) :
    Custody (update place target (some next)) (next + 1) token count := by
  rcases eq_or_ne next token with rfl | hne
  · cases hfate with
    | unborn _ hvacant =>
        exact .kept (Nat.lt_succ_self _) hvacant.atMostOne_update (occupied_update rfl)
    | kept hlt _ _ | released hlt _ => exact absurd hlt (Nat.lt_irrefl _)
  · have hnew : some next ≠ some token := fun h => hne (Option.some.inj h)
    cases hfate with
    | unborn hle hvacant =>
        exact .unborn (Nat.lt_of_le_of_ne hle hne) (hvacant.update_of_not hnew)
    | kept hlt hone hoccupied =>
        exact .kept (Nat.lt_succ_of_lt hlt) (hone.update_of_not hnew)
          (hoccupied.update_of_not (by rw [htarget]; nofun))
    | released hlt hvacant =>
        exact .released (Nat.lt_succ_of_lt hlt) (hvacant.update_of_not hnew)

end SupernoteModule.Lib
