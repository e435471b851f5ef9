import SupernoteModule.Lib.Exclusive
import SupernoteModule.Runtime.ServiceSlot

/-!
# The election of the initializing call

A raised flag belongs to one call: the one that runs the slot's latest attempt. A call that finds
the flag down raises it under a new number, and only the call of that number takes it down.
-/

namespace SupernoteModule.Runtime.ServiceSlot

open SupernoteModule.Lib Function

variable {Declaration : Type*}

/-- The call runs this attempt on the slot, or handles its failure. -/
def Call.Attempts (slot attempt : Nat) : Call Declaration → Prop
  | .constructing _ index number | .created _ index number _ | .failing index number _ =>
      index = slot ∧ number = attempt
  | .absent | .entered _ _ | .waiting _ _ _ | .returned _ | .threw _ => False

/-- The call runs the factory for this attempt, or holds what it returned. -/
def Call.Builds (slot attempt : Nat) : Call Declaration → Prop
  | .constructing _ index number | .created _ index number _ => index = slot ∧ number = attempt
  | .absent | .entered _ _ | .waiting _ _ _ | .failing _ _ _ | .returned _ | .threw _ => False

theorem Call.Builds.attempts {slot attempt : Nat} {call : Call Declaration}
    (hcall : call.Builds slot attempt) : call.Attempts slot attempt := by
  cases call <;> first | exact hcall | exact hcall.elim

theorem Call.Attempts.unique {slot attempt index number : Nat} {call : Call Declaration}
    (hcall : call.Attempts slot attempt) (hother : call.Attempts index number) :
    slot = index ∧ attempt = number := by
  cases call with
  | constructing _ _ _ | created _ _ _ _ | failing _ _ _ =>
      exact ⟨hcall.1.symm.trans hother.1, hcall.2.symm.trans hother.2⟩
  | absent | entered _ _ | waiting _ _ _ | returned _ | threw _ => exact hcall.elim

/-- A raised flag belongs to the call that runs the slot's latest attempt. -/
structure Election (slots : Nat → Slot) (calls : Nat → Call Declaration) : Prop where
  one : ∀ slot attempt, AtMostOne (Call.Attempts slot attempt) calls
  bound : ∀ slot attempt call, (calls call).Attempts slot attempt →
    attempt ≤ (slots slot).attempt
  building : ∀ slot attempt call, (calls call).Builds slot attempt →
    (slots slot).initializing = true ∧ (slots slot).attempt = attempt
  leader : ∀ slot, (slots slot).initializing = true →
    Occupied (Call.Attempts slot (slots slot).attempt) calls
  empty : ∀ slot, (slots slot).initializing = true → (slots slot).value = none

variable {slots : Nat → Slot} {calls : Nat → Call Declaration} {call slot attempt inst : Nat}
  {point : Call Declaration}

/-- A call moves on within its attempt, or outside of any. -/
theorem Election.move (helection : Election slots calls)
    (hattempts : ∀ slot attempt, point.Attempts slot attempt ↔ (calls call).Attempts slot attempt)
    (hbuilds : ∀ slot attempt, point.Builds slot attempt → (calls call).Builds slot attempt) :
    Election slots (update calls call point) where
  one slot attempt := by
    by_cases h : point.Attempts slot attempt
    · exact (helection.one slot attempt).update_of_holds ((hattempts slot attempt).mp h)
    · exact (helection.one slot attempt).update_of_not h
  bound slot attempt := forall_role_update (Call.Attempts slot attempt)
    (fun h => helection.bound slot attempt call ((hattempts slot attempt).mp h))
    (helection.bound slot attempt)
  building slot attempt := forall_role_update (Call.Builds slot attempt)
    (fun h => helection.building slot attempt call (hbuilds slot attempt h))
    (helection.building slot attempt)
  leader slot hflag := by
    by_cases h : point.Attempts slot (slots slot).attempt
    · exact occupied_update h
    · exact (helection.leader slot hflag).update_of_not fun hcall => h ((hattempts _ _).mpr hcall)
  empty := helection.empty

/-- A call that handles the failure of an attempt that has already been completed leaves. -/
theorem Election.leave (helection : Election slots calls)
    (hnone : ∀ slot attempt, ¬ point.Attempts slot attempt)
    (hstale : ∀ slot, (slots slot).initializing = true →
      ¬ (calls call).Attempts slot (slots slot).attempt) :
    Election slots (update calls call point) where
  one slot attempt := (helection.one slot attempt).update_of_not (hnone slot attempt)
  bound slot attempt := forall_role_update (Call.Attempts slot attempt)
    (fun h => absurd h (hnone slot attempt)) (helection.bound slot attempt)
  building slot attempt := forall_role_update (Call.Builds slot attempt)
    (fun h => absurd h.attempts (hnone slot attempt)) (helection.building slot attempt)
  leader slot hflag := (helection.leader slot hflag).update_of_not (hstale slot hflag)
  empty := helection.empty

/-- Whoever finds the flag down raises it under a new number. -/
theorem Election.begin (helection : Election slots calls) {next : Slot}
    (hidle : ∀ slot attempt, ¬ (calls call).Attempts slot attempt)
    (hdown : (slots slot).initializing = false) (hup : next.initializing = true)
    (hvalue : next.value = none)
    (hnumber : next.attempt = (slots slot).attempt + 1)
    (hpoint : ∀ index number, point.Attempts index number ↔ index = slot ∧ number = next.attempt) :
    Election (update slots slot next) (update calls call point) where
  one index number := by
    by_cases h : point.Attempts index number
    · obtain ⟨rfl, rfl⟩ := (hpoint index number).mp h
      refine Vacant.atMostOne_update fun other hother => ?_
      have hle := helection.bound index next.attempt other hother
      omega
    · exact (helection.one index number).update_of_not h
  bound index number := by
    refine forall_role_update (Call.Attempts index number) (fun h => ?_) fun other h => ?_
    · obtain ⟨rfl, rfl⟩ := (hpoint index number).mp h
      exact Nat.le_of_eq (by rw [update_self])
    · have hle := helection.bound index number other h
      rcases eq_or_ne index slot with rfl | hne
      · rw [update_self]
        omega
      · rwa [update_of_ne hne]
  building index number := by
    refine forall_role_update (Call.Builds index number) (fun h => ?_) fun other h => ?_
    · obtain ⟨rfl, rfl⟩ := (hpoint index number).mp h.attempts
      rw [update_self]
      exact ⟨hup, rfl⟩
    · obtain ⟨hflag, hlatest⟩ := helection.building index number other h
      rcases eq_or_ne index slot with rfl | hne
      · rw [hdown] at hflag
        cases hflag
      · rw [update_of_ne hne]
        exact ⟨hflag, hlatest⟩
  leader index hflag := by
    rcases eq_or_ne index slot with rfl | hne
    · rw [update_self]
      exact occupied_update ((hpoint _ _).mpr ⟨rfl, rfl⟩)
    · rw [update_of_ne hne] at hflag ⊢
      exact (helection.leader index hflag).update_of_not (hidle index _)
  empty index hflag := by
    rcases eq_or_ne index slot with rfl | hne
    · rwa [update_self]
    · rw [update_of_ne hne] at hflag ⊢
      exact helection.empty index hflag

/-- The call that runs the latest attempt takes the flag down. -/
theorem Election.finish (helection : Election slots calls) {next : Slot}
    (hcall : (calls call).Attempts slot attempt) (hlatest : (slots slot).attempt = attempt)
    (hnumber : next.attempt = attempt) (hdown : next.initializing = false)
    (hpoint : ∀ index number, point.Attempts index number → index = slot ∧ number = attempt)
    (hbuilds : ∀ index number, ¬ point.Builds index number) :
    Election (update slots slot next) (update calls call point) where
  one index number := by
    by_cases h : point.Attempts index number
    · obtain ⟨rfl, rfl⟩ := hpoint index number h
      exact (helection.one index number).update_of_holds hcall
    · exact (helection.one index number).update_of_not h
  bound index number := by
    refine forall_role_update (Call.Attempts index number) (fun h => ?_) fun other h => ?_
    · obtain ⟨rfl, rfl⟩ := hpoint index number h
      exact Nat.le_of_eq (by rw [update_self, hnumber])
    · have hle := helection.bound index number other h
      rcases eq_or_ne index slot with rfl | hne
      · rwa [update_self, hnumber, ← hlatest]
      · rwa [update_of_ne hne]
  building index number other hother := by
    rcases eq_or_ne other call with rfl | hne
    · rw [update_self] at hother
      exact absurd hother (hbuilds index number)
    · rw [update_of_ne hne] at hother
      obtain ⟨hflag, hnum⟩ := helection.building index number other hother
      rcases eq_or_ne index slot with rfl | hindex
      · rw [← hnum, hlatest] at hother
        exact absurd (helection.one index attempt hother.attempts hcall) hne
      · rw [update_of_ne hindex]
        exact ⟨hflag, hnum⟩
  leader index hflag := by
    rcases eq_or_ne index slot with rfl | hne
    · rw [update_self, hdown] at hflag
      cases hflag
    · rw [update_of_ne hne] at hflag ⊢
      exact (helection.leader index hflag).update_of_not fun h => hne (h.unique hcall).1
  empty index hflag := by
    rcases eq_or_ne index slot with rfl | hne
    · rw [update_self, hdown] at hflag
      cases hflag
    · rw [update_of_ne hne] at hflag ⊢
      exact helection.empty index hflag

theorem Election.setValue {slots : Nat → Slot} {calls : Nat → Call Declaration}
    (helection : Election slots calls) {next : Slot}
    (hflag : next.initializing = (slots slot).initializing)
    (hnumber : next.attempt = (slots slot).attempt) (hvalue : next.value = none) :
    Election (update slots slot next) calls := by
  have hsame : ∀ index, (update slots slot next index).initializing = (slots index).initializing ∧
      (update slots slot next index).attempt = (slots index).attempt := by
    intro index
    rcases eq_or_ne index slot with rfl | hne
    · rw [update_self]
      exact ⟨hflag, hnumber⟩
    · rw [update_of_ne hne]
      exact ⟨rfl, rfl⟩
  refine {
    one := helection.one
    bound := fun index number other hother => ?_
    building := fun index number other hother => ?_
    leader := fun index hup => ?_
    empty := fun index hup => ?_ }
  · rw [(hsame index).2]
    exact helection.bound index number other hother
  · rw [(hsame index).1, (hsame index).2]
    exact helection.building index number other hother
  · rw [(hsame index).1] at hup
    rw [(hsame index).2]
    exact helection.leader index hup
  · rw [(hsame index).1] at hup
    rcases eq_or_ne index slot with rfl | hne
    · rwa [update_self]
    · rw [update_of_ne hne]
      exact helection.empty index hup

/-- The call is running the factory. -/
def Call.Constructs (slot : Nat) : Call Declaration → Prop
  | .constructing _ index _ => index = slot
  | .absent | .entered _ _ | .waiting _ _ _ | .created _ _ _ _ | .failing _ _ _ | .returned _
  | .threw _ => False

theorem Call.Constructs.builds {call : Call Declaration} (hcall : call.Constructs slot) :
    ∃ attempt, call.Builds slot attempt := by
  cases call with
  | constructing _ index number => exact ⟨number, hcall, rfl⟩
  | absent | entered _ _ | waiting _ _ _ | created _ _ _ _ | failing _ _ _ | returned _ | threw _ =>
      exact hcall.elim

theorem Election.atMostOne_constructs (helection : Election slots calls) (slot : Nat) :
    AtMostOne (Call.Constructs slot) calls := by
  intro first second hfirst hsecond
  obtain ⟨number, hbuilds⟩ := hfirst.builds
  obtain ⟨other, hbuilds'⟩ := hsecond.builds
  obtain ⟨_, hlatest⟩ := helection.building slot number first hbuilds
  obtain ⟨_, hlatest'⟩ := helection.building slot other second hbuilds'
  rw [← hlatest'.symm.trans hlatest] at hbuilds
  exact helection.one slot other hbuilds.attempts hbuilds'.attempts

end SupernoteModule.Runtime.ServiceSlot
