import Mathlib.Logic.Function.Basic

/-!
# Exclusive roles

Threads are a map from an index to the point each of them has reached. A role is a set of such
points, and mutual exclusion says that at most one thread is in it. One step moves one thread, so
every fact below is about `Function.update`.
-/

namespace SupernoteModule.Lib

open Function

variable {Index Point : Type*}

/-- At most one thread is in the role. -/
def AtMostOne (role : Point → Prop) (points : Index → Point) : Prop :=
  ∀ ⦃i j⦄, role (points i) → role (points j) → i = j

/-- No thread is in the role. -/
def Vacant (role : Point → Prop) (points : Index → Point) : Prop :=
  ∀ i, ¬ role (points i)

/-- Some thread is in the role. -/
def Occupied (role : Point → Prop) (points : Index → Point) : Prop :=
  ∃ i, role (points i)

variable {role : Point → Prop} {points : Index → Point} {i : Index} {point : Point}

theorem Vacant.atMostOne (hvacant : Vacant role points) : AtMostOne role points :=
  fun i _ hi _ => absurd hi (hvacant i)

variable [DecidableEq Index]

/-- A thread that moves to a point outside the role leaves exclusion intact. -/
theorem AtMostOne.update_of_not (hone : AtMostOne role points) (hpoint : ¬ role point) :
    AtMostOne role (update points i point) := by
  intro a b ha hb
  rcases eq_or_ne a i with rfl | hai
  · rw [update_self] at ha
    exact absurd ha hpoint
  rcases eq_or_ne b i with rfl | hbi
  · rw [update_self] at hb
    exact absurd hb hpoint
  rw [update_of_ne hai] at ha
  rw [update_of_ne hbi] at hb
  exact hone ha hb

/-- A thread already in the role may move anywhere. -/
theorem AtMostOne.update_of_holds (hone : AtMostOne role points) (hi : role (points i)) :
    AtMostOne role (update points i point) := by
  intro a b ha hb
  rcases eq_or_ne a i with rfl | hai
  · rcases eq_or_ne b a with rfl | hba
    · rfl
    · rw [update_of_ne hba] at hb
      exact hone hi hb
  · rw [update_of_ne hai] at ha
    rcases eq_or_ne b i with rfl | hbi
    · exact hone ha hi
    · rw [update_of_ne hbi] at hb
      exact hone ha hb

/-- A thread may enter a vacant role. -/
theorem Vacant.atMostOne_update (hvacant : Vacant role points) :
    AtMostOne role (update points i point) := by
  intro a b ha hb
  have hat : ∀ j, role (update points i point j) → j = i := by
    intro j hj
    by_contra hji
    rw [update_of_ne hji] at hj
    exact hvacant j hj
  exact (hat a ha).trans (hat b hb).symm

theorem Vacant.update_of_not (hvacant : Vacant role points) (hpoint : ¬ role point) :
    Vacant role (update points i point) := by
  intro j
  rcases eq_or_ne j i with rfl | hji
  · rwa [update_self]
  · rw [update_of_ne hji]
    exact hvacant j

/-- When the only thread in the role leaves it, the role is vacant. -/
theorem AtMostOne.vacant_update (hone : AtMostOne role points) (hi : role (points i))
    (hpoint : ¬ role point) : Vacant role (update points i point) := by
  intro j hj
  rcases eq_or_ne j i with rfl | hji
  · rw [update_self] at hj
    exact hpoint hj
  · rw [update_of_ne hji] at hj
    exact hji (hone hj hi)

theorem occupied_update (hpoint : role point) : Occupied role (update points i point) :=
  ⟨i, by rwa [update_self]⟩

/-- A thread outside the role leaves the occupant in place wherever it moves. -/
theorem Occupied.update_of_not (hoccupied : Occupied role points) (hi : ¬ role (points i)) :
    Occupied role (update points i point) := by
  obtain ⟨j, hj⟩ := hoccupied
  refine ⟨j, ?_⟩
  rwa [update_of_ne]
  rintro rfl
  exact hi hj

/-- What a role requires of the threads in it, when one thread moves. -/
theorem forall_role_update (role : Point → Prop) {p : Index → Prop} (hpoint : role point → p i)
    (hrest : ∀ j, role (points j) → p j) (j : Index) (hj : role (update points i point j)) :
    p j := by
  rcases eq_or_ne j i with rfl | hji
  · rw [update_self] at hj
    exact hpoint hj
  · rw [update_of_ne hji] at hj
    exact hrest j hj

theorem forall_update {p : Index → Point → Prop} (hpoint : p i point)
    (hrest : ∀ j, j ≠ i → p j (points j)) (j : Index) : p j (update points i point j) := by
  rcases eq_or_ne j i with rfl | hji
  · rwa [update_self]
  · rw [update_of_ne hji]
    exact hrest j hji

end SupernoteModule.Lib
