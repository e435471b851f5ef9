import Mathlib.Order.Basic

/-!
# Loops

A `while` loop is a step that says how to go on, that the loop is done, or that it has failed. Fuel
bounds the number of iterations; a variant that every iteration decreases says how much fuel is
enough, and an invariant what holds at the exit.
-/

namespace SupernoteModule.Lib

variable {State Error : Type}

/-- Repeat the step until it is done. A step that has run out of its own fuel ends the loop too. -/
def loop (step : State → Option (Except Error (Option State))) :
    Nat → State → Option (Except Error State)
  | 0, _ => none
  | fuel + 1, state =>
      match step state with
      | none => none
      | some (.error error) => some (.error error)
      | some (.ok none) => some (.ok state)
      | some (.ok (some next)) => loop step fuel next

/-- More fuel, for the loop and for its step, does not change what a loop ends with. -/
theorem loop_mono {step next : State → Option (Except Error (Option State))}
    (hstep : ∀ {state outcome}, step state = some outcome → next state = some outcome)
    {fuel more : Nat} (hle : fuel ≤ more) {state : State} {outcome : Except Error State}
    (hloop : loop step fuel state = some outcome) : loop next more state = some outcome := by
  induction fuel generalizing more state with
  | zero => simp [loop] at hloop
  | succ fuel ih =>
      obtain ⟨rest, rfl⟩ : ∃ rest, more = rest + 1 := ⟨more - 1, by omega⟩
      unfold loop at hloop ⊢
      cases hfirst : step state with
      | none => simp [hfirst] at hloop
      | some first =>
          rw [hstep hfirst]
          rw [hfirst] at hloop
          cases first with
          | error error => exact hloop
          | ok last =>
              cases last with
              | none => exact hloop
              | some later => exact ih (by omega) hloop

/-- Under the invariant every iteration succeeds, keeps it, and decreases the variant. -/
structure Terminates (step : State → Option (Except Error (Option State)))
    (inv : State → Prop) (variant : State → Nat) : Prop where
  succeeds : ∀ {state}, inv state → ∃ outcome, step state = some (.ok outcome)
  keeps : ∀ {state next}, inv state → step state = some (.ok (some next)) → inv next
  decreases : ∀ {state next}, inv state → step state = some (.ok (some next)) →
    variant next < variant state

/-- A loop with a variant ends, and where it ends the invariant holds and the step is done. -/
theorem Terminates.exists_exit {step : State → Option (Except Error (Option State))}
    {inv : State → Prop} {variant : State → Nat} (hloop : Terminates step inv variant) {fuel : Nat}
    {state : State} (hinv : inv state) (hfuel : variant state < fuel) :
    ∃ final, loop step fuel state = some (.ok final) ∧ inv final ∧
      step final = some (.ok none) := by
  induction fuel generalizing state with
  | zero => omega
  | succ fuel ih =>
      obtain ⟨outcome, hstep⟩ := hloop.succeeds hinv
      cases outcome with
      | none => exact ⟨state, by simp [loop, hstep], hinv, hstep⟩
      | some next =>
          have hless := hloop.decreases hinv hstep
          obtain ⟨final, hfinal, hexit⟩ := ih (hloop.keeps hinv hstep) (by omega)
          exact ⟨final, by simpa [loop, hstep] using hfinal, hexit⟩

/-- What holds of every state along the way holds where a loop ends, and there the step is done. -/
theorem exit_of_loop {step : State → Option (Except Error (Option State))} {inv : State → Prop}
    (hnext : ∀ {state next}, inv state → step state = some (.ok (some next)) → inv next)
    {fuel : Nat} {state final : State} (hinv : inv state)
    (hloop : loop step fuel state = some (.ok final)) :
    inv final ∧ step final = some (.ok none) := by
  induction fuel generalizing state with
  | zero => simp [loop] at hloop
  | succ fuel ih =>
      unfold loop at hloop
      cases hstep : step state with
      | none => simp [hstep] at hloop
      | some outcome =>
          rw [hstep] at hloop
          cases outcome with
          | error error => simp at hloop
          | ok last =>
              cases last with
              | none =>
                  obtain rfl : state = final := by simpa using hloop
                  exact ⟨hinv, hstep⟩
              | some next => exact ih (hnext hinv hstep) hloop

end SupernoteModule.Lib
