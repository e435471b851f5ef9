import SupernoteModule.Lib.Machine
import Mathlib.Data.Finset.Card

/-!
# Retirement of runtime sessions

`ProcessServices` keeps retired runtimes until a job on the cleanup worker has taken each of them
out. `try_schedule_retired_runtime` marks the runtime under `retired_runtime_mutex_`, submits the
job without it and takes the mark back under it when the queue refuses. Both a call of
`retire_runtime` and the retry worker run it; an allocation or a thread start may fail wherever the
source catches it. The maps are represented by their keys.
-/

namespace SupernoteModule.Runtime.Retirement

open SupernoteModule.Lib Function

def retiredRuntimeLimit : Nat := 32

/-- A call of `retire_runtime`, or the retry worker. -/
inductive Actor where
  | call (index : Nat)
  | retry
deriving DecidableEq

/-- What a thread does next: in `try_schedule_retired_runtime`, in `retire_runtime` after it, or in
`retirement_retry_loop` around it. -/
inductive Point where
  | absent
  | marking (runtime : Nat)
  | submitting (runtime : Nat)
  | unmarking (runtime : Nat)
  | ensuring
  | returned (retired : Bool)
  | waiting
  | sleeping
deriving DecidableEq

/-- What the cleanup worker does next with a retirement job. -/
inductive Worker where
  | idle
  | popped (runtime : Nat)
  | cleaning (runtime : Nat)
deriving DecidableEq

structure State where
  retired : Finset Nat
  scheduled : Finset Nat
  restartRequired : Bool
  threads : Actor → Point
  jobs : List Nat
  worker : Worker

inductive Event where
  | emplaced (runtime : Nat)
  | cleaned (runtime : Nat)
deriving DecidableEq

inductive Label where
  | retire (index runtime : Nat) (stored : Bool)
  | mark (actor : Actor) (runtime : Nat) (stored : Bool)
  | submit (actor : Actor) (runtime : Nat) (accepted : Bool)
  | unmark (actor : Actor) (runtime : Nat)
  | ensureRetryWorker (index : Nat) (started : Bool)
  | pick (runtime : Nat)
  | wake
  | popJob (runtime : Nat)
  | runJob (runtime : Nat)
  | cleanupPhysical (runtime : Nat)

def State.init : State where
  retired := ∅
  scheduled := ∅
  restartRequired := false
  threads := fun _ => .absent
  jobs := []
  worker := .idle

def State.setThread (state : State) (actor : Actor) (point : Point) : State :=
  { state with threads := update state.threads actor point }

/-- Where a thread goes when `try_schedule_retired_runtime` has returned. -/
def Actor.resume : Actor → Bool → Point
  | .call _, true => .returned true
  | .call _, false => .ensuring
  | .retry, true => .waiting
  | .retry, false => .sleeping

/-- The first critical section of `retire_runtime`. -/
def State.retire (index runtime : Nat) (stored : Bool) (state : State) : State × List Event :=
  if runtime ∈ state.retired then
    (state.setThread (.call index) (.marking runtime), [])
  else if retiredRuntimeLimit ≤ state.retired.card ∨ stored = false then
    ({ state.setThread (.call index) (.returned false) with restartRequired := true }, [])
  else
    ({ state.setThread (.call index) (.marking runtime) with
        retired := insert runtime state.retired }, [.emplaced runtime])

/-- The critical section of `try_schedule_retired_runtime`. When the mark cannot be stored, the
handler takes it back like after a refused submission. -/
def State.mark (actor : Actor) (runtime : Nat) (stored : Bool) (state : State) : State :=
  if runtime ∉ state.retired ∨ runtime ∈ state.scheduled then
    state.setThread actor (actor.resume true)
  else if stored then
    { state.setThread actor (.submitting runtime) with
        scheduled := insert runtime state.scheduled }
  else
    state.setThread actor (.unmarking runtime)

/-- `cleanup_->submit` of the retirement job. -/
def State.submit (actor : Actor) (runtime : Nat) (accepted : Bool) (state : State) : State :=
  if accepted then
    { state.setThread actor (actor.resume true) with jobs := state.jobs ++ [runtime] }
  else
    state.setThread actor (.unmarking runtime)

/-- `ensure_retirement_retry_worker`. -/
def State.ensureRetryWorker (index : Nat) (started : Bool) (state : State) : State :=
  if state.threads .retry ≠ .absent then
    state.setThread (.call index) (.returned true)
  else if started then
    (state.setThread .retry .waiting).setThread (.call index) (.returned true)
  else
    { state.setThread (.call index) (.returned false) with restartRequired := true }

/-- The critical section of the retirement job. -/
def State.runJob (runtime : Nat) (state : State) : State :=
  if runtime ∈ state.retired then
    { state with
        retired := state.retired.erase runtime
        scheduled := state.scheduled.erase runtime
        worker := .cleaning runtime }
  else
    { state with scheduled := state.scheduled.erase runtime, worker := .idle }

@[reducible] def enabled : Label → State → Prop
  | .retire index _ _, state => state.threads (.call index) = .absent
  | .mark actor runtime _, state => state.threads actor = .marking runtime
  | .submit actor runtime _, state => state.threads actor = .submitting runtime
  | .unmark actor runtime, state => state.threads actor = .unmarking runtime
  | .ensureRetryWorker index _, state => state.threads (.call index) = .ensuring
  | .pick runtime, state =>
      state.threads .retry = .waiting ∧ runtime ∈ state.retired ∧ runtime ∉ state.scheduled
  | .wake, state => state.threads .retry = .sleeping
  | .popJob runtime, state => state.worker = .idle ∧ state.jobs.head? = some runtime
  | .runJob runtime, state => state.worker = .popped runtime
  | .cleanupPhysical runtime, state => state.worker = .cleaning runtime

instance (label : Label) (state : State) : Decidable (enabled label state) := by
  cases label <;> infer_instance

/-- The machine of the retirement side of `ProcessServices`, until its shutdown. -/
def machine : Machine State Label Event where
  init := .init
  enabled := enabled
  step
    | .retire index runtime stored, state => state.retire index runtime stored
    | .mark actor runtime stored, state => (state.mark actor runtime stored, [])
    | .submit actor runtime accepted, state => (state.submit actor runtime accepted, [])
    | .unmark actor runtime, state =>
        ({ state.setThread actor (actor.resume false) with
            scheduled := state.scheduled.erase runtime }, [])
    | .ensureRetryWorker index started, state => (state.ensureRetryWorker index started, [])
    | .pick runtime, state => (state.setThread .retry (.marking runtime), [])
    | .wake, state => (state.setThread .retry .waiting, [])
    | .popJob runtime, state =>
        ({ state with jobs := state.jobs.tail, worker := .popped runtime }, [])
    | .runJob runtime, state => (state.runJob runtime, [])
    | .cleanupPhysical runtime, state => ({ state with worker := .idle }, [.cleaned runtime])

instance (label : Label) (state : State) : Decidable (machine.enabled label state) :=
  inferInstanceAs (Decidable (enabled label state))

/-- The call is between its first and its last step. -/
def State.inside (state : State) (index : Nat) : Prop :=
  state.threads (.call index) ≠ .absent ∧ ∀ retired, state.threads (.call index) ≠ .returned retired

end SupernoteModule.Runtime.Retirement
