import SupernoteModule.Lib.Machine

/-!
# Deferred destruction

`DeferredDestruction` owns one bounded queue of cleanups and one thread that runs them, started by
the first `submit` that needs it. A step is one critical section of the facility's mutex, one run of
a cleanup, one counter increment, or one check or join by `drain_and_shutdown`. A cleanup is named
by the `submit` call that brought it. A cleanup that itself calls `submit` is another call, taken
while the worker is still holding the first.
-/

namespace SupernoteModule.Runtime.DeferredDestruction

open SupernoteModule.Lib Function

/-- The cleanup thread, from before it is started until it has been joined. -/
inductive Worker where
  | unstarted
  | waiting
  | holding (cleanup : Nat)
  | ran (cleanup : Nat) (threw : Bool)
  | exited
  | joined
deriving DecidableEq

/-- `std::thread::joinable`. -/
def Worker.joinable : Worker → Bool
  | .unstarted | .joined => false
  | .waiting | .holding _ | .ran _ _ | .exited => true

/-- The worker still comes back to the queue. -/
def Worker.working : Worker → Bool
  | .waiting | .holding _ | .ran _ _ => true
  | .unstarted | .exited | .joined => false

/-- The cleanup the worker has popped and not yet counted. -/
def Worker.inFlight : Worker → List Nat
  | .holding cleanup | .ran cleanup _ => [cleanup]
  | .unstarted | .waiting | .exited | .joined => []

/-- The cleanup the worker has popped and not yet run. -/
def Worker.unrun : Worker → List Nat
  | .holding cleanup => [cleanup]
  | .unstarted | .waiting | .ran _ _ | .exited | .joined => []

/-- One `submit` call. An empty cleanup is accepted and there is nothing to run. -/
inductive Submission where
  | absent
  | empty
  | queued
  | returned (accepted : Bool)
deriving DecidableEq

/-- One `drain_and_shutdown` call. -/
inductive Drain where
  | absent
  | stopping
  | joining
  | returned
deriving DecidableEq

structure State where
  queue : List Nat
  worker : Worker
  highWater : Nat
  processed : Nat
  failures : Nat
  stopping : Bool
  submissions : Nat → Submission
  drains : Nat → Drain

inductive Event where
  | accepted (cleanup : Nat)
  | executed (cleanup : Nat)
deriving DecidableEq

def Event.accepted? : Event → Option Nat
  | .accepted cleanup => some cleanup
  | .executed _ => none

def Event.executed? : Event → Option Nat
  | .executed cleanup => some cleanup
  | .accepted _ => none

/-- The cleanups `submit` has put into the queue, in that order. -/
def acceptedOf (history : List Event) : List Nat := history.filterMap Event.accepted?

/-- The cleanups the worker has run, in that order. -/
def executedOf (history : List Event) : List Nat := history.filterMap Event.executed?

/-- The exceptions `submit` catches: the thread does not start, or the queue cannot grow. -/
structure Faults where
  threadStart : Bool
  queueGrowth : Bool

inductive Label where
  | submit (cleanup : Nat) (nonempty : Bool) (faults : Faults)
  | submitReturn (cleanup : Nat)
  | wake
  | execute (cleanup : Nat) (threw : Bool)
  | count (cleanup : Nat) (threw : Bool)
  | drain (call : Nat)
  | drainCheck (call : Nat)
  | drainJoin (call : Nat)

/-- The steps of the cleanup thread itself. -/
def Label.ofWorker : Label → Bool
  | .wake | .execute _ _ | .count _ _ => true
  | .submit _ _ _ | .submitReturn _ | .drain _ | .drainCheck _ | .drainJoin _ => false

def State.init : State where
  queue := []
  worker := .unstarted
  highWater := 0
  processed := 0
  failures := 0
  stopping := false
  submissions := fun _ => .absent
  drains := fun _ => .absent

/-- `submit` up to the end of its critical section. -/
def State.submit (capacity cleanup : Nat) (nonempty : Bool) (faults : Faults) (state : State) :
    State × List Event :=
  let refused := { state with submissions := update state.submissions cleanup (.returned false) }
  if nonempty = false then
    ({ state with submissions := update state.submissions cleanup .empty }, [])
  else if state.stopping then (refused, [])
  else if capacity ≤ state.queue.length then (refused, [])
  else if state.worker.joinable = false ∧ faults.threadStart then (refused, [])
  else
    let worker := if state.worker.joinable then state.worker else .waiting
    if faults.queueGrowth then ({ refused with worker := worker }, [])
    else
      ({ state with
          worker := worker
          queue := state.queue ++ [cleanup]
          highWater := max state.highWater (state.queue.length + 1)
          submissions := update state.submissions cleanup .queued },
        [.accepted cleanup])

/-- The worker's critical section, once its wait is over: exit, or pop the front of the queue. -/
def State.wake (state : State) : State :=
  match state.queue with
  | [] => { state with worker := .exited }
  | cleanup :: rest => { state with worker := .holding cleanup, queue := rest }

/-- The worker counts the cleanup it has just run. -/
def State.count (threw : Bool) (state : State) : State :=
  if threw then { state with worker := .waiting, failures := state.failures + 1 }
  else { state with worker := .waiting, processed := state.processed + 1 }

/-- The machine of one facility. `drain_and_shutdown` joins only a thread that has returned, and a
thread that has been joined cannot be joined again. -/
def machine (capacity : Nat) : Machine State Label Event where
  init := State.init
  enabled
    | .submit cleanup _ _, state => state.submissions cleanup = .absent
    | .submitReturn cleanup, state => state.submissions cleanup = .queued
    | .wake, state => state.worker = .waiting ∧ (state.stopping = true ∨ state.queue ≠ [])
    | .execute cleanup _, state => state.worker = .holding cleanup
    | .count cleanup threw, state => state.worker = .ran cleanup threw
    | .drain call, state => state.drains call = .absent
    | .drainCheck call, state => state.drains call = .stopping
    | .drainJoin call, state => state.drains call = .joining ∧ state.worker = .exited
  step
    | .submit cleanup nonempty faults, state => state.submit capacity cleanup nonempty faults
    | .submitReturn cleanup, state =>
        ({ state with submissions := update state.submissions cleanup (.returned true) }, [])
    | .wake, state => (state.wake, [])
    | .execute cleanup threw, state =>
        ({ state with worker := .ran cleanup threw }, [.executed cleanup])
    | .count _ threw, state => (state.count threw, [])
    | .drain call, state =>
        ({ state with stopping := true, drains := update state.drains call .stopping }, [])
    | .drainCheck call, state =>
        let next := if state.worker.joinable then .joining else .returned
        ({ state with drains := update state.drains call next }, [])
    | .drainJoin call, state =>
        ({ state with worker := .joined, drains := update state.drains call .returned }, [])

instance (capacity : Nat) :
    ∀ label state, Decidable ((machine capacity).enabled label state)
  | .submit cleanup _ _, state => inferInstanceAs (Decidable (state.submissions cleanup = .absent))
  | .submitReturn cleanup, state =>
      inferInstanceAs (Decidable (state.submissions cleanup = .queued))
  | .wake, state =>
      inferInstanceAs
        (Decidable (state.worker = .waiting ∧ (state.stopping = true ∨ state.queue ≠ [])))
  | .execute cleanup _, state => inferInstanceAs (Decidable (state.worker = .holding cleanup))
  | .count cleanup threw, state => inferInstanceAs (Decidable (state.worker = .ran cleanup threw))
  | .drain call, state => inferInstanceAs (Decidable (state.drains call = .absent))
  | .drainCheck call, state => inferInstanceAs (Decidable (state.drains call = .stopping))
  | .drainJoin call, state =>
      inferInstanceAs (Decidable (state.drains call = .joining ∧ state.worker = .exited))

end SupernoteModule.Runtime.DeferredDestruction
