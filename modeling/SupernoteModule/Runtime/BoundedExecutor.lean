import SupernoteModule.Lib.Machine

/-!
# The bounded executor

`BoundedExecutor` is a bounded queue of tasks served by a fixed number of threads, which the first
`submit` starts. A step is one critical section of the executor's mutex, one access to a task's
cancellation flag, or one start or end of a task body. Tasks, handles and cancellation flags are
named by the `submit` call they come from.
-/

namespace SupernoteModule.Runtime.BoundedExecutor

open SupernoteModule.Lib Function

/-- A queued item: its queue identity, and the call whose task and cancellation flag it carries. -/
structure Item where
  id : Nat
  call : Nat
deriving DecidableEq

/-- What `submit` returns: no control at all, a control that was not accepted, or an accepted one.
-/
inductive Handle where
  | empty
  | refused
  | accepted (id : Nat)
deriving DecidableEq

/-- One `submit` call. -/
inductive Submission where
  | absent
  | started
  | handing (id : Nat)
  | returned (handle : Handle)
  | threw
deriving DecidableEq

/-- The queue identity the call was given. -/
def Submission.id? : Submission → Option Nat
  | .handing id | .returned (.accepted id) => some id
  | .absent | .started | .returned .empty | .returned .refused | .threw => none

/-- One worker thread. -/
inductive Worker where
  | absent
  | waiting
  | popped (item : Item)
  | prepared (item : Item)
  | cleared (item : Item)
  | running (item : Item)
  | exited
deriving DecidableEq

/-- The task the worker has popped and may still run. -/
def Worker.unrun? : Worker → Option Nat
  | .popped item | .prepared item | .cleared item => some item.call
  | .absent | .waiting | .running _ | .exited => none

/-- One `cancel` call on the handle of a `submit` call. -/
inductive Cancel where
  | absent
  | requested (call id : Nat)
  | returned (call : Nat) (removed : Bool)
deriving DecidableEq

/-- One `shutdown` call. -/
inductive Shutdown where
  | absent
  | joining
  | returned
deriving DecidableEq

structure State where
  queue : List Item
  spawned : Nat
  workers : Nat → Worker
  nextId : Nat
  stopped : Bool
  cancelled : Nat → Bool
  submissions : Nat → Submission
  cancels : Nat → Cancel
  shutdowns : Nat → Shutdown

inductive Event where
  | accepted (call : Nat)
  | popped (worker call : Nat)
  | ran (call : Nat)
  | removed (call : Nat)
  | dropped (call : Nat)
deriving DecidableEq

def Event.accepted? : Event → Option Nat
  | .accepted call => some call
  | _ => none

def Event.popped? : Event → Option (Nat × Nat)
  | .popped worker call => some (worker, call)
  | _ => none

def Event.ran? : Event → Option Nat
  | .ran call => some call
  | _ => none

def Event.removed? : Event → Option Nat
  | .removed call => some call
  | _ => none

def Event.dropped? : Event → Option Nat
  | .dropped call => some call
  | _ => none

/-- The accepted tasks, in acceptance order. -/
def acceptedOf (history : List Event) : List Nat := history.filterMap Event.accepted?

/-- The tasks that workers popped, in that order, each with its worker. -/
def poppedByOf (history : List Event) : List (Nat × Nat) := history.filterMap Event.popped?

/-- The tasks that workers popped, in that order. -/
def poppedOf (history : List Event) : List Nat := (poppedByOf history).map Prod.snd

/-- The tasks whose body was started, in that order. -/
def ranOf (history : List Event) : List Nat := history.filterMap Event.ran?

/-- The tasks erased from the queue by a `cancel` that returned true. -/
def removedOf (history : List Event) : List Nat := history.filterMap Event.removed?

/-- The tasks that were in the queue when the executor was stopped. -/
def droppedOf (history : List Event) : List Nat := history.filterMap Event.dropped?

inductive Label where
  | ensureStarted (call : Nat) (nonempty : Bool) (started : Nat)
  | queue (call : Nat) (grows : Bool)
  | handle (call id : Nat)
  | pop (worker : Nat)
  | prepare (worker : Nat) (item : Item)
  | check (worker : Nat) (item : Item)
  | run (worker : Nat) (item : Item)
  | finish (worker : Nat) (item : Item)
  | cancel (cancel call : Nat) (handle : Handle)
  | cancelQueued (cancel call id : Nat)
  | shutdown (call : Nat)
  | shutdownReturn (call : Nat)

def State.init : State where
  queue := []
  spawned := 0
  workers := fun _ => .absent
  nextId := 1
  stopped := false
  cancelled := fun _ => false
  submissions := fun _ => .absent
  cancels := fun _ => .absent
  shutdowns := fun _ => .absent

def State.setSubmission (state : State) (call : Nat) (submission : Submission) : State :=
  { state with submissions := update state.submissions call submission }

def State.setWorker (state : State) (worker : Nat) (point : Worker) : State :=
  { state with workers := update state.workers worker point }

def State.setCancel (state : State) (cancel : Nat) (point : Cancel) : State :=
  { state with cancels := update state.cancels cancel point }

/-- `ensure_started`, which throws once the executor is stopped or when one of the threads cannot
be created; `started` of them were. -/
def State.ensureStarted (workerCount call : Nat) (nonempty : Bool) (started : Nat)
    (state : State) : State :=
  if nonempty = false then state.setSubmission call (.returned .empty)
  else if state.stopped then state.setSubmission call .threw
  else if state.spawned ≠ 0 then state.setSubmission call .started
  else
    { state with
        spawned := min started workerCount
        workers := fun worker =>
          if worker < min started workerCount then .waiting else state.workers worker
        submissions := update state.submissions call
          (if started < workerCount then .threw else .started) }

/-- The critical section of `submit`. -/
def State.queueTask (capacity call : Nat) (grows : Bool) (state : State) : State × List Event :=
  if state.stopped ∨ capacity ≤ state.queue.length then
    (state.setSubmission call (.returned .refused), [])
  else if grows = false then
    ({ state.setSubmission call .threw with nextId := state.nextId + 1 }, [])
  else
    ({ state with
        queue := state.queue ++ [⟨state.nextId, call⟩]
        nextId := state.nextId + 1
        submissions := update state.submissions call (.handing state.nextId) },
      [.accepted call])

/-- The worker's critical section, once its wait is over: exit, or pop the front of the queue. -/
def State.pop (worker : Nat) (state : State) : State × List Event :=
  match state.queue with
  | [] => (state.setWorker worker .exited, [])
  | item :: rest =>
      ({ state.setWorker worker (.popped item) with queue := rest }, [.popped worker item.call])

/-- The late check of the item's own cancellation flag. -/
def State.check (worker : Nat) (item : Item) (state : State) : State :=
  state.setWorker worker (if state.cancelled item.call then .waiting else .cleared item)

/-- The first half of `cancel`: the flag is set whenever there is a control, and only the handle of
an accepted task goes on to the queue. -/
def State.cancel (cancel call : Nat) (handle : Handle) (state : State) : State :=
  match handle with
  | .empty => state.setCancel cancel (.returned call false)
  | .refused =>
      { state.setCancel cancel (.returned call false) with
          cancelled := update state.cancelled call true }
  | .accepted id =>
      { state.setCancel cancel (.requested call id) with
          cancelled := update state.cancelled call true }

/-- The second half, `cancel_queued`: find the item by its identity and erase it. -/
def State.cancelQueued (cancel call id : Nat) (state : State) : State × List Event :=
  match state.queue.find? (fun item => item.id = id) with
  | some item =>
      ({ state.setCancel cancel (.returned call true) with
          queue := state.queue.eraseP (fun item => item.id = id) },
        [.removed item.call])
  | none => (state.setCancel cancel (.returned call false), [])

/-- The critical section of `shutdown`. Only the call that stops the executor joins the workers. -/
def State.shutdown (call : Nat) (state : State) : State × List Event :=
  if state.stopped then ({ state with shutdowns := update state.shutdowns call .returned }, [])
  else
    ({ state with
        stopped := true
        cancelled := fun other =>
          state.cancelled other || state.queue.any (fun item => item.call = other)
        queue := []
        shutdowns := update state.shutdowns call .joining },
      state.queue.map fun item => .dropped item.call)

/-- The machine of one executor with `workerCount` threads and a queue of `capacity` items. -/
def machine (workerCount capacity : Nat) : Machine State Label Event where
  init := State.init
  enabled
    | .ensureStarted call _ _, state => state.submissions call = .absent
    | .queue call _, state => state.submissions call = .started
    | .handle call id, state => state.submissions call = .handing id
    | .pop worker, state =>
        state.workers worker = .waiting ∧ (state.stopped = true ∨ state.queue ≠ [])
    | .prepare worker item, state => state.workers worker = .popped item
    | .check worker item, state => state.workers worker = .prepared item
    | .run worker item, state => state.workers worker = .cleared item
    | .finish worker item, state => state.workers worker = .running item
    | .cancel cancel call handle, state =>
        state.cancels cancel = .absent ∧ state.submissions call = .returned handle
    | .cancelQueued cancel call id, state => state.cancels cancel = .requested call id
    | .shutdown call, state => state.shutdowns call = .absent
    | .shutdownReturn call, state =>
        state.shutdowns call = .joining ∧
          ∀ worker < state.spawned, state.workers worker = .exited
  step
    | .ensureStarted call nonempty started, state =>
        (state.ensureStarted workerCount call nonempty started, [])
    | .queue call grows, state => state.queueTask capacity call grows
    | .handle call id, state => (state.setSubmission call (.returned (.accepted id)), [])
    | .pop worker, state => state.pop worker
    | .prepare worker item, state => (state.setWorker worker (.prepared item), [])
    | .check worker item, state => (state.check worker item, [])
    | .run worker item, state => (state.setWorker worker (.running item), [.ran item.call])
    | .finish worker _, state => (state.setWorker worker .waiting, [])
    | .cancel cancel call handle, state => (state.cancel cancel call handle, [])
    | .cancelQueued cancel call id, state => state.cancelQueued cancel call id
    | .shutdown call, state => state.shutdown call
    | .shutdownReturn call, state =>
        ({ state with spawned := 0, shutdowns := update state.shutdowns call .returned }, [])

instance (workerCount capacity : Nat) :
    ∀ label state, Decidable ((machine workerCount capacity).enabled label state)
  | .ensureStarted call _ _, state => inferInstanceAs (Decidable (state.submissions call = .absent))
  | .queue call _, state => inferInstanceAs (Decidable (state.submissions call = .started))
  | .handle call id, state => inferInstanceAs (Decidable (state.submissions call = .handing id))
  | .pop worker, state =>
      inferInstanceAs (Decidable
        (state.workers worker = .waiting ∧ (state.stopped = true ∨ state.queue ≠ [])))
  | .prepare worker item, state =>
      inferInstanceAs (Decidable (state.workers worker = .popped item))
  | .check worker item, state =>
      inferInstanceAs (Decidable (state.workers worker = .prepared item))
  | .run worker item, state => inferInstanceAs (Decidable (state.workers worker = .cleared item))
  | .finish worker item, state => inferInstanceAs (Decidable (state.workers worker = .running item))
  | .cancel cancel call handle, state =>
      inferInstanceAs (Decidable
        (state.cancels cancel = .absent ∧ state.submissions call = .returned handle))
  | .cancelQueued cancel call id, state =>
      inferInstanceAs (Decidable (state.cancels cancel = .requested call id))
  | .shutdown call, state => inferInstanceAs (Decidable (state.shutdowns call = .absent))
  | .shutdownReturn call, state =>
      inferInstanceAs (Decidable (state.shutdowns call = .joining ∧
        ∀ worker < state.spawned, state.workers worker = .exited))

end SupernoteModule.Runtime.BoundedExecutor
