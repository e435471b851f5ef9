import SupernoteModule.Lib.Machine

/-!
# Pending operations

The winner of a `PendingOperation` is decided by one compare-and-exchange outside its mutex, while
its work handle, its cancel hook and its rejection are read and written inside it. The first half of
this file is the operation and one function for each of its critical sections. The second half is
the machine of one operation on which any number of `claim` calls meet one `set_work` and one
`set_cancel_hook`.
-/

namespace SupernoteModule.Runtime

open SupernoteModule.Lib Function

inductive OperationWinner where
  | pending
  | completing
  | cancelledByFeature
  | cancelledByRuntime
deriving DecidableEq

/-- The winners for which `claim` cancels the work and takes the hook. -/
def OperationWinner.isCancellation : OperationWinner → Bool
  | .cancelledByFeature | .cancelledByRuntime => true
  | .pending | .completing => false

/-- `work` and `hook` are what `set_work` and `set_cancel_hook` have installed; the two last fields
say whether the internal completion and the rejection are still there to be taken. -/
structure PendingOperation (Work Hook : Type*) where
  winner : OperationWinner
  cancellation : Bool
  work : Option Work
  cancelHook : Option Hook
  internalCompletion : Bool
  rejection : Bool
deriving DecidableEq

namespace PendingOperation

variable {Work Hook : Type*}

/-- The constructor: nothing is installed and nobody has won. -/
def create (rejection internalCompletion : Bool) : PendingOperation Work Hook where
  winner := .pending
  cancellation := false
  work := none
  cancelHook := none
  internalCompletion := internalCompletion
  rejection := rejection

/-- `winner_.compare_exchange_strong`: whether the exchange succeeded, and the operation after it.
-/
def exchange (winner : OperationWinner) (operation : PendingOperation Work Hook) :
    Bool × PendingOperation Work Hook :=
  if operation.winner = .pending then (true, { operation with winner := winner })
  else (false, operation)

/-- `cancellation_.request_cancel`. -/
def requestCancel (operation : PendingOperation Work Hook) : PendingOperation Work Hook :=
  { operation with cancellation := true }

/-- The critical section of a cancelling `claim`: the work handle that is asked to cancel and the
hook that is taken. -/
def takeHook (operation : PendingOperation Work Hook) :
    Option Work × Option Hook × PendingOperation Work Hook :=
  (operation.work, operation.cancelHook, { operation with cancelHook := none })

/-- The critical section of a completing `claim`. -/
def clearHook (operation : PendingOperation Work Hook) : PendingOperation Work Hook :=
  { operation with cancelHook := none }

/-- The critical section of `set_work`: the handle that is asked to cancel, if a winner is known. -/
def setWork (work : Work) (operation : PendingOperation Work Hook) :
    Option Work × PendingOperation Work Hook :=
  (if operation.winner = .pending then none else some work, { operation with work := some work })

/-- The critical section of `set_cancel_hook`: the hook that has to run at once, if the operation
has already been cancelled. -/
def setCancelHook (hook : Hook) (operation : PendingOperation Work Hook) :
    Option Hook × PendingOperation Work Hook :=
  if operation.winner = .pending then (none, { operation with cancelHook := some hook })
  else (if operation.winner.isCancellation then some hook else none, operation)

def takeInternalCompletion (operation : PendingOperation Work Hook) :
    Bool × PendingOperation Work Hook :=
  (operation.internalCompletion, { operation with internalCompletion := false })

def takeRejection (operation : PendingOperation Work Hook) : Bool × PendingOperation Work Hook :=
  (operation.rejection, { operation with rejection := false })

@[simp] theorem exchange_pending {winner : OperationWinner}
    {operation : PendingOperation Work Hook} (hpending : operation.winner = .pending) :
    operation.exchange winner = (true, { operation with winner := winner }) :=
  if_pos hpending

@[simp] theorem exchange_of_ne {winner : OperationWinner}
    {operation : PendingOperation Work Hook} (hdecided : operation.winner ≠ .pending) :
    operation.exchange winner = (false, operation) :=
  if_neg hdecided

end PendingOperation

/-! ### Claims against one hook and one work handle -/

namespace PendingOperation.Claims

/-- One `claim` call. -/
inductive Claim (Hook : Type*) where
  | absent
  | requesting
  | taking
  | running (hook : Hook)
  | clearing
  | returned (won : Bool)
deriving DecidableEq

/-- The `set_work` call. -/
inductive SetWork where
  | absent
  | returned
deriving DecidableEq

/-- The `set_cancel_hook` call. -/
inductive SetHook where
  | absent
  | running
  | returned
deriving DecidableEq

structure State (Work Hook : Type*) where
  operation : PendingOperation Work Hook
  claims : Nat → Claim Hook
  setWork : SetWork
  setHook : SetHook

inductive Event (Work Hook : Type*) where
  | hookRan (hook : Hook)
  | workCancelled (work : Work)

inductive Label (Hook : Type*) where
  | exchange (call : Nat) (winner : OperationWinner)
  | requestCancel (call : Nat)
  | takeHook (call : Nat)
  | runHook (call : Nat) (hook : Hook)
  | clearHook (call : Nat)
  | setWork
  | setCancelHook
  | runHookNow

variable {Work Hook : Type*}

def Event.hook? : Event Work Hook → Option Hook
  | .hookRan hook => some hook
  | .workCancelled _ => none

def Event.work? : Event Work Hook → Option Work
  | .workCancelled work => some work
  | .hookRan _ => none

/-- The hooks that were invoked, in that order. -/
def hooksOf (history : List (Event Work Hook)) : List Hook := history.filterMap Event.hook?

/-- The work handles that were asked to cancel, in that order. -/
def cancelsOf (history : List (Event Work Hook)) : List Work := history.filterMap Event.work?

def State.init : State Work Hook where
  operation := .create true false
  claims := fun _ => .absent
  setWork := .absent
  setHook := .absent

def State.setClaim (state : State Work Hook) (call : Nat) (claim : Claim Hook) :
    State Work Hook :=
  { state with claims := update state.claims call claim }

/-- The exchange of one `claim` call. -/
def State.exchange (call : Nat) (winner : OperationWinner) (state : State Work Hook) :
    State Work Hook :=
  match state.operation.exchange winner with
  | (true, operation) =>
      { state.setClaim call (if winner.isCancellation then .requesting else .clearing) with
          operation := operation }
  | (false, _) => state.setClaim call (.returned false)

/-- The critical section of a cancelling `claim`. -/
def State.takeHook (call : Nat) (state : State Work Hook) :
    State Work Hook × List (Event Work Hook) :=
  match state.operation.takeHook with
  | (work, hook, operation) =>
      ({ state.setClaim call (hook.elim (.returned true) .running) with operation := operation },
        work.toList.map .workCancelled)

/-- The critical section of `set_work`. -/
def State.installWork (work : Work) (state : State Work Hook) :
    State Work Hook × List (Event Work Hook) :=
  match state.operation.setWork work with
  | (cancelled, operation) =>
      ({ state with operation := operation, setWork := .returned },
        cancelled.toList.map .workCancelled)

/-- The critical section of `set_cancel_hook`. -/
def State.installHook (hook : Hook) (state : State Work Hook) : State Work Hook :=
  match state.operation.setCancelHook hook with
  | (some _, operation) => { state with operation := operation, setHook := .running }
  | (none, operation) => { state with operation := operation, setHook := .returned }

/-- The machine of one operation, on which `work` and `hook` are installed once each. -/
def machine (work : Work) (hook : Hook) :
    Machine (State Work Hook) (Label Hook) (Event Work Hook) where
  init := State.init
  enabled
    | .exchange call winner, state => state.claims call = .absent ∧ winner ≠ .pending
    | .requestCancel call, state => state.claims call = .requesting
    | .takeHook call, state => state.claims call = .taking
    | .runHook call hook, state => state.claims call = .running hook
    | .clearHook call, state => state.claims call = .clearing
    | .setWork, state => state.setWork = .absent
    | .setCancelHook, state => state.setHook = .absent
    | .runHookNow, state => state.setHook = .running
  step
    | .exchange call winner, state => (state.exchange call winner, [])
    | .requestCancel call, state =>
        ({ state.setClaim call .taking with operation := state.operation.requestCancel }, [])
    | .takeHook call, state => state.takeHook call
    | .runHook call hook, state => (state.setClaim call (.returned true), [.hookRan hook])
    | .clearHook call, state =>
        ({ state.setClaim call (.returned true) with operation := state.operation.clearHook }, [])
    | .setWork, state => state.installWork work
    | .setCancelHook, state => (state.installHook hook, [])
    | .runHookNow, state => ({ state with setHook := .returned }, [.hookRan hook])

instance (work : Work) (hook : Hook) [DecidableEq Hook] :
    ∀ label state, Decidable ((machine work hook).enabled label state)
  | .exchange call winner, state =>
      inferInstanceAs (Decidable (state.claims call = .absent ∧ winner ≠ .pending))
  | .requestCancel call, state => inferInstanceAs (Decidable (state.claims call = .requesting))
  | .takeHook call, state => inferInstanceAs (Decidable (state.claims call = .taking))
  | .runHook call hook, state => inferInstanceAs (Decidable (state.claims call = .running hook))
  | .clearHook call, state => inferInstanceAs (Decidable (state.claims call = .clearing))
  | .setWork, state => inferInstanceAs (Decidable (state.setWork = .absent))
  | .setCancelHook, state => inferInstanceAs (Decidable (state.setHook = .absent))
  | .runHookNow, state => inferInstanceAs (Decidable (state.setHook = .running))

/-- Every call that was made has returned, and both installations were made. -/
def State.Quiet (state : State Work Hook) : Prop :=
  (∀ call, state.claims call = .absent ∨ ∃ won, state.claims call = .returned won) ∧
    state.setWork = .returned ∧ state.setHook = .returned

end PendingOperation.Claims

end SupernoteModule.Runtime
