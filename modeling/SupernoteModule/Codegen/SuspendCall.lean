import SupernoteModule.Runtime.FeatureSession

/-!
# One generated suspend call

The Promise executor that the generator emits for a `suspend` function accepts an operation, puts a
closure into the process-wide table of JVM completions, installs a cancel hook and submits a task.
The task launches the Kotlin job on a worker and replaces the hook by one that also cancels the job.
The job, a failed launch and a refused submit complete the call through the table. The feature
session under all of this is the machine of `FeatureSession`; its other operations are free.
-/

namespace SupernoteModule.Codegen.SuspendCall

open SupernoteModule.Lib SupernoteModule.Runtime Function

/-- The two hooks of a suspend call. Both discard the registered completion, the second one then
asks the launched job to cancel. -/
inductive CancelHook where
  | discard
  | discardAndCancel
deriving DecidableEq

/-- The points of the Promise executor. -/
inductive Executor where
  | accepting
  | refused
  | continuing
  | registering
  | hooking
  | discarding
  | submitting
  | working (accepted : Bool)
  | refusing
  | returned
deriving DecidableEq

/-- The points of the submitted task and of the worker that pops it. -/
inductive Worker where
  | absent
  | queued
  | popped
  | started
  | checking
  | entering
  | launching
  | launched
  | discarding
  | cancelling
  | returned
deriving DecidableEq

/-- The points of one call of `complete_jvm_async` and of the closure it may run. -/
inductive Completion where
  | absent
  | entered
  | checking
  | decoding
  | locking
  | scheduling
  | returned
deriving DecidableEq

/-- How the Promise is settled. -/
inductive Settlement where
  | resolved
  | rejected
deriving DecidableEq

/-- The ways through the body that is handed to `schedule_completion`: the call has failed, its
result cannot be converted, or `supernote_resolve_operation` is called and may throw. -/
inductive Body where
  | failed
  | unconverted
  | resolving (throws : Bool)
deriving DecidableEq

/-- `completion` says whether `jvm_async_completions_` holds the id of this call, `continuation`
whether its Promise functions are registered. `workCancelled` is the token of the submitted work,
`discarded` how far the hook is that `claim` runs, and `rejection` a posted teardown rejection. -/
structure State where
  session : FeatureSession.State Bool CancelHook
  operation : Option Nat
  continuation : Bool
  completion : Bool
  executor : Executor
  worker : Worker
  workCancelled : Bool
  launched : Bool
  completions : Nat → Completion
  discarded : Bool
  rejection : Bool

inductive Event where
  | session (event : FeatureSession.Event)
  | closureRan
  | settled (settlement : Settlement)
  | secondHook
  | jobAsked
deriving DecidableEq

abbrev SessionLabel := FeatureSession.Label Bool CancelHook

inductive Label where
  | accept
  | rejectNewPromise
  | registerContinuation
  | registerCompletion
  | setFirstHook (operation : Nat)
  | discardFirst
  | submit (accepted : Bool)
  | setWork (operation : Nat) (accepted : Bool)
  | refuse (call : Nat)
  | dequeue
  | pop
  | checkItem
  | checkExecutor
  | checkOperation
  | checkFeature (alive : Bool)
  | launch
  | returnJob (operation : Nat)
  | failLaunch (call : Nat)
  | discardSecond
  | cancelSecond
  | complete (call : Nat)
  | takeCompletion (call : Nat)
  | checkClosure (call : Nat)
  | decode (call : Nat)
  | lockFeature (call : Nat) (alive : Bool)
  | scheduleCompletion (call operation : Nat)
  | session (label : SessionLabel)
  | takeHook (call : Nat) (runtimeTeardown : Bool) (operation : Nat)
  | discardHook (call : Nat) (runtimeTeardown : Bool) (operation : Nat) (hook : CancelHook)
  | runHook (call : Nat) (runtimeTeardown : Bool) (operation : Nat) (hook : CancelHook)
  | runCompletion (call : Nat) (operation : Nat) (body : Body)
  | handRejection (call : Nat) (runtimeTeardown : Bool) (operation : Nat) (rejection : Bool)
      (delivered : Bool)
  | runRejection (alive : Bool)

def State.init : State where
  session := .init
  operation := none
  continuation := false
  completion := false
  executor := .accepting
  worker := .absent
  workCancelled := false
  launched := false
  completions := fun _ => .absent
  discarded := false
  rejection := false

def State.setCompletion (state : State) (call : Nat) (point : Completion) : State :=
  { state with completions := update state.completions call point }

/-- A step of the feature session. -/
def State.through (label : SessionLabel) (state : State) : State × List Event :=
  let run := (FeatureSession.machine Bool CancelHook).step label state.session
  ({ state with session := run.1 }, run.2.map .session)

/-- `cancellation_token().is_cancelled()` of the accepted operation. -/
def State.cancelled (state : State) : Bool :=
  (state.operation.bind state.session.operations).any (·.cancellation)

/-- `supernote_resolve_operation` and `supernote_reject_operation`: the continuation is taken out of
its map before it is called, and without one they throw. -/
def State.settle (settlement : Settlement) (state : State) : State × List Event :=
  if state.continuation then ({ state with continuation := false }, [.settled settlement])
  else (state, [])

/-- The section of `accept_factory`, after which the executor has an operation or none. -/
def State.accept (state : State) : State :=
  let next := (state.through (.acceptFactory (some true))).1
  if state.session.state = .active ∧ state.session.runtimeActive then
    { next with operation := some state.session.nextId, executor := .continuing }
  else
    { next with executor := .refused }

/-- The section of the first `set_cancel_hook`. -/
def State.setFirstHook (operation : Nat) (state : State) : State :=
  let now := (state.session.operations operation).bind fun held => (held.setCancelHook .discard).1
  { (state.through (.setCancelHook operation .discard)).1 with
      executor := if now.isSome then .discarding else .submitting }

/-- `submit` has answered with a handle. -/
def State.submit (accepted : Bool) (state : State) : State :=
  { state with
      executor := .working accepted
      worker := if accepted then .queued else .absent }

/-- The section of `set_work`, which cancels the handle when a winner is known. -/
def State.setWork (operation : Nat) (accepted : Bool) (state : State) : State :=
  let cancels := (state.session.operations operation).bind fun held => (held.setWork accepted).1
  { (state.through (.setWork operation accepted)).1 with
      workCancelled := state.workCancelled || cancels.isSome
      executor := if accepted then .returned else .refusing }

/-- The section of the second `set_cancel_hook`. -/
def State.returnJob (operation : Nat) (state : State) : State :=
  let now := (state.session.operations operation).bind fun held =>
    (held.setCancelHook .discardAndCancel).1
  { (state.through (.setCancelHook operation .discardAndCancel)).1 with
      worker := if now.isSome then .discarding else .returned }

/-- The section of `complete_jvm_async`: whoever finds the closure takes it and runs it. -/
def State.takeCompletion (call : Nat) (state : State) : State × List Event :=
  if state.completion then
    ({ state.setCompletion call .checking with completion := false }, [.closureRan])
  else
    (state.setCompletion call .returned, [])

/-- The section of a cancelling `claim` on this call's operation. -/
def State.takeHook (call : Nat) (runtimeTeardown : Bool) (operation : Nat) (state : State) :
    State :=
  let work := (state.session.operations operation).bind (·.work)
  { (state.through (.takeHook call runtimeTeardown operation)).1 with
      workCancelled := state.workCancelled || work.isSome
      discarded := false }

/-- The body that settles the Promise. A resolution that throws is followed by a rejection. -/
def State.runBody (body : Body) (state : State) : State × List Event :=
  match body with
  | .failed | .unconverted => state.settle .rejected
  | .resolving throws =>
      let resolved := state.settle .resolved
      if throws || !state.continuation then
        let rejected := resolved.1.settle .rejected
        (rejected.1, resolved.2 ++ rejected.2)
      else
        resolved

/-- The steps of the session that are not part of this call. -/
@[reducible] def Foreign (own : Option Nat) : SessionLabel → Prop
  | .setWork operation _ | .setCancelHook operation _ | .scheduleCompletion _ operation
  | .claimInternalCompletion operation | .takeHook _ _ operation | .runHook _ _ operation _
  | .runCompletion _ operation | .handRejection _ _ operation _ => own ≠ some operation
  | _ => True

instance (own : Option Nat) (label : SessionLabel) : Decidable (Foreign own label) := by
  cases label <;> infer_instance

/-- Where each step can be taken. -/
@[reducible] def enabled : Label → State → Prop
  | .accept, state => state.executor = .accepting
  | .rejectNewPromise, state => state.executor = .refused
  | .registerContinuation, state => state.executor = .continuing
  | .registerCompletion, state => state.executor = .registering
  | .setFirstHook operation, state =>
      state.executor = .hooking ∧ state.operation = some operation
  | .discardFirst, state => state.executor = .discarding
  | .submit _, state => state.executor = .submitting
  | .setWork operation accepted, state =>
      state.executor = .working accepted ∧ state.operation = some operation
  | .refuse call, state => state.executor = .refusing ∧ state.completions call = .absent
  | .dequeue, state => state.worker = .queued ∧ state.workCancelled = true
  | .pop, state => state.worker = .queued
  | .checkItem, state => state.worker = .popped
  | .checkExecutor, state => state.worker = .started
  | .checkOperation, state => state.worker = .checking
  | .checkFeature _, state => state.worker = .entering
  | .launch, state => state.worker = .launching
  | .returnJob operation, state => state.worker = .launched ∧ state.operation = some operation
  | .failLaunch call, state =>
      (state.worker = .launching ∨ state.worker = .launched) ∧ state.completions call = .absent
  | .discardSecond, state => state.worker = .discarding
  | .cancelSecond, state => state.worker = .cancelling
  | .complete call, state => state.launched = true ∧ state.completions call = .absent
  | .takeCompletion call, state => state.completions call = .entered
  | .checkClosure call, state => state.completions call = .checking
  | .decode call, state => state.completions call = .decoding
  | .lockFeature call _, state => state.completions call = .locking
  | .scheduleCompletion call operation, state =>
      state.completions call = .scheduling ∧ state.operation = some operation ∧
        FeatureSession.enabled (.scheduleCompletion call operation) state.session
  | .session label, state =>
      Foreign state.operation label ∧ FeatureSession.enabled label state.session
  | .takeHook call runtimeTeardown operation, state =>
      state.operation = some operation ∧
        FeatureSession.enabled (.takeHook call runtimeTeardown operation) state.session
  | .discardHook call runtimeTeardown operation hook, state =>
      state.operation = some operation ∧ state.discarded = false ∧
        FeatureSession.enabled (.runHook call runtimeTeardown operation hook) state.session
  | .runHook call runtimeTeardown operation hook, state =>
      state.operation = some operation ∧ state.discarded = true ∧
        FeatureSession.enabled (.runHook call runtimeTeardown operation hook) state.session
  | .runCompletion call operation _, state =>
      state.operation = some operation ∧
        FeatureSession.enabled (.runCompletion call operation) state.session
  | .handRejection call runtimeTeardown operation rejection _, state =>
      state.operation = some operation ∧
        FeatureSession.enabled (.handRejection call runtimeTeardown operation rejection)
          state.session
  | .runRejection _, state => state.rejection = true

instance (label : Label) (state : State) : Decidable (enabled label state) := by
  cases label <;> infer_instance

/-- The end of a hook that `claim` runs: a hook that cancels the job has asked it. -/
def State.runHook (call : Nat) (runtimeTeardown : Bool) (operation : Nat) (hook : CancelHook)
    (state : State) : State × List Event :=
  ((state.through (.runHook call runtimeTeardown operation hook)).1,
    if hook = .discardAndCancel then [.jobAsked] else [])

/-- The callback of `schedule_completion` runs the body it was given. -/
def State.runCompletion (call operation : Nat) (body : Body) (state : State) :
    State × List Event :=
  let run := state.through (.runCompletion call operation)
  let settled := run.1.runBody body
  (settled.1, run.2 ++ settled.2)

/-- `close` hands the rejection to `RuntimeSession::schedule`, which may fail to post it. -/
def State.handRejection (call : Nat) (runtimeTeardown : Bool) (operation : Nat) (rejection : Bool)
    (delivered : Bool) (state : State) : State × List Event :=
  let run := state.through (.handRejection call runtimeTeardown operation rejection)
  let handed := !runtimeTeardown && state.session.runtimeActive && rejection
  ({ run.1 with rejection := state.rejection || handed && delivered }, run.2)

/-- The posted rejection runs when its runtime session is still there and active. -/
def State.runRejection (alive : Bool) (state : State) : State × List Event :=
  let taken := { state with rejection := false }
  if alive && state.session.runtimeActive then taken.settle .rejected else (taken, [])

/-- The machine of one suspend call. -/
def machine : Machine State Label Event where
  init := .init
  enabled := enabled
  step
    | .accept, state => (state.accept, [])
    | .rejectNewPromise, state => ({ state with executor := .returned }, [.settled .rejected])
    | .registerContinuation, state =>
        ({ state with continuation := true, executor := .registering }, [])
    | .registerCompletion, state => ({ state with completion := true, executor := .hooking }, [])
    | .setFirstHook operation, state => (state.setFirstHook operation, [])
    | .discardFirst, state => ({ state with completion := false, executor := .submitting }, [])
    | .submit accepted, state => (state.submit accepted, [])
    | .setWork operation accepted, state => (state.setWork operation accepted, [])
    | .refuse call, state => ({ state.setCompletion call .entered with executor := .returned }, [])
    | .dequeue, state => ({ state with worker := .returned }, [])
    | .pop, state => ({ state with worker := .popped }, [])
    | .checkItem, state =>
        ({ state with worker := if state.workCancelled then .returned else .started }, [])
    | .checkExecutor, state =>
        ({ state with worker := if state.workCancelled then .returned else .checking }, [])
    | .checkOperation, state =>
        ({ state with worker := if state.cancelled then .returned else .entering }, [])
    | .checkFeature alive, state =>
        let active := alive && decide (state.session.state = .active)
        ({ state with worker := if active then .launching else .returned }, [])
    | .launch, state => ({ state with launched := true, worker := .launched }, [])
    | .returnJob operation, state => (state.returnJob operation, [.secondHook])
    | .failLaunch call, state =>
        ({ state.setCompletion call .entered with worker := .returned }, [])
    | .discardSecond, state => ({ state with completion := false, worker := .cancelling }, [])
    | .cancelSecond, state => ({ state with worker := .returned }, [.jobAsked])
    | .complete call, state => (state.setCompletion call .entered, [])
    | .takeCompletion call, state => state.takeCompletion call
    | .checkClosure call, state =>
        (state.setCompletion call (if state.cancelled then .returned else .decoding), [])
    | .decode call, state =>
        (state.setCompletion call (if state.cancelled then .returned else .locking), [])
    | .lockFeature call alive, state =>
        (state.setCompletion call (if alive then .scheduling else .returned), [])
    | .scheduleCompletion call operation, state =>
        ((state.through (.scheduleCompletion call operation)).1.setCompletion call .returned, [])
    | .session label, state => state.through label
    | .takeHook call runtimeTeardown operation, state =>
        (state.takeHook call runtimeTeardown operation, [])
    | .discardHook _ _ _ _, state => ({ state with completion := false, discarded := true }, [])
    | .runHook call runtimeTeardown operation hook, state =>
        state.runHook call runtimeTeardown operation hook
    | .runCompletion call operation body, state => state.runCompletion call operation body
    | .handRejection call runtimeTeardown operation rejection delivered, state =>
        state.handRejection call runtimeTeardown operation rejection delivered
    | .runRejection alive, state => state.runRejection alive

instance (label : Label) (state : State) : Decidable (machine.enabled label state) :=
  inferInstanceAs (Decidable (enabled label state))

/-! ### Observations -/

/-- `winner()` of the accepted operation. -/
def State.winner (state : State) : Option OperationWinner :=
  state.operation.bind state.session.winnerOf

/-- The hook that is installed on the accepted operation. -/
def State.hook (state : State) : Option CancelHook :=
  (state.operation.bind state.session.operations).bind (·.cancelHook)

def Event.session? : Event → Option FeatureSession.Event
  | .session event => some event
  | .closureRan | .settled _ | .secondHook | .jobAsked => none

def Event.settlement? : Event → Option Settlement
  | .settled settlement => some settlement
  | .session _ | .closureRan | .secondHook | .jobAsked => none

/-- What the session did, in order. -/
def sessionOf (history : List Event) : List FeatureSession.Event :=
  history.filterMap Event.session?

/-- How the Promise was settled, in order. -/
def settlementsOf (history : List Event) : List Settlement :=
  history.filterMap Event.settlement?

/-- Every step that was started has returned. A queued task and a posted callback are not started,
so nothing is said about them. -/
structure State.Quiet (state : State) : Prop where
  executor : state.executor = .returned
  worker : state.worker = .absent ∨ state.worker = .queued ∨ state.worker = .returned
  completions : ∀ call, state.completions call = .absent ∨ state.completions call = .returned
  calls : ∀ call, state.session.calls call = .absent ∨ state.session.calls call = .returned ∨
    ∃ operation, state.session.calls call = .posted operation

end SupernoteModule.Codegen.SuspendCall
