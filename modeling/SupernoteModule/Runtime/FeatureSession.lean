import SupernoteModule.Runtime.PendingOperation

/-!
# Feature sessions and their pending operations

A `FeatureSession` accepts operations, lets a callback on the JavaScript thread or an internal
completion claim them, and cancels the rest when it closes. Every critical section of its mutex is
one step, as is every critical section of an operation's own mutex and every exchange that happens
outside the session's. The loop of `close` over the services touches none of this state.
-/

namespace SupernoteModule.Runtime

open SupernoteModule.Lib Function

inductive FeatureState where
  | active
  | closing
  | inactive
deriving DecidableEq

namespace FeatureSession

/-- The winner that `close` claims for. -/
def outcomeOf (runtimeTeardown : Bool) : OperationWinner :=
  if runtimeTeardown then .cancelledByRuntime else .cancelledByFeature

/-- What a call does next. The first group are calls of `schedule_completion` and the callbacks they
post, the second one calls of `close`. -/
inductive Call (Hook : Type*) where
  | absent
  | scheduling (operation : Nat)
  | posted (operation : Nat)
  | called (operation : Nat)
  | claimed (operation : Nat)
  | completing (operation : Nat)
  | looping (runtimeTeardown : Bool)
  | popped (runtimeTeardown : Bool) (operation : Nat)
  | requesting (runtimeTeardown : Bool) (operation : Nat)
  | taking (runtimeTeardown : Bool) (operation : Nat)
  | running (runtimeTeardown : Bool) (operation : Nat) (hook : Hook)
  | releasing (runtimeTeardown : Bool) (operation : Nat)
  | rejecting (runtimeTeardown : Bool) (operation : Nat)
  | handing (runtimeTeardown : Bool) (operation : Nat) (rejection : Bool)
  | drained
  | returned
deriving DecidableEq

/-- `runtimeActive` says that the runtime session is still there and active. -/
structure State (Work Hook : Type*) where
  state : FeatureState
  runtimeActive : Bool
  pending : List Nat
  operations : Nat → Option (PendingOperation Work Hook)
  nextId : Nat
  calls : Nat → Call Hook

/-- What finally happens to an operation that somebody has won. -/
inductive Outcome where
  | bodyRan
  | internalClaimed
  | rejectionHanded
  | silentlyCancelled
deriving DecidableEq

inductive Event where
  | decided (operation : Nat) (winner : OperationWinner)
  | outcome (operation : Nat) (outcome : Outcome)
deriving DecidableEq

def Event.decision? (operation : Nat) : Event → Option OperationWinner
  | .decided claimed winner => if claimed = operation then some winner else none
  | .outcome _ _ => none

def Event.outcome? (operation : Nat) : Event → Option Outcome
  | .outcome settled result => if settled = operation then some result else none
  | .decided _ _ => none

/-- The changes of the operation's winner, in order. -/
def decisionsOf (operation : Nat) (history : List Event) : List OperationWinner :=
  history.filterMap (Event.decision? operation)

/-- What happened to the operation, in order. -/
def outcomesOf (operation : Nat) (history : List Event) : List Outcome :=
  history.filterMap (Event.outcome? operation)

inductive Label (Work Hook : Type*) where
  | accept (rejection internalCompletion : Bool)
  | acceptFactory (rejection : Option Bool)
  | setWork (operation : Nat) (work : Work)
  | setCancelHook (operation : Nat) (hook : Hook)
  | invalidate
  | scheduleCompletion (call operation : Nat)
  | post (call : Nat) (operation : Nat) (delivered : Bool)
  | callback (call : Nat) (operation : Nat) (alive : Bool)
  | claimCallback (call : Nat) (operation : Nat)
  | takeRejectionCallback (call : Nat) (operation : Nat)
  | runCompletion (call : Nat) (operation : Nat)
  | claimInternalCompletion (operation : Nat)
  | close (call : Nat) (runtimeTeardown : Bool)
  | pop (call : Nat) (runtimeTeardown : Bool) (operation : Nat)
  | claim (call : Nat) (runtimeTeardown : Bool) (operation : Nat)
  | requestCancel (call : Nat) (runtimeTeardown : Bool) (operation : Nat)
  | takeHook (call : Nat) (runtimeTeardown : Bool) (operation : Nat)
  | runHook (call : Nat) (runtimeTeardown : Bool) (operation : Nat) (hook : Hook)
  | takeInternalCompletion (call : Nat) (runtimeTeardown : Bool) (operation : Nat)
  | takeRejection (call : Nat) (runtimeTeardown : Bool) (operation : Nat)
  | handRejection (call : Nat) (runtimeTeardown : Bool) (operation : Nat) (rejection : Bool)
  | drain (call : Nat) (runtimeTeardown : Bool)
  | deactivate (call : Nat)

variable {Work Hook : Type*}

def State.init : State Work Hook where
  state := .active
  runtimeActive := true
  pending := []
  operations := fun _ => none
  nextId := 1
  calls := fun _ => .absent

def State.setCall (state : State Work Hook) (call : Nat) (point : Call Hook) : State Work Hook :=
  { state with calls := update state.calls call point }

/-- Replaces what an accepted operation holds. -/
def State.modify (state : State Work Hook) (operation : Nat)
    (change : PendingOperation Work Hook → PendingOperation Work Hook) : State Work Hook :=
  { state with
      operations := update state.operations operation ((state.operations operation).map change) }

/-- `winner()` of an accepted operation. -/
def State.winnerOf (state : State Work Hook) (operation : Nat) : Option OperationWinner :=
  (state.operations operation).map (·.winner)

/-- The exchange of `claim` on an accepted operation. -/
def State.exchange (operation : Nat) (winner : OperationWinner) (state : State Work Hook) :
    Bool × State Work Hook :=
  match (state.operations operation).map (PendingOperation.exchange winner) with
  | some (true, next) =>
      (true, { state with operations := update state.operations operation (some next) })
  | some (false, _) | none => (false, state)

/-- `emplace` of a new operation under a fresh id. -/
def State.emplace (rejection internalCompletion : Bool) (state : State Work Hook) :
    State Work Hook :=
  { state with
      pending := state.pending ++ [state.nextId]
      operations := update state.operations state.nextId
        (some (.create rejection internalCompletion))
      nextId := state.nextId + 1 }

/-- The critical section of `accept`. -/
def State.accept (rejection internalCompletion : Bool) (state : State Work Hook) :
    State Work Hook :=
  if state.state = .active ∧ state.runtimeActive then
    state.emplace rejection internalCompletion
  else
    state

/-- The critical section of `accept_factory`. The factory is given the id, so an id is spent also
when it throws, here `none`. -/
def State.acceptFactory (rejection : Option Bool) (state : State Work Hook) : State Work Hook :=
  if state.state = .active ∧ state.runtimeActive then
    match rejection with
    | some rejection => state.emplace rejection false
    | none => { state with nextId := state.nextId + 1 }
  else
    state

/-- The critical section of `schedule_completion`. -/
def State.scheduleCompletion (call operation : Nat) (state : State Work Hook) : State Work Hook :=
  state.setCall call
    (if state.state = .active ∧ state.runtimeActive then .scheduling operation else .returned)

/-- Claims an operation for completion and erases it, as the callback of `schedule_completion` and
`claim_internal_completion` both do in one critical section. -/
def State.claimCompleting (operation : Nat) (state : State Work Hook) : Bool × State Work Hook :=
  if state.state = .active then
    match state.exchange operation .completing with
    | (true, next) =>
        (true, { next.modify operation .clearHook with pending := next.pending.erase operation })
    | (false, _) => (false, state)
  else
    (false, state)

/-- The critical section of the callback of `schedule_completion`. -/
def State.claimCallback (call operation : Nat) (state : State Work Hook) :
    State Work Hook × List Event :=
  match state.claimCompleting operation with
  | (true, next) => (next.setCall call (.claimed operation), [.decided operation .completing])
  | (false, _) => (state.setCall call .returned, [])

/-- The critical section of `claim_internal_completion`. -/
def State.claimInternalCompletion (operation : Nat) (state : State Work Hook) :
    State Work Hook × List Event :=
  match state.claimCompleting operation with
  | (true, next) =>
      (next.modify operation fun pending => pending.takeRejection.2,
        [.decided operation .completing, .outcome operation .internalClaimed])
  | (false, _) => (state, [])

/-- The first critical section of `close`. -/
def State.close (call : Nat) (runtimeTeardown : Bool) (state : State Work Hook) :
    State Work Hook :=
  if state.state = .active then
    { state.setCall call (.looping runtimeTeardown) with state := .closing }
  else
    state.setCall call .returned

/-- The exchange of the `claim` that `close` makes. -/
def State.claim (call : Nat) (runtimeTeardown : Bool) (operation : Nat)
    (state : State Work Hook) : State Work Hook × List Event :=
  match state.exchange operation (outcomeOf runtimeTeardown) with
  | (true, next) =>
      (next.setCall call (.requesting runtimeTeardown operation),
        [.decided operation (outcomeOf runtimeTeardown)])
  | (false, _) => (state.setCall call (.looping runtimeTeardown), [])

/-- The critical section of that `claim`. -/
def State.takeHook (call : Nat) (runtimeTeardown : Bool) (operation : Nat)
    (state : State Work Hook) : State Work Hook :=
  let hook := (state.operations operation).bind (·.cancelHook)
  (state.modify operation fun pending => pending.takeHook.2.2).setCall call
    (hook.elim (.releasing runtimeTeardown operation) (.running runtimeTeardown operation))

/-- `take_rejection` in `close`. -/
def State.takeRejection (call : Nat) (runtimeTeardown : Bool) (operation : Nat)
    (state : State Work Hook) : State Work Hook :=
  let rejection := (state.operations operation).any (·.rejection)
  (state.modify operation fun pending => pending.takeRejection.2).setCall call
    (.handing runtimeTeardown operation rejection)

/-- The end of one round of the loop: the rejection goes to `RuntimeSession::schedule`, or nowhere.
-/
def State.handRejection (call : Nat) (runtimeTeardown : Bool) (operation : Nat) (rejection : Bool)
    (state : State Work Hook) : State Work Hook × List Event :=
  (state.setCall call (.looping runtimeTeardown),
    [.outcome operation (if !runtimeTeardown && state.runtimeActive && rejection then
      .rejectionHanded else .silentlyCancelled)])

/-- Where each step can be taken. -/
@[reducible] def enabled : Label Work Hook → State Work Hook → Prop
  | .accept _ _, _ | .acceptFactory _, _ | .invalidate, _ => True
  | .setWork operation _, state | .setCancelHook operation _, state
  | .claimInternalCompletion operation, state => (state.operations operation).isSome
  | .scheduleCompletion call operation, state =>
      state.calls call = .absent ∧ (state.operations operation).isSome
  | .post call operation _, state => state.calls call = .scheduling operation
  | .callback call operation _, state => state.calls call = .posted operation
  | .claimCallback call operation, state => state.calls call = .called operation
  | .takeRejectionCallback call operation, state => state.calls call = .claimed operation
  | .runCompletion call operation, state => state.calls call = .completing operation
  | .close call _, state => state.calls call = .absent
  | .pop call runtimeTeardown operation, state =>
      state.calls call = .looping runtimeTeardown ∧ operation ∈ state.pending
  | .claim call runtimeTeardown operation, state =>
      state.calls call = .popped runtimeTeardown operation
  | .requestCancel call runtimeTeardown operation, state =>
      state.calls call = .requesting runtimeTeardown operation
  | .takeHook call runtimeTeardown operation, state =>
      state.calls call = .taking runtimeTeardown operation
  | .runHook call runtimeTeardown operation hook, state =>
      state.calls call = .running runtimeTeardown operation hook
  | .takeInternalCompletion call runtimeTeardown operation, state =>
      state.calls call = .releasing runtimeTeardown operation
  | .takeRejection call runtimeTeardown operation, state =>
      state.calls call = .rejecting runtimeTeardown operation
  | .handRejection call runtimeTeardown operation rejection, state =>
      state.calls call = .handing runtimeTeardown operation rejection
  | .drain call runtimeTeardown, state =>
      state.calls call = .looping runtimeTeardown ∧ state.pending = []
  | .deactivate call, state => state.calls call = .drained

instance [DecidableEq Hook] (label : Label Work Hook) (state : State Work Hook) :
    Decidable (enabled label state) := by
  cases label <;> infer_instance

variable (Work Hook)

/-- The machine of one feature session. -/
def machine : Machine (State Work Hook) (Label Work Hook) Event where
  init := .init
  enabled := enabled
  step
    | .accept rejection internalCompletion, state =>
        (state.accept rejection internalCompletion, [])
    | .acceptFactory rejection, state => (state.acceptFactory rejection, [])
    | .setWork operation work, state =>
        (state.modify operation fun pending => (pending.setWork work).2, [])
    | .setCancelHook operation hook, state =>
        (state.modify operation fun pending => (pending.setCancelHook hook).2, [])
    | .invalidate, state => ({ state with runtimeActive := false }, [])
    | .scheduleCompletion call operation, state => (state.scheduleCompletion call operation, [])
    | .post call operation delivered, state =>
        (state.setCall call (if delivered then .posted operation else .returned), [])
    | .callback call operation alive, state =>
        (state.setCall call
          (if alive && state.runtimeActive then .called operation else .returned), [])
    | .claimCallback call operation, state => state.claimCallback call operation
    | .takeRejectionCallback call operation, state =>
        ((state.modify operation fun pending => pending.takeRejection.2).setCall call
          (.completing operation), [])
    | .runCompletion call operation, state =>
        (state.setCall call .returned, [.outcome operation .bodyRan])
    | .claimInternalCompletion operation, state => state.claimInternalCompletion operation
    | .close call runtimeTeardown, state => (state.close call runtimeTeardown, [])
    | .pop call runtimeTeardown operation, state =>
        ({ state.setCall call (.popped runtimeTeardown operation) with
            pending := state.pending.erase operation }, [])
    | .claim call runtimeTeardown operation, state => state.claim call runtimeTeardown operation
    | .requestCancel call runtimeTeardown operation, state =>
        ((state.modify operation .requestCancel).setCall call (.taking runtimeTeardown operation),
          [])
    | .takeHook call runtimeTeardown operation, state =>
        (state.takeHook call runtimeTeardown operation, [])
    | .runHook call runtimeTeardown operation _, state =>
        (state.setCall call (.releasing runtimeTeardown operation), [])
    | .takeInternalCompletion call runtimeTeardown operation, state =>
        ((state.modify operation fun pending => pending.takeInternalCompletion.2).setCall call
          (.rejecting runtimeTeardown operation), [])
    | .takeRejection call runtimeTeardown operation, state =>
        (state.takeRejection call runtimeTeardown operation, [])
    | .handRejection call runtimeTeardown operation rejection, state =>
        state.handRejection call runtimeTeardown operation rejection
    | .drain call _, state => (state.setCall call .drained, [])
    | .deactivate call, state => ({ state.setCall call .returned with state := .inactive }, [])

instance [DecidableEq Hook] (label : Label Work Hook) (state : State Work Hook) :
    Decidable ((machine Work Hook).enabled label state) :=
  inferInstanceAs (Decidable (enabled label state))

end FeatureSession

end SupernoteModule.Runtime
