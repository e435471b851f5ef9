import SupernoteModule.Lib.Machine

/-!
# The lifecycle of the React Native module

`SupernoteModule.initialize` claims the installation under the lifecycle lock, loads the native
library, and posts a runnable that installs the runtime on the JavaScript thread, whenever that
thread gets to it. `invalidate` takes the session out under the lock and hands it to the native side
afterwards. A step is a synchronized block, or what a thread does between two of them.
-/

namespace SupernoteModule.Runtime.ModuleLifecycle

open SupernoteModule.Lib Function

inductive LifecycleState where
  | new
  | installPending
  | active
  | invalidated
deriving DecidableEq

/-- Where a call of `initialize`, and the runnable that it posts, has got to. -/
inductive Attempt where
  | absent
  | loading
  | loadFailed
  | queued
  | abandoning
  | installing (runtimePointer : Int)
  | finished
deriving DecidableEq

/-- Where a call of `invalidate` has got to. -/
inductive Invalidation where
  | absent
  | passing (sessionId : Int)
  | returned
deriving DecidableEq

structure State where
  lifecycleState : LifecycleState
  sessionId : Int
  attempts : Nat → Attempt
  invalidations : Nat → Invalidation

inductive Event where
  | nativeInstall (runtimePointer installed : Int)
  | invalidated
  | nativeInvalidate (sessionId : Int)
deriving DecidableEq

/-- What the runnable finds: `javaScriptContextHolder?.get() ?: 0L`, and whether there are a loader
and a call invoker. -/
structure Context where
  runtimePointer : Int
  loader : Bool
  callInvoker : Bool

inductive Label where
  | initialize_ (attempt : Nat)
  | loadNativeLibrary (attempt : Nat) (loaded : Bool)
  | giveUp (attempt : Nat)
  | run (attempt : Nat) (context : Context)
  | abandonPendingInstall (attempt : Nat)
  | install (attempt : Nat) (installed : Int)
  | invalidate (invalidation : Nat)
  | nativeInvalidate (invalidation : Nat)

namespace State

def init : State where
  lifecycleState := .new
  sessionId := 0
  attempts _ := .absent
  invalidations _ := .absent

variable (state : State)

def setAttempt (attempt : Nat) (point : Attempt) : State :=
  { state with attempts := update state.attempts attempt point }

def setInvalidation (invalidation : Nat) (point : Invalidation) : State :=
  { state with invalidations := update state.invalidations invalidation point }

/-- The first synchronized block of `initialize`. -/
def initialize_ (attempt : Nat) : State :=
  if state.lifecycleState ≠ .new then state.setAttempt attempt .finished
  else { state with lifecycleState := .installPending }.setAttempt attempt .loading

def loadNativeLibrary (attempt : Nat) (loaded : Bool) : State :=
  state.setAttempt attempt (if loaded then .queued else .loadFailed)

/-- The block of `abandonPendingInstall`, which `initialize` repeats when the library is not
loaded. -/
def abandonPendingInstall (attempt : Nat) : State :=
  (if state.lifecycleState = .installPending then { state with lifecycleState := .new }
    else state).setAttempt attempt .finished

/-- The checks at the start of the runnable. -/
def run (attempt : Nat) (context : Context) : State :=
  state.setAttempt attempt <|
    if context.runtimePointer = 0 then .abandoning
    else if ¬ context.loader then .abandoning
    else if ¬ context.callInvoker then .abandoning
    else .installing context.runtimePointer

/-- The synchronized block of the runnable. `nativeInstall` returns 0 when it fails. -/
def install (attempt : Nat) (runtimePointer installed : Int) : State × List Event :=
  if state.lifecycleState ≠ .installPending then (state.setAttempt attempt .finished, [])
  else
    let installing := if installed = 0 then { state with lifecycleState := .new }
      else { state with sessionId := installed, lifecycleState := .active }
    (installing.setAttempt attempt .finished, [.nativeInstall runtimePointer installed])

/-- The synchronized block of `invalidate`. -/
def invalidate (invalidation : Nat) : State × List Event :=
  let invalidated := { state with lifecycleState := .invalidated, sessionId := 0 }
  (invalidated.setInvalidation invalidation
    (if state.sessionId ≠ 0 then .passing state.sessionId else .returned), [.invalidated])

def nativeInvalidate (invalidation : Nat) (sessionId : Int) : State × List Event :=
  (state.setInvalidation invalidation .returned, [.nativeInvalidate sessionId])

end State

def Label.enabled (state : State) : Label → Prop
  | .initialize_ attempt => state.attempts attempt = .absent
  | .loadNativeLibrary attempt _ => state.attempts attempt = .loading
  | .giveUp attempt => state.attempts attempt = .loadFailed
  | .run attempt _ => state.attempts attempt = .queued
  | .abandonPendingInstall attempt => state.attempts attempt = .abandoning
  | .install attempt _ => ∃ runtimePointer, state.attempts attempt = .installing runtimePointer
  | .invalidate invalidation => state.invalidations invalidation = .absent
  | .nativeInvalidate invalidation =>
      ∃ sessionId, state.invalidations invalidation = .passing sessionId

def Label.step (state : State) : Label → State × List Event
  | .initialize_ attempt => (state.initialize_ attempt, [])
  | .loadNativeLibrary attempt loaded => (state.loadNativeLibrary attempt loaded, [])
  | .giveUp attempt => (state.abandonPendingInstall attempt, [])
  | .run attempt context => (state.run attempt context, [])
  | .abandonPendingInstall attempt => (state.abandonPendingInstall attempt, [])
  | .install attempt installed =>
      match state.attempts attempt with
      | .installing runtimePointer => state.install attempt runtimePointer installed
      | _ => (state, [])
  | .invalidate invalidation => state.invalidate invalidation
  | .nativeInvalidate invalidation =>
      match state.invalidations invalidation with
      | .passing sessionId => state.nativeInvalidate invalidation sessionId
      | _ => (state, [])

/-- Any number of calls, in any interleaving and with any failures. -/
def lifecycleMachine : Machine State Label Event where
  init := .init
  enabled label state := label.enabled state
  step label state := label.step state

end SupernoteModule.Runtime.ModuleLifecycle
