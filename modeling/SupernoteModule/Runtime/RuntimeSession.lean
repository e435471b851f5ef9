import SupernoteModule.Runtime.FeatureSession

/-!
# Runtime sessions and their features

`RuntimeSession` keeps the features registered on it in a map behind its mutex, while `active_` is
an atomic that `invalidate` clears without the mutex. `add_feature` reads the flag and inserts in
one critical section, so its two halves are two steps between which only the mutex is held.
-/

namespace SupernoteModule.Runtime.RuntimeSession

open SupernoteModule.Lib Function

/-- What a call of `FeatureSession::create` does next. -/
inductive Create where
  | absent
  | adding (feature : Nat)
  | inserting (feature : Nat)
  | returned (feature : Nat)
  | threw
deriving DecidableEq

/-- What a call of `FeatureSession::close` does next. -/
inductive Close where
  | absent
  | removing (feature : Nat)
  | finishing (feature : Nat)
  | returned
deriving DecidableEq

/-- What the cleanup thread does next in `cleanup_physical`. -/
inductive Cleanup where
  | idle
  | looping
  | closing (feature : Nat)
  | finishing (feature : Nat)
deriving DecidableEq

/-- `locked` is the call of `add_feature` that holds the mutex, and `states` has a feature session
from its registration on. -/
structure State where
  active : Bool
  locked : Option Nat
  features : List Nat
  states : Nat → Option FeatureState
  nextId : Nat
  creates : Nat → Create
  closes : Nat → Close
  cleanup : Cleanup

inductive Event where
  | registered (feature : Nat)
  | cleanupReturned
deriving DecidableEq

inductive Label where
  | create (call : Nat)
  | addCheck (call feature : Nat)
  | addInsert (call feature : Nat)
  | close (call feature : Nat) (runtimeTeardown : Bool)
  | removeFeature (call feature : Nat)
  | deactivate (call feature : Nat)
  | invalidate
  | cleanupStart
  | cleanupPop (feature : Nat)
  | cleanupClose (feature : Nat)
  | cleanupDeactivate (feature : Nat)
  | cleanupBreak

def State.init : State where
  active := true
  locked := none
  features := []
  states := fun _ => none
  nextId := 1
  creates := fun _ => .absent
  closes := fun _ => .absent
  cleanup := .idle

def State.setCreate (state : State) (call : Nat) (point : Create) : State :=
  { state with creates := update state.creates call point }

def State.setClose (state : State) (call : Nat) (point : Close) : State :=
  { state with closes := update state.closes call point }

def State.setState (state : State) (feature : Nat) (next : FeatureState) : State :=
  { state with states := update state.states feature (some next) }

/-- `FeatureSession::create` up to `add_feature`. -/
def State.create (call : Nat) (state : State) : State :=
  if state.active then
    { state.setCreate call (.adding state.nextId) with nextId := state.nextId + 1 }
  else
    state.setCreate call .threw

/-- `add_feature` takes the mutex and reads the flag; when it throws it releases the mutex. -/
def State.addCheck (call feature : Nat) (state : State) : State :=
  if state.active then
    { state.setCreate call (.inserting feature) with locked := some call }
  else
    state.setCreate call .threw

/-- `add_feature` inserts and releases the mutex, and `create` returns. -/
def State.addInsert (call feature : Nat) (state : State) : State :=
  { (state.setCreate call (.returned feature)).setState feature .active with
      features := state.features ++ [feature]
      locked := none }

/-- The first critical section of `close`; a runtime teardown does not call `remove_feature`. -/
def State.close (call feature : Nat) (runtimeTeardown : Bool) (state : State) : State :=
  if state.states feature = some .active then
    (state.setState feature .closing).setClose call
      (if runtimeTeardown then .finishing feature else .removing feature)
  else
    state.setClose call .returned

/-- The first critical section of the `close_runtime` that `cleanup_physical` calls. -/
def State.cleanupClose (feature : Nat) (state : State) : State :=
  if state.states feature = some .active then
    { state.setState feature .closing with cleanup := .finishing feature }
  else
    { state with cleanup := .looping }

@[reducible] def enabled : Label → State → Prop
  | .create call, state => state.creates call = .absent
  | .addCheck call feature, state =>
      state.creates call = .adding feature ∧ state.locked = none
  | .addInsert call feature, state => state.creates call = .inserting feature
  | .close call feature _, state =>
      state.closes call = .absent ∧ (state.states feature).isSome
  | .removeFeature call feature, state =>
      state.closes call = .removing feature ∧ state.locked = none
  | .deactivate call feature, state => state.closes call = .finishing feature
  | .invalidate, _ => True
  | .cleanupStart, state => state.cleanup = .idle ∧ state.active = false ∧ state.locked = none
  | .cleanupPop feature, state =>
      state.cleanup = .looping ∧ state.locked = none ∧ feature ∈ state.features
  | .cleanupClose feature, state => state.cleanup = .closing feature
  | .cleanupDeactivate feature, state => state.cleanup = .finishing feature
  | .cleanupBreak, state =>
      state.cleanup = .looping ∧ state.locked = none ∧ state.features = []

instance (label : Label) (state : State) : Decidable (enabled label state) := by
  cases label <;> infer_instance

/-- The machine of one runtime session, with one thread on which cleanups run one after the other.
-/
def machine : Machine State Label Event where
  init := .init
  enabled := enabled
  step
    | .create call, state => (state.create call, [])
    | .addCheck call feature, state => (state.addCheck call feature, [])
    | .addInsert call feature, state => (state.addInsert call feature, [.registered feature])
    | .close call feature runtimeTeardown, state =>
        (state.close call feature runtimeTeardown, [])
    | .removeFeature call feature, state =>
        ({ state.setClose call (.finishing feature) with
            features := state.features.erase feature }, [])
    | .deactivate call feature, state =>
        ((state.setState feature .inactive).setClose call .returned, [])
    | .invalidate, state => ({ state with active := false }, [])
    | .cleanupStart, state => ({ state with cleanup := .looping }, [])
    | .cleanupPop feature, state =>
        ({ state with
            features := state.features.erase feature
            cleanup := .closing feature }, [])
    | .cleanupClose feature, state => (state.cleanupClose feature, [])
    | .cleanupDeactivate feature, state =>
        ({ state.setState feature .inactive with cleanup := .looping }, [])
    | .cleanupBreak, state => ({ state with cleanup := .idle }, [.cleanupReturned])

instance (label : Label) (state : State) : Decidable (machine.enabled label state) :=
  inferInstanceAs (Decidable (enabled label state))

end SupernoteModule.Runtime.RuntimeSession
