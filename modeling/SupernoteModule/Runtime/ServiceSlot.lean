import SupernoteModule.Runtime.FeatureSession

/-!
# Service slots of a feature session

`FeatureSession::service` finds the slot of a declaration under the session's mutex, decides under
the slot's own mutex whether to return, wait or construct, runs the factory without any lock, and
stores the instance under both. `close` later takes the slots out one at a time and hands what they
hold to `defer_release`. An instance is one successful return of a factory.
-/

namespace SupernoteModule.Runtime.ServiceSlot

open SupernoteModule.Lib Function

/-- Why a caller gets an exception. -/
inductive Failure where
  | thrown
  | null
  | closed
deriving DecidableEq

structure Slot where
  initializing : Bool
  attempt : Nat
  completedAttempt : Nat
  value : Option Nat
  failure : Option Failure
deriving DecidableEq

def Slot.fresh : Slot where
  initializing := false
  attempt := 0
  completedAttempt := 0
  value := none
  failure := none

/-- What a call of `service` does next. -/
inductive Call (Declaration : Type*) where
  | absent
  | entered (declaration : Declaration) (slot : Nat)
  | waiting (declaration : Declaration) (slot attempt : Nat)
  | constructing (declaration : Declaration) (slot attempt : Nat)
  | created (declaration : Declaration) (slot attempt inst : Nat)
  | failing (slot attempt : Nat) (failure : Failure)
  | returned (inst : Nat)
  | threw (failure : Failure)
deriving DecidableEq

/-- What a call of `close` does next, once it has found nothing pending. -/
inductive Closer where
  | absent
  | draining
  | taking (slot : Nat)
  | releasing (inst : Option Nat)
  | drained
  | returned
deriving DecidableEq

/-- A slot is allocated by its index; the ones not allocated yet are fresh. -/
structure State (Declaration : Type*) where
  state : FeatureState
  services : List (Declaration × Nat)
  slots : Nat → Slot
  nextSlot : Nat
  nextInstance : Nat
  calls : Nat → Call Declaration
  closers : Nat → Closer

inductive Event (Declaration : Type*) where
  | opened (declaration : Declaration) (slot : Nat)
  | started (slot : Nat)
  | created (inst : Nat)
  | stored (slot inst : Nat)
  | returned (declaration : Declaration) (inst : Nat)
  | deferred (inst : Nat)
deriving DecidableEq

inductive Label (Declaration : Type*) where
  | enter (call : Nat) (declaration : Declaration)
  | look (call : Nat) (declaration : Declaration) (slot : Nat)
  | wake (call : Nat) (declaration : Declaration) (slot attempt : Nat)
  | factoryReturn (call : Nat) (declaration : Declaration) (slot attempt : Nat)
  | factoryFail (call : Nat) (declaration : Declaration) (slot attempt : Nat) (null : Bool)
  | store (call : Nat) (declaration : Declaration) (slot attempt inst : Nat)
  | recordFailure (call slot attempt : Nat) (failure : Failure)
  | close (closer : Nat)
  | pop (closer : Nat) (declaration : Declaration) (slot : Nat)
  | take (closer slot : Nat)
  | deferRelease (closer : Nat) (inst : Option Nat)
  | drain (closer : Nat)
  | deactivate (closer : Nat)

variable {Declaration : Type*}

def State.init : State Declaration where
  state := .active
  services := []
  slots := fun _ => .fresh
  nextSlot := 0
  nextInstance := 0
  calls := fun _ => .absent
  closers := fun _ => .absent

def State.setCall (state : State Declaration) (call : Nat) (point : Call Declaration) :
    State Declaration :=
  { state with calls := update state.calls call point }

def State.setSlot (state : State Declaration) (index : Nat) (slot : Slot) : State Declaration :=
  { state with slots := update state.slots index slot }

def State.setCloser (state : State Declaration) (closer : Nat) (point : Closer) :
    State Declaration :=
  { state with closers := update state.closers closer point }

/-- `services_[declaration_id]`, with a new slot when there is none. -/
def State.enter [DecidableEq Declaration] (call : Nat) (declaration : Declaration)
    (state : State Declaration) : State Declaration × List (Event Declaration) :=
  if state.state = .active then
    match state.services.lookup declaration with
    | some slot => (state.setCall call (.entered declaration slot), [])
    | none =>
        ({ state.setCall call (.entered declaration state.nextSlot) with
            services := state.services ++ [(declaration, state.nextSlot)]
            nextSlot := state.nextSlot + 1 }, [.opened declaration state.nextSlot])
  else
    (state.setCall call (.threw .closed), [])

/-- The end of the second critical section: this call constructs. -/
def State.begin (call : Nat) (declaration : Declaration) (slot : Nat)
    (state : State Declaration) : State Declaration × List (Event Declaration) :=
  let attempt := (state.slots slot).attempt + 1
  let next : Slot :=
    { state.slots slot with initializing := true, attempt := attempt, failure := none }
  ((state.setSlot slot next).setCall call (.constructing declaration slot attempt), [.started slot])

/-- The second critical section of `service` up to its wait. -/
def State.look (call : Nat) (declaration : Declaration) (slot : Nat)
    (state : State Declaration) : State Declaration × List (Event Declaration) :=
  match (state.slots slot).value with
  | some inst => (state.setCall call (.returned inst), [.returned declaration inst])
  | none =>
      if (state.slots slot).initializing then
        (state.setCall call (.waiting declaration slot (state.slots slot).attempt), [])
      else
        state.begin call declaration slot

/-- The second critical section of `service` from its wait on. -/
def State.wake (call : Nat) (declaration : Declaration) (slot attempt : Nat)
    (state : State Declaration) : State Declaration × List (Event Declaration) :=
  match (state.slots slot).value, (state.slots slot).failure with
  | some inst, _ => (state.setCall call (.returned inst), [.returned declaration inst])
  | none, some failure =>
      if (state.slots slot).completedAttempt = attempt then
        (state.setCall call (.threw failure), [])
      else
        state.begin call declaration slot
  | none, none => state.begin call declaration slot

/-- The critical section of both mutexes in which a created instance is stored or given up. -/
def State.store (call : Nat) (declaration : Declaration) (slot attempt inst : Nat)
    (state : State Declaration) : State Declaration × List (Event Declaration) :=
  let completed : Slot :=
    { state.slots slot with initializing := false, completedAttempt := attempt }
  if state.state = .active then
    ((state.setSlot slot { completed with value := some inst }).setCall call (.returned inst),
      [.stored slot inst, .returned declaration inst])
  else
    ((state.setSlot slot { completed with failure := some .closed }).setCall call
      (.failing slot attempt .closed), [.deferred inst])

/-- The critical section of the handler. -/
def State.recordFailure (call slot attempt : Nat) (failure : Failure)
    (state : State Declaration) : State Declaration :=
  if (state.slots slot).initializing ∧ (state.slots slot).attempt = attempt then
    let failed : Slot :=
      { state.slots slot with
          initializing := false, completedAttempt := attempt, failure := some failure }
    (state.setSlot slot failed).setCall call (.threw failure)
  else
    state.setCall call (.threw failure)

def State.close (closer : Nat) (state : State Declaration) : State Declaration :=
  if state.state = .active then
    { state.setCloser closer .draining with state := .closing }
  else
    state.setCloser closer .returned

@[reducible] def enabled : Label Declaration → State Declaration → Prop
  | .enter call _, state => state.calls call = .absent
  | .look call declaration slot, state => state.calls call = .entered declaration slot
  | .wake call declaration slot attempt, state =>
      state.calls call = .waiting declaration slot attempt ∧
        (state.slots slot).initializing = false
  | .factoryReturn call declaration slot attempt, state
  | .factoryFail call declaration slot attempt _, state =>
      state.calls call = .constructing declaration slot attempt
  | .store call declaration slot attempt inst, state =>
      state.calls call = .created declaration slot attempt inst
  | .recordFailure call slot attempt failure, state =>
      state.calls call = .failing slot attempt failure
  | .close closer, state => state.closers closer = .absent
  | .pop closer declaration slot, state =>
      state.closers closer = .draining ∧ (declaration, slot) ∈ state.services
  | .take closer slot, state => state.closers closer = .taking slot
  | .deferRelease closer inst, state => state.closers closer = .releasing inst
  | .drain closer, state => state.closers closer = .draining ∧ state.services = []
  | .deactivate closer, state => state.closers closer = .drained

instance [DecidableEq Declaration] (label : Label Declaration) (state : State Declaration) :
    Decidable (enabled label state) := by
  cases label <;> infer_instance

variable (Declaration)

/-- The machine of the service slots of one feature session. -/
def machine [DecidableEq Declaration] :
    Machine (State Declaration) (Label Declaration) (Event Declaration) where
  init := .init
  enabled := enabled
  step
    | .enter call declaration, state => state.enter call declaration
    | .look call declaration slot, state => state.look call declaration slot
    | .wake call declaration slot attempt, state => state.wake call declaration slot attempt
    | .factoryReturn call declaration slot attempt, state =>
        ({ state.setCall call (.created declaration slot attempt state.nextInstance) with
            nextInstance := state.nextInstance + 1 }, [.created state.nextInstance])
    | .factoryFail call _ slot attempt null, state =>
        (state.setCall call (.failing slot attempt (if null then .null else .thrown)), [])
    | .store call declaration slot attempt inst, state =>
        state.store call declaration slot attempt inst
    | .recordFailure call slot attempt failure, state =>
        (state.recordFailure call slot attempt failure, [])
    | .close closer, state => (state.close closer, [])
    | .pop closer declaration slot, state =>
        ({ state.setCloser closer (.taking slot) with
            services := state.services.erase (declaration, slot) }, [])
    | .take closer slot, state =>
        let emptied : Slot := { state.slots slot with value := none }
        ((state.setSlot slot emptied).setCloser closer (.releasing (state.slots slot).value), [])
    | .deferRelease closer inst, state =>
        (state.setCloser closer .draining, inst.toList.map .deferred)
    | .drain closer, state => (state.setCloser closer .drained, [])
    | .deactivate closer, state =>
        ({ state.setCloser closer .returned with state := .inactive }, [])

instance [DecidableEq Declaration] (label : Label Declaration) (state : State Declaration) :
    Decidable ((machine Declaration).enabled label state) :=
  inferInstanceAs (Decidable (enabled label state))

end SupernoteModule.Runtime.ServiceSlot
