import SupernoteModule.Lib.Machine
import Mathlib.Data.Finset.Basic

/-!
# The plugin operation lock

`plugin_operation_lock` on a POSIX host. A command claims the path of its plugin in a set of its own
process, and then takes an advisory lock on the plugin directory itself, without waiting for either.
Every call, and every critical section of the guard of the set, is one step, any of the calls may
fail, and a process may be killed between two steps.
-/

namespace SupernoteModule.Generation.OperationLock

open SupernoteModule.Lib Function

/-- A command, which runs in a process on a plugin with some resolved path. -/
structure Command where
  process : Nat
  identity : String
deriving DecidableEq

/-- How a command leaves the lock. -/
inductive Exit where
  | returned
  /-- An exception of the command itself. -/
  | raised
  /-- `PluginBusyError`. -/
  | busy
  /-- `FilesystemError`. -/
  | filesystem
  /-- An error of the lock's own calls. -/
  | os
deriving DecidableEq

/-- What a command does next. A directory is given by its identity, not by its path. -/
inductive Point where
  | outside
  | claimed
  | opened (directory : Nat)
  | inside (directory : Nat)
  | unlocking (directory : Nat) (exit : Exit)
  | closing (directory : Nat) (exit : Exit)
  | discarding (exit : Exit)
  | ended (exit : Exit)
  | killed
deriving DecidableEq

/-- `claims` is `_PROCESS_LOCKS` of each process, and `locks` what the system knows of the locked
directories. -/
structure State where
  points : Nat → Point
  claims : Nat → Finset String
  locks : Nat → Option Nat

inductive Event where
  | entered (command directory : Nat)
  | left (command directory : Nat)
  | refused (command : Nat)
  | ended (command : Nat) (exit : Exit)
deriving DecidableEq

inductive Label where
  | claim (command : Nat)
  | openDirectory (command : Nat) (directory : Option Nat)
  | lock (command : Nat) (fails : Bool)
  | leave (command : Nat) (raises : Bool)
  | unlock (command : Nat) (fails : Bool)
  | close (command : Nat) (fails : Bool)
  | discard (command : Nat)
  | kill (process : Nat)

def State.init : State where
  points := fun _ => .outside
  claims := fun _ => ∅
  locks := fun _ => none

def State.move (state : State) (command : Nat) (point : Point) : State :=
  { state with points := update state.points command point }

def State.setClaims (state : State) (process : Nat) (claims : Finset String) : State :=
  { state with claims := update state.claims process claims }

def State.unlockDirectory (state : State) (directory : Nat) : State :=
  { state with locks := update state.locks directory none }

section

variable (commands : Nat → Command)

def Enabled : Label → State → Prop
  | .claim command, state => state.points command = .outside
  | .openDirectory command _, state => state.points command = .claimed
  | .lock command _, state => ∃ directory, state.points command = .opened directory
  | .leave command _, state => ∃ directory, state.points command = .inside directory
  | .unlock command _, state => ∃ directory exit, state.points command = .unlocking directory exit
  | .close command _, state => ∃ directory exit, state.points command = .closing directory exit
  | .discard command, state => ∃ exit, state.points command = .discarding exit
  | .kill _, _ => True

/-- `_process_claim`, up to the `yield`. -/
def claim (command : Nat) (state : State) : State × List Event :=
  let ⟨process, identity⟩ := commands command
  if identity ∈ state.claims process then
    (state.move command (.ended .busy), [.refused command, .ended command .busy])
  else
    ((state.setClaims process (insert identity (state.claims process))).move command .claimed, [])

/-- `os.open` of the plugin directory. -/
def openDirectory (command : Nat) (directory : Option Nat) (state : State) : State × List Event :=
  match directory with
  | some directory => (state.move command (.opened directory), [])
  | none => (state.move command (.discarding .filesystem), [])

/-- `fcntl.flock` with `LOCK_EX | LOCK_NB`. -/
def lock (command : Nat) (fails : Bool) (state : State) : State × List Event :=
  match state.points command with
  | .opened directory =>
      if fails then (state.move command (.closing directory .os), [])
      else if (state.locks directory).isSome then
        (state.move command (.closing directory .busy), [.refused command])
      else
        ({ state with locks := update state.locks directory (some command) }.move command
          (.inside directory), [.entered command directory])
  | _ => (state, [])

/-- The end of the command that holds the lock. -/
def leave (command : Nat) (raises : Bool) (state : State) : State × List Event :=
  match state.points command with
  | .inside directory =>
      (state.move command (.unlocking directory (if raises then .raised else .returned)),
        [.left command directory])
  | _ => (state, [])

/-- `fcntl.flock` with `LOCK_UN`. -/
def unlock (command : Nat) (fails : Bool) (state : State) : State × List Event :=
  match state.points command with
  | .unlocking directory exit =>
      if fails then (state.move command (.closing directory .os), [])
      else ((state.unlockDirectory directory).move command (.closing directory exit), [])
  | _ => (state, [])

/-- `os.close`, which gives up what the descriptor still holds, also when it reports an error. -/
def close (command : Nat) (fails : Bool) (state : State) : State × List Event :=
  match state.points command with
  | .closing directory exit =>
      let released :=
        if state.locks directory = some command then state.unlockDirectory directory else state
      (released.move command (.discarding (if fails then .os else exit)), [])
  | _ => (state, [])

/-- The `finally` clause of `_process_claim`. -/
def discard (command : Nat) (state : State) : State × List Event :=
  match state.points command with
  | .discarding exit =>
      let ⟨process, identity⟩ := commands command
      ((state.setClaims process ((state.claims process).erase identity)).move command (.ended exit),
        [.ended command exit])
  | _ => (state, [])

/-- A process ends, and the system closes what it had opened. -/
def kill (process : Nat) (state : State) : State where
  points command := if (commands command).process = process then .killed else state.points command
  claims := update state.claims process ∅
  locks directory :=
    (state.locks directory).filter fun command => (commands command).process ≠ process

def next : Label → State → State × List Event
  | .claim command, state => claim commands command state
  | .openDirectory command directory, state => openDirectory command directory state
  | .lock command fails, state => lock command fails state
  | .leave command raises, state => leave command raises state
  | .unlock command fails, state => unlock command fails state
  | .close command fails, state => close command fails state
  | .discard command, state => discard commands command state
  | .kill process, state => (kill commands process state, [])

def machine : Machine State Label Event where
  init := .init
  enabled := Enabled
  step := next commands

end

end SupernoteModule.Generation.OperationLock
