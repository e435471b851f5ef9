import SupernoteModule.Lib.Machine

/-!
# JavaScript objects of JVM instances

`JvmObjectRegistry` gives a JVM instance the same JavaScript object for as long as that object is
alive. An entry has weak references to both. The host object of the JavaScript object has a strong
reference to the instance, so an instance goes only when its objects are gone.
-/

namespace SupernoteModule.Runtime.JvmObjects

open SupernoteModule.Lib Function

/-- `ManagedJvmRef`: a nominal type and a strong reference. -/
structure ManagedJvmRef where
  typeId : String
  inst : Nat
deriving DecidableEq

/-- A generated host object, with the index of its class. -/
structure HostObject where
  managed : ManagedJvmRef
  index : Nat
deriving DecidableEq

/-- `JvmObjectRegistry::Entry`: the instance and the JavaScript object are referred to weakly. -/
structure Entry where
  typeId : String
  identityHash : Int
  inst : Nat
  javascript : Nat
deriving DecidableEq

/-- Which instances have been reclaimed, and which JavaScript objects have been made and are still
alive, each with its host object. `System.identityHashCode` never changes, and need not differ. -/
structure World where
  identityHashCode : Nat → Int
  reclaimed : Nat → Bool
  alive : Nat → Bool
  hosts : Nat → Option HostObject
  next : Nat

structure JvmObjectRegistry where
  runtime : Option Nat
  entries : List Entry

/-- How JNI answers about one entry: with an exception in the first or in the second
`IsSameObject`, or with none. -/
inductive Inspection where
  | answers
  | inspecting
  | comparing
deriving DecidableEq

/-- `WeakObject::lock`. -/
def World.lock (world : World) (javascript : Nat) : Option Nat :=
  if world.alive javascript then some javascript else none

/-- `Object::createFromHostObject`. -/
def World.createFromHostObject (world : World) (host : HostObject) : World :=
  { world with
    alive := update world.alive world.next true
    hosts := update world.hosts world.next (some host)
    next := world.next + 1 }

namespace JvmObjectRegistry

def empty : JvmObjectRegistry where
  runtime := none
  entries := []

def assertRuntime (registry : JvmObjectRegistry) (runtime : Nat) :
    Except String JvmObjectRegistry :=
  match registry.runtime with
  | none => .ok { registry with runtime := some runtime }
  | some known =>
      if known ≠ runtime then
        .error "a JVM object registry cannot cross JavaScript runtimes"
      else .ok registry

def cannotInspect : String :=
  "cannot inspect JVM weak object identity"

def cannotCompare : String :=
  "cannot compare JVM object identity"

/-- How the loop of `wrap` is left. -/
inductive Search where
  | existing (object : Nat)
  | raised (error : String)
  | absent
deriving DecidableEq

/-- The loop of `wrap`: the entries that are left, and how it was left. -/
def search (world : World) (typeId : String) (inst : Nat) (hash : Int) :
    List Inspection → List Entry → List Entry × Search
  | _, [] => ([], .absent)
  | inspections, current :: rest =>
      let inspection := inspections.headD .answers
      if inspection = .inspecting then (current :: rest, .raised cannotInspect)
      else if world.reclaimed current.inst then
        search world typeId inst hash inspections.tail rest
      -- The instances are compared only where the hashes and the types are the same.
      else if current.identityHash ≠ hash ∨ current.typeId ≠ typeId then
        let (kept, left) := search world typeId inst hash inspections.tail rest
        (current :: kept, left)
      else if inspection = .comparing then (current :: rest, .raised cannotCompare)
      else if current.inst ≠ inst then
        let (kept, left) := search world typeId inst hash inspections.tail rest
        (current :: kept, left)
      else
        match world.lock current.javascript with
        | some object => (current :: rest, .existing object)
        -- The entry is erased and the loop left: the entries that follow are not looked at.
        | none => (rest, .absent)

/-- `wrap`, of an instance that is given with a strong reference, or of none. The weak reference may
not be to be had, and the factory may raise. -/
def wrap (registry : JvmObjectRegistry) (world : World) (runtime : Nat) (typeId : String)
    (inst : Option Nat) (hash : Int) (factory : ManagedJvmRef → Except String HostObject)
    (inspections : List Inspection) (weakAllocated : Bool) :
    Except String Nat × JvmObjectRegistry × World :=
  match registry.assertRuntime runtime with
  | .error error => (.error error, registry, world)
  | .ok registry =>
      let refused : String :=
        "a JVM object result requires an environment, type, and live instance"
      match inst with
      | none => (.error refused, registry, world)
      | some inst =>
          if typeId = "" then (.error refused, registry, world)
          else
            let (kept, left) := search world typeId inst hash inspections registry.entries
            let searched := { registry with entries := kept }
            match left with
            | .existing object => (.ok object, searched, world)
            | .raised error => (.error error, searched, world)
            | .absent =>
                if ¬ weakAllocated then
                  (.error "cannot allocate a JNI weak global reference", searched, world)
                else
                  match factory ⟨typeId, inst⟩ with
                  | .error error => (.error error, searched, world)
                  | .ok host =>
                      (.ok world.next,
                        { searched with
                          entries := searched.entries ++ [⟨typeId, hash, inst, world.next⟩] },
                        world.createFromHostObject host)

/-- The loop of `purge`. -/
def purgeEntries (world : World) : List Inspection → List Entry → Except String Unit × List Entry
  | _, [] => (.ok (), [])
  | inspections, current :: rest =>
      if inspections.headD .answers = .inspecting then (.error cannotInspect, current :: rest)
      else
        let (result, kept) := purgeEntries world inspections.tail rest
        if world.reclaimed current.inst ∨ world.lock current.javascript = none then (result, kept)
        else (result, current :: kept)

def purge (registry : JvmObjectRegistry) (world : World) (runtime : Nat)
    (inspections : List Inspection) : Except String Unit × JvmObjectRegistry :=
  match registry.assertRuntime runtime with
  | .error error => (.error error, registry)
  | .ok registry =>
      let (result, kept) := purgeEntries world inspections registry.entries
      (result, { registry with entries := kept })

end JvmObjectRegistry

/-! ### Runs -/

structure State where
  registry : JvmObjectRegistry
  world : World

def State.init (identityHashCode : Nat → Int) : State where
  registry := .empty
  world := ⟨identityHashCode, fun _ => false, fun _ => false, fun _ => none, 0⟩

inductive Label where
  | wrap (typeId : String) (inst : Option Nat) (factory : ManagedJvmRef → Except String HostObject)
    (inspections : List Inspection) (weakAllocated : Bool)
  | purge (inspections : List Inspection)
  /-- The JVM reclaims an instance. -/
  | reclaim (inst : Nat)
  /-- A JavaScript object is collected. -/
  | collect (object : Nat)

/-- A new JavaScript object has been made for an instance. -/
inductive Event where
  | created (typeId : String) (inst : Nat) (object : Nat)
deriving DecidableEq

/-- `supernote_module_wrap_jvm_object`, with the hash that the JVM gives. -/
def State.wrap (state : State) (runtime : Nat) (typeId : String) (inst : Option Nat)
    (factory : ManagedJvmRef → Except String HostObject) (inspections : List Inspection)
    (weakAllocated : Bool) : Except String Nat × State :=
  let hash := state.world.identityHashCode (inst.getD 0)
  let (result, registry, world) :=
    state.registry.wrap state.world runtime typeId inst hash factory inspections weakAllocated
  (result, ⟨registry, world⟩)

def State.purge (state : State) (runtime : Nat) (inspections : List Inspection) :
    Except String Unit × State :=
  let (result, registry) := state.registry.purge state.world runtime inspections
  (result, { state with registry })

/-- Something has a strong reference to the instance. -/
def State.Held (state : State) (inst : Nat) : Prop :=
  ∃ object host, state.world.alive object = true ∧ state.world.hosts object = some host ∧
    host.managed.inst = inst

/-- A factory keeps the reference that it is given. -/
def Keeps (factory : ManagedJvmRef → Except String HostObject) : Prop :=
  ∀ managed host, factory managed = .ok host → host.managed = managed

def Label.step (runtime : Nat) (state : State) : Label → State × List Event
  | .wrap typeId inst factory inspections weakAllocated =>
      let after := (state.wrap runtime typeId inst factory inspections weakAllocated).2
      (after, if after.world.next = state.world.next then []
        else [.created typeId (inst.getD 0) state.world.next])
  | .purge inspections => ((state.purge runtime inspections).2, [])
  | .reclaim inst =>
      ({ state with
        world := { state.world with reclaimed := update state.world.reclaimed inst true } }, [])
  | .collect object =>
      ({ state with world := { state.world with alive := update state.world.alive object false } },
        [])

/-- Calls of `wrap` and `purge` on one runtime, and the work of both collectors, in any order. Who
wraps an instance has a strong reference to it, and an instance that is held is not reclaimed. -/
def objectMachine (identityHashCode : Nat → Int) (runtime : Nat) : Machine State Label Event where
  init := .init identityHashCode
  enabled
    | .wrap _ inst factory _ _, state =>
        Keeps factory ∧ ∀ own ∈ inst, state.world.reclaimed own = false
    | .reclaim inst, state => ¬ state.Held inst
    | _, _ => True
  step label state := label.step runtime state

end SupernoteModule.Runtime.JvmObjects
