import SupernoteModule.Lib.Machine

/-!
# JavaScript objects of native instances

`CppObjectRegistry` gives a native instance the same JavaScript object for as long as that object is
alive. It knows an instance by its type, its address and its shared owner, and refers to the owner
and to the object weakly: either can go at any time, and an address can be used again.
-/

namespace SupernoteModule.Runtime.CppObjects

open SupernoteModule.Lib Function

/-- A `std::shared_ptr`. `owner` is its control block, which a pointer may lack, and `address` what
`get()` returns, 0 when it is null. A control block is not used again while a weak reference to it
is left, so it stands for the owner. -/
structure SharedPtr where
  owner : Option Nat
  address : Nat
deriving DecidableEq

structure CppObjectIdentity where
  typeId : String
  owner : Option Nat
  address : Nat
deriving DecidableEq

/-- `CppObjectRegistry::Entry`: an identity and a weak reference to the JavaScript object. -/
structure Entry where
  identity : CppObjectIdentity
  javascript : Nat
deriving DecidableEq

/-- Which owners are gone, and which JavaScript objects have been made and are still alive, each
with its host object. -/
structure World (Host : Type*) where
  expired : Nat → Bool
  alive : Nat → Bool
  hosts : Nat → Option Host
  next : Nat

structure CppObjectRegistry where
  runtime : Option Nat
  entries : List Entry

variable {Host : Type*}

/-- `owner.expired()`; a reference to no owner at all has expired. -/
def World.ownerExpired (world : World Host) (owner : Option Nat) : Bool :=
  match owner with
  | none => true
  | some owner => world.expired owner

/-- `WeakObject::lock`. -/
def World.lock (world : World Host) (javascript : Nat) : Option Nat :=
  if world.alive javascript then some javascript else none

/-- `Object::createFromHostObject`. -/
def World.createFromHostObject (world : World Host) (host : Host) : World Host :=
  { world with
    alive := update world.alive world.next true
    hosts := update world.hosts world.next (some host)
    next := world.next + 1 }

namespace CppObjectIdentity

def from_ (typeId : String) (inst : SharedPtr) : Except String CppObjectIdentity :=
  if typeId = "" ∨ inst.address = 0 then
    .error "C++ object identity requires nominal identity and an instance"
  else .ok ⟨typeId, inst.owner, inst.address⟩

variable (identity : CppObjectIdentity)

def expired (world : World Host) : Bool :=
  world.ownerExpired identity.owner

/-- `matches`: neither owner is less than the other when they are one control block. -/
def matches_ (typeId : String) (inst : SharedPtr) : Bool :=
  if inst.address = 0 ∨ identity.typeId ≠ typeId ∨ identity.address ≠ inst.address then false
  else identity.owner = inst.owner

def sameAddressAndType (typeId : String) (address : Nat) : Bool :=
  identity.typeId = typeId ∧ identity.address = address

end CppObjectIdentity

namespace CppObjectRegistry

def empty : CppObjectRegistry where
  runtime := none
  entries := []

def assertRuntime (registry : CppObjectRegistry) (runtime : Nat) :
    Except String CppObjectRegistry :=
  match registry.runtime with
  | none => .ok { registry with runtime := some runtime }
  | some known =>
      if known ≠ runtime then
        .error "a C++ object registry cannot cross JavaScript runtimes"
      else .ok registry

/-- How the loop of `wrap` is left. -/
inductive Search where
  | existing (object : Nat)
  | conflict
  | absent
deriving DecidableEq

/-- The loop of `wrap`: the entries that are left, and how it was left. -/
def search (world : World Host) (typeId : String) (inst : SharedPtr) :
    List Entry → List Entry × Search
  | [] => ([], .absent)
  | current :: rest =>
      if current.identity.expired world then search world typeId inst rest
      else if ¬ current.identity.matches_ typeId inst then
        if current.identity.sameAddressAndType typeId inst.address then (current :: rest, .conflict)
        else
          let (kept, left) := search world typeId inst rest
          (current :: kept, left)
      else
        match world.lock current.javascript with
        | some object => (current :: rest, .existing object)
        -- The entry is erased and the loop left: the entries that follow are not looked at.
        | none => (rest, .absent)

/-- `wrap`. The factory makes the host object from the instance it is given, or raises. -/
def wrap (registry : CppObjectRegistry) (world : World Host) (runtime : Nat) (typeId : String)
    (inst : SharedPtr) (factory : SharedPtr → Except String Host) :
    Except String Nat × CppObjectRegistry × World Host :=
  match registry.assertRuntime runtime with
  | .error error => (.error error, registry, world)
  | .ok registry =>
      if inst.address = 0 then
        (.error "a native object result cannot be null", registry, world)
      else
        let (kept, left) := search world typeId inst registry.entries
        let searched := { registry with entries := kept }
        match left with
        | .existing object => (.ok object, searched, world)
        | .conflict =>
            (.error "conflicting C++ shared owners for one live native address", searched, world)
        | .absent =>
            match CppObjectIdentity.from_ typeId inst with
            | .error error => (.error error, searched, world)
            | .ok identity =>
                match factory inst with
                | .error error => (.error error, searched, world)
                | .ok host =>
                    (.ok world.next,
                      { searched with entries := searched.entries ++ [⟨identity, world.next⟩] },
                      world.createFromHostObject host)

def purge (registry : CppObjectRegistry) (world : World Host) (runtime : Nat) :
    Except String Unit × CppObjectRegistry :=
  match registry.assertRuntime runtime with
  | .error error => (.error error, registry)
  | .ok registry =>
      (.ok (), { registry with
        entries := registry.entries.filter fun entry =>
          ¬ (entry.identity.expired world ∨ world.lock entry.javascript = none) })

end CppObjectRegistry

/-! ### Runs -/

structure State (Host : Type*) where
  registry : CppObjectRegistry
  world : World Host

def State.init : State Host where
  registry := .empty
  world := ⟨fun _ => false, fun _ => false, fun _ => none, 0⟩

inductive Label (Host : Type*) where
  | wrap (typeId : String) (inst : SharedPtr) (factory : SharedPtr → Except String Host)
  | purge
  /-- An owner loses its last strong reference. -/
  | expire (owner : Nat)
  /-- A JavaScript object is collected. -/
  | collect (object : Nat)

/-- A new JavaScript object has been made for an instance. -/
inductive Event where
  | created (typeId : String) (inst : SharedPtr) (object : Nat)
deriving DecidableEq

/-- A pointer keeps its owner, when it has one. -/
def State.Holds (state : State Host) (inst : SharedPtr) : Prop :=
  ∀ owner ∈ inst.owner, state.world.expired owner = false

def State.wrap (state : State Host) (runtime : Nat) (typeId : String) (inst : SharedPtr)
    (factory : SharedPtr → Except String Host) : Except String Nat × State Host :=
  let (result, registry, world) := state.registry.wrap state.world runtime typeId inst factory
  (result, ⟨registry, world⟩)

def Label.step (runtime : Nat) (state : State Host) : Label Host → State Host × List Event
  | .wrap typeId inst factory =>
      let after := (state.wrap runtime typeId inst factory).2
      (after, if after.world.next = state.world.next then []
        else [.created typeId inst state.world.next])
  | .purge => ({ state with registry := (state.registry.purge state.world runtime).2 }, [])
  | .expire owner =>
      ({ state with world := { state.world with expired := update state.world.expired owner true }
        }, [])
  | .collect object =>
      ({ state with world := { state.world with alive := update state.world.alive object false } },
        [])

/-- Calls of `wrap` and `purge` on one runtime, owners that go and objects that are collected, in
any order. -/
def objectMachine (Host : Type*) (runtime : Nat) : Machine (State Host) (Label Host) Event where
  init := .init
  enabled
    | .wrap _ inst _, state => state.Holds inst
    | _, _ => True
  step label state := label.step runtime state

end SupernoteModule.Runtime.CppObjects
