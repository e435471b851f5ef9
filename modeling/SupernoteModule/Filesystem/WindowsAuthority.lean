import SupernoteModule.Lib.Machine
import SupernoteModule.Python.Collections

/-!
# Ownership of Windows handles

`WindowsAuthorityRegistry` owns the numbers of open handles and descriptors. An allocation is a
generation of its number, and keeps the generations of the ancestors that were opened on the way to
it; when it is closed or superseded they are retired, and a retired reference is closed as soon as
the closer lets it be.
-/

namespace SupernoteModule.Filesystem

open SupernoteModule.Lib SupernoteModule.Python Function

structure RawGenerationReference where
  handle : Nat
  generation : Nat
deriving DecidableEq

/-- An object, which a registry knows by the place it was made in. `handle` is the number the object
was made for; the source does not keep it. -/
structure GenerationAuthority where
  ancestorGenerations : List RawGenerationReference
  handle : Option Nat

inductive RawCloseState where
  | closed
  | retryable
  | ambiguous
deriving DecidableEq

structure RawCloseOutcome where
  state : RawCloseState
  error : Option String := none

/-- What happens in a call of the closer: its outcome, and whether the number has been given to a
new allocation, which is registered by the time the call is over. -/
structure CloseAnswer extends RawCloseOutcome where
  reused : Bool := false

/-- `authority is self.handles`, or `self.descriptors`. -/
inductive AuthorityMap where
  | handles
  | descriptors
deriving DecidableEq

/-- `_GenerationTransition`. -/
structure GenerationTransition where
  authority : AuthorityMap
  numericValue : Nat
  current : Nat
  obsolete : List Nat
  superseded : List RawGenerationReference

/-- A call of the closer for a generation, and what was registered on the number at the time. -/
structure CloseAttempt where
  handle : Nat
  generation : Nat
  registered : Option Nat
  state : RawCloseState
deriving DecidableEq

inductive Event where
  | registered (handle generation : Nat)
  | attempted (attempt : CloseAttempt)
deriving DecidableEq

structure WindowsAuthorityRegistry where
  handles : Nat → Option Nat
  descriptors : Nat → Option Nat
  retired : List (Nat × List RawGenerationReference)
  ambiguousRetired : List (Nat × List RawGenerationReference)
  ambiguous : Nat → List Nat
  pending : List (Nat × GenerationTransition)
  /-- The generations that have been made, and the number of objects, tokens among them. -/
  objects : Nat → GenerationAuthority
  next : Nat
  calls : Nat
  trace : List Event

namespace WindowsAuthorityRegistry

def empty : WindowsAuthorityRegistry where
  handles _ := none
  descriptors _ := none
  retired := []
  ambiguousRetired := []
  ambiguous _ := []
  pending := []
  objects _ := ⟨[], none⟩
  next := 0
  calls := 0
  trace := []

variable (registry : WindowsAuthorityRegistry)

/-- `self.objects[generation].ancestor_generations`. -/
def ancestors (generation : Nat) : List RawGenerationReference :=
  (registry.objects generation).ancestorGenerations

/-- `GenerationAuthority(ancestors)`. -/
def allocate (ancestors : List RawGenerationReference) (handle : Option Nat) :
    WindowsAuthorityRegistry :=
  { registry with
    objects := update registry.objects registry.next ⟨ancestors, handle⟩
    next := registry.next + 1 }

/-- `authority.get(numeric_value)`. -/
def get (authority : AuthorityMap) (number : Nat) : Option Nat :=
  match authority with
  | .handles => registry.handles number
  | .descriptors => registry.descriptors number

/-- `authority[numeric_value] = generation`. -/
def set (authority : AuthorityMap) (number generation : Nat) : WindowsAuthorityRegistry :=
  match authority with
  | .handles =>
      { registry with
        handles := update registry.handles number (some generation)
        trace := registry.trace ++ [.registered number generation] }
  | .descriptors =>
      { registry with descriptors := update registry.descriptors number (some generation) }

/-- `del authority[numeric_value]`. -/
def delete (authority : AuthorityMap) (number : Nat) : WindowsAuthorityRegistry :=
  match authority with
  | .handles => { registry with handles := update registry.handles number none }
  | .descriptors => { registry with descriptors := update registry.descriptors number none }

/-- `if authority.get(numeric_value) is generation: del authority[numeric_value]`. -/
def deleteIf (authority : AuthorityMap) (number generation : Nat) : WindowsAuthorityRegistry :=
  if registry.get authority number = some generation then registry.delete authority number
  else registry

/-- The number for which a generation of a map is made. -/
def handleOf (authority : AuthorityMap) (number : Nat) : Option Nat :=
  match authority with
  | .handles => some number
  | .descriptors => none

/-- A new generation on a number. -/
def open_ (authority : AuthorityMap) (number : Nat) (ancestors : List RawGenerationReference) :
    WindowsAuthorityRegistry :=
  (registry.allocate ancestors (handleOf authority number)).set authority number registry.next

/-- `capture_raw_generations`: a generation is made for every number that has none. -/
def captureRawGenerations :
    WindowsAuthorityRegistry → List Nat → WindowsAuthorityRegistry × List RawGenerationReference
  | registry, [] => (registry, [])
  | registry, handle :: handles =>
      match registry.handles handle with
      | some generation =>
          let rest := captureRawGenerations registry handles
          (rest.1, ⟨handle, generation⟩ :: rest.2)
      | none =>
          let rest := captureRawGenerations (registry.allocate [] (some handle)) handles
          (rest.1, ⟨handle, registry.next⟩ :: rest.2)

/-! ### Ambiguous generations -/

def recordAmbiguous (handle generation : Nat) : WindowsAuthorityRegistry :=
  if generation ∈ registry.ambiguous handle then registry
  else
    { registry with
      ambiguous := update registry.ambiguous handle (registry.ambiguous handle ++ [generation]) }

def generationIsAmbiguous (handle generation : Nat) : Prop :=
  generation ∈ registry.ambiguous handle

instance (handle generation : Nat) : Decidable (registry.generationIsAmbiguous handle generation) :=
  inferInstanceAs (Decidable (generation ∈ registry.ambiguous handle))

/-- `_ambiguous_retired_generation`. -/
def ambiguousRetiredGeneration (handle : Nat) : Option Nat :=
  ((registry.ambiguousRetired.flatMap (·.2)).find? (·.handle = handle)).map (·.generation)

/-- `_pending_generation`: the last transition of the number. -/
def pendingGeneration (authority : AuthorityMap) (number : Nat) : Option Nat :=
  (registry.pending.reverse.find? fun entry =>
    entry.2.authority = authority ∧ entry.2.numericValue = number).map (·.2.current)

/-- `_current_generation`. -/
def currentGeneration (authority : AuthorityMap) (number : Nat) : WindowsAuthorityRegistry × Nat :=
  match registry.pendingGeneration authority number with
  | some pending =>
      (if registry.get authority number = some pending then registry
        else registry.set authority number pending, pending)
  | none =>
      match registry.get authority number with
      | some registered => (registry, registered)
      | none =>
          match authority, registry.ambiguousRetiredGeneration number with
          | .handles, some ambiguous => (registry, ambiguous)
          | _, _ => (registry.open_ authority number [], registry.next)

/-! ### Retired references -/

/-- The references that wait to be closed. -/
def waiting : List RawGenerationReference :=
  registry.retired.flatMap (·.2)

/-- `_superseded_references`. -/
def supersededReferences (handle current : Nat) : List RawGenerationReference :=
  registry.waiting.filter fun reference =>
    reference.handle = handle ∧ reference.generation ≠ current

/-- `_unique_generations`. -/
def uniqueGenerations (generations : List Nat) : List Nat :=
  generations.foldl (fun unique item => if item ∈ unique then unique else unique ++ [item]) []

/-- `_transition_retired_references`, with a token that nothing is recorded for. -/
def transitionRetiredReferences (obsolete : List Nat) (token : Nat) :
    List RawGenerationReference :=
  let recorded := (registry.retired.filter (·.1 ≠ token)).flatMap (·.2)
  (obsolete.flatMap registry.ancestors).foldl
    (fun retained reference =>
      if reference ∈ recorded ∨ reference ∈ retained then retained else retained ++ [reference]) []

/-- `self.retired[token] = references`, or nothing at all when there are none. -/
def retain (token : Nat) (references : List RawGenerationReference) : WindowsAuthorityRegistry :=
  if references = [] then registry
  else { registry with retired := dictInsert registry.retired token references }

/-- `_remove_superseded`. -/
def removeSuperseded (superseded : List RawGenerationReference) : WindowsAuthorityRegistry :=
  let kept := registry.retired.map fun entry =>
    (entry.1, entry.2.filter fun reference => ¬ reference ∈ superseded)
  { registry with retired := kept.filter fun entry => entry.2 ≠ [] }

/-- `_complete_transition`. -/
def completeTransition (token : Nat) : WindowsAuthorityRegistry :=
  match registry.pending.lookup token with
  | none => registry
  | some transition =>
      let retained := registry.transitionRetiredReferences transition.obsolete token
      let published := (registry.retain token retained).removeSuperseded transition.superseded
      { published with pending := registry.pending.filter (·.1 ≠ token) }

/-- `_reconcile_pending`. -/
def reconcilePending : WindowsAuthorityRegistry :=
  (registry.pending.map (·.1)).foldl completeTransition registry

/-- `_publish_retired`. -/
def publishRetired (token : Nat) (remaining ambiguous : List RawGenerationReference) :
    WindowsAuthorityRegistry :=
  { registry with
    retired := if remaining = [] then registry.retired.filter (·.1 ≠ token)
      else dictInsert registry.retired token remaining
    ambiguousRetired := if ambiguous = [] then registry.ambiguousRetired.filter (·.1 ≠ token)
      else dictInsert registry.ambiguousRetired token ambiguous }

section Closer

variable (close : Nat → CloseAnswer)

/-- `self._close_raw(handle)`, on behalf of a generation. -/
def callCloser (handle generation : Nat) : WindowsAuthorityRegistry × RawCloseOutcome :=
  let answer := close registry.calls
  let called := { registry with
    calls := registry.calls + 1
    trace := registry.trace ++
      [.attempted ⟨handle, generation, registry.handles handle, answer.state⟩] }
  (if answer.reused then called.open_ .handles handle [] else called, answer.toRawCloseOutcome)

/-- What `_close_retired` carries from one reference to the next. -/
structure Retiring where
  registry : WindowsAuthorityRegistry
  remaining : List RawGenerationReference
  ambiguous : List RawGenerationReference
  firstError : Option String := none

/-- `_close_retired_reference`. -/
def closeRetiredReference (token : Nat) (retiring : Retiring) (reference : RawGenerationReference) :
    Retiring :=
  let registry := retiring.registry
  let publish := fun (registry : WindowsAuthorityRegistry) remaining ambiguous error =>
    Retiring.mk (registry.publishRetired token remaining ambiguous) remaining ambiguous
      (retiring.firstError <|> error)
  let expected := reference.generation
  let registered := registry.handles reference.handle
  let erased := retiring.remaining.erase reference
  if registered.isSome ∧ registered ≠ some expected then
    publish registry erased retiring.ambiguous none
  else if registry.generationIsAmbiguous reference.handle expected then
    publish (registry.recordAmbiguous reference.handle expected) erased
      (retiring.ambiguous ++ [reference]) none
  else
    let (called, outcome) := registry.callCloser close reference.handle expected
    let live := called.handles reference.handle
    if live.isSome ∧ live ≠ some expected then
      if outcome.state = .ambiguous then
        publish (called.recordAmbiguous reference.handle expected) erased
          (retiring.ambiguous ++ [reference]) outcome.error
      else publish called erased retiring.ambiguous outcome.error
    else
      match outcome.state with
      | .closed =>
          publish (called.deleteIf .handles reference.handle expected) erased retiring.ambiguous
            outcome.error
      | .ambiguous =>
          publish (called.recordAmbiguous reference.handle expected) erased
            (retiring.ambiguous ++ [reference]) outcome.error
      | .retryable => publish called retiring.remaining retiring.ambiguous outcome.error

/-- `_close_retired`. -/
def closeRetired (token : Nat) : WindowsAuthorityRegistry × Option String :=
  let ancestors := (registry.retired.lookup token).getD []
  if ancestors = [] then
    ({ registry with retired := registry.retired.filter (·.1 ≠ token) }, none)
  else
    let retiring := ancestors.reverse.foldl (closeRetiredReference close token)
      ⟨registry, ancestors, (registry.ambiguousRetired.lookup token).getD [], none⟩
    (retiring.registry, retiring.firstError)

def reconcile : WindowsAuthorityRegistry × Option String :=
  let settled := registry.reconcilePending
  (settled.retired.map (·.1)).foldl
    (fun (state, firstError) token =>
      let (closed, error) := state.closeRetired close token
      (closed, firstError <|> error))
    (settled, none)

/-- `_retire_current`. -/
def retireCurrent (authority : AuthorityMap) (number generation : Nat) :
    WindowsAuthorityRegistry × Option String :=
  let token := registry.next
  let recorded := { registry with
    retired := dictInsert registry.retired token (registry.ancestors generation)
    next := registry.next + 1 }
  (recorded.deleteIf authority number generation).closeRetired close token

/-- `close_raw`. -/
def closeRaw (handle : Nat) : WindowsAuthorityRegistry × Option String :=
  let (registry, registered) := registry.currentGeneration .handles handle
  if registry.generationIsAmbiguous handle registered then
    (registry, some "Windows handle close outcome is ambiguous; refusing to retry")
  else
    let (called, outcome) := registry.callCloser close handle registered
    let noted := if outcome.state = .ambiguous then called.recordAmbiguous handle registered
      else called
    if called.handles handle ≠ some registered then
      (noted, outcome.error)
    else if outcome.state ≠ .closed then
      (noted, some (outcome.error.getD "Windows handle close failed without a diagnostic"))
    else
      let (retired, error) := noted.retireCurrent close .handles handle registered
      (retired, error <|> outcome.error)

/-- `close_descriptor`, with a closer that raises or returns; by the time it returns the descriptor
may have been given to a new allocation. -/
def closeDescriptor (descriptor : Nat) (raised : Option String) (reused : Bool) :
    WindowsAuthorityRegistry × Option String :=
  let (registry, registered) := registry.currentGeneration .descriptors descriptor
  match raised with
  | some error => (registry, some error)
  | none =>
      let called := if reused then registry.open_ .descriptors descriptor [] else registry
      called.retireCurrent close .descriptors descriptor registered

/-- The generations a registration makes obsolete: the one it replaces, and those of the references
it supersedes. -/
def transition (authority : AuthorityMap) (number current : Nat) (stale : Option Nat) :
    GenerationTransition :=
  let superseded := match authority with
    | .handles => registry.supersededReferences number current
    | .descriptors => []
  ⟨authority, number, current,
    uniqueGenerations (stale.toList ++ superseded.map (·.generation)), superseded⟩

/-- `_register`. -/
def register (authority : AuthorityMap) (number current : Nat) (stale : Option Nat) :
    WindowsAuthorityRegistry × Option String :=
  let token := registry.next
  let planned := { registry with
    pending := dictInsert registry.pending token
      (registry.transition authority number current stale)
    next := registry.next + 1 }
  let (registered, error) :=
    ((planned.set authority number current).completeTransition token).reconcile close
  match error with
  | none => (registered, none)
  | some error =>
      (if registered.get authority number = some current then registered
        else registered.set authority number current, some error)

/-- `_claim`. -/
def claim (authority : AuthorityMap) (number : Nat) (ancestors : List RawGenerationReference) :
    WindowsAuthorityRegistry × Option String :=
  (registry.allocate ancestors (handleOf authority number)).register close authority number
    registry.next (registry.get authority number)

end Closer

/-- `_retain_failed_registration`: a claim that was interrupted before its transition was planned.
-/
def retainFailedRegistration (authority : AuthorityMap) (number current : Nat)
    (stale : Option Nat) : WindowsAuthorityRegistry :=
  let token := registry.next
  let planned := registry.transition authority number current stale
  let retained := registry.transitionRetiredReferences planned.obsolete token
  let published := ({ registry with next := registry.next + 1 }.retain token
    retained).removeSuperseded planned.superseded
  published.set authority number current

def interruptedClaim (authority : AuthorityMap) (number : Nat)
    (ancestors : List RawGenerationReference) : WindowsAuthorityRegistry :=
  (registry.allocate ancestors (handleOf authority number)).retainFailedRegistration authority
    number registry.next (registry.get authority number)

/-- `ensure_handle` and `ensure_descriptor`, with a generation made for the call. -/
def ensure (authority : AuthorityMap) (number : Nat) (ancestors : List RawGenerationReference) :
    WindowsAuthorityRegistry :=
  match registry.get authority number with
  | some _ => registry
  | none => registry.open_ authority number ancestors

/-- `release_handle_if`. -/
def releaseHandleIf (handle : Nat) (generation : Option Nat) : WindowsAuthorityRegistry :=
  match generation with
  | none => registry
  | some generation => registry.deleteIf .handles handle generation

end WindowsAuthorityRegistry

/-! ### Runs -/

inductive Operation where
  | captureRawGenerations (handles : List Nat)
  | claim (authority : AuthorityMap) (number : Nat) (ancestors : List RawGenerationReference)
  | interruptedClaim (authority : AuthorityMap) (number : Nat)
      (ancestors : List RawGenerationReference)
  | ensure (authority : AuthorityMap) (number : Nat) (ancestors : List RawGenerationReference)
  | releaseHandleIf (handle : Nat) (generation : Option Nat)
  | closeRaw (handle : Nat)
  | closeDescriptor (descriptor : Nat) (raised : Option String) (reused : Bool)
  | reconcile

/-- The registry after an operation, whether it raises or not. -/
def Operation.run (close : Nat → CloseAnswer) (registry : WindowsAuthorityRegistry) :
    Operation → WindowsAuthorityRegistry
  | .captureRawGenerations handles => (registry.captureRawGenerations handles).1
  | .claim authority number ancestors => (registry.claim close authority number ancestors).1
  | .interruptedClaim authority number ancestors =>
      registry.interruptedClaim authority number ancestors
  | .ensure authority number ancestors => registry.ensure authority number ancestors
  | .releaseHandleIf handle generation => registry.releaseHandleIf handle generation
  | .closeRaw handle => (registry.closeRaw close handle).1
  | .closeDescriptor descriptor raised reused =>
      (registry.closeDescriptor close descriptor raised reused).1
  | .reconcile => (registry.reconcile close).1

/-- Operations in any order, each of them allowed where it is taken. A step emits what it adds to
the trace. -/
def registryMachine (close : Nat → CloseAnswer)
    (allowed : Operation → WindowsAuthorityRegistry → Prop) :
    Machine WindowsAuthorityRegistry Operation Event where
  init := .empty
  enabled := allowed
  step operation registry :=
    let after := operation.run close registry
    (after, after.trace.drop registry.trace.length)

end SupernoteModule.Filesystem
