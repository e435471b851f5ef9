import SupernoteModule.Lib.Loop
import SupernoteModule.Semantic.Api
import Mathlib.Data.Finset.Sort
import Mathlib.Data.Prod.Lex

/-!
# Public reachability

`computePublicApi` collects what JavaScript can reach from the public functions, the public static
methods and the marked constructors. A queue of types is drained; a value is expanded when a type
names it, an object as soon as it has an instance.
-/

namespace SupernoteModule.Semantic

open SupernoteModule.Lib SupernoteModule.Python

/-- The closed public view of an API. -/
structure PublicApi where
  functions : List SemanticBinding
  declarations : List SemanticDeclaration
  objectNamespaces : Finset String
  objectInstances : Finset String
deriving DecidableEq

namespace SemanticBinding

def isPublicStatic (binding : SemanticBinding) : Bool :=
  binding.capabilities.javascriptPublic && binding.memberScope = .static

def isPublicInstance (binding : SemanticBinding) : Bool :=
  binding.capabilities.javascriptPublic && binding.memberScope = .instance_

def typeNodes (binding : SemanticBinding) : List TypeNode :=
  binding.types.map (·.node)

end SemanticBinding

/-- The variables of `compute_public_api`. -/
structure Reach where
  pending : List TypeNode
  reachable : Finset String := ∅
  objectNamespaces : Finset String := ∅
  objectInstances : Finset String := ∅
  expandedValues : Finset String := ∅
  expandedObjects : Finset String := ∅

/-! ### Roots -/

def publicFunctions (api : SemanticApi) : List SemanticBinding :=
  sortedBy (fun binding => toLex (binding.name, binding.bindingId))
    (api.functions.filter (·.capabilities.javascriptPublic))

namespace Reach

variable (state : Reach)

def queue (nodes : List TypeNode) : Reach :=
  { state with pending := state.pending ++ nodes }

def addNamespace (typeId : String) : Reach :=
  { state with
    objectNamespaces := insert typeId state.objectNamespaces
    reachable := insert typeId state.reachable }

def addInstance (typeId : String) : Reach :=
  { state with objectInstances := insert typeId state.objectInstances }

/-- What one object adds to the roots. -/
def addObjectRoots (declaration : SemanticObjectDeclaration) : Reach :=
  let staticMethods := declaration.methods.filter (·.isPublicStatic)
  let named :=
    if declaration.constructor ≠ none ∨ staticMethods ≠ [] then
      state.addNamespace declaration.typeId
    else state
  let constructed :=
    match declaration.constructor with
    | none => named
    | some constructor =>
        (named.addInstance declaration.typeId).queue
          (.objectRef declaration.typeId :: constructor.parameters.map (·.type.node))
  staticMethods.foldl (fun state method => state.queue method.typeNodes) constructed

def addRoots (declaration : SemanticDeclaration) : Reach :=
  match declaration with
  | .object declaration => state.addObjectRoots declaration
  | .enum _ | .value _ => state

end Reach

def rootReach (api : SemanticApi) : Reach :=
  api.declarations.foldl Reach.addRoots
    { pending := (publicFunctions api).flatMap (·.typeNodes) }

/-! ### The worklist -/

/-- The types an instance of the object makes reachable, in the order they are queued. -/
def SemanticObjectDeclaration.instanceNodes (declaration : SemanticObjectDeclaration) :
    List TypeNode :=
  (declaration.methods.filter (·.isPublicInstance)).flatMap (·.typeNodes) ++
    declaration.fields.map (·.type.node)

/-- One turn of the inner loop: expand the first object that has an instance. -/
def expandStep (api : SemanticApi) (state : Reach) : Except SemanticError (Option Reach) :=
  match (state.objectInstances \ state.expandedObjects).sort (· ≤ ·) with
  | [] => .ok none
  | typeId :: _ =>
      match api.declaration? typeId with
      | none => .error (.key typeId)
      | some (.object declaration) =>
          let expanded := { state with expandedObjects := insert typeId state.expandedObjects }
          .ok (some (expanded.queue declaration.instanceNodes))
      | some (.enum _) | some (.value _) => .error .assertion

def expandObjects (api : SemanticApi) (fuel : Nat) (state : Reach) :
    Option (Except SemanticError Reach) :=
  loop (fun state => some (expandStep api state)) fuel state

/-- Go on with the queue after the inner loop. -/
def continueWith (api : SemanticApi) (fuel : Nat) (state : Reach) :
    Option (Except SemanticError (Option Reach)) :=
  (expandObjects api fuel state).map fun outcome => outcome.map some

/-- What a named type does once its declaration is known. -/
def visitDeclaration (api : SemanticApi) (fuel : Nat) (state : Reach)
    (declaration : SemanticDeclaration) : Option (Except SemanticError (Option Reach)) :=
  let reached := { state with reachable := insert declaration.typeId state.reachable }
  match declaration with
  | .enum _ => continueWith api fuel reached
  | .value declaration =>
      if declaration.typeId ∈ reached.expandedValues then some (.ok (some reached))
      else
        let expanded :=
          { reached with expandedValues := insert declaration.typeId reached.expandedValues }
        continueWith api fuel (expanded.queue (declaration.fields.map (·.type.node)))
  | .object declaration => continueWith api fuel (reached.addInstance declaration.typeId)

/-- One turn of the outer loop: take the first type off the queue. -/
def drainStep (api : SemanticApi) (fuel : Nat) (state : Reach) :
    Option (Except SemanticError (Option Reach)) :=
  match state.pending with
  | [] => some (.ok none)
  | node :: pending =>
      let popped := { state with pending }
      match node with
      | .array element => some (.ok (some (popped.queue [element])))
      | .nullable inner => some (.ok (some (popped.queue [inner])))
      | .void | .scalar _ => some (.ok (some popped))
      | .enumRef typeId | .valueRef typeId | .objectRef typeId =>
          match api.declaration? typeId with
          | none => some (.error (.key typeId))
          | some declaration => visitDeclaration api fuel popped declaration

/-! ### Checks -/

def declarationLocation (declaration : SemanticDeclaration) : String :=
  match declaration with
  | .object declaration => declaration.projection.source.location
  | .enum declaration => (declaration.projections.head?.map (·.source.location)).getD ""
  | .value declaration => (declaration.projections.head?.map (·.source.location)).getD ""

def rejectUnreachableMember (reachable objectInstances : Finset String)
    (declaration : SemanticDeclaration) : Except SemanticError Unit :=
  match declaration with
  | .enum _ => .ok ()
  | .value declaration =>
      match declaration.fields with
      | field :: _ =>
          require (declaration.typeId ∈ reachable)
            (.reachability (s!"{field.source.location}: exported value field " ++
              s!"{declaration.name}.{field.name} is unreachable from every " ++
              "public function, method, or constructor"))
      | [] => .ok ()
  | .object declaration =>
      if declaration.typeId ∈ objectInstances then .ok ()
      else
        match declaration.methods.filter (·.isPublicInstance), declaration.fields with
        | method :: _, _ =>
            .error (.reachability (s!"{method.source.location}: exported instance method " ++
              s!"{declaration.name}.{method.name} is unreachable because no public " ++
              s!"root produces or constructs {declaration.name}"))
        | [], field :: _ =>
            .error (.reachability (s!"{field.source.location}: exported object field " ++
              s!"{declaration.name}.{field.name} is unreachable because no public " ++
              s!"root produces or constructs {declaration.name}"))
        | [], [] => .ok ()

/-- A name and the place where it is declared. -/
abbrev Claims := List (String × String)

/-- `_claim`. -/
def claim (scope : String) (claims : Claims) (entry : String × String) :
    Except SemanticError Claims :=
  match claims.lookup entry.1 with
  | some previous =>
      .error (.reachability (s!"{entry.2}: public name {Python.repr entry.1} collides in the " ++
        s!"{scope}; first declared at {previous}"))
  | none => .ok (entry :: claims)

def generatedTypeNames (featureName : Option String) : Claims :=
  [
    ("SupernoteError", "generated TypeScript error class"),
    ("SupernoteErrorCode", "generated TypeScript error-code type"),
    ("SupernoteValidationReason", "generated validation-reason type"),
    ("SupernoteValidationDetails", "generated validation-details interface"),
    ("SupernoteTypeError", "generated validation error type"),
    ("SupernoteRangeError", "generated validation error type"),
    ("SupernoteValidationResult", "generated validation-result type"),
    ("SupernoteCallable", "generated callable interface"),
    ("SupernoteTypeCompanion", "generated type-companion interface"),
    ("SupernoteFeatureStatus", "generated feature-status type"),
    ("SupernoteNativeObjectInfo", "generated native-object information interface")
  ] ++ (featureName.map fun name =>
    (s!"{name}Feature", "generated TypeScript feature interface")).toList

/-- One declaration against the functions and the generated types. -/
def claimTypeName (functionNames : Claims) (names : Claims) (declaration : SemanticDeclaration) :
    Except SemanticError Claims := do
  match functionNames.lookup declaration.name with
  | some location =>
      .error (.reachability (s!"{declarationLocation declaration}: reachable type name " ++
        s!"{Python.repr declaration.name} collides with a feature-root property " ++
        s!"declared at {location}"))
  | none =>
      match names.lookup declaration.name with
      | some previous =>
          .error (.reachability (s!"{declarationLocation declaration}: reachable type name " ++
            s!"{Python.repr declaration.name} collides with {previous}"))
      | none => .ok ((declaration.name, declarationLocation declaration) :: names)

/-- The names in the type namespace of an object, in the order they are claimed. -/
def namespaceClaims (declaration : SemanticObjectDeclaration) : Claims :=
  let location := declaration.projection.source.location
  [("is", location), ("check", location)] ++
    (declaration.constructor.map fun constructor =>
      ("create", constructor.source.location)).toList ++
    (declaration.methods.filter (·.isPublicStatic)).map fun method =>
      (method.name, method.source.location)

def validateNamespace (declarations : List SemanticDeclaration) (typeId : String) :
    Except SemanticError Unit :=
  match declarations.find? (·.typeId = typeId) with
  | none => .error (.key typeId)
  | some (.object declaration) => do
      let _ ← (namespaceClaims declaration).foldlM (claim s!"{declaration.name} type namespace") []
      return ()
  | some (.enum _) | some (.value _) => .error .assertion

def validatePublicNames (api : PublicApi) (featureName : Option String) :
    Except SemanticError Unit := do
  let functionNames := api.functions.map fun binding => (binding.name, binding.source.location)
  let featureNames ← functionNames.foldlM (claim "feature root") []
  let _ ← (api.declarations.map fun declaration =>
    (declaration.name, declarationLocation declaration)).foldlM (claim "feature root") featureNames
  let _ ← api.declarations.foldlM (claimTypeName functionNames) (generatedTypeNames featureName)
  checkEach (api.objectNamespaces.sort (· ≤ ·)) (validateNamespace api.declarations)

/-! ### The public API -/

/-- What is returned once the queue is empty. -/
def publish (api : SemanticApi) (featureName : Option String) (state : Reach) :
    Except SemanticError PublicApi := do
  checkEach api.declarations (rejectUnreachableMember state.reachable state.objectInstances)
  let published : PublicApi :=
    { functions := publicFunctions api
      declarations :=
        sortedBy (fun declaration => toLex (declaration.name, declaration.typeId))
          (api.declarations.filter (·.typeId ∈ state.reachable))
      objectNamespaces := state.objectNamespaces
      objectInstances := state.objectInstances }
  validatePublicNames published featureName
  return published

/-- `compute_public_api`, with fuel for each of its two loops. -/
def computePublicApi (fuel : Nat) (api : SemanticApi) (featureName : Option String) :
    Option (Except SemanticError PublicApi) :=
  (loop (drainStep api fuel) fuel (rootReach api)).map fun outcome =>
    outcome.bind (publish api featureName)

end SupernoteModule.Semantic
