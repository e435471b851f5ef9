import SupernoteModule.Frontend.CppProjection
import SupernoteModule.Semantic.Route

/-!
# C++ routes

The semantic API forgets how the source spells a declaration. A route joins a record of the API back
to the declaration the C++ front end found, which is looked up by its identity.
-/

namespace SupernoteModule.Frontend

open SupernoteModule.Lib SupernoteModule.Semantic

inductive CppCallableKind where
  | function
  | constructor
  | instanceMethod
  | staticMethod
deriving DecidableEq, Repr

/-- The four accepted direct C++ object parameter forms. -/
inductive CppObjectPassing where
  | borrowedMutable
  | borrowedConst
  | sharedValue
  | sharedConstRef
deriving DecidableEq, Repr

structure CppNamedTypeRoute where
  typeId : String
  publicName : String
  cppType : String
  includePath : String
  kind : SemanticTypeKind
  sourceDeclarationId : String
deriving DecidableEq

/-- A parameter. Only a native object says how it is passed. -/
structure CppParameterRoute where
  name : String
  cppSpelling : String
  semanticType : SemanticType
  objectPassing : Option CppObjectPassing := none
  direct : semanticType.node.kind = .objectRef ↔ objectPassing.isSome
deriving DecidableEq

def CppParameterRoute.make (name cppSpelling : String) (semanticType : SemanticType)
    (objectPassing : Option CppObjectPassing) : Except FrontendError CppParameterRoute :=
  if hdirect : semanticType.node.kind = .objectRef ↔ objectPassing.isSome then
    .ok ⟨name, cppSpelling, semanticType, objectPassing, hdirect⟩
  else .error (.route "only direct object parameters carry a C++ object passing form")

structure CppCallableRoute where
  sourceDeclarationId : String
  kind : CppCallableKind
  publicName : String
  cppName : String
  ownerCppType : Option String
  parameters : List CppParameterRoute
  result : SemanticType
  resultCppSpelling : String
  execution : ExecutionMode
  noexcept : Bool
  javascriptPublic : Bool
  cppNamespace : List String
  const : Bool := false
deriving DecidableEq

structure CppFieldRoute where
  sourceDeclarationId : String
  fieldId : String
  publicName : String
  cppName : String
  cppSpelling : String
  semanticType : SemanticType
  mutable : Bool
deriving DecidableEq

structure CppObjectRoute where
  namedType : CppNamedTypeRoute
  constructor : Option CppCallableRoute
  methods : List CppCallableRoute
  fields : List CppFieldRoute
deriving DecidableEq

structure CppValueRoute where
  namedType : CppNamedTypeRoute
  fields : List CppFieldRoute
deriving DecidableEq

structure CppEnumRoute where
  namedType : CppNamedTypeRoute
  constants : List String
deriving DecidableEq

structure CppRoutePlan where
  functions : List CppCallableRoute
  objects : List CppObjectRoute
  values : List CppValueRoute
  enums : List CppEnumRoute
  namedTypes : List CppNamedTypeRoute
deriving DecidableEq

/-! ### Names -/

/-- A qualified name from the global namespace on. -/
def globalName (qualifiedName : String) : String :=
  "::" ++ Python.removePrefix qualifiedName "::"

def qualifiedCppType (source : CppClassSource) : String :=
  globalName source.qualifiedName

def qualifiedCppEnum (source : CppEnumSource) : String :=
  globalName source.qualifiedName

/-- `_object_passing`. -/
def objectPassing (spelling : String) : Except FrontendError CppObjectPassing :=
  let canonical := normalizedCppType spelling
  if Python.startsWith canonical "const std::shared_ptr<" && Python.endsWith canonical ">&" then
    .ok .sharedConstRef
  else if Python.startsWith canonical "std::shared_ptr<" && Python.endsWith canonical ">" then
    .ok .sharedValue
  else if Python.startsWith canonical "const " && Python.endsWith canonical "&" then
    .ok .borrowedConst
  else if Python.endsWith canonical "&" then .ok .borrowedMutable
  else
    .error (.route s!"unsupported direct C++ object parameter spelling {Python.repr spelling}")

/-! ### Members -/

/-- `_require_source`. -/
def requireSource (expected actual : String) : Except FrontendError Unit :=
  require (expected = actual)
    (.route (s!"semantic source {Python.repr expected} does not match C++ source " ++
      s!"{Python.repr actual}"))

def parameterPassing (semantic : SemanticParameter) (source : CppParameterSource) :
    Except FrontendError (Option CppObjectPassing) :=
  if semantic.type.node.kind = .objectRef then do
    let passing ← objectPassing source.typeSpelling
    return some passing
  else .ok none

def parameterRoute (semantic : SemanticParameter) (source : CppParameterSource) :
    Except FrontendError CppParameterRoute := do
  require (semantic.name = source.name)
    (.route "semantic and C++ parameter names disagree")
  let passing ← parameterPassing semantic source
  CppParameterRoute.make semantic.name source.typeSpelling semantic.type passing

/-- `_parameters`. -/
def parameterRoutes (semantics : List SemanticParameter) (sources : List CppParameterSource) :
    Except FrontendError (List CppParameterRoute) := do
  require (semantics.length = sources.length)
    (.route "semantic and C++ parameter counts disagree")
  (semantics.zip sources).mapM fun entry => parameterRoute entry.1 entry.2

/-- `_function_route`. -/
def functionRoute (binding : SemanticBinding) (source : CppFunctionSource) :
    Except FrontendError CppCallableRoute := do
  requireSource binding.source.declarationId source.provenance.declarationId
  let parameters ← parameterRoutes binding.parameters source.parameters
  return {
    sourceDeclarationId := source.provenance.declarationId
    kind := .function
    publicName := binding.name
    cppName := globalName (joinNames (source.cppNamespace ++ [source.cppName]))
    ownerCppType := none
    parameters := parameters
    result := binding.result
    resultCppSpelling := source.returnTypeSpelling
    execution := binding.execution
    noexcept := source.noexcept
    javascriptPublic := binding.capabilities.javascriptPublic
    cppNamespace := source.cppNamespace
  }

/-- `_constructor_route`. -/
def constructorRoute (semantic : SemanticConstructor) (source : CppConstructorSource)
    (owner : CppClassSource) (typeId : String) : Except FrontendError CppCallableRoute := do
  requireSource semantic.source.declarationId source.provenance.declarationId
  let cppType := qualifiedCppType owner
  let parameters ← parameterRoutes semantic.parameters source.parameters
  let result ← semantically (SemanticType.objectRef typeId)
  return {
    sourceDeclarationId := source.provenance.declarationId
    kind := .constructor
    publicName := "create"
    cppName := cppType
    ownerCppType := some cppType
    parameters := parameters
    result := result
    resultCppSpelling := s!"std::shared_ptr<{cppType}>"
    execution := .sync
    noexcept := source.noexcept
    javascriptPublic := true
    cppNamespace := owner.cppNamespace
  }

def methodKind (scope : MemberScope) : CppCallableKind :=
  if scope = .static then .staticMethod else .instanceMethod

/-- `_method_route`. -/
def methodRoute (binding : SemanticBinding) (source : CppMethodSource) (owner : CppClassSource) :
    Except FrontendError CppCallableRoute := do
  requireSource binding.source.declarationId source.provenance.declarationId
  let expectedKind := methodKind binding.memberScope
  require (source.static = decide (expectedKind = .staticMethod))
    (.route "semantic and C++ method scopes disagree")
  let parameters ← parameterRoutes binding.parameters source.parameters
  return {
    sourceDeclarationId := source.provenance.declarationId
    kind := expectedKind
    publicName := binding.name
    cppName := source.cppName
    ownerCppType := some (qualifiedCppType owner)
    parameters := parameters
    result := binding.result
    resultCppSpelling := source.returnTypeSpelling
    execution := binding.execution
    noexcept := source.noexcept
    javascriptPublic := binding.capabilities.javascriptPublic
    cppNamespace := owner.cppNamespace
    const := source.const
  }

/-- `_field_route`: a copied field is found by its name, one of an object by its source. -/
def fieldRoute (semantic : SemanticField) (source : CppFieldSource) (copiedProjection : Bool) :
    Except FrontendError CppFieldRoute := do
  if copiedProjection then
    require (semantic.name = source.cppName)
      (.route "semantic and C++ copied field names disagree")
  else
    requireSource semantic.source.declarationId source.provenance.declarationId
  require (copiedProjection = true ∨ semantic.mutable = source.mutable)
    (.route "semantic and C++ field mutability disagree")
  return {
    sourceDeclarationId := source.provenance.declarationId
    fieldId := semantic.fieldId
    publicName := semantic.name
    cppName := source.cppName
    cppSpelling := source.typeSpelling
    semanticType := semantic.type
    mutable := source.mutable
  }

/-! ### Types on a C++ route -/

/-- `except SemanticModelError as exc: raise CppRouteError(str(exc))`. -/
def routing (body : Except SemanticError Unit) : Except FrontendError Unit :=
  body.mapError fun
    | .model message => .route message
    | error => .semantic error

/-- `validate_type`. -/
def validateCppType (api : SemanticApi) (type : SemanticType) (source : SourceProvenance) :
    Except FrontendError Unit :=
  routing (api.validateRoute type .cpp .cpp source source)

/-- `validate_binding`. -/
def validateCppBinding (api : SemanticApi) (binding : SemanticBinding) :
    Except FrontendError Unit := do
  checkEach binding.parameters fun parameter => validateCppType api parameter.type binding.source
  validateCppType api binding.result binding.source

/-! ### The plan -/

/-- The methods that the internal facade lowers: those of the classes that are no objects. -/
def implementationMethodIds (classSources : List (String × CppClassSource)) : List String :=
  ((Python.dictValues classSources).filter fun owner => !owner.intent.declaresObject).flatMap
    fun owner => owner.methods.map (·.provenance.declarationId)

/-- The turn of one function, which has a route unless it is the method of an implementation owner
or comes from another language. -/
def planCppFunction (api : SemanticApi) (functionSources : List (String × CppFunctionSource))
    (methodIds : List String) (binding : SemanticBinding) :
    Except FrontendError (Option CppCallableRoute) :=
  if binding.source.language ≠ "cpp" then .ok none
  else do
    validateCppBinding api binding
    require (binding.kind = .function) (.route "top-level C++ binding is not a function")
    match functionSources.lookup binding.source.declarationId with
    | some source => do
        let route ← functionRoute binding source
        return some route
    | none => do
        require (binding.source.declarationId ∈ methodIds)
          (.route s!"missing C++ function source {Python.repr binding.source.declarationId}")
        return none

/-- The routes of one declaration. -/
inductive CppDeclaredRoute where
  | object (route : CppObjectRoute)
  | value (route : CppValueRoute)
  | enum (route : CppEnumRoute)
deriving DecidableEq

namespace CppDeclaredRoute

def namedType : CppDeclaredRoute → CppNamedTypeRoute
  | .object route => route.namedType
  | .value route => route.namedType
  | .enum route => route.namedType

def object? : CppDeclaredRoute → Option CppObjectRoute
  | .object route => some route
  | .value _ | .enum _ => none

def value? : CppDeclaredRoute → Option CppValueRoute
  | .value route => some route
  | .object _ | .enum _ => none

def enum? : CppDeclaredRoute → Option CppEnumRoute
  | .enum route => some route
  | .object _ | .value _ => none

end CppDeclaredRoute

def planCppEnum (enumSources : List (String × CppEnumSource)) (projection : SemanticProjection)
    (declaration : SemanticEnumDeclaration) : Except FrontendError CppEnumRoute := do
  let source ← demand (enumSources.lookup projection.source.declarationId)
    (.route s!"missing C++ enum source {Python.repr projection.source.declarationId}")
  let named : CppNamedTypeRoute := {
    typeId := declaration.typeId
    publicName := declaration.name
    cppType := qualifiedCppEnum source
    includePath := source.includePath
    kind := .enumRef
    sourceDeclarationId := source.provenance.declarationId
  }
  require (declaration.constants = source.constants)
    (.route s!"semantic and C++ enum constants disagree for {Python.repr declaration.name}")
  return ⟨named, source.constants⟩

def classNamedRoute (typeId publicName : String) (kind : SemanticTypeKind)
    (owner : CppClassSource) : CppNamedTypeRoute where
  typeId := typeId
  publicName := publicName
  cppType := qualifiedCppType owner
  includePath := owner.includePath
  kind := kind
  sourceDeclarationId := owner.provenance.declarationId

def planCppValue (owner : CppClassSource) (declaration : SemanticValueDeclaration) :
    Except FrontendError CppValueRoute := do
  let fieldSources := Python.dictOf CppFieldSource.cppName owner.fields
  let fields ← declaration.fields.mapM fun field => do
    let source ← demand (fieldSources.lookup field.name)
      (.route s!"missing C++ value field source for {Python.repr declaration.name}")
    fieldRoute field source true
  return ⟨classNamedRoute declaration.typeId declaration.name .valueRef owner, fields⟩

def planCppConstructor (api : SemanticApi) (owner : CppClassSource)
    (declaration : SemanticObjectDeclaration) : Except FrontendError (Option CppCallableRoute) :=
  match declaration.constructor with
  | none => .ok none
  | some constructor => do
      checkEach constructor.parameters fun parameter =>
        validateCppType api parameter.type constructor.source
      let byId := Python.dictOf
        (fun source : CppConstructorSource => source.provenance.declarationId) owner.constructors
      let source ← demand (byId.lookup constructor.source.declarationId)
        (.route s!"missing C++ constructor source for {Python.repr declaration.name}")
      let route ← constructorRoute constructor source owner declaration.typeId
      return some route

def planCppMethod (api : SemanticApi) (owner : CppClassSource) (binding : SemanticBinding) :
    Except FrontendError CppCallableRoute := do
  validateCppBinding api binding
  let methodSources := Python.dictOf
    (fun source : CppMethodSource => source.provenance.declarationId) owner.methods
  let source ← demand (methodSources.lookup binding.source.declarationId)
    (.route s!"missing C++ method source {Python.repr binding.source.declarationId}")
  methodRoute binding source owner

def planCppField (api : SemanticApi) (owner : CppClassSource) (field : SemanticField) :
    Except FrontendError CppFieldRoute := do
  validateCppType api field.type field.source
  let fieldSources := Python.dictOf
    (fun source : CppFieldSource => source.provenance.declarationId) owner.fields
  let source ← demand (fieldSources.lookup field.source.declarationId)
    (.route s!"missing C++ field source {Python.repr field.source.declarationId}")
  fieldRoute field source false

def planCppObject (api : SemanticApi) (owner : CppClassSource)
    (declaration : SemanticObjectDeclaration) : Except FrontendError CppObjectRoute := do
  let constructor ← planCppConstructor api owner declaration
  let methods ← declaration.methods.mapM (planCppMethod api owner)
  let fields ← declaration.fields.mapM (planCppField api owner)
  return {
    namedType := classNamedRoute declaration.typeId declaration.name .objectRef owner
    constructor := constructor
    methods := methods
    fields := fields
  }

/-- The class a value or an object comes from. -/
def classSource (classSources : List (String × CppClassSource)) (projection : SemanticProjection) :
    Except FrontendError CppClassSource :=
  demand (classSources.lookup projection.source.declarationId)
    (.route s!"missing C++ class source {Python.repr projection.source.declarationId}")

/-- The turn of one declaration, which has a route when it has a C++ projection. -/
def planCppDeclaration (api : SemanticApi) (classSources : List (String × CppClassSource))
    (enumSources : List (String × CppEnumSource)) (declaration : SemanticDeclaration) :
    Except FrontendError (Option CppDeclaredRoute) :=
  match declaration.projections.filter (·.backend = .cpp) with
  | [] => .ok none
  | [projection] =>
      match declaration with
      | .enum declaration => do
          let route ← planCppEnum enumSources projection declaration
          return some (.enum route)
      | .value declaration => do
          let owner ← classSource classSources projection
          let route ← planCppValue owner declaration
          return some (.value route)
      | .object declaration => do
          let owner ← classSource classSources projection
          let route ← planCppObject api owner declaration
          return some (.object route)
  | _ =>
      .error (.route s!"type {Python.repr declaration.name} has multiple C++ projections")

/-- `plan_cpp_routes`. -/
def planCppRoutes (api : SemanticApi) (functions : List CppFunctionSource)
    (classes : List CppClassSource) (enums : List CppEnumSource) :
    Except FrontendError CppRoutePlan := do
  let functionSources := Python.dictOf
    (fun source : CppFunctionSource => source.provenance.declarationId) functions
  let classSources := Python.dictOf
    (fun source : CppClassSource => source.provenance.declarationId) classes
  let enumSources := Python.dictOf
    (fun source : CppEnumSource => source.provenance.declarationId) enums
  let functionRoutes ← api.functions.mapM
    (planCppFunction api functionSources (implementationMethodIds classSources))
  let declared ← api.declarations.mapM (planCppDeclaration api classSources enumSources)
  let routes := declared.reduceOption
  return {
    functions := functionRoutes.reduceOption
    objects := routes.filterMap (·.object?)
    values := routes.filterMap (·.value?)
    enums := routes.filterMap (·.enum?)
    namedTypes := routes.map (·.namedType)
  }

end SupernoteModule.Frontend
