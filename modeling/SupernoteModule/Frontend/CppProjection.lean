import SupernoteModule.Frontend.CppSource
import SupernoteModule.Semantic.Api

/-!
# Projection of C++ sources

The C++ records become functions and declarations of a semantic API. Marked types are resolved by
name, every type spelling must be one of the canonical ones, and each kind of class has its own
branch.
-/

namespace SupernoteModule.Frontend

open SupernoteModule.Lib SupernoteModule.Semantic

/-- `_error`. -/
def projectionError (source : SourceProvenance) (message : String) : FrontendError :=
  .projection s!"{source.location}: {message}"

/-! ### Marked types -/

inductive NamedKind where
  | object
  | value
  | enum
deriving DecidableEq, Repr

def NamedKind.text : NamedKind → String
  | .object => "object"
  | .value => "value"
  | .enum => "enum"

structure CppNamedType where
  qualifiedName : String
  publicName : String
  kind : NamedKind
  typeId : String
deriving DecidableEq

/-- `_CppTypeRegistry`: the marked types in the order they were added. -/
abbrev CppTypeRegistry := List CppNamedType

namespace CppTypeRegistry

/-- `self.by_qualified.get(name)`. -/
def byQualified (registry : CppTypeRegistry) (name : String) : Option CppNamedType :=
  registry.find? (·.qualifiedName = name)

/-- `self.by_final.get(name, [])`. -/
def byFinal (registry : CppTypeRegistry) (name : String) : List CppNamedType :=
  registry.filter (·.publicName = name)

/-- `_add`. -/
def add (registry : CppTypeRegistry) (featureId qualifiedName publicName : String)
    (kind : NamedKind) : Except FrontendError CppTypeRegistry := do
  let typeId ← semantically (semanticTypeId featureId publicName)
  require ((registry.byQualified qualifiedName).isNone)
    (.projection s!"duplicate marked C++ type definition {Python.repr qualifiedName}")
  return registry ++ [⟨qualifiedName, publicName, kind, typeId⟩]

def addClass (featureId : String) (registry : CppTypeRegistry) (source : CppClassSource) :
    Except FrontendError CppTypeRegistry :=
  if source.intent.declaresObject then
    registry.add featureId source.qualifiedName source.cppName .object
  else if source.intent.declaresValue then
    registry.add featureId source.qualifiedName source.cppName .value
  else .ok registry

def addEnum (featureId : String) (registry : CppTypeRegistry) (source : CppEnumSource) :
    Except FrontendError CppTypeRegistry :=
  registry.add featureId source.qualifiedName source.cppName .enum

/-- `__init__`. -/
def make (featureId : String) (classes : List CppClassSource) (enums : List CppEnumSource) :
    Except FrontendError CppTypeRegistry := do
  let registry ← classes.foldlM (addClass featureId) []
  enums.foldlM (addEnum featureId) registry

/-- The type an unqualified name finds in the enclosing namespaces, the innermost first. -/
def lookupEnclosing (registry : CppTypeRegistry) (cppNamespace : List String) (name : String) :
    Option CppNamedType :=
  ((List.range (cppNamespace.length + 1)).reverse).findSome? fun count =>
    registry.byQualified (joinNames (cppNamespace.take count ++ [name]))

def resolve (registry : CppTypeRegistry) (spelling : String) (cppNamespace : List String)
    (source : SourceProvenance) : Except FrontendError CppNamedType := do
  let name := Python.removePrefix spelling "::"
  let unknown := projectionError source s!"unknown marked C++ type {Python.repr spelling}"
  if Python.contains name "::" then
    demand (registry.byQualified name) unknown
  else
    match registry.lookupEnclosing cppNamespace name with
    | some candidate => return candidate
    | none =>
        match registry.byFinal name with
        | [] => .error unknown
        | [candidate] => return candidate
        | _ =>
            .error <| projectionError source
              (s!"ambiguous unqualified marked C++ type {Python.repr spelling}; " ++
                "use its exact namespace-qualified name")

/-- `resolve`, where an unknown type is none and an ambiguous one stays an error. -/
def resolveNamed (registry : CppTypeRegistry) (spelling : String) (cppNamespace : List String)
    (source : SourceProvenance) : Except FrontendError (Option CppNamedType) :=
  match registry.resolve spelling cppNamespace source with
  | .ok named => .ok (some named)
  | .error (.projection message) =>
      if Python.contains message "ambiguous unqualified" then .error (.projection message)
      else .ok none
  | .error error => .error error

end CppTypeRegistry

/-! ### Canonical types -/

/-- `_CPP_TYPES`. -/
def cppTypeTable : List (String × SemanticType) := [
  ("void", .void),
  ("bool", .scalar .bool),
  ("int32_t", .scalar .int32),
  ("std::int32_t", .scalar .int32),
  ("int64_t", .scalar .int64),
  ("std::int64_t", .scalar .int64),
  ("float", .scalar .float32),
  ("double", .scalar .float64),
  ("std::string", .scalar .string),
  ("std::vector<std::byte>", .scalar .bytes)
]

/-- `_normalized_cpp_type`. -/
def normalizedCppType (spelling : String) : String :=
  let around (token : String) (text : List Char) := Python.subAround token.toList text.length text
  String.ofList <| Python.subSpaces <| around "&" <| around ">" <| around "<" <| around "::" <|
    Python.strip spelling.toList

/-- The nesting of the angle brackets, and nothing when a comma stands outside all of them. -/
def templateDepth : Int → List Char → Option Int
  | depth, [] => some depth
  | depth, '<' :: rest => templateDepth (depth + 1) rest
  | depth, '>' :: rest => templateDepth (depth - 1) rest
  | depth, ',' :: rest => if depth = 0 then none else templateDepth depth rest
  | depth, _ :: rest => templateDepth depth rest

/-- `_template_inner`. -/
def templateInner (text template : String) : Option String :=
  let opening := template ++ "<"
  if Python.startsWith text opening && Python.endsWith text ">" then
    let inner := Python.dropLast (Python.dropFirst text opening.toList.length) 1
    if inner ≠ "" ∧ templateDepth 0 inner.toList = some 0 then some inner else none
  else none

/-- Where a type is spelled. -/
inductive CppPosition where
  | direct
  | parameter
  | result
  | field
  | contained
deriving DecidableEq, Repr

def CppNamedType.semanticType (named : CppNamedType) : Except FrontendError SemanticType :=
  semantically <|
    match named.kind with
    | .object => SemanticType.objectRef named.typeId
    | .value => SemanticType.valueRef named.typeId
    | .enum => SemanticType.enumRef named.typeId

/-- The spellings of a native object: what owns it, and outside results, fields and containers what
borrows it. -/
def validObjectForm (shared reference coreConst : Bool) (isResult : Bool) (position : CppPosition) :
    Bool :=
  if isResult || position = .field || position = .contained then
    shared && !reference && !coreConst
  else if position = .parameter && shared then
    (!reference && !coreConst) || (reference && coreConst)
  else
    shared || (reference && position = .parameter)

/-- `valid_object_form` of a spelling taken apart, and what the error says otherwise. -/
def requireObjectForm (named : CppNamedType) (shared reference coreConst : Bool) (isResult : Bool)
    (position : CppPosition) (source : SourceProvenance) : Except FrontendError Unit :=
  let expected :=
    if isResult || position = .field || position = .contained then "std::shared_ptr<T>"
    else "T&, const T&, std::shared_ptr<T>, or const std::shared_ptr<T>&"
  require (validObjectForm shared reference coreConst isResult position)
    (projectionError source
      (s!"native object {Python.repr named.publicName} requires {expected} " ++
        "in this C++ position"))

def unsupportedCppType (spelling : String) (source : SourceProvenance) : FrontendError :=
  projectionError source
    (s!"unsupported marked C++ type {Python.repr spelling}; use a canonical " ++
      "owned generated type (void, bool, int32_t/std::int32_t, int64_t/std::int64_t, " ++
      "float, double, std::string, or std::vector<std::byte>)")

/-- The end of `canonical_cpp_type`: a marked type, possibly shared or behind a reference. -/
def namedCppType (registry : CppTypeRegistry) (source : SourceProvenance)
    (cppNamespace : List String) (spelling canonical : String) (isResult : Bool)
    (position : CppPosition) : Except FrontendError SemanticType := do
  let reference := Python.endsWith canonical "&"
  let unreferenced := if reference then Python.dropLast canonical 1 else canonical
  let coreConst := Python.startsWith unreferenced "const "
  let core := Python.removePrefix unreferenced "const "
  let sharedInner := templateInner core "std::shared_ptr"
  match ← registry.resolveNamed (sharedInner.getD core) cppNamespace source with
  | none => .error (unsupportedCppType spelling source)
  | some named => do
      if named.kind = .object then
        requireObjectForm named sharedInner.isSome reference coreConst isResult position source
      else do
        require sharedInner.isNone
          (projectionError source
            ("std::shared_ptr is valid only for native object types, not " ++
              s!"{named.kind.text} {Python.repr named.publicName}"))
        require (¬ (reference ∨ coreConst))
          (projectionError source
            (s!"{named.kind.text} {Python.repr named.publicName} must use its exact " ++
              "owned value spelling in this C++ position"))
      named.semanticType

/-- `canonical_cpp_type`. The fuel bounds the depth of the containers. -/
def canonicalCppTypeFrom (registry : Option CppTypeRegistry) (source : SourceProvenance)
    (cppNamespace : List String) :
    Nat → String → Bool → CppPosition → Except FrontendError SemanticType
  | 0, _, _, _ => .error (.semantic .recursion)
  | fuel + 1, spelling, isResult, position =>
      let canonical := normalizedCppType spelling
      match cppTypeTable.lookup canonical with
      | some semantic => do
          require (semantic.isVoid → isResult)
            (projectionError source "void is valid only as a marked function result")
          return semantic
      | none =>
          match registry with
          | none => .error (unsupportedCppType spelling source)
          | some types =>
              match templateInner canonical "std::vector" with
              | some inner => do
                  let element ←
                    canonicalCppTypeFrom registry source cppNamespace fuel inner false .contained
                  semantically (SemanticType.array element)
              | none =>
                  match templateInner canonical "std::optional" with
                  | some inner => do
                      let element ←
                        canonicalCppTypeFrom registry source cppNamespace fuel inner false
                          .contained
                      semantically (SemanticType.nullable element)
                  | none =>
                      namedCppType types source cppNamespace spelling canonical isResult position

/-- Every container takes at least its brackets, so its spelling is longer than what it holds. -/
def canonicalCppType (registry : Option CppTypeRegistry) (source : SourceProvenance)
    (cppNamespace : List String) (spelling : String) (isResult : Bool) (position : CppPosition) :
    Except FrontendError SemanticType :=
  canonicalCppTypeFrom registry source cppNamespace (spelling.length + 1) spelling isResult position

/-! ### Functions, methods and constructors -/

def cppParameters (registry : Option CppTypeRegistry) (source : SourceProvenance)
    (cppNamespace : List String) (parameters : List CppParameterSource) :
    Except FrontendError (List SemanticParameter) :=
  parameters.mapM fun parameter => do
    let type ←
      canonicalCppType registry source cppNamespace parameter.typeSpelling false .parameter
    semantically (SemanticParameter.make ⟨parameter.name, type⟩)

def cppResult (registry : Option CppTypeRegistry) (source : SourceProvenance)
    (cppNamespace : List String) (spelling : String) : Except FrontendError SemanticType :=
  canonicalCppType registry source cppNamespace spelling true .result

def bindingId (source : SourceProvenance) : String :=
  s!"supernote:binding:{source.declarationId}"

/-- `project_cpp_function`, which gives nothing for ordinary code. -/
def projectCppFunction (registry : Option CppTypeRegistry) (source : CppFunctionSource) :
    Except FrontendError (Option SemanticBinding) :=
  if source.intent.role = .ordinary then .ok none
  else do
    require (¬ (source.provenance.language = "c" ∨ Python.endsWith source.provenance.path ".c"))
      (projectionError source.provenance
        ("direct marked C bindings are unsupported; place the " ++
          "marker on a canonical C++ boundary that calls ordinary C23 code"))
    require (source.provenance.language = "cpp")
      (projectionError source.provenance
        s!"invalid C++ frontend language {Python.repr source.provenance.language}")
    let parameters ←
      cppParameters registry source.provenance source.cppNamespace source.parameters
    let result ←
      cppResult registry source.provenance source.cppNamespace source.returnTypeSpelling
    let binding ← semantically <| SemanticBinding.make {
      bindingId := bindingId source.provenance
      kind := .function
      name := source.cppName
      capabilities := BindingCapabilities.forRole source.intent.role
      execution := source.intent.execution
      parameters := parameters
      result := result
      source := source.provenance
      memberScope := SemanticBinding.inferredScope .function
    }
    return some binding

def memberScope (static : Bool) : MemberScope :=
  if static then .static else .instance_

/-- `_project_method` of an object, the only class that still has methods of its own. -/
def projectCppMethod (registry : CppTypeRegistry) (owner : CppClassSource) (ownerId : String)
    (source : CppMethodSource) : Except FrontendError SemanticBinding := do
  require (source.intent.role ≠ .ordinary)
    (projectionError source.provenance "ordinary methods do not become semantic bindings")
  let parameters ←
    cppParameters registry source.provenance owner.cppNamespace source.parameters
  let result ←
    cppResult registry source.provenance owner.cppNamespace source.returnTypeSpelling
  semantically <| SemanticBinding.make {
    bindingId := bindingId source.provenance
    kind := .objectMethod
    name := source.cppName
    capabilities := BindingCapabilities.forRole source.intent.role
    execution := source.intent.execution
    parameters := parameters
    result := result
    source := source.provenance
    ownerId := some ownerId
    ownerName := some owner.cppName
    memberScope := memberScope source.static
  }

/-- `_project_implementation_method`. -/
def projectImplementationMethod (registry : CppTypeRegistry) (owner : CppClassSource)
    (source : CppMethodSource) : Except FrontendError SemanticBinding := do
  let parameters ←
    cppParameters registry source.provenance owner.cppNamespace source.parameters
  let result ←
    cppResult registry source.provenance owner.cppNamespace source.returnTypeSpelling
  semantically <| SemanticBinding.make {
    bindingId := bindingId source.provenance
    kind := .function
    name := source.cppName
    capabilities := BindingCapabilities.forRole source.intent.role
    execution := source.intent.execution
    parameters := parameters
    result := result
    source := source.provenance
    memberScope := SemanticBinding.inferredScope .function
  }

/-- `_constructor_parameters`: an error counts only when the constructor is selected. -/
def constructorParameters (registry : Option CppTypeRegistry) (cppNamespace : List String)
    (source : CppConstructorSource) : Except FrontendError (Option (List SemanticParameter)) :=
  match cppParameters registry source.provenance cppNamespace source.parameters with
  | .ok parameters => .ok (some parameters)
  | .error error => if source.selected then .error error else .ok none

/-! ### Classes and enumerations -/

/-- `_semantic_field`. -/
def cppSemanticField (registry : CppTypeRegistry) (owner : CppClassSource) (ownerId : String)
    (source : CppFieldSource) : Except FrontendError SemanticField := do
  require (source.access = "public")
    (projectionError source.provenance "a generated C++ field must be public")
  require (source.static = false)
    (projectionError source.provenance "static generated fields are unsupported")
  require (source.intent.role = .exported)
    (projectionError source.provenance "generated fields require SupernotePluginExport")
  let type ←
    canonicalCppType registry source.provenance owner.cppNamespace source.typeSpelling false .field
  semantically <| SemanticField.make {
    fieldId := s!"{ownerId}:field:{source.cppName}"
    ownerId := ownerId
    name := source.cppName
    type := type
    source := source.provenance
    mutable := source.mutable
  }

/-- `_selected_object_constructor`. -/
def selectedObjectConstructor (registry : CppTypeRegistry) (source : CppClassSource) :
    Except FrontendError (Option SemanticConstructor) :=
  match source.constructors.filter (·.selected) with
  | [] => .ok none
  | [constructor] => do
      require (constructor.access = "public" ∧ constructor.deleted = false)
        (projectionError constructor.provenance
          "SupernoteConstructor must select a public non-deleted constructor")
      let parameters ← constructorParameters registry source.cppNamespace constructor
      let parameters ← demand parameters (.semantic .assertion)
      let semantic ← semantically (SemanticConstructor.make ⟨constructor.provenance, parameters⟩)
      return some semantic
  | _ =>
      .error <| projectionError source.provenance
        "an object may select at most one SupernoteConstructor"

/-- `_project_cpp_object`. -/
def projectCppObject (registry : CppTypeRegistry) (featureId : String) (source : CppClassSource) :
    Except FrontendError SemanticObjectDeclaration := do
  let typeId ← semantically (semanticTypeId featureId source.cppName)
  let methods ← source.generatedMethods.mapM (projectCppMethod registry source typeId)
  let fields ← source.fields.mapM (cppSemanticField registry source typeId)
  let projection ← semantically (SemanticProjection.make ⟨.cpp, source.provenance⟩)
  let constructor ← selectedObjectConstructor registry source
  semantically <| SemanticObjectDeclaration.make {
    featureId := featureId
    typeId := typeId
    name := source.cppName
    projection := projection
    constructor := constructor
    methods := methods
    fields := fields
  }

/-- `_project_cpp_value`. -/
def projectCppValue (registry : CppTypeRegistry) (featureId : String) (source : CppClassSource) :
    Except FrontendError SemanticValueDeclaration := do
  require (source.constructors.all (!·.selected))
    (projectionError source.provenance "SupernoteConstructor cannot mark a value type")
  require (source.generatedMethods = [])
    (projectionError source.provenance "value types expose fields, not generated methods")
  let typeId ← semantically (semanticTypeId featureId source.cppName)
  let fields ← source.fields.mapM (cppSemanticField registry source typeId)
  let projection ← semantically (SemanticProjection.make ⟨.cpp, source.provenance⟩)
  semantically <| SemanticValueDeclaration.make {
    featureId := featureId
    typeId := typeId
    name := source.cppName
    fields := fields
    projections := [projection]
  }

/-- `_project_cpp_enum`. -/
def projectCppEnum (featureId : String) (source : CppEnumSource) :
    Except FrontendError SemanticEnumDeclaration := do
  let typeId ← semantically (semanticTypeId featureId source.cppName)
  let projection ← semantically (SemanticProjection.make ⟨.cpp, source.provenance⟩)
  semantically <| SemanticEnumDeclaration.make {
    featureId := featureId
    typeId := typeId
    name := source.cppName
    constants := source.constants
    projections := [projection]
  }

/-- `project_cpp_class`. A class has no role of its own, so the projection of classes with a role,
which the source still has, is never reached. -/
def projectCppClass (source : CppClassSource) : Except FrontendError (Option SemanticClass) :=
  match hrole : source.intent.role with
  | .ordinary => .ok none
  | .internal | .exported => absurd hrole (by simp [CppClassSource.role_eq_ordinary])

/-- What an unmarked class with marked methods must have. -/
def checkImplementationOwner (source : CppClassSource) : Except FrontendError Unit := do
  let eligible := source.constructors.filter fun constructor =>
    constructor.access = "public" ∧ constructor.deleted = false ∧ constructor.parameters = []
  require ((∃ method ∈ source.generatedMethods, method.static = false) → eligible.length = 1)
    (projectionError source.provenance
      ("an unmarked C++ implementation owner with instance " ++
        "methods requires one unambiguous public zero-argument construction path"))
  require (source.constructors.all (!·.selected))
    (projectionError source.provenance
      "SupernoteConstructor is valid only on a SupernotePluginObject class")

/-! ### The API -/

/-- The branch of `project_cpp_api` one class takes. -/
def projectCppClassSource (registry : CppTypeRegistry) (featureId : String)
    (api : SemanticApi.Fields) (source : CppClassSource) :
    Except FrontendError SemanticApi.Fields :=
  if source.intent.declaresObject then do
    let declaration ← projectCppObject registry featureId source
    return { api with declarations := api.declarations ++ [.object declaration] }
  else if source.intent.declaresValue then do
    let declaration ← projectCppValue registry featureId source
    return { api with declarations := api.declarations ++ [.value declaration] }
  else if source.generatedMethods ≠ [] then do
    checkImplementationOwner source
    let bindings ← source.generatedMethods.mapM (projectImplementationMethod registry source)
    return { api with functions := api.functions ++ bindings }
  else do
    let record ← projectCppClass source
    return { api with classes := api.classes ++ record.toList }

/-- What one class adds: an object, a value, or the methods of an owner without a marker. -/
theorem projectCppClassSource_cases {registry : CppTypeRegistry} {featureId : String}
    {api next : SemanticApi.Fields} {source : CppClassSource}
    (hok : projectCppClassSource registry featureId api source = .ok next) :
    (source.intent.declaresObject ∧ ∃ declaration,
      projectCppObject registry featureId source = .ok declaration ∧
        next = { api with declarations := api.declarations ++ [.object declaration] }) ∨
    (source.intent.declaresObject = false ∧ source.intent.declaresValue ∧ ∃ declaration,
      projectCppValue registry featureId source = .ok declaration ∧
        next = { api with declarations := api.declarations ++ [.value declaration] }) ∨
    (source.isOwner ∧ ∃ bindings,
      source.generatedMethods.mapM (projectImplementationMethod registry source) = .ok bindings ∧
        next = { api with functions := api.functions ++ bindings }) := by
  unfold projectCppClassSource at hok
  by_cases hobject : source.intent.declaresObject
  · simp only [if_pos hobject, bind_eq_ok, pure_eq_ok] at hok
    obtain ⟨declaration, hdeclaration, rfl⟩ := hok
    exact .inl ⟨hobject, declaration, hdeclaration, rfl⟩
  have hnotObject : source.intent.declaresObject = false := by simpa using hobject
  by_cases hvalue : source.intent.declaresValue
  · simp only [if_neg hobject, if_pos hvalue, bind_eq_ok, pure_eq_ok] at hok
    obtain ⟨declaration, hdeclaration, rfl⟩ := hok
    exact .inr (.inl ⟨hnotObject, hvalue, declaration, hdeclaration, rfl⟩)
  have howner : source.isOwner = true := by simp [CppClassSource.isOwner, hobject, hvalue]
  refine .inr (.inr ⟨howner, ?_⟩)
  by_cases hgenerated : source.generatedMethods ≠ []
  · simp only [if_neg hobject, if_neg hvalue, if_pos hgenerated, bind_eq_ok, pure_eq_ok] at hok
    obtain ⟨_, _, bindings, hbindings, rfl⟩ := hok
    exact ⟨bindings, hbindings, rfl⟩
  · simp only [if_neg hobject, if_neg hvalue, if_neg hgenerated, bind_eq_ok, pure_eq_ok] at hok
    obtain ⟨record, hrecord, rfl⟩ := hok
    have hmethods : source.generatedMethods = [] := by simpa using hgenerated
    refine ⟨[], by rw [hmethods]; rfl, ?_⟩
    unfold projectCppClass at hrecord
    split at hrecord
    · obtain rfl : none = record := by simpa using hrecord
      simp
    · rename_i hrole
      simp at hrole
    · rename_i hrole
      simp at hrole

/-- The records of `project_cpp_api`, before they are checked as one API. -/
def projectCppFields (featureId : String) (functions : List CppFunctionSource)
    (classes : List CppClassSource) (enums : List CppEnumSource) :
    Except FrontendError SemanticApi.Fields := do
  let registry ← CppTypeRegistry.make featureId classes enums
  let bindings ← functions.mapM (projectCppFunction registry)
  let api ← classes.foldlM (projectCppClassSource registry featureId)
    { functions := bindings.reduceOption }
  let declarations ← enums.mapM (projectCppEnum featureId)
  return { api with declarations := api.declarations ++ declarations.map .enum }

/-- `project_cpp_api`. -/
def projectCppApi (featureId : String) (functions : List CppFunctionSource)
    (classes : List CppClassSource) (enums : List CppEnumSource) :
    Except FrontendError SemanticApi := do
  let api ← projectCppFields featureId functions classes enums
  semantically (SemanticApi.make api)

end SupernoteModule.Frontend
