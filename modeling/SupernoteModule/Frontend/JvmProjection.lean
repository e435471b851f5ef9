import SupernoteModule.Frontend.CppProjection
import SupernoteModule.Frontend.JvmSource

/-!
# Projection of JVM sources

The owners the compiler plugin reports become functions and declarations of a semantic API. A marked
class is an object, a value or, with constants, an enumeration; an unmarked owner gives its
declarations as functions.
-/

namespace SupernoteModule.Frontend

open SupernoteModule.Lib SupernoteModule.Semantic

/-! ### Types -/

structure JvmNamedType where
  ownerClass : String
  kind : NamedKind
  typeId : String
  publicName : String
deriving DecidableEq

/-- `_JvmTypeRegistry`: the marked owners in the order they were added. -/
abbrev JvmTypeRegistry := List JvmNamedType

namespace JvmTypeRegistry

/-- `self.values.get(name)`, where a later owner of a class replaces an earlier one. -/
def resolve (registry : JvmTypeRegistry) (name : String) : Option JvmNamedType :=
  registry.reverse.find? (·.ownerClass = name)

def ownerKind (owner : JvmOwnerSource) : NamedKind :=
  if owner.enumConstants ≠ [] then .enum
  else if owner.intent.declaresObject then .object
  else .value

/-- `__init__`. -/
def make (featureId : String) (owners : List JvmOwnerSource) :
    Except FrontendError JvmTypeRegistry :=
  (owners.filter fun owner => owner.intent.declaresObject || owner.intent.declaresValue).mapM
    fun owner => do
      let typeId ← semantically (semanticTypeId featureId owner.sourceName)
      return ⟨owner.ownerClass, ownerKind owner, typeId, owner.sourceName⟩

end JvmTypeRegistry

def kotlinTypes : List (String × SemanticType) := [
  ("kotlin.Unit", .void),
  ("kotlin.Boolean", .scalar .bool),
  ("kotlin.Int", .scalar .int32),
  ("kotlin.Long", .scalar .int64),
  ("kotlin.Float", .scalar .float32),
  ("kotlin.Double", .scalar .float64),
  ("kotlin.String", .scalar .string),
  ("kotlin.ByteArray", .scalar .bytes)
]

def javaTypes : List (String × SemanticType) := [
  ("void", .void),
  ("boolean", .scalar .bool),
  ("int", .scalar .int32),
  ("long", .scalar .int64),
  ("float", .scalar .float32),
  ("double", .scalar .float64),
  ("java.lang.String", .scalar .string),
  ("byte[]", .scalar .bytes)
]

def javaBoxedTypes : List (String × SemanticType) := [
  ("java.lang.Boolean", .scalar .bool),
  ("java.lang.Integer", .scalar .int32),
  ("java.lang.Long", .scalar .int64),
  ("java.lang.Float", .scalar .float32),
  ("java.lang.Double", .scalar .float64)
]

def jvmTypeTable : JvmLanguage → List (String × SemanticType)
  | .kotlin => kotlinTypes
  | .java => javaTypes

def JvmNamedType.semanticType (named : JvmNamedType) : Except FrontendError SemanticType :=
  semantically <|
    match named.kind with
    | .object => SemanticType.objectRef named.typeId
    | .value => SemanticType.valueRef named.typeId
    | .enum => SemanticType.enumRef named.typeId

/-- The scalar a spelling stands for, where Java tells boxed spellings from primitive ones. -/
def jvmScalar (language : JvmLanguage) (source : SourceProvenance) (spelling : String)
    (boxes : Bool) : Except FrontendError (Option SemanticType) :=
  let semantic := (jvmTypeTable language).lookup spelling
  match language with
  | .kotlin => .ok semantic
  | .java =>
      match javaBoxedTypes.lookup spelling with
      | some boxed =>
          if boxes then .ok (some boxed)
          else
            .error <| projectionError source
              (s!"Java direct non-null scalar {Python.repr spelling} must use its " ++
                "primitive spelling")
      | none => do
          require (¬ (boxes ∧ spelling ∈ ["boolean", "int", "long", "float", "double"]))
            (projectionError source
              (s!"Java {spelling} must use its boxed reference spelling in " ++
                "nullable or generic positions"))
          return semantic

def unsupportedJvmType (language : JvmLanguage) (spelling : String) (source : SourceProvenance) :
    FrontendError :=
  let accepted := ", ".intercalate ((jvmTypeTable language).map Prod.fst)
  projectionError source
    (s!"unsupported marked {value language} type {Python.repr spelling}; " ++
      s!"use one canonical generated type ({accepted})")

def makeNullable (nullable : Bool) (semantic : SemanticType) : Except FrontendError SemanticType :=
  if nullable then semantically (SemanticType.nullable semantic) else .ok semantic

/-- `canonical_jvm_type` of a spelling that is no list. -/
def plainJvmType (registry : Option JvmTypeRegistry) (language : JvmLanguage)
    (source : SourceProvenance) (spelling : String) (nullable isResult generic : Bool) :
    Except FrontendError SemanticType := do
  let scalar ← jvmScalar language source spelling (generic || nullable)
  let semantic ←
    match scalar, registry.bind (·.resolve spelling) with
    | some semantic, _ => .ok semantic
    | none, some named => named.semanticType
    | none, none => .error (unsupportedJvmType language spelling source)
  require (semantic.isVoid → isResult)
    (projectionError source "void/Unit is valid only as a marked result")
  makeNullable nullable semantic

mutual

/-- `canonical_jvm_type`. -/
def canonicalJvmType (registry : Option JvmTypeRegistry) (language : JvmLanguage)
    (source : SourceProvenance) :
    JvmTypeSource → Bool → Bool → Except FrontendError SemanticType
  | .mk spelling nullable arguments, isResult, generic => do
      require (¬ (nullable ∧ spelling ∈ ["kotlin.Unit", "void"]))
        (projectionError source "void/Unit cannot be nullable")
      if spelling ∈ ["kotlin.collections.List", "java.util.List"] then
        let element ← canonicalJvmElement registry language source arguments
        let semantic ← semantically (SemanticType.array element)
        makeNullable nullable semantic
      else
        plainJvmType registry language source spelling nullable isResult generic

/-- The type of a list's elements. -/
def canonicalJvmElement (registry : Option JvmTypeRegistry) (language : JvmLanguage)
    (source : SourceProvenance) : List JvmTypeSource → Except FrontendError SemanticType
  | [argument] => canonicalJvmType registry language source argument false true
  | _ => .error (projectionError source "List requires exactly one invariant type argument")

end

/-! ### Members -/

/-- `_parameters`: what the runtime injects is left out. -/
def jvmParameters (registry : Option JvmTypeRegistry) (language : JvmLanguage)
    (source : SourceProvenance) (parameters : List JvmParameterSource) :
    Except FrontendError (List SemanticParameter) := do
  let visible ← parameters.mapM fun item =>
    match item.injected with
    | some _ => do
        require (item.nullable = false)
          (projectionError source "runtime-injected JVM dependencies cannot be nullable")
        return none
    | none => do
        let type ← canonicalJvmType registry language source item.typeSource false false
        let parameter ← semantically (SemanticParameter.make ⟨item.name, type⟩)
        return some parameter
  return visible.reduceOption

/-- `_selected_jvm_object_constructor`. -/
def selectedJvmObjectConstructor (registry : JvmTypeRegistry) (owner : JvmOwnerSource) :
    Except FrontendError (Option SemanticConstructor) :=
  match owner.constructors.filter (·.selected) with
  | [] => .ok none
  | [constructor] => do
      require (constructor.visibility = "public")
        (projectionError constructor.provenance
          "SupernoteConstructor must select a public constructor")
      let parameters ←
        jvmParameters registry owner.language constructor.provenance constructor.parameters
      let semantic ← semantically (SemanticConstructor.make ⟨constructor.provenance, parameters⟩)
      return some semantic
  | _ =>
      .error <| projectionError owner.provenance
        "an object may select at most one SupernoteConstructor"

/-- `_jvm_field`. -/
def jvmSemanticField (registry : JvmTypeRegistry) (owner : JvmOwnerSource) (ownerId : String)
    (source : JvmFieldSource) : Except FrontendError SemanticField := do
  require (source.ownerDeclarationId = owner.provenance.declarationId)
    (projectionError source.provenance "JVM field owner identity does not match its type")
  require (source.visibility = "public")
    (projectionError source.provenance "a generated JVM field/property must be public")
  require (source.isStatic = false)
    (projectionError source.provenance "static generated fields are unsupported")
  require (source.intent.role = .exported)
    (projectionError source.provenance "generated fields require SupernotePluginExport")
  let type ← canonicalJvmType registry owner.language source.provenance source.type false false
  semantically <| SemanticField.make {
    fieldId := s!"{ownerId}:field:{source.name}"
    ownerId := ownerId
    name := source.name
    type := type
    source := source.provenance
    mutable := source.mutable
  }

def jvmResult (registry : JvmTypeRegistry) (owner : JvmOwnerSource)
    (source : JvmDeclarationSource) : Except FrontendError SemanticType :=
  canonicalJvmType registry owner.language source.provenance source.resultTypeSource true false

/-- `_object_method`. -/
def projectJvmMethod (registry : JvmTypeRegistry) (owner : JvmOwnerSource) (ownerId : String)
    (source : JvmDeclarationSource) : Except FrontendError SemanticBinding := do
  require (source.visibility = "public")
    (projectionError source.provenance "a marked JVM object method must be public")
  let parameters ← jvmParameters registry owner.language source.provenance source.parameters
  let result ← jvmResult registry owner source
  semantically <| SemanticBinding.make {
    bindingId := bindingId source.provenance
    kind := .objectMethod
    name := source.jvmName
    capabilities := BindingCapabilities.forRole source.intent.role
    execution := source.intent.execution
    parameters := parameters
    result := result
    source := source.provenance
    ownerId := some ownerId
    ownerName := some owner.sourceName
    memberScope := memberScope source.isStatic
  }

/-- `_project_function`. -/
def projectJvmFunction (registry : JvmTypeRegistry) (owner : JvmOwnerSource)
    (source : JvmDeclarationSource) : Except FrontendError SemanticBinding := do
  require (source.intent.role ≠ .ordinary)
    (projectionError source.provenance "ordinary JVM declarations do not become bindings")
  require (source.visibility = "public")
    (projectionError source.provenance "a marked JVM declaration must be public")
  let parameters ← jvmParameters registry owner.language source.provenance source.parameters
  let result ← jvmResult registry owner source
  semantically <| SemanticBinding.make {
    bindingId := bindingId source.provenance
    kind := .function
    name := source.jvmName
    capabilities := BindingCapabilities.forRole source.intent.role
    execution := source.intent.execution
    parameters := parameters
    result := result
    source := source.provenance
    memberScope := SemanticBinding.inferredScope .function
  }

/-! ### Owners -/

/-- `_validate_jvm_bridge_type`. -/
def validateJvmBridgeType (owner : JvmOwnerSource) : Except FrontendError Unit := do
  require (owner.visibility = "public")
    (projectionError owner.provenance "a marked JVM type must be public")
  require (owner.typeParameterCount = 0)
    (projectionError owner.provenance "generic marked JVM types are unsupported")
  require (owner.supertypes = [])
    (projectionError owner.provenance
      "inheritance and interfaces on marked JVM types are unsupported")
  require (¬ (owner.language = .java ∧ owner.isFinal = false))
    (projectionError owner.provenance "marked Java object/value classes must be final")

/-- The members of a marked JVM class that become methods. -/
def JvmOwnerSource.generatedDeclarations (owner : JvmOwnerSource) : List JvmDeclarationSource :=
  owner.declarations.filter fun declaration => declaration.intent.role ≠ .ordinary

/-- `_project_jvm_object`. -/
def projectJvmObject (registry : JvmTypeRegistry) (featureId : String) (owner : JvmOwnerSource) :
    Except FrontendError SemanticObjectDeclaration := do
  validateJvmBridgeType owner
  require (owner.form = .class_)
    (projectionError owner.provenance "SupernotePluginObject requires a normal class")
  let ownerId ← semantically (semanticTypeId featureId owner.sourceName)
  let projection ← semantically (SemanticProjection.make ⟨.jvm, owner.provenance⟩)
  let constructor ← selectedJvmObjectConstructor registry owner
  let methods ← owner.generatedDeclarations.mapM (projectJvmMethod registry owner ownerId)
  let fields ← owner.fields.mapM (jvmSemanticField registry owner ownerId)
  semantically <| SemanticObjectDeclaration.make {
    featureId := featureId
    typeId := ownerId
    name := owner.sourceName
    projection := projection
    constructor := constructor
    methods := methods
    fields := fields
  }

/-- A Java value is built by its only public constructor, whose parameters are its fields. -/
def checkJavaConstructor (registry : JvmTypeRegistry) (owner : JvmOwnerSource)
    (fields : List SemanticField) : Except FrontendError Unit :=
  match owner.constructors.filter (·.visibility = "public") with
  | [constructor] => do
      let parameters ←
        jvmParameters registry owner.language constructor.provenance constructor.parameters
      require
        (parameters.map (fun item => (item.name, item.type)) =
          fields.map (fun item => (item.name, item.type)))
        (projectionError constructor.provenance
          ("Java value constructor parameters must match the ordered " ++
            "field/component names and types exactly"))
  | _ =>
      .error <| projectionError owner.provenance
        ("a Java value requires exactly one public constructor matching " ++
          "its ordered fields/record components")

/-- What `_project_jvm_value` asks of a Java value after its fields. -/
def checkJavaValue (registry : JvmTypeRegistry) (owner : JvmOwnerSource)
    (fields : List SemanticField) : Except FrontendError Unit :=
  match owner.language with
  | .kotlin => .ok ()
  | .java => do
      require (owner.fields.all (!·.mutable))
        (projectionError owner.provenance "Java value fields/record components must be final")
      checkJavaConstructor registry owner fields

/-- `_project_jvm_value`. -/
def projectJvmValue (registry : JvmTypeRegistry) (featureId : String) (owner : JvmOwnerSource) :
    Except FrontendError SemanticValueDeclaration := do
  validateJvmBridgeType owner
  require (owner.language = .kotlin → owner.isData)
    (projectionError owner.provenance "SupernotePluginValue requires a Kotlin data class")
  require (owner.language = .java → owner.isRecord ∨ owner.isFinal)
    (projectionError owner.provenance "Java values require a record or supported final class")
  require (owner.constructors.all (!·.selected))
    (projectionError owner.provenance "SupernoteConstructor cannot mark a value type")
  require (owner.generatedDeclarations = [])
    (projectionError owner.provenance
      "value types expose fields/properties, not generated methods")
  let ownerId ← semantically (semanticTypeId featureId owner.sourceName)
  let fields ← owner.fields.mapM (jvmSemanticField registry owner ownerId)
  checkJavaValue registry owner fields
  let projection ← semantically (SemanticProjection.make ⟨.jvm, owner.provenance⟩)
  semantically <| SemanticValueDeclaration.make {
    featureId := featureId
    typeId := ownerId
    name := owner.sourceName
    fields := fields
    projections := [projection]
  }

/-- `_project_jvm_enum`. -/
def projectJvmEnum (featureId : String) (owner : JvmOwnerSource) :
    Except FrontendError SemanticEnumDeclaration := do
  validateJvmBridgeType owner
  let ownerId ← semantically (semanticTypeId featureId owner.sourceName)
  let projection ← semantically (SemanticProjection.make ⟨.jvm, owner.provenance⟩)
  semantically <| SemanticEnumDeclaration.make {
    featureId := featureId
    typeId := ownerId
    name := owner.sourceName
    constants := owner.enumConstants
    projections := [projection]
  }

/-- `_owner_constructor`. -/
def ownerConstructor (constructor : JvmConstructorSource) : Bool :=
  constructor.visibility = "public" && constructor.parameters.length ≤ 1 &&
    constructor.parameters.all (·.injected.isSome)

/-- `_validate_ordinary_owner_route`. -/
def validateOrdinaryOwnerRoute (owner : JvmOwnerSource) : Except FrontendError Unit := do
  require (owner.visibility = "public")
    (projectionError owner.provenance "a JVM implementation owner must be public")
  checkEach owner.declarations fun declaration => do
    require (declaration.intent.target = .function)
      (projectionError declaration.provenance
        ("a declaration in an unmarked JVM owner is a feature function, " ++
          "not an object member"))
    require
      (declaration.isStatic =
        decide (owner.form = .kotlinTopLevel ∨ owner.form = .javaStatic))
      (projectionError declaration.provenance
        (s!"owner form {Python.repr (value owner.form)} has inconsistent static " ++
          "method facts"))
  if owner.form = .class_ then
    require ((owner.constructors.filter ownerConstructor).length = 1)
      (projectionError owner.provenance
        ("a JVM implementation owner requires exactly one eligible public " ++
          "Api(), Api(Context), or Api(ReactApplicationContext) constructor"))
    require (owner.constructors.all (!·.selected))
      (projectionError owner.provenance
        ("SupernoteConstructor selects a JavaScript object constructor, not " ++
          "a feature implementation owner"))

/-- The branch of `project_jvm_owners` one owner takes. An owner has no role of its own, so the
projection of classes with a role, which the source still has, is never reached. -/
def projectJvmOwner (registry : JvmTypeRegistry) (featureId : String) (api : SemanticApi.Fields)
    (owner : JvmOwnerSource) : Except FrontendError SemanticApi.Fields := do
  require (owner.provenance.language = value owner.language)
    (projectionError owner.provenance "JVM owner provenance language does not match")
  if owner.intent.declaresObject then
    let declaration ← projectJvmObject registry featureId owner
    return { api with declarations := api.declarations ++ [.object declaration] }
  else if owner.intent.declaresValue then
    if owner.enumConstants ≠ [] then
      let declaration ← projectJvmEnum featureId owner
      return { api with declarations := api.declarations ++ [.enum declaration] }
    else
      let declaration ← projectJvmValue registry featureId owner
      return { api with declarations := api.declarations ++ [.value declaration] }
  else
    validateOrdinaryOwnerRoute owner
    let bindings ← owner.declarations.mapM (projectJvmFunction registry owner)
    return { api with functions := api.functions ++ bindings }

/-- The records of `project_jvm_owners`, before they are checked as one API. -/
def projectJvmFields (featureId : String) (owners : List JvmOwnerSource) :
    Except FrontendError SemanticApi.Fields := do
  let registry ← JvmTypeRegistry.make featureId owners
  owners.foldlM (projectJvmOwner registry featureId) {}

/-- `project_jvm_owners`. -/
def projectJvmOwners (featureId : String) (owners : List JvmOwnerSource) :
    Except FrontendError SemanticApi := do
  let api ← projectJvmFields featureId owners
  semantically (SemanticApi.make api)

end SupernoteModule.Frontend
