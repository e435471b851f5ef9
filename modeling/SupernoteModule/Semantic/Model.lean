import SupernoteModule.Semantic.Types

/-!
# The semantic API

The records that say what a Supernote API means. Every record is checked when it is built, so one
that exists satisfies its invariants; the API as a whole checks identities, names, references and
value cycles across its records.
-/

namespace SupernoteModule.Semantic

open SupernoteModule.Lib SupernoteModule.Python

/-! ### Enumerations -/

inductive BindingKind where
  | function
  | objectMethod
  | serviceMethod
deriving DecidableEq, Repr

instance : Enumeration BindingKind where
  className := "BindingKind"
  members := [.function, .objectMethod, .serviceMethod]
  value
    | .function => "function"
    | .objectMethod => "object_method"
    | .serviceMethod => "service_method"
  complete member := by cases member <;> decide
  injective left right := by cases left <;> cases right <;> decide
  named member := by cases member <;> decide

inductive SemanticClassKind where
  | jsObject
  | internalService
deriving DecidableEq, Repr

instance : Enumeration SemanticClassKind where
  className := "SemanticClassKind"
  members := [.jsObject, .internalService]
  value
    | .jsObject => "js_object"
    | .internalService => "internal_service"
  complete member := by cases member <;> decide
  injective left right := by cases left <;> cases right <;> decide
  named member := by cases member <;> decide

inductive ExecutionMode where
  | sync
  | async
deriving DecidableEq, Repr

instance : Enumeration ExecutionMode where
  className := "ExecutionMode"
  members := [.sync, .async]
  value
    | .sync => "sync"
    | .async => "async"
  complete member := by cases member <;> decide
  injective left right := by cases left <;> cases right <;> decide
  named member := by cases member <;> decide

inductive DeclarationRole where
  | ordinary
  | internal
  | exported
deriving DecidableEq, Repr

inductive BackendFamily where
  | cpp
  | jvm
deriving DecidableEq, Repr

instance : Enumeration BackendFamily where
  className := "BackendFamily"
  members := [.cpp, .jvm]
  value
    | .cpp => "cpp"
    | .jvm => "jvm"
  complete member := by cases member <;> decide
  injective left right := by cases left <;> cases right <;> decide
  named member := by cases member <;> decide

inductive MemberScope where
  | topLevel
  | instance_
  | static
deriving DecidableEq, Repr

instance : Enumeration MemberScope where
  className := "MemberScope"
  members := [.topLevel, .instance_, .static]
  value
    | .topLevel => "top_level"
    | .instance_ => "instance"
    | .static => "static"
  complete member := by cases member <;> decide
  injective left right := by cases left <;> cases right <;> decide
  named member := by cases member <;> decide

inductive SemanticDeclarationKind where
  | enum
  | value
  | object
deriving DecidableEq, Repr

instance : Enumeration SemanticDeclarationKind where
  className := "SemanticDeclarationKind"
  members := [.enum, .value, .object]
  value
    | .enum => "enum"
    | .value => "value"
    | .object => "object"
  complete member := by cases member <;> decide
  injective left right := by cases left <;> cases right <;> decide
  named member := by cases member <;> decide

/-! ### Helpers -/

/-- `re.compile(r"^[A-Za-z_][A-Za-z0-9_]*$").fullmatch`. -/
def isIdentifier (text : String) : Bool :=
  match text.toList with
  | [] => false
  | initial :: rest =>
      (initial.isAlpha || initial = '_') && rest.all fun char => char.isAlphanum || char = '_'

theorem ne_empty_of_isIdentifier {text : String} (hname : isIdentifier text) : text ≠ "" := by
  rintro rfl
  exact absurd hname (by decide)

def validateIdentifier (text label : String) : Except SemanticError Unit :=
  require (isIdentifier text) (.model s!"invalid {label} name {Python.repr text}")

def rejectDuplicatesFrom (seen : List String) (label : String) :
    List String → Except SemanticError Unit
  | [] => .ok ()
  | text :: texts => do
      require (text ∉ seen) (.model s!"duplicate {label} {Python.repr text}")
      rejectDuplicatesFrom (text :: seen) label texts

/-- `_reject_duplicates`. -/
def rejectDuplicates (texts : List String) (label : String) : Except SemanticError Unit :=
  rejectDuplicatesFrom [] label texts

theorem rejectDuplicatesFrom_eq_ok {seen texts : List String} {label : String} {done : Unit} :
    rejectDuplicatesFrom seen label texts = .ok done ↔
      texts.Nodup ∧ ∀ text ∈ texts, text ∉ seen := by
  induction texts generalizing seen with
  | nil => simp [rejectDuplicatesFrom]
  | cons text texts ih =>
      simp only [rejectDuplicatesFrom, bind_eq_ok, require_eq_ok, exists_unit, ih,
        List.nodup_cons, List.mem_cons, forall_eq_or_imp, not_or]
      constructor
      · rintro ⟨hfresh, hnodup, hothers⟩
        refine ⟨⟨fun hmem => (hothers text hmem).1 rfl, hnodup⟩, hfresh, ?_⟩
        exact fun other hother => (hothers other hother).2
      · rintro ⟨⟨hnew, hnodup⟩, hfresh, hothers⟩
        refine ⟨hfresh, hnodup, fun other hother => ⟨?_, hothers other hother⟩⟩
        rintro rfl
        exact hnew hother

@[simp] theorem rejectDuplicates_eq_ok {texts : List String} {label : String} {done : Unit} :
    rejectDuplicates texts label = .ok done ↔ texts.Nodup := by
  simp [rejectDuplicates, rejectDuplicatesFrom_eq_ok]

@[simp] theorem validateIdentifier_eq_ok {text label : String} {done : Unit} :
    validateIdentifier text label = .ok done ↔ isIdentifier text := by
  simp [validateIdentifier]

/-! ### Capabilities and sources -/

/-- Whether a declaration is generated, and whether JavaScript sees it. -/
structure BindingCapabilities where
  routable : Bool
  javascriptPublic : Bool
  valid : javascriptPublic → routable
deriving DecidableEq

namespace BindingCapabilities

def make (routable javascriptPublic : Bool) : Except SemanticError BindingCapabilities :=
  if hvalid : javascriptPublic → routable then .ok ⟨routable, javascriptPublic, hvalid⟩
  else .error (.model "a JavaScript-public declaration must also be generated/routable")

def forRole : DeclarationRole → BindingCapabilities
  | .ordinary => ⟨false, false, by decide⟩
  | .internal => ⟨true, false, by decide⟩
  | .exported => ⟨true, true, by decide⟩

def role (capabilities : BindingCapabilities) : DeclarationRole :=
  if capabilities.javascriptPublic then .exported
  else if capabilities.routable then .internal
  else .ordinary

end BindingCapabilities

structure SourceProvenance.Fields where
  declarationId : String
  language : String
  path : String
  line : Int
  column : Int := 1
deriving DecidableEq

def SourceProvenance.Fields.postInit (source : SourceProvenance.Fields) :
    Except SemanticError Unit := do
  require (source.declarationId ≠ "") (.model "source declaration identity cannot be empty")
  require (source.language ≠ "") (.model "source language cannot be empty")
  require (source.path ≠ "") (.model "source path cannot be empty")
  require (¬ (source.line < 1 ∨ source.column < 1))
    (.model "source line and column must be positive")

/-- Where a language front end found a declaration. -/
structure SourceProvenance extends SourceProvenance.Fields where
  valid : toFields.postInit = .ok ()
deriving DecidableEq

namespace SourceProvenance

def make (source : Fields) : Except SemanticError SourceProvenance :=
  verified source.postInit fun hvalid => { source with valid := hvalid }

@[simp] theorem make_eq_ok {fields : Fields} {source : SourceProvenance} :
    make fields = .ok source ↔ source.toFields = fields :=
  verified_eq_ok_of_fields (fun _ => rfl) (by rintro rfl; exact ⟨source.valid, rfl⟩)

theorem named (source : SourceProvenance) :
    source.declarationId ≠ "" ∧ source.language ≠ "" ∧ source.path ≠ "" := by
  have hvalid := source.valid
  simp only [SourceProvenance.Fields.postInit, bind_eq_ok, require_eq_ok, exists_unit] at hvalid
  exact ⟨hvalid.1, hvalid.2.1, hvalid.2.2.1⟩

def manifest (source : SourceProvenance) : Json :=
  .object [
    ("declaration_id", .string source.declarationId),
    ("language", .string source.language),
    ("path", .string source.path),
    ("line", .integer source.line),
    ("column", .integer source.column)
  ]

def location (source : SourceProvenance) : String :=
  s!"{source.path}:{source.line}:{source.column}"

end SourceProvenance

/-- `semantic_type_id`. -/
def semanticTypeId (featureId publicName : String) : Except SemanticError String := do
  require (featureId ≠ "") (.model "feature identity cannot be empty")
  validateIdentifier publicName "public semantic type"
  return s!"{featureId}:type:{publicName}"

structure SemanticProjection.Fields where
  backend : BackendFamily
  source : SourceProvenance
deriving DecidableEq

def BackendFamily.languages : BackendFamily → List String
  | .cpp => ["cpp"]
  | .jvm => ["kotlin", "java"]

def SemanticProjection.Fields.postInit (projection : SemanticProjection.Fields) :
    Except SemanticError Unit :=
  require (projection.source.language ∈ projection.backend.languages)
    (.model (s!"{projection.source.location}: {Python.repr projection.source.language} source " ++
      s!"cannot provide a {Python.repr (value projection.backend)} projection"))

/-- One implementation family that provides a declaration. -/
structure SemanticProjection extends SemanticProjection.Fields where
  valid : toFields.postInit = .ok ()
deriving DecidableEq

namespace SemanticProjection

def make (projection : Fields) : Except SemanticError SemanticProjection :=
  verified projection.postInit fun hvalid => { projection with valid := hvalid }

@[simp] theorem make_eq_ok {fields : Fields} {projection : SemanticProjection} :
    make fields = .ok projection ↔ projection.toFields = fields :=
  verified_eq_ok_of_fields (fun _ => rfl) (by rintro rfl; exact ⟨projection.valid, rfl⟩)

def manifest (projection : SemanticProjection) : Json :=
  .object [
    ("backend", .string (value projection.backend)),
    ("source", projection.source.manifest)
  ]

end SemanticProjection

/-! ### Fields and parameters -/

structure SemanticField.Fields where
  fieldId : String
  ownerId : String
  name : String
  type : SemanticType
  source : SourceProvenance
  mutable : Bool
  capabilities : BindingCapabilities := BindingCapabilities.forRole .exported
  scope : MemberScope := .instance_
  required : Bool := true
deriving DecidableEq

def SemanticField.Fields.postInit (field : SemanticField.Fields) :
    Except SemanticError Unit := do
  require (field.fieldId ≠ "" ∧ field.ownerId ≠ "")
    (.model "field and owner identities cannot be empty")
  validateIdentifier field.name "semantic field"
  require (¬ field.type.isVoid) (.model "void is invalid as a field type")
  require field.capabilities.javascriptPublic
    (.model "semantic fields must be explicitly exported")
  require (field.scope = .instance_) (.model "static bridge fields are not supported")
  require field.required (.model "optional/missing fields are not supported")

structure SemanticField extends SemanticField.Fields where
  valid : toFields.postInit = .ok ()
deriving DecidableEq

namespace SemanticField

def make (field : Fields) : Except SemanticError SemanticField :=
  verified field.postInit fun hvalid => { field with valid := hvalid }

@[simp] theorem make_eq_ok {fields : Fields} {field : SemanticField} :
    make fields = .ok field ↔ field.toFields = fields :=
  verified_eq_ok_of_fields (fun _ => rfl) (by rintro rfl; exact ⟨field.valid, rfl⟩)

def manifest (field : SemanticField) : Json :=
  .object [
    ("field_id", .string field.fieldId),
    ("owner_id", .string field.ownerId),
    ("name", .string field.name),
    ("type", field.type.manifest),
    ("mutable", .bool field.mutable),
    ("required", .bool field.required),
    ("routable", .bool field.capabilities.routable),
    ("javascript_public", .bool field.capabilities.javascriptPublic),
    ("scope", .string (value field.scope)),
    ("source", field.source.manifest)
  ]

end SemanticField

structure SemanticParameter.Fields where
  name : String
  type : SemanticType
deriving DecidableEq

def SemanticParameter.Fields.postInit (parameter : SemanticParameter.Fields) :
    Except SemanticError Unit := do
  validateIdentifier parameter.name "semantic parameter"
  require (¬ parameter.type.isVoid) (.model "void is valid only as a result type")

structure SemanticParameter extends SemanticParameter.Fields where
  valid : toFields.postInit = .ok ()
deriving DecidableEq

namespace SemanticParameter

def make (parameter : Fields) : Except SemanticError SemanticParameter :=
  verified parameter.postInit fun hvalid => { parameter with valid := hvalid }

@[simp] theorem make_eq_ok {fields : Fields} {parameter : SemanticParameter} :
    make fields = .ok parameter ↔ parameter.toFields = fields :=
  verified_eq_ok_of_fields (fun _ => rfl) (by rintro rfl; exact ⟨parameter.valid, rfl⟩)

def manifest (parameter : SemanticParameter) : Json :=
  .object [("name", .string parameter.name), ("type", parameter.type.manifest)]

end SemanticParameter

/-! ### Bindings -/

structure SemanticBinding.Fields where
  bindingId : String
  kind : BindingKind
  name : String
  capabilities : BindingCapabilities
  execution : ExecutionMode
  parameters : List SemanticParameter
  result : SemanticType
  source : SourceProvenance
  ownerId : Option String := none
  ownerName : Option String := none
  memberScope : MemberScope
deriving DecidableEq

def SemanticBinding.Fields.checkOwnerName (binding : SemanticBinding.Fields) :
    Except SemanticError Unit :=
  match binding.ownerName with
  | some ownerName => validateIdentifier ownerName "semantic owner"
  | none => .ok ()

def SemanticBinding.Fields.checkScope (binding : SemanticBinding.Fields) :
    Except SemanticError Unit :=
  if binding.kind = .function then
    require (binding.memberScope = .topLevel)
      (.model "top-level functions cannot be instance/static")
  else
    require (binding.memberScope ≠ .topLevel) (.model "methods cannot have top-level scope")

def SemanticBinding.Fields.postInit (binding : SemanticBinding.Fields) :
    Except SemanticError Unit := do
  require (binding.bindingId ≠ "") (.model "semantic binding identity cannot be empty")
  require binding.capabilities.routable
    (.model "ordinary declarations do not become semantic bindings")
  validateIdentifier binding.name "semantic binding"
  rejectDuplicates (binding.parameters.map (·.name))
    s!"parameter name in binding {Python.repr binding.name}"
  require
    (decide (binding.kind ≠ .function) =
      (binding.ownerId.isSome && binding.ownerName.isSome))
    (.model ("object/service methods require owner identity and name; " ++
      "functions forbid them"))
  require (binding.ownerId.isNone = binding.ownerName.isNone)
    (.model "owner identity and name must be provided together")
  require (binding.ownerId ≠ some "") (.model "semantic owner identity cannot be empty")
  binding.checkOwnerName
  binding.checkScope

/-- A generated function or method. -/
structure SemanticBinding extends SemanticBinding.Fields where
  valid : toFields.postInit = .ok ()
deriving DecidableEq

namespace SemanticBinding

/-- The scope of a binding that is built without one. -/
def inferredScope : BindingKind → MemberScope
  | .function => .topLevel
  | .objectMethod | .serviceMethod => .instance_

def make (binding : Fields) : Except SemanticError SemanticBinding :=
  verified binding.postInit fun hvalid => { binding with valid := hvalid }

@[simp] theorem make_eq_ok {fields : Fields} {binding : SemanticBinding} :
    make fields = .ok binding ↔ binding.toFields = fields :=
  verified_eq_ok_of_fields (fun _ => rfl) (by rintro rfl; exact ⟨binding.valid, rfl⟩)

/-- The items of `manifest`. The owner is written when there is an owner identity. -/
def entries (binding : SemanticBinding) : Json.Fields :=
  [
    ("binding_id", .string binding.bindingId),
    ("source_declaration_id", .string binding.source.declarationId),
    ("kind", .string (value binding.kind)),
    ("name", .string binding.name),
    ("routable", .bool binding.capabilities.routable),
    ("javascript_public", .bool binding.capabilities.javascriptPublic),
    ("execution", .string (value binding.execution)),
    ("parameters", .array (binding.parameters.map SemanticParameter.manifest)),
    ("result", binding.result.manifest),
    ("member_scope", .string (value binding.memberScope)),
    ("source", binding.source.manifest)
  ] ++ match binding.ownerId, binding.ownerName with
    | some ownerId, some ownerName =>
        [("owner_id", .string ownerId), ("owner", .string ownerName)]
    | some ownerId, none => [("owner_id", .string ownerId), ("owner", .null)]
    | none, _ => []

def manifest (binding : SemanticBinding) : Json :=
  .object binding.entries

/-- `_binding_types`. -/
def types (binding : SemanticBinding) : List SemanticType :=
  binding.parameters.map (·.type) ++ [binding.result]

end SemanticBinding

structure SemanticConstructor.Fields where
  source : SourceProvenance
  parameters : List SemanticParameter := []
deriving DecidableEq

def SemanticConstructor.Fields.postInit (constructor : SemanticConstructor.Fields) :
    Except SemanticError Unit :=
  rejectDuplicates (constructor.parameters.map (·.name)) "constructor parameter name"

structure SemanticConstructor extends SemanticConstructor.Fields where
  valid : toFields.postInit = .ok ()
deriving DecidableEq

namespace SemanticConstructor

def make (constructor : Fields) : Except SemanticError SemanticConstructor :=
  verified constructor.postInit fun hvalid => { constructor with valid := hvalid }

@[simp] theorem make_eq_ok {fields : Fields} {constructor : SemanticConstructor} :
    make fields = .ok constructor ↔ constructor.toFields = fields :=
  verified_eq_ok_of_fields (fun _ => rfl) (by rintro rfl; exact ⟨constructor.valid, rfl⟩)

def manifest (constructor : SemanticConstructor) : Json :=
  .object [
    ("source_declaration_id", .string constructor.source.declarationId),
    ("parameters", .array (constructor.parameters.map SemanticParameter.manifest)),
    ("source", constructor.source.manifest)
  ]

end SemanticConstructor

/-! ### Classes -/

structure SemanticClass.Fields where
  classId : String
  kind : SemanticClassKind
  name : String
  capabilities : BindingCapabilities
  source : SourceProvenance
  constructor : SemanticConstructor
  methods : List SemanticBinding := []
deriving DecidableEq

/-- The kind every method of a class has. -/
def SemanticClassKind.methodKind : SemanticClassKind → BindingKind
  | .jsObject => .objectMethod
  | .internalService => .serviceMethod

namespace SemanticClass

/-- The checks that depend on the kind of the class. -/
def Fields.checkKind (record : Fields) : Except SemanticError Unit :=
  match record.kind with
  | .jsObject =>
      require (record.capabilities.role = .exported)
        (.model "a JS object class must be JavaScript-public and routable")
  | .internalService => do
      require (record.capabilities.role = .internal)
        (.model "an internal service class must be routable and hidden from JavaScript")
      require (record.constructor.parameters = [])
        (.model "an internal service constructor has no caller-visible parameters")

def Fields.checkMethod (record : Fields) (method : SemanticBinding) :
    Except SemanticError Unit := do
  require (method.kind = record.kind.methodKind)
    (.model (s!"method {Python.repr method.name} has kind {Python.repr (value method.kind)}; " ++
      s!"expected {Python.repr (value record.kind.methodKind)}"))
  require (method.ownerId = some record.classId ∧ method.ownerName = some record.name)
    (.model (s!"method {Python.repr method.name} does not belong to class " ++
      s!"{Python.repr record.name}"))
  require (¬ (record.kind = .internalService ∧ method.capabilities.javascriptPublic))
    (.model "an internal service method cannot be JavaScript-public")

def Fields.postInit (record : Fields) : Except SemanticError Unit := do
  require (record.classId ≠ "") (.model "semantic class identity cannot be empty")
  validateIdentifier record.name "semantic class"
  record.checkKind
  checkEach record.methods record.checkMethod
  rejectDuplicates (record.methods.map (·.bindingId))
    s!"method binding identity on {Python.repr record.name}"
  rejectDuplicates (record.methods.map (·.source.declarationId))
    s!"method source identity on {Python.repr record.name}"
  rejectDuplicates (record.methods.map (·.name))
    s!"generated method name on {Python.repr record.name}"

end SemanticClass

/-- A JS-owned object type or a feature-owned internal service. -/
structure SemanticClass extends SemanticClass.Fields where
  valid : toFields.postInit = .ok ()
deriving DecidableEq

namespace SemanticClass

def make (record : Fields) : Except SemanticError SemanticClass :=
  verified record.postInit fun hvalid => { record with valid := hvalid }

@[simp] theorem make_eq_ok {fields : Fields} {record : SemanticClass} :
    make fields = .ok record ↔ record.toFields = fields :=
  verified_eq_ok_of_fields (fun _ => rfl) (by rintro rfl; exact ⟨record.valid, rfl⟩)

def manifest (record : SemanticClass) : Json :=
  .object [
    ("class_id", .string record.classId),
    ("source_declaration_id", .string record.source.declarationId),
    ("kind", .string (value record.kind)),
    ("name", .string record.name),
    ("routable", .bool record.capabilities.routable),
    ("javascript_public", .bool record.capabilities.javascriptPublic),
    ("source", record.source.manifest),
    ("constructor", record.constructor.manifest),
    ("methods", .array ((sortedBy (·.bindingId) record.methods).map SemanticBinding.manifest))
  ]

end SemanticClass

/-! ### Declarations -/

def validateDeclarationHeader (featureId typeId name : String) : Except SemanticError Unit := do
  require (featureId ≠ "") (.model "feature identity cannot be empty")
  validateIdentifier name "semantic declaration"
  let expected ← semanticTypeId featureId name
  require (typeId = expected)
    (.model (s!"semantic type {Python.repr name} must use stable identity " ++
      s!"{Python.repr expected}, not {Python.repr typeId}"))

def backendForLanguage (language : String) : Except SemanticError BackendFamily :=
  if language = "cpp" then .ok .cpp
  else if language ∈ ["kotlin", "java"] then .ok .jvm
  else .error (.model s!"unsupported semantic source language {Python.repr language}")

def validateProjections (name : String) (projections : List SemanticProjection) :
    Except SemanticError Unit := do
  require (projections ≠ [])
    (.model s!"semantic type {Python.repr name} needs a backend projection")
  rejectDuplicates (projections.map fun projection => value projection.backend)
    s!"backend projection on {Python.repr name}"

def projectionManifests (projections : List SemanticProjection) : List Json :=
  (sortedBy (fun projection => value projection.backend) projections).map
    SemanticProjection.manifest

def validateFields (ownerId ownerName : String) (fields : List SemanticField) :
    Except SemanticError Unit := do
  checkEach fields fun field =>
    require (field.ownerId = ownerId)
      (.model s!"field {Python.repr field.name} does not belong to {Python.repr ownerName}")
  rejectDuplicates (fields.map (·.fieldId)) s!"field identity on {Python.repr ownerName}"
  rejectDuplicates (fields.map (·.name)) s!"field name on {Python.repr ownerName}"

structure SemanticEnumDeclaration.Fields where
  featureId : String
  typeId : String
  name : String
  constants : List String
  projections : List SemanticProjection
deriving DecidableEq

def SemanticEnumDeclaration.Fields.postInit (declaration : SemanticEnumDeclaration.Fields) :
    Except SemanticError Unit := do
  validateDeclarationHeader declaration.featureId declaration.typeId declaration.name
  require (declaration.constants ≠ [])
    (.model s!"enum {Python.repr declaration.name} must declare a constant")
  checkEach declaration.constants fun constant =>
    validateIdentifier constant s!"enum {Python.repr declaration.name} constant"
  rejectDuplicates declaration.constants s!"enum constant on {Python.repr declaration.name}"
  validateProjections declaration.name declaration.projections

structure SemanticEnumDeclaration extends SemanticEnumDeclaration.Fields where
  valid : toFields.postInit = .ok ()
deriving DecidableEq

namespace SemanticEnumDeclaration

def make (declaration : Fields) : Except SemanticError SemanticEnumDeclaration :=
  verified declaration.postInit fun hvalid => { declaration with valid := hvalid }

@[simp] theorem make_eq_ok {fields : Fields} {declaration : SemanticEnumDeclaration} :
    make fields = .ok declaration ↔ declaration.toFields = fields :=
  verified_eq_ok_of_fields (fun _ => rfl) (by rintro rfl; exact ⟨declaration.valid, rfl⟩)

def manifest (declaration : SemanticEnumDeclaration) : Json :=
  .object [
    ("kind", .string (value SemanticDeclarationKind.enum)),
    ("feature_id", .string declaration.featureId),
    ("type_id", .string declaration.typeId),
    ("name", .string declaration.name),
    ("constants", .array (declaration.constants.map .string)),
    ("projections", .array (projectionManifests declaration.projections))
  ]

end SemanticEnumDeclaration

structure SemanticValueDeclaration.Fields where
  featureId : String
  typeId : String
  name : String
  fields : List SemanticField
  projections : List SemanticProjection
deriving DecidableEq

def SemanticValueDeclaration.Fields.postInit (declaration : SemanticValueDeclaration.Fields) :
    Except SemanticError Unit := do
  validateDeclarationHeader declaration.featureId declaration.typeId declaration.name
  require (declaration.fields ≠ [])
    (.model s!"value {Python.repr declaration.name} must declare a field")
  validateFields declaration.typeId declaration.name declaration.fields
  validateProjections declaration.name declaration.projections

structure SemanticValueDeclaration extends SemanticValueDeclaration.Fields where
  valid : toFields.postInit = .ok ()
deriving DecidableEq

namespace SemanticValueDeclaration

def make (declaration : Fields) : Except SemanticError SemanticValueDeclaration :=
  verified declaration.postInit fun hvalid => { declaration with valid := hvalid }

@[simp] theorem make_eq_ok {fields : Fields} {declaration : SemanticValueDeclaration} :
    make fields = .ok declaration ↔ declaration.toFields = fields :=
  verified_eq_ok_of_fields (fun _ => rfl) (by rintro rfl; exact ⟨declaration.valid, rfl⟩)

def manifest (declaration : SemanticValueDeclaration) : Json :=
  .object [
    ("kind", .string (value SemanticDeclarationKind.value)),
    ("feature_id", .string declaration.featureId),
    ("type_id", .string declaration.typeId),
    ("name", .string declaration.name),
    ("fields", .array (declaration.fields.map SemanticField.manifest)),
    ("projections", .array (projectionManifests declaration.projections))
  ]

end SemanticValueDeclaration

structure SemanticObjectDeclaration.Fields where
  featureId : String
  typeId : String
  name : String
  projection : SemanticProjection
  constructor : Option SemanticConstructor := none
  methods : List SemanticBinding := []
  fields : List SemanticField := []
deriving DecidableEq

namespace SemanticObjectDeclaration

def Fields.checkMethod (declaration : Fields) (method : SemanticBinding) :
    Except SemanticError Unit := do
  require (method.kind = .objectMethod)
    (.model s!"object member {Python.repr method.name} must have object_method kind")
  require
    (method.ownerId = some declaration.typeId ∧ method.ownerName = some declaration.name)
    (.model (s!"method {Python.repr method.name} does not belong to object " ++
      s!"{Python.repr declaration.name}"))

/-- The sources of the members, in the order they are checked. -/
def Fields.ownedSources (declaration : Fields) : List SourceProvenance :=
  declaration.fields.map (·.source) ++ (declaration.constructor.map (·.source)).toList ++
    declaration.methods.map (·.source)

def Fields.checkBackend (declaration : Fields) (source : SourceProvenance) :
    Except SemanticError Unit := do
  let backend ← backendForLanguage source.language
  require (backend = declaration.projection.backend)
    (.model (s!"{source.location}: object member source backend disagrees with " ++
      s!"the {value declaration.projection.backend} object projection"))

def Fields.postInit (declaration : Fields) : Except SemanticError Unit := do
  validateDeclarationHeader declaration.featureId declaration.typeId declaration.name
  validateFields declaration.typeId declaration.name declaration.fields
  checkEach declaration.methods declaration.checkMethod
  checkEach declaration.ownedSources declaration.checkBackend
  rejectDuplicates (declaration.methods.map (·.bindingId))
    s!"method binding identity on {Python.repr declaration.name}"
  rejectDuplicates (declaration.methods.map (·.source.declarationId))
    s!"method source identity on {Python.repr declaration.name}"
  rejectDuplicates
    ((declaration.methods.filter (·.memberScope = .static)).map (·.name))
    s!"static method name on {Python.repr declaration.name}"
  rejectDuplicates
    ((declaration.methods.filter (·.memberScope ≠ .static)).map (·.name) ++
      declaration.fields.map (·.name))
    s!"instance member name on {Python.repr declaration.name}"

end SemanticObjectDeclaration

structure SemanticObjectDeclaration extends SemanticObjectDeclaration.Fields where
  valid : toFields.postInit = .ok ()
deriving DecidableEq

namespace SemanticObjectDeclaration

def make (declaration : Fields) : Except SemanticError SemanticObjectDeclaration :=
  verified declaration.postInit fun hvalid => { declaration with valid := hvalid }

@[simp] theorem make_eq_ok {fields : Fields} {declaration : SemanticObjectDeclaration} :
    make fields = .ok declaration ↔ declaration.toFields = fields :=
  verified_eq_ok_of_fields (fun _ => rfl) (by rintro rfl; exact ⟨declaration.valid, rfl⟩)

/-- An object without a marked constructor writes a null. -/
def constructorManifest : Option SemanticConstructor → Json
  | some constructor => constructor.manifest
  | none => .null

def manifest (declaration : SemanticObjectDeclaration) : Json :=
  .object [
    ("kind", .string (value SemanticDeclarationKind.object)),
    ("feature_id", .string declaration.featureId),
    ("type_id", .string declaration.typeId),
    ("name", .string declaration.name),
    ("projection", declaration.projection.manifest),
    ("constructor", constructorManifest declaration.constructor),
    ("methods",
      .array ((sortedBy (·.bindingId) declaration.methods).map SemanticBinding.manifest)),
    ("fields", .array (declaration.fields.map SemanticField.manifest))
  ]

end SemanticObjectDeclaration

inductive SemanticDeclaration where
  | enum (declaration : SemanticEnumDeclaration)
  | value (declaration : SemanticValueDeclaration)
  | object (declaration : SemanticObjectDeclaration)
deriving DecidableEq

namespace SemanticDeclaration

def kind : SemanticDeclaration → SemanticDeclarationKind
  | .enum _ => .enum
  | .value _ => .value
  | .object _ => .object

def typeId : SemanticDeclaration → String
  | .enum declaration => declaration.typeId
  | .value declaration => declaration.typeId
  | .object declaration => declaration.typeId

def name : SemanticDeclaration → String
  | .enum declaration => declaration.name
  | .value declaration => declaration.name
  | .object declaration => declaration.name

def projections : SemanticDeclaration → List SemanticProjection
  | .enum declaration => declaration.projections
  | .value declaration => declaration.projections
  | .object declaration => [declaration.projection]

/-- The fields of a value or an object. -/
def fields : SemanticDeclaration → List SemanticField
  | .enum _ => []
  | .value declaration => declaration.fields
  | .object declaration => declaration.fields

def methods : SemanticDeclaration → List SemanticBinding
  | .enum _ | .value _ => []
  | .object declaration => declaration.methods

def constructor? : SemanticDeclaration → Option SemanticConstructor
  | .enum _ | .value _ => none
  | .object declaration => declaration.constructor

def value? : SemanticDeclaration → Option SemanticValueDeclaration
  | .value declaration => some declaration
  | .enum _ | .object _ => none

def manifest : SemanticDeclaration → Json
  | .enum declaration => declaration.manifest
  | .value declaration => declaration.manifest
  | .object declaration => declaration.manifest

end SemanticDeclaration

end SupernoteModule.Semantic
