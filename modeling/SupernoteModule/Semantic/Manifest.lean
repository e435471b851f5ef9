import SupernoteModule.Semantic.Api

/-!
# Reading the semantic manifest

`semanticApiFromManifest` is the strict reader of the JSON that `SemanticApi.manifest` writes: every
object has exactly the expected keys, and every record is built through its own checks.
-/

namespace SupernoteModule.Semantic

open SupernoteModule.Lib SupernoteModule.Python
open SupernoteModule.Python.Json (Fields get keys hasExactly)

/-! ### Primitives -/

def manifestKeys (fields : Fields) (expected : List String) (label : String) :
    Except SemanticError Unit :=
  require (hasExactly fields expected) (.model (fieldsProblem fields expected label))

def manifestObject (raw : Json) (label : String) : Except SemanticError Fields :=
  match raw with
  | .object fields => .ok fields
  | _ => .error (.model s!"{label} must be an object")

def manifestList (raw : Json) (label : String) : Except SemanticError (List Json) :=
  match raw with
  | .array items => .ok items
  | _ => .error (.model s!"{label} must be an array")

def manifestString (raw : Json) (label : String) : Except SemanticError String :=
  match raw with
  | .string text =>
      if text ≠ "" then .ok text else .error (.model s!"{label} must be a non-empty string")
  | _ => .error (.model s!"{label} must be a non-empty string")

def manifestInt (raw : Json) (label : String) : Except SemanticError Int :=
  match raw with
  | .integer number => .ok number
  | _ => .error (.model s!"{label} must be an integer")

def manifestBool (raw : Json) (label : String) : Except SemanticError Bool :=
  match raw with
  | .bool flag => .ok flag
  | _ => .error (.model s!"{label} must be a boolean")

/-- `Class(_manifest_string(raw, label))`. -/
def manifestMember {Member : Type} [Enumeration Member] (raw : Json) (label : String) :
    Except SemanticError Member := do
  let text ← manifestString raw label
  memberOf text

/-- `tuple(step(item, f"{label}[{index}]") for index, item in enumerate(_manifest_list(raw)))`. -/
def manifestItems {Item : Type} (step : Json → String → Except SemanticError Item) (raw : Json)
    (label : String) : Except SemanticError (List Item) := do
  let items ← manifestList raw label
  enumerate (fun item index => step item s!"{label}[{index}]") 0 items

/-- `except ValueError as exc: raise SemanticModelError(f"{label}: {exc}")`. -/
def within {Item : Type} (label : String) (body : Except SemanticError Item) :
    Except SemanticError Item :=
  rewrap (fun message => .model s!"{label}: {message}") body

/-! ### Records -/

def sourceFromManifest (raw : Json) (label : String) : Except SemanticError SourceProvenance := do
  let fields ← manifestObject raw label
  manifestKeys fields ["declaration_id", "language", "path", "line", "column"] label
  within label do
    let declarationId ← manifestString (get fields "declaration_id") s!"{label}.declaration_id"
    let language ← manifestString (get fields "language") s!"{label}.language"
    let path ← manifestString (get fields "path") s!"{label}.path"
    let line ← manifestInt (get fields "line") s!"{label}.line"
    let column ← manifestInt (get fields "column") s!"{label}.column"
    SourceProvenance.make { declarationId, language, path, line, column }

/-- `_semantic_type_from_manifest`. -/
def modelTypeFromManifest (raw : Json) (label : String) : Except SemanticError SemanticType :=
  (semanticTypeFromManifest raw label).mapError fun
    | .type message => .model message
    | error => error

def capabilitiesFromManifest (fields : Fields) (label : String) :
    Except SemanticError BindingCapabilities := do
  let routable ← manifestBool (get fields "routable") s!"{label}.routable"
  let javascriptPublic ←
    manifestBool (get fields "javascript_public") s!"{label}.javascript_public"
  BindingCapabilities.make routable javascriptPublic

def parameterFromManifest (raw : Json) (label : String) :
    Except SemanticError SemanticParameter := do
  let fields ← manifestObject raw label
  manifestKeys fields ["name", "type"] label
  within label do
    let name ← manifestString (get fields "name") s!"{label}.name"
    let type ← modelTypeFromManifest (get fields "type") s!"{label}.type"
    SemanticParameter.make { name, type }

def requiredBindingKeys : List String :=
  ["binding_id", "source_declaration_id", "kind", "name", "routable", "javascript_public",
    "execution", "parameters", "result", "source", "member_scope"]

def optionalBindingKeys : List String := ["owner_id", "owner"]

/-- `required | (optional & actual)`. -/
def bindingKeys (fields : Fields) : List String :=
  requiredBindingKeys ++ optionalBindingKeys.filter (· ∈ keys fields)

/-- `_manifest_string(value[key], label)` when the key is there. -/
def optionalString (fields : Fields) (key label : String) :
    Except SemanticError (Option String) :=
  if key ∈ keys fields then (manifestString (get fields key) label).map some else .ok none

def bindingFromManifest (raw : Json) (label : String) : Except SemanticError SemanticBinding := do
  let fields ← manifestObject raw label
  require (hasExactly fields (bindingKeys fields))
    (.model (fieldsProblem fields (bindingKeys fields) label))
  let source ← sourceFromManifest (get fields "source") s!"{label}.source"
  let sourceId ←
    manifestString (get fields "source_declaration_id") s!"{label}.source_declaration_id"
  require (sourceId = source.declarationId)
    (.model s!"{label} source declaration identity disagrees")
  require ("owner_id" ∈ keys fields ↔ "owner" ∈ keys fields)
    (.model s!"{label} owner identity and name must appear together")
  within label do
    let bindingId ← manifestString (get fields "binding_id") s!"{label}.binding_id"
    let kind ← manifestMember (get fields "kind") s!"{label}.kind"
    let name ← manifestString (get fields "name") s!"{label}.name"
    let capabilities ← capabilitiesFromManifest fields label
    let execution ← manifestMember (get fields "execution") s!"{label}.execution"
    let parameters ←
      manifestItems parameterFromManifest (get fields "parameters") s!"{label}.parameters"
    let result ← modelTypeFromManifest (get fields "result") s!"{label}.result"
    let ownerId ← optionalString fields "owner_id" s!"{label}.owner_id"
    let ownerName ← optionalString fields "owner" s!"{label}.owner"
    let memberScope ← manifestMember (get fields "member_scope") s!"{label}.member_scope"
    SemanticBinding.make
      { bindingId, kind, name, capabilities, execution, parameters, result, source, ownerId,
        ownerName, memberScope }

def constructorKeys : List String := ["source_declaration_id", "parameters", "source"]

/-- `_constructor_from_manifest`. -/
def constructorFromManifest (raw : Json) (label : String) :
    Except SemanticError SemanticConstructor := do
  let fields ← manifestObject raw label
  manifestKeys fields constructorKeys label
  let source ← sourceFromManifest (get fields "source") s!"{label}.source"
  let sourceId ←
    manifestString (get fields "source_declaration_id") s!"{label}.source_declaration_id"
  require (sourceId = source.declarationId)
    (.model s!"{label} source declaration identity disagrees")
  let parameters ←
    manifestItems parameterFromManifest (get fields "parameters") s!"{label}.parameters"
  SemanticConstructor.make { source, parameters }

/-- The constructor of a class is read in place, its parameters after the header of the class. -/
def classFromManifest (raw : Json) (label : String) : Except SemanticError SemanticClass := do
  let fields ← manifestObject raw label
  manifestKeys fields
    ["class_id", "source_declaration_id", "kind", "name", "routable", "javascript_public",
      "source", "constructor", "methods"] label
  let source ← sourceFromManifest (get fields "source") s!"{label}.source"
  let sourceId ←
    manifestString (get fields "source_declaration_id") s!"{label}.source_declaration_id"
  require (sourceId = source.declarationId)
    (.model s!"{label} source declaration identity disagrees")
  let constructorFields ← manifestObject (get fields "constructor") s!"{label}.constructor"
  manifestKeys constructorFields constructorKeys s!"{label}.constructor"
  let constructorSource ←
    sourceFromManifest (get constructorFields "source") s!"{label}.constructor.source"
  let constructorSourceId ←
    manifestString (get constructorFields "source_declaration_id")
      s!"{label}.constructor.source_declaration_id"
  require (constructorSourceId = constructorSource.declarationId)
    (.model s!"{label} constructor source identity disagrees")
  within label do
    let classId ← manifestString (get fields "class_id") s!"{label}.class_id"
    let kind ← manifestMember (get fields "kind") s!"{label}.kind"
    let name ← manifestString (get fields "name") s!"{label}.name"
    let capabilities ← capabilitiesFromManifest fields label
    let parameters ←
      manifestItems parameterFromManifest (get constructorFields "parameters")
        s!"{label}.constructor.parameters"
    let constructor ← SemanticConstructor.make { source := constructorSource, parameters }
    let methods ← manifestItems bindingFromManifest (get fields "methods") s!"{label}.methods"
    SemanticClass.make { classId, kind, name, capabilities, source, constructor, methods }

def projectionFromManifest (raw : Json) (label : String) :
    Except SemanticError SemanticProjection := do
  let fields ← manifestObject raw label
  manifestKeys fields ["backend", "source"] label
  within label do
    let backend ← manifestMember (get fields "backend") s!"{label}.backend"
    let source ← sourceFromManifest (get fields "source") s!"{label}.source"
    SemanticProjection.make { backend, source }

def fieldFromManifest (raw : Json) (label : String) : Except SemanticError SemanticField := do
  let fields ← manifestObject raw label
  manifestKeys fields
    ["field_id", "owner_id", "name", "type", "mutable", "required", "routable",
      "javascript_public", "scope", "source"] label
  within label do
    let fieldId ← manifestString (get fields "field_id") s!"{label}.field_id"
    let ownerId ← manifestString (get fields "owner_id") s!"{label}.owner_id"
    let name ← manifestString (get fields "name") s!"{label}.name"
    let type ← modelTypeFromManifest (get fields "type") s!"{label}.type"
    let source ← sourceFromManifest (get fields "source") s!"{label}.source"
    let mutable ← manifestBool (get fields "mutable") s!"{label}.mutable"
    let capabilities ← capabilitiesFromManifest fields label
    let scope ← manifestMember (get fields "scope") s!"{label}.scope"
    let required ← manifestBool (get fields "required") s!"{label}.required"
    SemanticField.make
      { fieldId, ownerId, name, type, source, mutable, capabilities, scope, required }

/-! ### Declarations -/

/-- The keys every kind of declaration has. -/
def commonKeys : List String := ["kind", "feature_id", "type_id", "name"]

def enumFromManifest (fields : Fields) (featureId typeId name label : String) :
    Except SemanticError SemanticEnumDeclaration := do
  manifestKeys fields (commonKeys ++ ["constants", "projections"]) label
  let constants ← manifestItems manifestString (get fields "constants") s!"{label}.constants"
  let projections ←
    manifestItems projectionFromManifest (get fields "projections") s!"{label}.projections"
  SemanticEnumDeclaration.make { featureId, typeId, name, constants, projections }

def valueFromManifest (fields : Fields) (featureId typeId name label : String) :
    Except SemanticError SemanticValueDeclaration := do
  manifestKeys fields (commonKeys ++ ["fields", "projections"]) label
  let members ← manifestItems fieldFromManifest (get fields "fields") s!"{label}.fields"
  let projections ←
    manifestItems projectionFromManifest (get fields "projections") s!"{label}.projections"
  SemanticValueDeclaration.make { featureId, typeId, name, fields := members, projections }

def optionalConstructor (raw : Json) (label : String) :
    Except SemanticError (Option SemanticConstructor) :=
  match raw with
  | .null => .ok none
  | raw => (constructorFromManifest raw label).map some

def objectFromManifest (fields : Fields) (featureId typeId name label : String) :
    Except SemanticError SemanticObjectDeclaration := do
  manifestKeys fields (commonKeys ++ ["projection", "constructor", "methods", "fields"]) label
  let projection ← projectionFromManifest (get fields "projection") s!"{label}.projection"
  let constructor ← optionalConstructor (get fields "constructor") s!"{label}.constructor"
  let methods ← manifestItems bindingFromManifest (get fields "methods") s!"{label}.methods"
  let members ← manifestItems fieldFromManifest (get fields "fields") s!"{label}.fields"
  SemanticObjectDeclaration.make
    { featureId, typeId, name, projection, constructor, methods, fields := members }

def declarationFromManifest (raw : Json) (label : String) :
    Except SemanticError SemanticDeclaration := do
  let fields ← manifestObject raw label
  let kindText ← manifestString (get fields "kind") s!"{label}.kind"
  let kind ← (memberOf kindText).mapError fun _ =>
    SemanticError.model s!"{label}.kind is invalid: {Python.repr kindText}"
  let featureId ← manifestString (get fields "feature_id") s!"{label}.feature_id"
  let typeId ← manifestString (get fields "type_id") s!"{label}.type_id"
  let name ← manifestString (get fields "name") s!"{label}.name"
  match kind with
  | SemanticDeclarationKind.enum =>
      (enumFromManifest fields featureId typeId name label).map .enum
  | .value => (valueFromManifest fields featureId typeId name label).map .value
  | .object => (objectFromManifest fields featureId typeId name label).map .object

/-! ### The API -/

def semanticApiFromManifest (raw : Json) : Except SemanticError SemanticApi := do
  let fields ← manifestObject raw "semantic manifest"
  manifestKeys fields ["schema_version", "kind", "functions", "classes", "types"]
    "semantic manifest"
  checkSchema (get fields "schema_version")
  let kind ← manifestString (get fields "kind") "kind"
  require (kind = SemanticApi.manifestKind) (.model "semantic manifest kind is invalid")
  let functions ← manifestItems bindingFromManifest (get fields "functions") "functions"
  let classes ← manifestItems classFromManifest (get fields "classes") "classes"
  let declarations ← manifestItems declarationFromManifest (get fields "types") "types"
  SemanticApi.make { functions, classes, declarations }
where
  checkSchema : Json → Except SemanticError Unit
    | .string schema => do
        require (schema ≠ "")
          (.model (s!"incompatible semantic manifest schema {Python.repr schema}; " ++
            s!"expected {SemanticApi.schemaVersion}"))
        require (schema = SemanticApi.schemaVersion)
          (.model (s!"incompatible semantic manifest schema {schema}; " ++
            s!"expected {SemanticApi.schemaVersion}"))
    | _ =>
        .error (.model (s!"incompatible semantic manifest schema; " ++
          s!"expected {SemanticApi.schemaVersion}"))

end SupernoteModule.Semantic
