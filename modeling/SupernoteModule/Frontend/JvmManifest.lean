import SupernoteModule.Frontend.JvmSource
import SupernoteModule.Generation.FileTree
import SupernoteModule.Python.JsonDumps

/-!
# The JVM manifest

What the compiler plugin hands over to the generator. `JvmSourceManifest.json` writes it, and
`readJvmManifest` reads it back strictly: every object has exactly the expected keys, every text is
non-empty, and every identity is the one that follows from the names.
-/

namespace SupernoteModule.Frontend

open SupernoteModule.Lib SupernoteModule.Python SupernoteModule.Semantic
open SupernoteModule.Generation (utf8)
open SupernoteModule.Python.Json (Fields get keys hasExactly)

/-- What reading a manifest raises: an error of its own, one of a source record, or an error of the
file or of its text. -/
inductive JvmManifestError where
  | manifest (message : String)
  | source (error : FrontendError)
  | unreadable (path : String)
deriving DecidableEq

/-- `except ValueError as exc: raise JvmManifestError(f"{label}: {exc}")`. -/
def labelled {Item : Type} (label : String) (body : Except JvmManifestError Item) :
    Except JvmManifestError Item :=
  body.mapError fun
    | .manifest message | .source (.source message) | .source (.projection message)
    | .source (.route message) | .source (.semantic (.type message))
    | .source (.semantic (.model message)) | .source (.semantic (.reachability message))
    | .source (.semantic (.value message)) => .manifest s!"{label}: {message}"
    | error => error

@[simp] theorem labelled_eq_ok {Item : Type} {label : String} {body : Except JvmManifestError Item}
    {item : Item} : labelled label body = .ok item ↔ body = .ok item :=
  mapError_eq_ok

/-- A check of a source record, whose error is raised as it is. -/
def sourced {Item : Type} (body : Except FrontendError Item) : Except JvmManifestError Item :=
  body.mapError .source

@[simp] theorem sourced_eq_ok {Item : Type} {body : Except FrontendError Item} {item : Item} :
    sourced body = .ok item ↔ body = .ok item :=
  mapError_eq_ok

/-! ### Checked records -/

def JvmConstructorSource.make (provenance : SourceProvenance) (jvmDescriptor : String)
    (parameters : List JvmParameterSource) (visibility : String) (intent : SourceIntent)
    (adapterIdentity : String) : Except FrontendError JvmConstructorSource := do
  let ⟨htarget⟩ ← certify <| require (intent.target = .constructor)
    (FrontendError.source "a JVM constructor requires constructor intent")
  let ⟨hadapted⟩ ← certify <| require (adapterIdentity ≠ "")
    (FrontendError.source "a JVM constructor adapter identity cannot be empty")
  return { provenance, jvmDescriptor, parameters, visibility, intent, adapterIdentity,
           target := require_eq_ok.mp htarget, adapted := require_eq_ok.mp hadapted }

def JvmFieldSource.make (provenance : SourceProvenance) (ownerDeclarationId name : String)
    (type : JvmTypeSource) (intent : SourceIntent) (visibility : String) (mutable isStatic : Bool)
    (accessorIdentity : String) : Except FrontendError JvmFieldSource := do
  let ⟨htarget⟩ ← certify <| require (intent.target = .field)
    (FrontendError.source "a JVM field requires field source intent")
  let ⟨howned⟩ ← certify <| require (ownerDeclarationId ≠ "")
    (FrontendError.source "a JVM field owner identity cannot be empty")
  return { provenance, ownerDeclarationId, name, type, intent, visibility, mutable, isStatic,
           accessorIdentity, target := require_eq_ok.mp htarget,
           owned := require_eq_ok.mp howned }

def JvmDeclarationSource.make (provenance : SourceProvenance)
    (ownerDeclarationId ownerClass jvmName jvmDescriptor : String)
    (parameters : List JvmParameterSource) (resultJvmType : String) (resultNullable : Bool)
    (intent : SourceIntent) (visibility adapterIdentity : String) (language : JvmLanguage)
    (isSuspend isStatic : Bool) (resultTypeArguments : List JvmTypeSource) :
    Except FrontendError JvmDeclarationSource := do
  let ⟨htarget⟩ ← certify <| require (intent.target = .function ∨ intent.target = .method)
    (FrontendError.source "a JVM declaration requires function or method intent")
  let ⟨hadapted⟩ ← certify <| require (ownerDeclarationId ≠ "" ∧ adapterIdentity ≠ "")
    (FrontendError.source "JVM owner and adapter identities cannot be empty")
  let ⟨hkotlin⟩ ← certify <| require (isSuspend → language = .kotlin)
    (FrontendError.source "only Kotlin declarations can be suspending")
  let ⟨hasync⟩ ← certify <| require (isSuspend → intent.execution = .async)
    (FrontendError.source "a suspending Kotlin declaration requires SupernotePluginAsync")
  let ⟨hinjected⟩ ← certify <| require (∀ parameter ∈ parameters, parameter.injected = none)
    (FrontendError.source "runtime-injected dependencies are valid only on constructors")
  return { provenance, ownerDeclarationId, ownerClass, jvmName, jvmDescriptor, parameters,
           resultJvmType, resultNullable, intent, visibility, adapterIdentity, language, isSuspend,
           isStatic, resultTypeArguments,
           target := require_eq_ok.mp htarget, adapted := require_eq_ok.mp hadapted,
           suspending := fun hsuspend =>
             ⟨require_eq_ok.mp hkotlin hsuspend, require_eq_ok.mp hasync hsuspend⟩,
           notInjected := require_eq_ok.mp hinjected }

namespace JvmOwnerSource

variable (fields : JvmOwnerSource.Fields)

def Fields.checkConstructor (constructor : JvmConstructorSource) : Except FrontendError Unit := do
  require (constructor.provenance.language = value fields.language)
    (.source "a JVM constructor language must match its containing owner")
  require (∀ parameter ∈ constructor.parameters, ∀ dependency ∈ parameter.injected,
      parameter.jvmType = value dependency)
    (.source "an injected constructor parameter type must match its dependency")

def Fields.checkDeclaration (declaration : JvmDeclarationSource) : Except FrontendError Unit := do
  let named := s!"JVM declaration {Python.repr declaration.provenance.declarationId} "
  require (declaration.ownerDeclarationId = fields.provenance.declarationId)
    (.source (named ++ "does not reference its containing owner"))
  require (declaration.ownerClass = fields.ownerClass)
    (.source (named ++ "uses a different owner class"))
  require (declaration.language = fields.language)
    (.source "a JVM declaration language must match its containing owner")

def Fields.checkField (field : JvmFieldSource) : Except FrontendError Unit := do
  require (field.ownerDeclarationId = fields.provenance.declarationId)
    (.source s!"JVM field {Python.repr field.name} does not reference its owner")
  require (field.provenance.language = value fields.language)
    (.source "a JVM field language must match its owner")

/-- `JvmOwnerSource.__post_init__`, but for the sign of the number of type parameters. -/
def Fields.postInit : Except FrontendError Unit := do
  require (fields.intent.target = .class_) (.source "a JVM owner requires class source intent")
  require (fields.form = .kotlinObject ∨ fields.form = .kotlinTopLevel → fields.language = .kotlin)
    (.source s!"owner form {value fields.form} requires Kotlin")
  require (fields.form = .javaStatic → fields.language = .java)
    (.source "owner form java_static requires Java")
  require (fields.form ≠ .class_ → fields.constructors = [])
    (.source (s!"construction-free owner form {value fields.form} cannot declare " ++
      "constructors"))
  require (fields.intent.role = .exported → fields.form = .class_)
    (.source "a JVM-backed JavaScript object requires class owner form")
  checkEach fields.constructors fields.checkConstructor
  checkEach fields.declarations fields.checkDeclaration
  checkEach fields.fields fields.checkField

/-- The checks without their order and their errors. -/
structure Fields.Checked : Prop where
  target : fields.intent.target = .class_
  kotlinForm : fields.form = .kotlinObject ∨ fields.form = .kotlinTopLevel →
    fields.language = .kotlin
  javaForm : fields.form = .javaStatic → fields.language = .java
  constructionFree : fields.form ≠ .class_ → fields.constructors = []
  ownConstructors : ∀ constructor ∈ fields.constructors,
    constructor.provenance.language = value fields.language ∧
      ∀ parameter ∈ constructor.parameters, ∀ dependency ∈ parameter.injected,
        parameter.jvmType = value dependency
  ownDeclarations : ∀ declaration ∈ fields.declarations,
    declaration.ownerDeclarationId = fields.provenance.declarationId ∧
      declaration.ownerClass = fields.ownerClass ∧ declaration.language = fields.language
  ownFields : ∀ field ∈ fields.fields,
    field.ownerDeclarationId = fields.provenance.declarationId ∧
      field.provenance.language = value fields.language

variable {fields}

theorem Fields.postInit_eq_ok : fields.postInit = .ok () ↔ fields.Checked := by
  simp only [Fields.postInit, Fields.checkConstructor, Fields.checkDeclaration, Fields.checkField,
    bind_eq_ok, require_eq_ok, checkEach_eq_ok, exists_unit]
  constructor
  · rintro ⟨htarget, hkotlin, hjava, hfree, _, hconstructors, hdeclarations, hfields⟩
    exact ⟨htarget, hkotlin, hjava, hfree, hconstructors, hdeclarations, hfields⟩
  · rintro ⟨htarget, hkotlin, hjava, hfree, hconstructors, hdeclarations, hfields⟩
    have hrole : fields.intent.role = .ordinary := SourceIntent.role_of_class htarget
    refine ⟨htarget, hkotlin, hjava, hfree, ?_, hconstructors, hdeclarations, hfields⟩
    rw [hrole]
    intro hexported
    cases hexported

theorem checked (owner : JvmOwnerSource) : owner.toFields.Checked where
  target := owner.target
  kotlinForm := owner.kotlinForm
  javaForm := owner.javaForm
  constructionFree := owner.constructionFree
  ownConstructors := owner.ownConstructors
  ownDeclarations := owner.ownDeclarations
  ownFields := owner.ownFields

def ofChecked (hchecked : fields.Checked) : JvmOwnerSource :=
  { fields with
    target := hchecked.target
    kotlinForm := hchecked.kotlinForm
    javaForm := hchecked.javaForm
    constructionFree := hchecked.constructionFree
    ownConstructors := hchecked.ownConstructors
    ownDeclarations := hchecked.ownDeclarations
    ownFields := hchecked.ownFields }

def make (fields : JvmOwnerSource.Fields) : Except FrontendError JvmOwnerSource :=
  verified fields.postInit fun hvalid => ofChecked (Fields.postInit_eq_ok.mp hvalid)

@[simp] theorem make_eq_ok {owner : JvmOwnerSource} :
    make fields = .ok owner ↔ owner.toFields = fields :=
  verified_eq_ok_of_fields (fun _ => rfl)
    (by rintro rfl; exact ⟨Fields.postInit_eq_ok.mpr owner.checked, rfl⟩)

end JvmOwnerSource

/-! ### Identities -/

def jvmOwnerIdentity (ownerClass : String) : String :=
  s!"jvm:{ownerClass}"

def jvmDeclarationIdentity (ownerClass name descriptor : String) : String :=
  s!"jvm:{ownerClass}#{name}{descriptor}"

def jvmFieldIdentity (ownerClass name : String) : String :=
  s!"jvm:{ownerClass}#field:{name}"

section Digest

variable (sha256 : List UInt8 → String)

/-- `hashlib.sha256(declaration_id.encode("utf-8")).hexdigest()[:20]`. -/
def digestOf (declarationId : String) : String :=
  String.ofList ((sha256 (utf8 declarationId)).toList.take 20)

def jvmAdapterIdentity (declarationId : String) : String :=
  s!"supernote.jvm.adapter.{digestOf sha256 declarationId}"

def jvmFieldAccessorIdentity (declarationId : String) : String :=
  s!"supernote.jvm.field.{digestOf sha256 declarationId}"

end Digest

/-! ### Writing -/

mutual

/-- `_type_manifest`. -/
def JvmTypeSource.manifest : JvmTypeSource → Json
  | .mk jvmType nullable arguments =>
      .object [("jvm_type", .string jvmType), ("nullable", .bool nullable),
        ("arguments", .array (manifests arguments))]

def JvmTypeSource.manifests : List JvmTypeSource → List Json
  | [] => []
  | type :: types => type.manifest :: manifests types

end

/-- `_parameter_manifest`. -/
def JvmParameterSource.manifest (source : JvmParameterSource) : Json :=
  .object [
    ("jvm_type", .string source.jvmType),
    ("name", .string source.name),
    ("nullable", .bool source.nullable),
    ("injected", (source.injected.map fun injected => Json.string (value injected)).getD .null),
    ("type_arguments", .array (source.typeArguments.map JvmTypeSource.manifest))
  ]

/-- `_intent_manifest`. -/
def SourceIntent.manifest (intent : SourceIntent) : Json :=
  .array (intent.occurrences.map fun item => .object [
    ("name", .string (value item.marker)),
    ("line", .integer item.line),
    ("column", .integer item.column)
  ])

/-- `_field_manifest`. -/
def JvmFieldSource.manifest (source : JvmFieldSource) : Json :=
  .object [
    ("source", source.provenance.manifest),
    ("owner_declaration_id", .string source.ownerDeclarationId),
    ("name", .string source.name),
    ("type", source.type.manifest),
    ("markers", source.intent.manifest),
    ("visibility", .string source.visibility),
    ("mutable", .bool source.mutable),
    ("is_static", .bool source.isStatic),
    ("accessor_identity", .string source.accessorIdentity)
  ]

/-- `_declaration_manifest`. -/
def JvmDeclarationSource.manifest (source : JvmDeclarationSource) : Json :=
  .object [
    ("source", source.provenance.manifest),
    ("owner_declaration_id", .string source.ownerDeclarationId),
    ("owner_class", .string source.ownerClass),
    ("jvm_name", .string source.jvmName),
    ("jvm_descriptor", .string source.jvmDescriptor),
    ("parameters", .array (source.parameters.map JvmParameterSource.manifest)),
    ("result_jvm_type", .string source.resultJvmType),
    ("result_nullable", .bool source.resultNullable),
    ("markers", source.intent.manifest),
    ("visibility", .string source.visibility),
    ("adapter_identity", .string source.adapterIdentity),
    ("language", .string (value source.language)),
    ("is_suspend", .bool source.isSuspend),
    ("is_static", .bool source.isStatic),
    ("result_type_arguments", .array (source.resultTypeArguments.map JvmTypeSource.manifest))
  ]

/-- `_constructor_manifest`. -/
def JvmConstructorSource.manifest (source : JvmConstructorSource) : Json :=
  .object [
    ("source", source.provenance.manifest),
    ("jvm_descriptor", .string source.jvmDescriptor),
    ("parameters", .array (source.parameters.map JvmParameterSource.manifest)),
    ("visibility", .string source.visibility),
    ("markers", source.intent.manifest),
    ("adapter_identity", .string source.adapterIdentity)
  ]

/-- `_owner_manifest`. -/
def JvmOwnerSource.manifest (owner : JvmOwnerSource) : Json :=
  .object [
    ("source", owner.provenance.manifest),
    ("language", .string (value owner.language)),
    ("owner_class", .string owner.ownerClass),
    ("source_name", .string owner.sourceName),
    ("form", .string (value owner.form)),
    ("visibility", .string owner.visibility),
    ("markers", owner.intent.manifest),
    ("constructors", .array ((sortedBy (·.provenance.declarationId) owner.constructors).map
      JvmConstructorSource.manifest)),
    ("declarations", .array ((sortedBy (·.provenance.declarationId) owner.declarations).map
      JvmDeclarationSource.manifest)),
    ("fields", .array (owner.fields.map JvmFieldSource.manifest)),
    ("enum_constants", .array (owner.enumConstants.map .string)),
    ("is_data", .bool owner.isData),
    ("is_record", .bool owner.isRecord),
    ("is_final", .bool owner.isFinal),
    ("type_parameter_count", .integer owner.typeParameterCount),
    ("supertypes", .array (owner.supertypes.map .string))
  ]

/-! ### Manifests -/

def jvmManifestSchemaVersion : String := "1.0"

def jvmManifestKind : String := "supernote_module_jvm_source_manifest"

structure JvmSourceManifest.Fields where
  featureId : String
  frontendVersion : String
  owners : List JvmOwnerSource
  schemaVersion : String := jvmManifestSchemaVersion

namespace JvmSourceManifest

variable (sha256 : List UInt8 → String)

/-- `_validate_identity`. -/
def validateIdentity (provenance : SourceProvenance) (adapterIdentity expected : String) :
    Except JvmManifestError Unit := do
  require (provenance.declarationId = expected)
    (.manifest "JVM declaration identity is not deterministic")
  require (adapterIdentity = jvmAdapterIdentity sha256 expected)
    (.manifest "JVM adapter identity is not deterministic")

def validateOwner (owner : JvmOwnerSource) : Except JvmManifestError Unit := do
  require (owner.provenance.declarationId = jvmOwnerIdentity owner.ownerClass)
    (.manifest "JVM owner identity is not deterministic")
  checkEach owner.constructors fun constructor =>
    validateIdentity sha256 constructor.provenance constructor.adapterIdentity
      (jvmDeclarationIdentity owner.ownerClass "<init>" constructor.jvmDescriptor)
  checkEach owner.declarations fun declaration =>
    validateIdentity sha256 declaration.provenance declaration.adapterIdentity
      (jvmDeclarationIdentity owner.ownerClass declaration.jvmName declaration.jvmDescriptor)
  checkEach owner.fields fun field => do
    require (field.provenance.declarationId = jvmFieldIdentity owner.ownerClass field.name)
      (.manifest "JVM field identity is not deterministic")
    require (field.accessorIdentity = jvmFieldAccessorIdentity sha256
        (jvmFieldIdentity owner.ownerClass field.name))
      (.manifest "JVM field accessor identity is not deterministic")

def Fields.postInit (manifest : Fields) : Except JvmManifestError Unit := do
  require (manifest.schemaVersion = jvmManifestSchemaVersion)
    (.manifest (s!"incompatible JVM manifest schema {manifest.schemaVersion}; " ++
      s!"expected {jvmManifestSchemaVersion}"))
  require (startsWith manifest.featureId "supernote:feature:")
    (.manifest "JVM manifest feature identity is invalid")
  require (manifest.frontendVersion ≠ "") (.manifest "JVM frontend version cannot be empty")
  require (manifest.owners.map (·.provenance.declarationId)).Nodup
    (.manifest "duplicate JVM owner declaration identity")
  checkEach manifest.owners (validateOwner sha256)

end JvmSourceManifest

/-- The owners of one feature. -/
structure JvmSourceManifest (sha256 : List UInt8 → String) extends JvmSourceManifest.Fields where
  valid : toFields.postInit sha256 = .ok ()

namespace JvmSourceManifest

variable {sha256 : List UInt8 → String}

def make (manifest : Fields) : Except JvmManifestError (JvmSourceManifest sha256) :=
  verified (manifest.postInit sha256) fun hvalid => { manifest with valid := hvalid }

def manifest (source : JvmSourceManifest sha256) : Json :=
  .object [
    ("schema_version", .string source.schemaVersion),
    ("kind", .string jvmManifestKind),
    ("feature_id", .string source.featureId),
    ("frontend_version", .string source.frontendVersion),
    ("owners", .array ((sortedBy (·.provenance.declarationId) source.owners).map
      JvmOwnerSource.manifest))
  ]

/-- `json.dumps(self.manifest(), indent=2, sort_keys=True) + "\n"`. -/
def json (floatRepr : Rat → String) (source : JvmSourceManifest sha256) : String :=
  String.ofList (Json.render floatRepr 0 source.manifest ++ Json.newline 0)

end JvmSourceManifest

/-! ### Reading -/

def jvmKeys (fields : Fields) (expected : List String) (label : String) :
    Except JvmManifestError Unit :=
  require (hasExactly fields expected) (.manifest (fieldsProblem fields expected label))

def jvmObject (raw : Json) (label : String) : Except JvmManifestError Fields :=
  match raw with
  | .object fields => .ok fields
  | _ => .error (.manifest s!"{label} must be an object")

def jvmList (raw : Json) (label : String) : Except JvmManifestError (List Json) :=
  match raw with
  | .array items => .ok items
  | _ => .error (.manifest s!"{label} must be an array")

def jvmString (raw : Json) (label : String) : Except JvmManifestError String :=
  match raw with
  | .string text =>
      if text ≠ "" then .ok text else .error (.manifest s!"{label} must be a non-empty string")
  | _ => .error (.manifest s!"{label} must be a non-empty string")

def jvmInteger (raw : Json) (label : String) : Except JvmManifestError Int :=
  match raw with
  | .integer number => .ok number
  | _ => .error (.manifest s!"{label} must be an integer")

def jvmBool (raw : Json) (label : String) : Except JvmManifestError Bool :=
  match raw with
  | .bool flag => .ok flag
  | _ => .error (.manifest s!"{label} must be a boolean")

/-- `_enum(Class, raw, label)`. -/
def jvmMember {Member : Type} [Enumeration Member] (raw : Json) (label : String) :
    Except JvmManifestError Member := do
  let text ← jvmString raw label
  (memberOf text).mapError fun _ =>
    .manifest s!"{label} has unsupported value {Python.repr text}"

/-- `tuple(step(item, f"{label}[{index}]") for index, item in enumerate(_list(raw, label)))`. -/
def jvmItems {Item : Type} (step : Json → String → Except JvmManifestError Item) (raw : Json)
    (label : String) : Except JvmManifestError (List Item) := do
  let items ← jvmList raw label
  enumerate (fun item index => step item s!"{label}[{index}]") 0 items

mutual

/-- `_parse_type`. -/
def parseType : Json → String → Except JvmManifestError JvmTypeSource
  | .object fields, label => do
      jvmKeys fields ["jvm_type", "nullable", "arguments"] label
      let jvmType ← jvmString (get fields "jvm_type") s!"{label}.jvm_type"
      let nullable ← jvmBool (get fields "nullable") s!"{label}.nullable"
      let arguments ← parseTypesAt fields "arguments" s!"{label}.arguments"
      return .mk jvmType nullable arguments
  | _, label => .error (.manifest s!"{label} must be an object")

/-- The types in the list under a key. -/
def parseTypesAt : Fields → String → String → Except JvmManifestError (List JvmTypeSource)
  | [], _, label => .error (.manifest s!"{label} must be an array")
  | (name, raw) :: fields, key, label =>
      if key = name then parseTypes raw label else parseTypesAt fields key label

def parseTypes : Json → String → Except JvmManifestError (List JvmTypeSource)
  | .array items, label => parseTypesFrom items 0 label
  | _, label => .error (.manifest s!"{label} must be an array")

def parseTypesFrom : List Json → Nat → String → Except JvmManifestError (List JvmTypeSource)
  | [], _, _ => .ok []
  | item :: items, index, label => do
      let type ← parseType item s!"{label}[{index}]"
      let types ← parseTypesFrom items (index + 1) label
      return type :: types

end

def parseParameter (raw : Json) (label : String) : Except JvmManifestError JvmParameterSource := do
  let fields ← jvmObject raw label
  jvmKeys fields ["jvm_type", "name", "nullable", "injected", "type_arguments"] label
  let injected ← parseInjected (get fields "injected") s!"{label}.injected"
  let jvmType ← jvmString (get fields "jvm_type") s!"{label}.jvm_type"
  let name ← jvmString (get fields "name") s!"{label}.name"
  let nullable ← jvmBool (get fields "nullable") s!"{label}.nullable"
  let typeArguments ←
    jvmItems parseType (get fields "type_arguments") s!"{label}.type_arguments"
  return { jvmType, name, nullable, injected, typeArguments }
where
  /-- `None if raw is None else _enum(JvmInjectedDependency, raw, label)`. -/
  parseInjected (raw : Json) (label : String) :
      Except JvmManifestError (Option JvmInjectedDependency) :=
    match raw with
    | .null => .ok none
    | raw => (jvmMember raw label).map some

def parseMarker (raw : Json) (label : String) : Except JvmManifestError MarkerOccurrence := do
  let fields ← jvmObject raw label
  jvmKeys fields ["name", "line", "column"] label
  let marker ← jvmMember (get fields "name") s!"{label}.name"
  let line ← jvmInteger (get fields "line") s!"{label}.line"
  let column ← jvmInteger (get fields "column") s!"{label}.column"
  let ⟨hpositive⟩ ← certify <| require (1 ≤ line ∧ 1 ≤ column)
    (JvmManifestError.source (.source "marker line and column must be positive"))
  return { marker, line, column, positive := require_eq_ok.mp hpositive }

/-- `_parse_intent`. -/
def parseIntent (raw : Json) (target : DeclarationTarget) (label : String) :
    Except JvmManifestError SourceIntent := do
  let occurrences ← jvmItems parseMarker raw label
  labelled label (sourced (SourceIntent.make { target, occurrences }))

/-- `_parse_provenance`. -/
def parseProvenance (raw : Json) (label : String) : Except JvmManifestError SourceProvenance := do
  let fields ← jvmObject raw label
  jvmKeys fields ["declaration_id", "language", "path", "line", "column"] label
  labelled label do
    let declarationId ← jvmString (get fields "declaration_id") s!"{label}.declaration_id"
    let language ← jvmString (get fields "language") s!"{label}.language"
    let path ← jvmString (get fields "path") s!"{label}.path"
    let line ← jvmInteger (get fields "line") s!"{label}.line"
    let column ← jvmInteger (get fields "column") s!"{label}.column"
    sourced (semantically (SourceProvenance.make { declarationId, language, path, line, column }))

section Owners

variable (sha256 : List UInt8 → String)

/-- `_verify_declaration_identity`. -/
def verifyDeclarationIdentity (fields : Fields) (provenance : SourceProvenance)
    (expected label : String) : Except JvmManifestError Unit := do
  require (provenance.declarationId = expected)
    (.manifest s!"{label}.source declaration identity is not deterministic")
  let adapter ← jvmString (get fields "adapter_identity") s!"{label}.adapter_identity"
  require (adapter = jvmAdapterIdentity sha256 expected)
    (.manifest s!"{label}.adapter_identity is not deterministic")

/-- `_parse_constructor`. -/
def parseConstructor (ownerClass : String) (raw : Json) (label : String) :
    Except JvmManifestError JvmConstructorSource := do
  let fields ← jvmObject raw label
  jvmKeys fields
    ["source", "jvm_descriptor", "parameters", "visibility", "markers", "adapter_identity"] label
  let descriptor ← jvmString (get fields "jvm_descriptor") s!"{label}.jvm_descriptor"
  let provenance ← parseProvenance (get fields "source") s!"{label}.source"
  let expected := jvmDeclarationIdentity ownerClass "<init>" descriptor
  verifyDeclarationIdentity sha256 fields provenance expected label
  let parameters ← jvmItems parseParameter (get fields "parameters") s!"{label}.parameters"
  let visibility ← jvmString (get fields "visibility") s!"{label}.visibility"
  let intent ← parseIntent (get fields "markers") .constructor s!"{label}.markers"
  let adapterIdentity ← jvmString (get fields "adapter_identity") s!"{label}.adapter_identity"
  sourced (JvmConstructorSource.make provenance descriptor parameters visibility intent
    adapterIdentity)

/-- `_parse_declaration`. -/
def parseDeclaration (language : JvmLanguage) (ownerClass ownerId : String)
    (target : DeclarationTarget) (raw : Json) (label : String) :
    Except JvmManifestError JvmDeclarationSource := do
  let fields ← jvmObject raw label
  jvmKeys fields
    ["source", "owner_declaration_id", "owner_class", "jvm_name", "jvm_descriptor", "parameters",
      "result_jvm_type", "result_nullable", "markers", "visibility", "adapter_identity",
      "language", "is_suspend", "is_static", "result_type_arguments"] label
  let manifestLanguage ← jvmMember (get fields "language") s!"{label}.language"
  require (manifestLanguage = language) (.manifest s!"{label}.language does not match owner")
  let manifestClass ← jvmString (get fields "owner_class") s!"{label}.owner_class"
  require (manifestClass = ownerClass) (.manifest s!"{label}.owner_class does not match owner")
  let manifestOwner ←
    jvmString (get fields "owner_declaration_id") s!"{label}.owner_declaration_id"
  require (manifestOwner = ownerId)
    (.manifest s!"{label}.owner_declaration_id does not match owner")
  let name ← jvmString (get fields "jvm_name") s!"{label}.jvm_name"
  let descriptor ← jvmString (get fields "jvm_descriptor") s!"{label}.jvm_descriptor"
  let provenance ← parseProvenance (get fields "source") s!"{label}.source"
  let expected := jvmDeclarationIdentity ownerClass name descriptor
  verifyDeclarationIdentity sha256 fields provenance expected label
  let parameters ← jvmItems parseParameter (get fields "parameters") s!"{label}.parameters"
  let resultJvmType ← jvmString (get fields "result_jvm_type") s!"{label}.result_jvm_type"
  let resultNullable ← jvmBool (get fields "result_nullable") s!"{label}.result_nullable"
  let intent ← parseIntent (get fields "markers") target s!"{label}.markers"
  let visibility ← jvmString (get fields "visibility") s!"{label}.visibility"
  let adapterIdentity ← jvmString (get fields "adapter_identity") s!"{label}.adapter_identity"
  let isSuspend ← jvmBool (get fields "is_suspend") s!"{label}.is_suspend"
  let isStatic ← jvmBool (get fields "is_static") s!"{label}.is_static"
  let resultTypeArguments ←
    jvmItems parseType (get fields "result_type_arguments") s!"{label}.result_type_arguments"
  sourced (JvmDeclarationSource.make provenance ownerId ownerClass name descriptor parameters
    resultJvmType resultNullable intent visibility adapterIdentity language isSuspend isStatic
    resultTypeArguments)

/-- `_parse_field`. -/
def parseField (ownerId : String) (raw : Json) (label : String) :
    Except JvmManifestError JvmFieldSource := do
  let fields ← jvmObject raw label
  jvmKeys fields
    ["source", "owner_declaration_id", "name", "type", "markers", "visibility", "mutable",
      "is_static", "accessor_identity"] label
  let manifestOwner ←
    jvmString (get fields "owner_declaration_id") s!"{label}.owner_declaration_id"
  require (manifestOwner = ownerId)
    (.manifest s!"{label}.owner_declaration_id does not match owner")
  let provenance ← parseProvenance (get fields "source") s!"{label}.source"
  let name ← jvmString (get fields "name") s!"{label}.name"
  let type ← parseType (get fields "type") s!"{label}.type"
  let intent ← parseIntent (get fields "markers") .field s!"{label}.markers"
  let visibility ← jvmString (get fields "visibility") s!"{label}.visibility"
  let mutable ← jvmBool (get fields "mutable") s!"{label}.mutable"
  let isStatic ← jvmBool (get fields "is_static") s!"{label}.is_static"
  let accessorIdentity ← jvmString (get fields "accessor_identity") s!"{label}.accessor_identity"
  sourced (JvmFieldSource.make provenance ownerId name type intent visibility mutable isStatic
    accessorIdentity)

/-- What the members of an owner are declared as. -/
def memberTarget (intent : SourceIntent) : DeclarationTarget :=
  if intent.markers = [] then .function else .method

/-- `_parse_owner`. -/
def parseOwner (raw : Json) (label : String) : Except JvmManifestError JvmOwnerSource := do
  let fields ← jvmObject raw label
  jvmKeys fields
    ["source", "language", "owner_class", "source_name", "form", "markers", "constructors",
      "declarations", "visibility", "fields", "enum_constants", "is_data", "is_record", "is_final",
      "type_parameter_count", "supertypes"] label
  let language ← jvmMember (get fields "language") s!"{label}.language"
  let ownerClass ← jvmString (get fields "owner_class") s!"{label}.owner_class"
  let provenance ← parseProvenance (get fields "source") s!"{label}.source"
  require (provenance.declarationId = jvmOwnerIdentity ownerClass)
    (.manifest (s!"{label}.source declaration identity is not the deterministic JVM owner " ++
      "identity"))
  require (provenance.language = value language)
    (.manifest s!"{label}.source language does not match owner language")
  let ownerId := provenance.declarationId
  let intent ← parseIntent (get fields "markers") .class_ s!"{label}.markers"
  let sourceName ← jvmString (get fields "source_name") s!"{label}.source_name"
  let form ← jvmMember (get fields "form") s!"{label}.form"
  let constructors ← jvmItems (parseConstructor sha256 ownerClass) (get fields "constructors")
    s!"{label}.constructors"
  let declarations ←
    jvmItems (parseDeclaration sha256 language ownerClass ownerId (memberTarget intent))
      (get fields "declarations") s!"{label}.declarations"
  let visibility ← jvmString (get fields "visibility") s!"{label}.visibility"
  let members ← jvmItems (parseField ownerId) (get fields "fields") s!"{label}.fields"
  let enumConstants ← jvmItems jvmString (get fields "enum_constants") s!"{label}.enum_constants"
  let isData ← jvmBool (get fields "is_data") s!"{label}.is_data"
  let isRecord ← jvmBool (get fields "is_record") s!"{label}.is_record"
  let isFinal ← jvmBool (get fields "is_final") s!"{label}.is_final"
  let count ← jvmInteger (get fields "type_parameter_count") s!"{label}.type_parameter_count"
  let supertypes ← jvmItems jvmString (get fields "supertypes") s!"{label}.supertypes"
  let owner ← sourced <| JvmOwnerSource.make
    { provenance, language, ownerClass, sourceName, form, intent, constructors, declarations,
      visibility, fields := members, enumConstants, isData, isRecord, isFinal,
      typeParameterCount := count.toNat, supertypes }
  -- The last of the checks of an owner: its record has no room for a negative number.
  require (0 ≤ count) (.source (.source "JVM type parameter count cannot be negative"))
  return owner

/-- The manifest in a decoded value. -/
def parseManifest (raw : Json) (expectedFeatureId : Option String) :
    Except JvmManifestError (JvmSourceManifest sha256) := do
  let fields ← jvmObject raw "manifest"
  jvmKeys fields ["schema_version", "kind", "feature_id", "frontend_version", "owners"] "manifest"
  let schemaVersion ← parseSchema (get fields "schema_version")
  let kind ← jvmString (get fields "kind") "kind"
  require (kind = jvmManifestKind) (.manifest "JVM manifest kind is invalid")
  let featureId ← jvmString (get fields "feature_id") "feature_id"
  require (∀ expected ∈ expectedFeatureId, featureId = expected)
    (.manifest (s!"JVM manifest belongs to {Python.repr featureId}, expected " ++
      s!"{Python.repr (expectedFeatureId.getD featureId)}"))
  let ownersRaw ← jvmList (get fields "owners") "owners"
  let frontendVersion ← jvmString (get fields "frontend_version") "frontend_version"
  let owners ← jvmItems (parseOwner sha256) (.array ownersRaw) "owners"
  JvmSourceManifest.make { featureId, frontendVersion, owners, schemaVersion }
where
  parseSchema : Json → Except JvmManifestError String
    | .string schema => do
        require (schema ≠ "")
          (.manifest (s!"incompatible JVM manifest schema {Python.repr schema}; " ++
            s!"expected {jvmManifestSchemaVersion}"))
        require (schema = jvmManifestSchemaVersion)
          (.manifest (s!"incompatible JVM manifest schema {schema}; " ++
            s!"expected {jvmManifestSchemaVersion}"))
        return schema
    | raw =>
        .error (.manifest (s!"incompatible JVM manifest schema {raw.shown}; " ++
          s!"expected {jvmManifestSchemaVersion}"))

/-- `if str(exc).startswith(str(path)): raise`, and the path in front of the error otherwise. -/
def located (path : String) : JvmManifestError → JvmManifestError
  | .manifest message =>
      if startsWith message path then .manifest message else .manifest s!"{path}: {message}"
  | error => error

/-- `content.decode("utf-8")`. -/
def decodeUtf8 (content : List UInt8) : Option String :=
  String.fromUTF8? ⟨content.toArray⟩

/-- `read_jvm_manifest`, on the content of the file. -/
def readJvmManifest (parseFloat : List Char → Json) (path : String) (content : List UInt8)
    (expectedFeatureId : Option String) : Except JvmManifestError (JvmSourceManifest sha256) := do
  let text ← demand (decodeUtf8 content) (.unreadable path)
  let raw ← demand (Json.loads parseFloat text.toList) (.unreadable path)
  (parseManifest sha256 raw expectedFeatureId).mapError (located path)

end Owners

end SupernoteModule.Frontend
