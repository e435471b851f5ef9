import SupernoteModule.Frontend.JvmManifest

/-!
# Defects of a JVM manifest

The records of a source check themselves when they are built. Most of what these checks refuse has
been refused by the reader before. Here is what is left: the places of a manifest that the reader
takes, and that a record refuses then.
-/

namespace SupernoteModule.Frontend

open SupernoteModule.Lib SupernoteModule.Python SupernoteModule.Semantic
open SupernoteModule.Python.Json (Fields get hasExactly)

/-- Reading a file ends with what is in it, or with an error of the manifest that starts with the
path of the file. -/
inductive NamesFile {Item : Type} (path : String) : Except JvmManifestError Item → Prop
  | read (item : Item) : NamesFile path (.ok item)
  | refused {message : String} (hmessage : startsWith message path = true) :
      NamesFile path (.error (.manifest message))
  | unreadable : NamesFile path (.error (.unreadable path))

section Items

variable {Item : Type} (step : Json → String → Except JvmManifestError Item)
  (Defect : Json → String → Prop)

/-- An item has a defect, and all items before it are read. -/
def FirstDefect : List Json → Nat → String → Prop
  | [], _, _ => False
  | item :: items, index, label =>
      Defect item s!"{label}[{index}]" ∨
        (∃ value, step item s!"{label}[{index}]" = .ok value) ∧
          FirstDefect items (index + 1) label

def ItemsDefect (raw : Json) (label : String) : Prop :=
  ∃ items, raw = .array items ∧ FirstDefect step Defect items 0 label

end Items

/-- A marker in front of the first line, or in front of the first column. -/
inductive MarkerDefect (raw : Json) (label : String) : Prop
  | place {fields : Fields} {marker : SupernoteMarker} {line column : Int}
      (hraw : raw = .object fields) (hkeys : hasExactly fields ["name", "line", "column"] = true)
      (hmarker : jvmMember (get fields "name") s!"{label}.name" = .ok marker)
      (hline : get fields "line" = .integer line)
      (hcolumn : get fields "column" = .integer column) (hplace : line < 1 ∨ column < 1)

def IntentDefect (raw : Json) (label : String) : Prop :=
  ItemsDefect parseMarker MarkerDefect raw label

section Records

variable (sha256 : List UInt8 → String)

/-- What is read of a constructor before its markers. -/
structure ConstructorHead (ownerClass : String) (fields : Fields) (label : String) : Prop where
  keys : hasExactly fields ["source", "jvm_descriptor", "parameters", "visibility", "markers",
    "adapter_identity"] = true
  identity : ∃ descriptor provenance,
    jvmString (get fields "jvm_descriptor") s!"{label}.jvm_descriptor" = .ok descriptor ∧
      parseProvenance (get fields "source") s!"{label}.source" = .ok provenance ∧
      verifyDeclarationIdentity sha256 fields provenance
        (jvmDeclarationIdentity ownerClass "<init>" descriptor) label = .ok ()
  parameters : ∃ parameters,
    jvmItems parseParameter (get fields "parameters") s!"{label}.parameters" = .ok parameters
  visibility : ∃ visibility,
    jvmString (get fields "visibility") s!"{label}.visibility" = .ok visibility

inductive ConstructorDefect (ownerClass : String) (raw : Json) (label : String) : Prop
  | markers {fields : Fields} (hraw : raw = .object fields)
      (hhead : ConstructorHead sha256 ownerClass fields label)
      (hmarkers : IntentDefect (get fields "markers") s!"{label}.markers")

/-- What is read of a declaration before its markers. -/
structure DeclarationHead (language : JvmLanguage) (ownerClass ownerId : String) (fields : Fields)
    (label : String) (parameters : List JvmParameterSource) : Prop where
  keys : hasExactly fields ["source", "owner_declaration_id", "owner_class", "jvm_name",
    "jvm_descriptor", "parameters", "result_jvm_type", "result_nullable", "markers", "visibility",
    "adapter_identity", "language", "is_suspend", "is_static", "result_type_arguments"] = true
  sameLanguage : jvmMember (get fields "language") s!"{label}.language" = .ok language
  sameClass : jvmString (get fields "owner_class") s!"{label}.owner_class" = .ok ownerClass
  sameOwner : jvmString (get fields "owner_declaration_id") s!"{label}.owner_declaration_id" =
    .ok ownerId
  identity : ∃ name descriptor provenance,
    jvmString (get fields "jvm_name") s!"{label}.jvm_name" = .ok name ∧
      jvmString (get fields "jvm_descriptor") s!"{label}.jvm_descriptor" = .ok descriptor ∧
      parseProvenance (get fields "source") s!"{label}.source" = .ok provenance ∧
      verifyDeclarationIdentity sha256 fields provenance
        (jvmDeclarationIdentity ownerClass name descriptor) label = .ok ()
  takes : jvmItems parseParameter (get fields "parameters") s!"{label}.parameters" =
    .ok parameters
  result : ∃ type nullable,
    jvmString (get fields "result_jvm_type") s!"{label}.result_jvm_type" = .ok type ∧
      jvmBool (get fields "result_nullable") s!"{label}.result_nullable" = .ok nullable

/-- What is read of a declaration behind its markers. -/
structure DeclarationTail (fields : Fields) (label : String) (isSuspend : Bool) : Prop where
  visibility : ∃ visibility,
    jvmString (get fields "visibility") s!"{label}.visibility" = .ok visibility
  adapter : ∃ adapter,
    jvmString (get fields "adapter_identity") s!"{label}.adapter_identity" = .ok adapter
  suspends : jvmBool (get fields "is_suspend") s!"{label}.is_suspend" = .ok isSuspend
  static : ∃ isStatic, jvmBool (get fields "is_static") s!"{label}.is_static" = .ok isStatic
  arguments : ∃ arguments,
    jvmItems parseType (get fields "result_type_arguments") s!"{label}.result_type_arguments" =
      .ok arguments

/-- A suspending declaration that is not asynchronous Kotlin, or a parameter that is injected. -/
def DeclarationBroken (language : JvmLanguage) (isSuspend : Bool) (intent : SourceIntent)
    (parameters : List JvmParameterSource) : Prop :=
  isSuspend = true ∧ (language ≠ .kotlin ∨ intent.execution ≠ .async) ∨
    ∃ parameter ∈ parameters, parameter.injected ≠ none

inductive DeclarationDefect (language : JvmLanguage) (ownerClass ownerId : String)
    (target : DeclarationTarget) (raw : Json) (label : String) : Prop
  | markers {fields : Fields} {parameters : List JvmParameterSource} (hraw : raw = .object fields)
      (hhead : DeclarationHead sha256 language ownerClass ownerId fields label parameters)
      (hmarkers : IntentDefect (get fields "markers") s!"{label}.markers")
  | record {fields : Fields} {parameters : List JvmParameterSource} {intent : SourceIntent}
      {isSuspend : Bool} (hraw : raw = .object fields)
      (hhead : DeclarationHead sha256 language ownerClass ownerId fields label parameters)
      (hintent : parseIntent (get fields "markers") target s!"{label}.markers" = .ok intent)
      (htail : DeclarationTail fields label isSuspend)
      (hbroken : DeclarationBroken language isSuspend intent parameters)

/-- What is read of a field before its markers. -/
structure FieldHead (ownerId : String) (fields : Fields) (label : String) : Prop where
  keys : hasExactly fields ["source", "owner_declaration_id", "name", "type", "markers",
    "visibility", "mutable", "is_static", "accessor_identity"] = true
  sameOwner : jvmString (get fields "owner_declaration_id") s!"{label}.owner_declaration_id" =
    .ok ownerId
  source : ∃ provenance,
    parseProvenance (get fields "source") s!"{label}.source" = .ok provenance
  name : ∃ name, jvmString (get fields "name") s!"{label}.name" = .ok name
  type : ∃ type, parseType (get fields "type") s!"{label}.type" = .ok type

inductive FieldDefect (ownerId : String) (raw : Json) (label : String) : Prop
  | markers {fields : Fields} (hraw : raw = .object fields)
      (hhead : FieldHead ownerId fields label)
      (hmarkers : IntentDefect (get fields "markers") s!"{label}.markers")

/-- What is read of an owner before its markers. -/
structure OwnerHead (fields : Fields) (label : String) (language : JvmLanguage)
    (ownerClass : String) (provenance : SourceProvenance) : Prop where
  keys : hasExactly fields ["source", "language", "owner_class", "source_name", "form", "markers",
    "constructors", "declarations", "visibility", "fields", "enum_constants", "is_data",
    "is_record", "is_final", "type_parameter_count", "supertypes"] = true
  sameLanguage : jvmMember (get fields "language") s!"{label}.language" = .ok language
  sameClass : jvmString (get fields "owner_class") s!"{label}.owner_class" = .ok ownerClass
  source : parseProvenance (get fields "source") s!"{label}.source" = .ok provenance
  identity : provenance.declarationId = jvmOwnerIdentity ownerClass
  sourceLanguage : provenance.language = value language

/-- What is read of an owner before its members. -/
structure OwnerShape (fields : Fields) (label : String) (intent : SourceIntent)
    (form : JvmOwnerForm) : Prop where
  intent : parseIntent (get fields "markers") .class_ s!"{label}.markers" = .ok intent
  sourceName : ∃ name, jvmString (get fields "source_name") s!"{label}.source_name" = .ok name
  form : jvmMember (get fields "form") s!"{label}.form" = .ok form

/-- What is read of an owner behind its members. -/
structure OwnerTail (fields : Fields) (label : String) (count : Int) : Prop where
  constants : ∃ constants,
    jvmItems jvmString (get fields "enum_constants") s!"{label}.enum_constants" = .ok constants
  data : ∃ isData, jvmBool (get fields "is_data") s!"{label}.is_data" = .ok isData
  record : ∃ isRecord, jvmBool (get fields "is_record") s!"{label}.is_record" = .ok isRecord
  final : ∃ isFinal, jvmBool (get fields "is_final") s!"{label}.is_final" = .ok isFinal
  count : get fields "type_parameter_count" = .integer count
  supertypes : ∃ supertypes,
    jvmItems jvmString (get fields "supertypes") s!"{label}.supertypes" = .ok supertypes

/-- An owner whose form does not fit its language or its constructors, or whose constructors, fields
or number of type parameters do not fit the owner. -/
inductive OwnerBroken (language : JvmLanguage) (form : JvmOwnerForm)
    (constructors : List JvmConstructorSource) (members : List JvmFieldSource) (count : Int) : Prop
  | kotlinForm (hform : form = .kotlinObject ∨ form = .kotlinTopLevel)
      (hlanguage : language ≠ .kotlin)
  | javaForm (hform : form = .javaStatic) (hlanguage : language ≠ .java)
  | constructionFree (hform : form ≠ .class_) (hconstructors : constructors ≠ [])
  | constructorLanguage {constructor : JvmConstructorSource} (hmem : constructor ∈ constructors)
      (hlanguage : constructor.provenance.language ≠ value language)
  | injected {constructor : JvmConstructorSource} {parameter : JvmParameterSource}
      {dependency : JvmInjectedDependency} (hmem : constructor ∈ constructors)
      (hparameter : parameter ∈ constructor.parameters)
      (hdependency : parameter.injected = some dependency)
      (htype : parameter.jvmType ≠ value dependency)
  | fieldLanguage {member : JvmFieldSource} (hmem : member ∈ members)
      (hlanguage : member.provenance.language ≠ value language)
  | negative (hcount : count < 0)

inductive OwnerDefect (raw : Json) (label : String) : Prop
  | markers {fields : Fields} {language : JvmLanguage} {ownerClass : String}
      {provenance : SourceProvenance} (hraw : raw = .object fields)
      (hhead : OwnerHead fields label language ownerClass provenance)
      (hmarkers : IntentDefect (get fields "markers") s!"{label}.markers")
  | constructors {fields : Fields} {language : JvmLanguage} {ownerClass : String}
      {provenance : SourceProvenance} {intent : SourceIntent} {form : JvmOwnerForm}
      (hraw : raw = .object fields)
      (hhead : OwnerHead fields label language ownerClass provenance)
      (hshape : OwnerShape fields label intent form)
      (hconstructors : ItemsDefect (parseConstructor sha256 ownerClass)
        (ConstructorDefect sha256 ownerClass) (get fields "constructors") s!"{label}.constructors")
  | declarations {fields : Fields} {language : JvmLanguage} {ownerClass : String}
      {provenance : SourceProvenance} {intent : SourceIntent} {form : JvmOwnerForm}
      {constructors : List JvmConstructorSource} (hraw : raw = .object fields)
      (hhead : OwnerHead fields label language ownerClass provenance)
      (hshape : OwnerShape fields label intent form)
      (hconstructors : jvmItems (parseConstructor sha256 ownerClass) (get fields "constructors")
        s!"{label}.constructors" = .ok constructors)
      (hdeclarations : ItemsDefect
        (parseDeclaration sha256 language ownerClass provenance.declarationId (memberTarget intent))
        (DeclarationDefect sha256 language ownerClass provenance.declarationId
          (memberTarget intent))
        (get fields "declarations") s!"{label}.declarations")
  | members {fields : Fields} {language : JvmLanguage} {ownerClass visibility : String}
      {provenance : SourceProvenance} {intent : SourceIntent} {form : JvmOwnerForm}
      {constructors : List JvmConstructorSource} {declarations : List JvmDeclarationSource}
      (hraw : raw = .object fields)
      (hhead : OwnerHead fields label language ownerClass provenance)
      (hshape : OwnerShape fields label intent form)
      (hconstructors : jvmItems (parseConstructor sha256 ownerClass) (get fields "constructors")
        s!"{label}.constructors" = .ok constructors)
      (hdeclarations : jvmItems (parseDeclaration sha256 language ownerClass
          provenance.declarationId (memberTarget intent))
        (get fields "declarations") s!"{label}.declarations" = .ok declarations)
      (hvisibility : jvmString (get fields "visibility") s!"{label}.visibility" = .ok visibility)
      (hmembers : ItemsDefect (parseField provenance.declarationId)
        (FieldDefect provenance.declarationId) (get fields "fields") s!"{label}.fields")
  | record {fields : Fields} {language : JvmLanguage} {ownerClass visibility : String}
      {provenance : SourceProvenance} {intent : SourceIntent} {form : JvmOwnerForm}
      {constructors : List JvmConstructorSource} {declarations : List JvmDeclarationSource}
      {members : List JvmFieldSource} {count : Int} (hraw : raw = .object fields)
      (hhead : OwnerHead fields label language ownerClass provenance)
      (hshape : OwnerShape fields label intent form)
      (hconstructors : jvmItems (parseConstructor sha256 ownerClass) (get fields "constructors")
        s!"{label}.constructors" = .ok constructors)
      (hdeclarations : jvmItems (parseDeclaration sha256 language ownerClass
          provenance.declarationId (memberTarget intent))
        (get fields "declarations") s!"{label}.declarations" = .ok declarations)
      (hvisibility : jvmString (get fields "visibility") s!"{label}.visibility" = .ok visibility)
      (hmembers : jvmItems (parseField provenance.declarationId) (get fields "fields")
        s!"{label}.fields" = .ok members)
      (htail : OwnerTail fields label count)
      (hbroken : OwnerBroken language form constructors members count)

/-- What is read of a manifest before its owners. -/
structure ManifestHead (fields : Fields) (expectedFeatureId : Option String) : Prop where
  keys : hasExactly fields
    ["schema_version", "kind", "feature_id", "frontend_version", "owners"] = true
  schema : get fields "schema_version" = .string jvmManifestSchemaVersion
  kind : get fields "kind" = .string jvmManifestKind
  feature : ∃ featureId, jvmString (get fields "feature_id") "feature_id" = .ok featureId ∧
    ∀ expected ∈ expectedFeatureId, featureId = expected
  frontend : ∃ version, jvmString (get fields "frontend_version") "frontend_version" = .ok version

/-- The first thing that is wrong with a file is a record that refuses what the reader has taken. -/
inductive FileDefect (parseFloat : List Char → Json) (content : List UInt8)
    (expectedFeatureId : Option String) : Prop
  | owners {text : String} {fields : Fields} (htext : decodeUtf8 content = some text)
      (hraw : Json.loads parseFloat text.toList = some (.object fields))
      (hhead : ManifestHead fields expectedFeatureId)
      (howners : ItemsDefect (parseOwner sha256) (OwnerDefect sha256) (get fields "owners")
        "owners")

end Records

end SupernoteModule.Frontend
