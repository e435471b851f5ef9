import SupernoteModule.Frontend.JvmManifest

/-!
# The symbol processor

What the compiler plugin knows of the marked declarations of a feature, and the manifest it writes
of it with a JSON writer of its own. Types, parameters, markers and sources carry the same data on
both sides of the manifest.
-/

namespace SupernoteModule.Frontend

open SupernoteModule.Python SupernoteModule.Semantic
open SupernoteModule.Generation (utf8)
open SupernoteModule.Python.Json (Fields)

/-! ### Facts -/

structure ConstructorFact where
  declarationId : String
  descriptor : String
  parameters : List JvmParameterSource
  visibility : String
  markers : List MarkerOccurrence
  adapterIdentity : String
  source : SourceProvenance

structure DeclarationFact where
  declarationId : String
  ownerDeclarationId : String
  ownerClass : String
  name : String
  descriptor : String
  parameters : List JvmParameterSource
  result : String
  resultNullable : Bool
  markers : List MarkerOccurrence
  visibility : String
  adapterIdentity : String
  language : JvmLanguage
  suspend : Bool
  isStatic : Bool
  source : SourceProvenance
  resultArguments : List JvmTypeSource

structure FieldFact where
  declarationId : String
  ownerDeclarationId : String
  name : String
  type : JvmTypeSource
  markers : List MarkerOccurrence
  visibility : String
  mutable : Bool
  isStatic : Bool
  accessorIdentity : String
  source : SourceProvenance

structure OwnerFact where
  declarationId : String
  language : JvmLanguage
  ownerClass : String
  sourceName : String
  form : JvmOwnerForm
  visibility : String
  markers : List MarkerOccurrence
  source : SourceProvenance
  constructors : List ConstructorFact
  declarations : List DeclarationFact
  fields : List FieldFact
  enumConstants : List String
  isData : Bool
  isRecord : Bool
  isFinal : Bool
  typeParameterCount : Nat
  supertypes : List String

/-- The feature whose manifest is written, and the version of the generator the writer came from. -/
structure FeatureRoot where
  featureId : String
  generatorVersion : String
  featurePrefix : startsWith featureId "supernote:feature:" = true
  versioned : generatorVersion ≠ ""

/-! ### Identities -/

def ownerIdentity (owner : String) : String :=
  s!"jvm:{owner}"

def declarationIdentity (owner name descriptor : String) : String :=
  s!"jvm:{owner}#{name}{descriptor}"

def fieldIdentity (owner name : String) : String :=
  s!"jvm:{owner}#field:{name}"

section Hash

variable (sha256 : List UInt8 → String)

/-- The digest of a text, in hexadecimal. -/
def hash (value : String) : String :=
  sha256 (utf8 value)

def adapterIdentity (id : String) : String :=
  s!"supernote.jvm.adapter.{String.ofList ((hash sha256 id).toList.take 20)}"

def fieldAccessorIdentity (id : String) : String :=
  s!"supernote.jvm.field.{String.ofList ((hash sha256 id).toList.take 20)}"

end Hash

/-! ### The manifest -/

/-- `String.compareTo`, on UTF-16 code units. -/
def utf16 (char : Char) : List Nat :=
  let code := char.toNat
  if code < 0x10000 then [code]
  else [0xd800 + (code - 0x10000) / 0x400, 0xdc00 + (code - 0x10000) % 0x400]

def unitsUpTo : List Nat → List Nat → Bool
  | [], _ => true
  | _ :: _, [] => false
  | left :: lefts, right :: rights => left < right || (left == right && unitsUpTo lefts rights)

/-- `items.sortedBy { key(it) }`. -/
def sortedByText {Item : Type} (key : Item → String) (items : List Item) : List Item :=
  items.insertionSort fun left right =>
    unitsUpTo ((key left).toList.flatMap utf16) ((key right).toList.flatMap utf16)

def markerJson (marker : MarkerOccurrence) : Json :=
  .object [("name", .string (value marker.marker)), ("line", .integer marker.line),
    ("column", .integer marker.column)]

def sourceJson (source : SourceProvenance) : Json :=
  .object [("declaration_id", .string source.declarationId), ("language", .string source.language),
    ("path", .string source.path), ("line", .integer source.line),
    ("column", .integer source.column)]

mutual

def typeJson : JvmTypeSource → Json
  | .mk jvmType nullable arguments =>
      .object [("jvm_type", .string jvmType), ("nullable", .bool nullable),
        ("arguments", .array (typesJson arguments))]

def typesJson : List JvmTypeSource → List Json
  | [] => []
  | type :: types => typeJson type :: typesJson types

end

def parameterJson (parameter : JvmParameterSource) : Json :=
  .object [("jvm_type", .string parameter.jvmType), ("name", .string parameter.name),
    ("nullable", .bool parameter.nullable),
    ("injected", match parameter.injected with
      | some injected => .string (value injected)
      | none => .null),
    ("type_arguments", .array (typesJson parameter.typeArguments))]

def fieldJson (field : FieldFact) : Json :=
  .object [("source", sourceJson field.source),
    ("owner_declaration_id", .string field.ownerDeclarationId), ("name", .string field.name),
    ("type", typeJson field.type), ("markers", .array (field.markers.map markerJson)),
    ("visibility", .string field.visibility), ("mutable", .bool field.mutable),
    ("is_static", .bool field.isStatic), ("accessor_identity", .string field.accessorIdentity)]

def declarationJson (declaration : DeclarationFact) : Json :=
  .object [("source", sourceJson declaration.source),
    ("owner_declaration_id", .string declaration.ownerDeclarationId),
    ("owner_class", .string declaration.ownerClass), ("jvm_name", .string declaration.name),
    ("jvm_descriptor", .string declaration.descriptor),
    ("parameters", .array (declaration.parameters.map parameterJson)),
    ("result_jvm_type", .string declaration.result),
    ("result_nullable", .bool declaration.resultNullable),
    ("markers", .array (declaration.markers.map markerJson)),
    ("visibility", .string declaration.visibility),
    ("adapter_identity", .string declaration.adapterIdentity),
    ("language", .string (value declaration.language)), ("is_suspend", .bool declaration.suspend),
    ("is_static", .bool declaration.isStatic),
    ("result_type_arguments", .array (typesJson declaration.resultArguments))]

def constructorJson (constructor : ConstructorFact) : Json :=
  .object [("source", sourceJson constructor.source),
    ("jvm_descriptor", .string constructor.descriptor),
    ("parameters", .array (constructor.parameters.map parameterJson)),
    ("visibility", .string constructor.visibility),
    ("markers", .array (constructor.markers.map markerJson)),
    ("adapter_identity", .string constructor.adapterIdentity)]

def ownerJson (owner : OwnerFact) : Json :=
  .object [("source", sourceJson owner.source), ("language", .string (value owner.language)),
    ("owner_class", .string owner.ownerClass), ("source_name", .string owner.sourceName),
    ("form", .string (value owner.form)), ("visibility", .string owner.visibility),
    ("markers", .array (owner.markers.map markerJson)),
    ("constructors",
      .array ((sortedByText (·.declarationId) owner.constructors).map constructorJson)),
    ("declarations",
      .array ((sortedByText (·.declarationId) owner.declarations).map declarationJson)),
    ("fields", .array (owner.fields.map fieldJson)),
    ("enum_constants", .array (owner.enumConstants.map .string)),
    ("is_data", .bool owner.isData), ("is_record", .bool owner.isRecord),
    ("is_final", .bool owner.isFinal),
    ("type_parameter_count", .integer owner.typeParameterCount),
    ("supertypes", .array (owner.supertypes.map .string))]

def manifestFields (root : FeatureRoot) (owners : List OwnerFact) : Json :=
  .object [("schema_version", .string jvmManifestSchemaVersion),
    ("kind", .string jvmManifestKind), ("feature_id", .string root.featureId),
    ("frontend_version", .string root.generatorVersion),
    ("owners", .array (owners.map ownerJson))]

/-! ### The JSON writer of the processor -/

namespace ProcessorJson

/-- One character of a string. -/
def escape (char : Char) : List Char :=
  if char = backslash then [backslash, backslash]
  else if char = doubleQuote then [backslash, doubleQuote]
  else if char = '\n' then [backslash, 'n']
  else if char = '\r' then [backslash, 'r']
  else if char = '\t' then [backslash, 't']
  else [char]

def quoted (text : String) : List Char :=
  doubleQuote :: text.toList.flatMap escape ++ [doubleQuote]

mutual

/-- `json(value)`. A manifest has no fractions. -/
def json : Json → List Char
  | .null => "null".toList
  | .bool value => (toString value).toList
  | .integer value => (toString value).toList
  | .real _ => []
  | .string text => quoted text
  | .object fields =>
      Char.ofNat 0x7b :: [',', ' '].intercalate (jsonFields fields) ++ [Char.ofNat 0x7d]
  | .array items => '[' :: [',', ' '].intercalate (jsonItems items) ++ [']']

def jsonItems : List Json → List (List Char)
  | [] => []
  | item :: items => json item :: jsonItems items

def jsonFields : Fields → List (List Char)
  | [] => []
  | (key, value) :: fields => (quoted key ++ ':' :: json value) :: jsonFields fields

end

end ProcessorJson

/-- `manifestJson(root, owners)`. -/
def manifestJson (root : FeatureRoot) (owners : List OwnerFact) : String :=
  String.ofList (ProcessorJson.json (manifestFields root owners) ++ ['\n'])

end SupernoteModule.Frontend
